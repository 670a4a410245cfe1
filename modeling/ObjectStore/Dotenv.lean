import ObjectStore.Environment
import ObjectStore.Text.Alphanumeric
import ObjectStore.Text.Blank
import ObjectStore.Text.Utf8

/-!
# Files of variables

Lines `NAME=value` that set variables which are not set yet. A value may be quoted, go on over
several lines while a quote is open, and name other variables. Reading stops at the first line
that is none of this; the lines before it count.
-/

namespace ObjectStore.Dotenv

open Text

/-! ## Lines -/

/-- What a line end would interrupt. -/
inductive Pending
  | nothing
  | blank
  | escape
  | single
  | singleEscape
  | double
  | doubleEscape
  deriving Repr, DecidableEq

/-- What is pending after a character outside of quotes. -/
def Pending.opened (c : Char) (other : Pending) : Pending :=
  if c = '\\' then .escape
  else if c = '\x22' then .double
  else if c = '\x27' then .single
  else other

/-- What is pending after a character; none where a comment begins. -/
def Pending.after (c : Char) : Pending → Option Pending
  | .blank => if c = '#' then none else some (opened c .nothing)
  | .nothing =>
      if isBlank c && c != '\n' && c != '\r' then some .blank else some (opened c .nothing)
  | .escape => some .nothing
  | .double =>
      some (if c = '\\' then .doubleEscape else if c = '\x22' then .nothing else .double)
  | .doubleEscape => some .double
  | .single =>
      some (if c = '\\' then .singleEscape else if c = '\x27' then .nothing else .single)
  | .singleEscape => some .single

/-- The part of a line before a comment, and what is pending at its end. -/
def scanLine (p : Pending) : List Char → List Char × Option Pending
  | [] => ([], some p)
  | c :: r =>
      match p.after c with
      | none => ([], none)
      | some p =>
          let (kept, last) := scanLine p r
          (c :: kept, last)

/-- A line without its line end. -/
def chomp (line : List Char) : List Char :=
  match line.reverse with
  | '\n' :: '\r' :: r => r.reverse
  | '\n' :: r => r.reverse
  | _ => line

/-- Whole lines from lines of the file: a line that ends in the middle of something is continued
by the next one. -/
def wholeLines (p : Pending) (begun : List Char) : List (List Char) → List (List Char)
  | [] => []
  | line :: rest =>
      if ((begun ++ line).dropWhile isBlank).head? = some '#' then
        [] :: wholeLines .nothing [] rest
      else
        match scanLine p line with
        | (kept, none) => (begun ++ kept) :: wholeLines .nothing [] rest
        | (_, some .nothing) => chomp (begun ++ line) :: wholeLines .nothing [] rest
        | (_, some p) => wholeLines p (begun ++ line) rest

/-! ## Values -/

/-- Reading of the name of a variable inside of a value: without braces, or with them. The name
so far is in reverse order. -/
inductive Naming
  | bare (name : List Char)
  | braced (name : List Char)
  deriving Repr, DecidableEq

/-- A value that is being read; its text is in reverse order. -/
structure Reading where
  text : List Char := []
  single : Bool := false
  double : Bool := false
  escaped : Bool := false
  ended : Bool := false
  naming : Option Naming := none
  deriving Repr, DecidableEq

/-- The value of a variable that is named: of the environment, else of an earlier line. -/
def valueOf (env seen : Environment) (name : List Char) : List Char :=
  let name := String.ofList name.reverse
  (((env.tail? name).orElse fun _ => seen.get? name).getD "").toList

/-- Put text after what was read. -/
def Reading.put (r : Reading) (text : List Char) : Reading :=
  { r with text := text.reverse ++ r.text }

/-- Characters that an escape keeps. -/
def escapable : List Char := ['\\', '\x27', '\x22', '$', ' ']

/-- One character of a value; none where it is not allowed. A comment ends the value. -/
def Reading.step (env seen : Environment) (r : Reading) (c : Char) : Option Reading :=
  if r.escaped then
    if escapable.contains c then some { r.put [c] with escaped := false }
    else if c = 'n' then some { r.put ['\n'] with escaped := false }
    else none
  else if r.single then
    some (if c = '\x27' then { r with single := false } else r.put [c])
  else
    match r.naming with
    | some (.bare name) =>
        if Alphanumeric.isAlphanumeric c then some { r with naming := some (.bare (c :: name)) }
        else if c = '\x7b' ∧ name.isEmpty then some { r with naming := some (.braced []) }
        else
          let r := r.put (valueOf env seen name)
          some (if c = '$' then { r with naming := some (.bare []) }
            else { r.put [c] with naming := none })
    | some (.braced name) =>
        some (if c = '\x7d' then { r.put (valueOf env seen name) with naming := none }
          else { r with naming := some (.braced (c :: name)) })
    | none =>
        some (if c = '$' then { r with naming := some (.bare []) }
          else if r.double then
            if c = '\x22' then { r with double := false }
            else if c = '\\' then { r with escaped := true }
            else r.put [c]
          else if c = '\x27' then { r with single := true }
          else if c = '\x22' then { r with double := true }
          else if c = '\\' then { r with escaped := true }
          else if c = ' ' ∨ c = '\t' then { r with ended := true }
          else r.put [c])

/-- The characters of a value. After a blank only a comment may follow. -/
def Reading.run (env seen : Environment) (r : Reading) : List Char → Option Reading
  | [] => some r
  | c :: rest =>
      if r.ended then
        if c = ' ' ∨ c = '\t' then r.run env seen rest
        else if c = '#' then some r
        else none
      else (r.step env seen c).bind fun r => r.run env seen rest

/-- A value from its characters. -/
def value? (env seen : Environment) (cs : List Char) : Option String :=
  (Reading.run env seen {} cs).bind fun r =>
    if r.single || r.double then none
    else
      match r.naming with
      | none => some (String.ofList r.text.reverse)
      | some (.bare name) => some (String.ofList (r.put (valueOf env seen name)).text.reverse)
      | some (.braced _) => none

/-! ## Settings -/

/-- A character of a name. -/
def isNameChar (c : Char) : Bool := c.isAlphanum || c == '_' || c == '.'

/-- A name at the head of a text. -/
def name? (cs : List Char) : Option (String × List Char) :=
  match cs.head? with
  | none => none
  | some c =>
      if c.isAlpha || c == '_' then
        some (String.ofList (cs.takeWhile isNameChar), cs.dropWhile isNameChar)
      else none

/-- A name and what follows the equals sign after it; a word `export` may stand before it. -/
def assignment? (cs : List Char) : Option (String × List Char) := do
  let (name, rest) ← name? cs
  let rest := rest.dropWhile isBlank
  match rest with
  | '=' :: rest => return (name, rest)
  | _ =>
      if name = "export" then
        let (name, rest) ← name? rest
        match rest.dropWhile isBlank with
        | '=' :: rest => return (name, rest)
        | _ => none
      else none

/-- The variable and the value that a line sets, if it sets one; none when it is no such line. -/
def setting? (env seen : Environment) (line : List Char) : Option (Option (String × String)) :=
  let cs := stripList isBlank line
  match cs.head? with
  | none => some none
  | some c =>
      if c = '#' then some none
      else
        (assignment? cs).bind fun (name, rest) =>
          let rest := rest.dropWhile isBlank
          if rest.isEmpty || rest.head? == some '#' then some (some (name, ""))
          else (value? env seen rest).map fun value => some (name, value)

/-- Set the variables of lines, up to the first that is wrong. -/
def apply (env seen : Environment) : List (List Char) → Environment
  | [] => env
  | line :: rest =>
      match setting? env seen line with
      | none => env
      | some none => apply env seen rest
      | some (some (name, value)) =>
          apply (env.setMissing name value) (seen.set name value) rest

/-- The lines of a file, line ends included, up to the first that is not UTF-8. -/
def fileLines (begun : List UInt8) : List UInt8 → List (List Char)
  | [] =>
      if begun.isEmpty then []
      else
        match Utf8.decode begun.reverse with
        | .ok line => [line]
        | .error _ => []
  | b :: r =>
      if b = 0x0A then
        match Utf8.decode (b :: begun).reverse with
        | .ok line => line :: fileLines [] r
        | .error _ => []
      else fileLines (b :: begun) r

/-- An environment with the variables of a file. -/
def load (env : Environment) (file : List UInt8) : Environment :=
  let bytes :=
    match file with
    | 0xEF :: 0xBB :: 0xBF :: r => r
    | _ => file
  apply env {} (wholeLines .nothing [] (fileLines [] bytes))

/-- The words of a file that may be names of variables: those of letters and digits alone, and
those with other characters of names too. -/
def mentioned (file : List UInt8) : List String :=
  let isMark (isPart : UInt8 → Bool) (b : UInt8) : Option Char :=
    if isPart b then some (Char.ofNat b.toNat) else none
  let words (isPart : Char → Bool) : List String :=
    ((file.map (isMark fun b => isPart (Char.ofNat b.toNat))).splitBy fun a b =>
      a.isSome && b.isSome).map fun word => String.ofList (word.filterMap id)
  ((words Char.isAlphanum ++ words isNameChar).filter (!·.isEmpty)).eraseDups

end ObjectStore.Dotenv
