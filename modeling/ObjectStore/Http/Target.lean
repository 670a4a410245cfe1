import ObjectStore.Text.Utf8

/-!
# Request targets

What may stand in the target of a request line: a path with a query after the first question
mark, an authority alone, or a scheme, an authority and a path. A fragment is no part of it.
-/

namespace ObjectStore.Http

open Text

/-- A target by its parts. The path holds the query too; a path after an authority may be left
out, and a target without a scheme has either an authority or a path. -/
structure Target where
  scheme : Option String := none
  authority : String := ""
  path : String := ""
  deriving Repr, DecidableEq

namespace Target

/-- Why a text is no request target. -/
inductive Fault
  | empty
  | invalidCharacter
  | invalidAuthority
  | tooLong
  | schemeTooLong
  | invalidFormat
  deriving Repr, DecidableEq

/-- The wording of a fault. -/
def Fault.message : Fault → String
  | .empty => "empty string"
  | .invalidCharacter => "invalid uri character"
  | .invalidAuthority => "invalid authority"
  | .tooLong => "uri too long"
  | .schemeTooLong => "scheme too long"
  | .invalidFormat => "invalid format"

/-- The target as it is written; a path that is left out after an authority is the root. -/
def text (t : Target) : String :=
  match t.scheme with
  | none => t.authority ++ t.path
  | some scheme =>
      scheme ++ "://" ++ t.authority ++ (if t.path.toList.head? = some '/' then "" else "/")
        ++ t.path

/-! ## Paths -/

/-- A character of the path: no control character, blank, angle bracket or back quote. -/
def isPathChar (c : Char) : Bool :=
  let n := c.toNat
  0x20 < n && n != 0x3C && n != 0x3E && n != 0x60 && n != 0x7F

/-- A character of the query: no control character, blank, angle bracket or double quote. -/
def isQueryChar (c : Char) : Bool :=
  let n := c.toNat
  0x20 < n && n != 0x22 && n != 0x3C && n != 0x3E && n != 0x7F

/-- A path with its query, up to the first number sign. -/
def readPath (cs : List Char) : Except Fault String :=
  let kept := cs.takeWhile (· != '#')
  let path := kept.takeWhile (· != '?')
  if path.all isPathChar && (kept.drop path.length).all isQueryChar then
    .ok (String.ofList kept)
  else .error .invalidCharacter

/-! ## Schemes -/

/-- A character of a scheme. -/
def isSchemeChar (c : Char) : Bool := c.isAlphanum || c == '+' || c == '-' || c == '.' || c == '~'

/-- The greatest number of characters of a scheme. -/
def maxScheme : Nat := 64

/-- A scheme before a colon and two slashes, and what follows them. The two well known schemes
are in small letters whatever their case was. -/
def readScheme (cs : List Char) : Except Fault (Option String × List Char) :=
  let name := cs.takeWhile isSchemeChar
  match cs.drop name.length with
  | ':' :: '/' :: '/' :: rest =>
      let known := String.ofList (name.map Char.toLower)
      if name.isEmpty && rest.isEmpty then .ok (none, cs)
      else if maxScheme < name.length then .error .schemeTooLong
      else if known = "http" ∨ known = "https" then .ok (some known, rest)
      else .ok (some (String.ofList name), rest)
  | _ => .ok (none, cs)

/-! ## Authorities -/

/-- A character that may stand in an authority. -/
def isAuthorityChar (c : Char) : Bool := c.isAlphanum || "-._~!$&'()*+,;=:@[]".toList.contains c

/-- The most colons between two marks of an authority. -/
def maxColons : Nat := 8

/-- What is known of an authority: the colons and whether there was a percent sign since the
user information or the bracket, and the brackets of an address. -/
structure Authority where
  colons : Nat := 0
  percent : Bool := false
  opened : Bool := false
  closed : Bool := false

/-- One character of an authority. -/
def Authority.step (a : Authority) (c : Char) : Except Fault Authority :=
  if c = ':' then
    if maxColons ≤ a.colons then .error .invalidAuthority
    else .ok { a with colons := a.colons + 1 }
  else if c = '[' then
    if a.percent || a.opened then .error .invalidAuthority else .ok { a with opened := true }
  else if c = ']' then
    if !a.opened || a.closed then .error .invalidAuthority
    else .ok { a with closed := true, colons := 0, percent := false }
  else if c = '@' then .ok { a with colons := 0, percent := false }
  else if c = '%' then .ok { a with percent := true }
  else if isAuthorityChar c then .ok a
  else .error .invalidCharacter

/-- An authority, up to the path, the query or the fragment, and what follows it. Brackets come in
a pair, at most one colon stands before a port, something follows the user information, and only
that or an address in brackets has percent signs. -/
def readAuthority (cs : List Char) : Except Fault (List Char × List Char) := do
  let name := cs.takeWhile fun c => c != '/' && c != '?' && c != '#'
  let a ← name.foldlM Authority.step {}
  if a.opened != a.closed || 1 < a.colons || name.getLast? == some '@' || a.percent then
    throw .invalidAuthority
  return (name, cs.drop name.length)

/-! ## Targets -/

/-- The greatest number of bytes of a target. -/
def maxLength : Nat := 65534

/-- A target that does not begin with a slash. -/
def readFull (cs : List Char) : Except Fault Target := do
  let (scheme, rest) ← readScheme cs
  let (authority, rest) ← readAuthority rest
  match scheme with
  | none =>
      if !rest.isEmpty then throw .invalidFormat
      return { authority := String.ofList authority }
  | some scheme =>
      if authority.isEmpty then throw .invalidFormat
      return { scheme, authority := String.ofList authority, path := ← readPath rest }

/-- The target that a text is read as. -/
def parse (s : String) : Except Fault Target :=
  if s.isEmpty then .error .empty
  else if maxLength < (Utf8.ofText s).length then .error .tooLong
  else
    match s.toList with
    | '/' :: r => (readPath ('/' :: r)).map fun path => { path }
    | ['*'] => .ok { path := "*" }
    | ['?'] => .error .invalidCharacter
    | ['#'] => .error .invalidCharacter
    | cs => readFull cs

end Target

end ObjectStore.Http
