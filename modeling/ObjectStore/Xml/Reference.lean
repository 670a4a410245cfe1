import ObjectStore.Xml.Token

/-!
# References in text

Characters that markup takes for itself are written as references: five names, and the number
of any character in decimal or hexadecimal digits.
-/

namespace ObjectStore.Xml.Reference

/-- A digit in base sixteen, which is one in base ten when it is below ten. -/
def digit? (c : Char) : Option Nat :=
  if '0' ≤ c ∧ c ≤ '9' then some (c.toNat - 48)
  else if 'a' ≤ c ∧ c ≤ 'f' then some (c.toNat - 87)
  else if 'A' ≤ c ∧ c ≤ 'F' then some (c.toNat - 55)
  else none

/-- Continue a number by digits of a base. -/
def extend? (base n : Nat) : List Char → Option Nat
  | [] => some n
  | c :: r => ((digit? c).filter (· < base)).bind fun d => extend? base (base * n + d) r

/-- The number of a character reference, sign and empty digits refused. -/
def number? : List Char → Option Nat
  | [] => none
  | ['x'] => none
  | 'x' :: r => extend? 16 0 r
  | cs => extend? 10 0 cs

/-- The character of a number: none for zero, surrogates and numbers past the last character. -/
def character? (n : Nat) : Option Char :=
  if n = 0 then none else if h : n.isValidChar then some (Char.ofNatAux n h) else none

/-- The character that a reference stands for, given what is between its marks. -/
def resolve : List Char → Except SyntaxFault Char
  | '#' :: digits =>
      match (number? digits).bind character? with
      | some c => .ok c
      | none => .error .invalidCharacterReference
  | ['l', 't'] => .ok '<'
  | ['g', 't'] => .ok '>'
  | ['a', 'm', 'p'] => .ok '&'
  | ['q', 'u', 'o', 't'] => .ok '\x22'
  | ['a', 'p', 'o', 's'] => .ok '\x27'
  | _ => .error .unrecognizedEntity

/-- Replace references. Inside of a reference, its characters so far are in reverse order. -/
def unescapeFrom : Option (List Char) → List Char → Except SyntaxFault (List Char)
  | none, [] => .ok []
  | some _, [] => .error .unterminatedEntity
  | none, c :: r =>
      if c = '&' then unescapeFrom (some []) r else (unescapeFrom none r).map (c :: ·)
  | some name, c :: r =>
      if c = '&' then .error .unterminatedEntity
      else if c = ';' then
        match resolve name.reverse with
        | .error fault => .error fault
        | .ok known => (unescapeFrom none r).map (known :: ·)
      else unescapeFrom (some (c :: name)) r

/-- A text with its references replaced. -/
def unescape (cs : List Char) : Except SyntaxFault (List Char) := unescapeFrom none cs

/-- A character as text between tags. -/
def escapeChar (c : Char) : List Char :=
  if c = '&' then "&amp;".toList
  else if c = '<' then "&lt;".toList
  else if c = '>' then "&gt;".toList
  else if c = '\x22' then "&quot;".toList
  else if c = '\x27' then "&apos;".toList
  else [c]

/-- A text with references for all characters that markup takes for itself. -/
def escape (cs : List Char) : List Char := cs.flatMap escapeChar

theorem unescape_escapeChar (c : Char) (r : List Char) :
    unescape (escapeChar c ++ r) = (unescape r).map (c :: ·) := by
  unfold escapeChar
  split
  · next h => subst h; rfl
  split
  · next h => subst h; rfl
  split
  · next h => subst h; rfl
  split
  · next h => subst h; rfl
  split
  · next h => subst h; rfl
  · next h _ _ _ _ => simp [unescape, unescapeFrom, h]

/-- Replacing the references of an escaped text gives the text back. -/
theorem unescape_escape (cs : List Char) : unescape (escape cs) = .ok cs := by
  induction cs with
  | nil => rfl
  | cons c r ih =>
      have h := unescape_escapeChar c (escape r)
      simp only [escape, List.flatMap_cons] at h ih ⊢
      rw [h, ih]
      rfl

/-- A text without references stays as it is. -/
theorem unescape_of_not_mem {cs : List Char} (h : '&' ∉ cs) : unescape cs = .ok cs := by
  induction cs with
  | nil => rfl
  | cons c r ih =>
      obtain ⟨hc, hr⟩ := not_or.1 (mt List.mem_cons.2 h)
      rw [unescape, unescapeFrom, if_neg (Ne.symm hc)]
      exact congrArg (Except.map (c :: ·)) (ih hr)

/-- An escaped text does not begin a tag. -/
theorem not_mem_escape (cs : List Char) : '<' ∉ escape cs := by
  intro h
  obtain ⟨c, -, hc⟩ := List.mem_flatMap.1 h
  unfold escapeChar at hc
  split at hc
  · exact absurd hc (by decide)
  split at hc
  · exact absurd hc (by decide)
  split at hc
  · exact absurd hc (by decide)
  split at hc
  · exact absurd hc (by decide)
  split at hc
  · exact absurd hc (by decide)
  · next hless _ _ _ => exact hless (List.mem_singleton.1 hc).symm

end ObjectStore.Xml.Reference
