/-!
# Blank characters

The white space of Unicode, and texts without the blanks around them.
-/

namespace ObjectStore.Text

/-- A character with the Unicode property `White_Space`. -/
def isBlank (c : Char) : Bool :=
  let n := c.toNat
  (0x09 ≤ n && n ≤ 0x0D) || n == 0x20 || n == 0x85 || n == 0xA0 || n == 0x1680
    || (0x2000 ≤ n && n ≤ 0x200A) || n == 0x2028 || n == 0x2029 || n == 0x202F
    || n == 0x205F || n == 0x3000

/-- Characters without those at both ends that satisfy a predicate. -/
def stripList (p : Char → Bool) (cs : List Char) : List Char :=
  ((cs.dropWhile p).reverse.dropWhile p).reverse

theorem dropWhile_of_head? {p : Char → Bool} {cs : List Char}
    (h : ∀ c, cs.head? = some c → p c = false) : cs.dropWhile p = cs := by
  cases cs with
  | nil => rfl
  | cons c r => exact List.dropWhile_cons_of_neg (by simp [h c rfl])

/-- Nothing is taken off characters that do not satisfy the predicate at either end. -/
theorem stripList_of_ends {p : Char → Bool} {cs : List Char}
    (hhead : ∀ c, cs.head? = some c → p c = false)
    (hlast : ∀ c, cs.getLast? = some c → p c = false) : stripList p cs = cs := by
  rw [stripList, dropWhile_of_head? hhead, dropWhile_of_head?, List.reverse_reverse]
  rw [List.head?_reverse]
  exact hlast

/-- A mark around such characters is taken off, and no more. -/
theorem stripList_wrapped {p : Char → Bool} {mark : Char} {cs : List Char} (hmark : p mark = true)
    (hhead : ∀ c, cs.head? = some c → p c = false)
    (hlast : ∀ c, cs.getLast? = some c → p c = false) :
    stripList p (mark :: (cs ++ [mark])) = cs := by
  rw [stripList, List.dropWhile_cons_of_pos hmark]
  cases cs with
  | nil => simp [hmark]
  | cons c r =>
      rw [List.cons_append, List.dropWhile_cons_of_neg (by simp [hhead c rfl]),
        ← List.cons_append, List.reverse_append, List.reverse_singleton, List.singleton_append,
        List.dropWhile_cons_of_pos hmark, dropWhile_of_head?, List.reverse_reverse]
      rw [List.head?_reverse]
      exact hlast

/-- A text without the characters at both ends that satisfy a predicate. -/
def strip (p : Char → Bool) (s : String) : String := String.ofList (stripList p s.toList)

/-- A text without the blanks around it. -/
def trim (s : String) : String := strip isBlank s

end ObjectStore.Text
