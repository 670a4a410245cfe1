import ObjectStore.Text.Blank
import Mathlib.Data.List.DropRight

/-!
# Trimmed texts

What is left of a text without the characters at both ends that satisfy a predicate.
-/

namespace ObjectStore.Text

variable {p : Char → Bool} {cs : List Char}

/-- Nothing is left of characters that all satisfy the predicate, and of these only. -/
theorem stripList_eq_nil_iff : stripList p cs = [] ↔ ∀ c ∈ cs, p c = true := by
  change (cs.dropWhile p).rdropWhile p = [] ↔ _
  rw [List.rdropWhile_eq_nil_iff]
  constructor
  · intro h c hc
    rw [← List.takeWhile_append_dropWhile (p := p) (l := cs)] at hc
    rcases List.mem_append.1 hc with hc | hc
    · exact List.mem_takeWhile_imp hc
    · exact h c hc
  · intro h c hc
    exact h c ((List.dropWhile_suffix p).mem hc)

/-- Characters that satisfy the predicate leave no trace at either end. -/
theorem stripList_surrounded {before after : List Char} (hbefore : ∀ c ∈ before, p c = true)
    (hafter : ∀ c ∈ after, p c = true) : stripList p (before ++ cs ++ after) = stripList p cs := by
  rw [stripList, stripList, List.append_assoc, List.dropWhile_append_of_pos hbefore,
    List.dropWhile_append]
  split
  · rename_i hempty
    rw [List.isEmpty_iff.1 hempty, List.dropWhile_eq_nil_iff.2 hafter]
  · rw [List.reverse_append,
      List.dropWhile_append_of_pos fun c hc => hafter c (List.mem_reverse.1 hc)]

/-- Only what comes after a character that stays can be taken off at the end. -/
theorem rdropWhile_append_cons {mark : Char} (hmark : p mark = false) (before after : List Char) :
    (before ++ mark :: after).rdropWhile p = before ++ mark :: after.rdropWhile p := by
  induction after using List.reverseRecOn with
  | nil => exact List.rdropWhile_concat_neg p before mark (by simp [hmark])
  | append_singleton after c ih =>
      rw [← List.cons_append, ← List.append_assoc, List.rdropWhile_concat, List.rdropWhile_concat,
        ih]
      split
      · rfl
      · simp

/-- Nothing is taken off at the head of characters that begin with one that stays. -/
theorem stripList_of_head (h : ∀ c, cs.head? = some c → p c = false) :
    stripList p cs = cs.rdropWhile p :=
  congrArg (List.rdropWhile p) (dropWhile_of_head? h)

/-- What is left does not end in a character that satisfies the predicate. -/
theorem rdropWhile_stripList (p : Char → Bool) (cs : List Char) :
    (stripList p cs).rdropWhile p = stripList p cs :=
  List.rdropWhile_idempotent p (cs.dropWhile p)

theorem rdropWhile_eq_self_iff_getLast? :
    cs.rdropWhile p = cs ↔ ∀ c, cs.getLast? = some c → p c = false := by
  rw [List.rdropWhile_eq_self_iff]
  cases cs using List.reverseRecOn with
  | nil => simp
  | append_singleton cs c => simp

/-- A text that is not blank has a character that is not. -/
theorem isEmpty_trim_eq_false_iff {s : String} :
    (trim s).isEmpty = false ↔ ∃ c ∈ s.toList, isBlank c = false := by
  rw [← Bool.not_eq_true, String.isEmpty_iff, ← String.toList_inj]
  change ¬ (String.ofList (stripList isBlank s.toList)).toList = [] ↔ _
  rw [String.toList_ofList, stripList_eq_nil_iff]
  simp

end ObjectStore.Text
