import Mathlib.Data.List.DropRight

/-!
A list without the blanks around it, for any notion of blank. What is left begins
and ends with no blank, and blanks put around a list change nothing.
-/

namespace VoltMod.Strip

variable {α : Type} {blank : α → Bool} {text front back : List α}

def strip (blank : α → Bool) (text : List α) : List α := (text.dropWhile blank).rdropWhile blank

theorem dropWhile_kept (first : ∀ c, text.head? = some c → blank c = false) :
    text.dropWhile blank = text := by
  cases text with
  | nil => rfl
  | cons c rest => rw [List.dropWhile_cons_of_neg (by simp [first c rfl])]

theorem rdropWhile_kept (last : ∀ c, text.getLast? = some c → blank c = false) :
    text.rdropWhile blank = text := by
  rw [List.rdropWhile, dropWhile_kept, List.reverse_reverse]
  intro c first
  rw [List.head?_reverse] at first
  exact last c first

/-- What begins and ends with no blank is kept. -/
theorem strip_kept (first : ∀ c, text.head? = some c → blank c = false)
    (last : ∀ c, text.getLast? = some c → blank c = false) : strip blank text = text := by
  rw [strip, dropWhile_kept first, rdropWhile_kept last]

theorem strip_clean (clean : ∀ c ∈ text, blank c = false) : strip blank text = text := by
  apply strip_kept
  · exact fun c first => clean c (List.mem_of_mem_head? first)
  · exact fun c last => clean c (List.mem_of_getLast? last)

/-- Only blanks are taken, from both ends. -/
theorem strip_parts (blank : α → Bool) (text : List α) :
    ∃ front back, text = front ++ strip blank text ++ back ∧
      (∀ c ∈ front, blank c = true) ∧ ∀ c ∈ back, blank c = true := by
  refine ⟨text.takeWhile blank, (text.dropWhile blank).rtakeWhile blank, ?_, ?_, ?_⟩
  · rw [strip, List.append_assoc, List.rdropWhile_append_rtakeWhile,
      List.takeWhile_append_dropWhile]
  · exact fun c => List.mem_takeWhile_imp
  · exact fun c => List.mem_rtakeWhile_imp

theorem strip_nil_iff : strip blank text = [] ↔ ∀ c ∈ text, blank c = true := by
  constructor
  · intro empty c inside
    obtain ⟨front, back, whole, before, behind⟩ := strip_parts blank text
    rw [whole, empty, List.append_nil] at inside
    exact (List.mem_append.mp inside).elim (before c) (behind c)
  · intro blanks
    rw [strip, List.dropWhile_eq_nil_iff.mpr blanks, List.rdropWhile_nil]

theorem strip_blanks_append (blanks : ∀ c ∈ front, blank c = true) :
    strip blank (front ++ text) = strip blank text := by
  rw [strip, List.dropWhile_append_of_pos blanks, strip]

theorem strip_head (c : α) (first : (strip blank text).head? = some c) : blank c = false := by
  obtain ⟨back, whole⟩ : strip blank text <+: text.dropWhile blank := List.rdropWhile_prefix _ _
  have head : (text.dropWhile blank).head? = some c := by
    rw [← whole, List.head?_append, first, Option.some_or]
  have kept := List.head?_dropWhile_not blank text
  rw [head] at kept
  exact kept

theorem strip_last (c : α) (last : (strip blank text).getLast? = some c) : blank c = false := by
  obtain ⟨present, rfl⟩ := List.mem_getLast?_eq_getLast last
  exact Bool.eq_false_iff.mpr (List.rdropWhile_last_not _ _ present)

theorem strip_strip (text : List α) : strip blank (strip blank text) = strip blank text :=
  strip_kept strip_head strip_last

theorem dropWhile_append (first : ∀ c, back.head? = some c → blank c = false) :
    (front ++ back).dropWhile blank = front.dropWhile blank ++ back := by
  induction front with
  | nil => exact dropWhile_kept first
  | cons c rest hypothesis =>
      rw [List.cons_append, List.dropWhile_cons, List.dropWhile_cons, hypothesis]
      split <;> rfl

theorem rdropWhile_append (last : ∀ c, front.getLast? = some c → blank c = false) :
    (front ++ back).rdropWhile blank = front ++ back.rdropWhile blank := by
  rw [List.rdropWhile, List.reverse_append, dropWhile_append, List.reverse_append,
    List.reverse_reverse, List.rdropWhile]
  intro c first
  rw [List.head?_reverse] at first
  exact last c first

/-- What begins and ends with no blank stands between the blanks that are taken. -/
theorem strip_around {kept : List α} (present : kept ≠ [])
    (first : ∀ c, kept.head? = some c → blank c = false)
    (last : ∀ c, kept.getLast? = some c → blank c = false) (front back : List α) :
    strip blank (front ++ kept ++ back) =
      front.dropWhile blank ++ kept ++ back.rdropWhile blank := by
  rw [strip, List.append_assoc, dropWhile_append, ← List.append_assoc, rdropWhile_append]
  · intro c ends
    rw [List.getLast?_append_of_ne_nil _ present] at ends
    exact last c ends
  · intro c begins
    rw [List.head?_append_of_ne_nil _ present] at begins
    exact first c begins

end VoltMod.Strip
