import Mathlib.Data.List.Basic

/-! `std::ranges::lower_bound` over a random-access range, and what it finds where
the range is partitioned by the test. -/

namespace VoltMod.LowerBound

universe u
variable {Item : Type u}

/-- The half-open window starts at `first` and holds `count` items; every round at
least halves it, so the list's own length is fuel enough. -/
def search (less : Item → Bool) (items : List Item) : Nat → Nat → Nat → Nat
  | 0, first, _ => first
  | fuel + 1, first, count =>
      if count = 0 then first
      else if items[first + count / 2]?.any less then
        search less items fuel (first + count / 2 + 1) (count - count / 2 - 1)
      else search less items fuel first (count / 2)

def lowerBound (less : Item → Bool) (items : List Item) : Nat :=
  search less items items.length 0 items.length

def Partitioned (less : Item → Bool) (items : List Item) (cut : Nat) : Prop :=
  cut ≤ items.length ∧ ∀ index (inside : index < items.length),
    less items[index] = true ↔ index < cut

theorem search_partitioned {less : Item → Bool} {items : List Item} {cut : Nat}
    (partitioned : Partitioned less items cut) {fuel first count : Nat} (enough : count ≤ fuel)
    (start : first ≤ cut) (stop : cut ≤ first + count) (inside : first + count ≤ items.length) :
    search less items fuel first count = cut := by
  induction fuel generalizing first count with
  | zero =>
      rw [search]
      omega
  | succ fuel ih =>
      rw [search]
      split
      · omega
      · next nonempty =>
          -- The window still holds the cut: left of the middle when the test fails there, right of
          -- it when it holds.
          have middle : first + count / 2 < items.length := by omega
          rw [List.getElem?_eq_getElem middle, Option.any_some]
          split
          · next less_ =>
              have before := (partitioned.2 _ middle).mp less_
              exact ih (by omega) (by omega) (by omega) (by omega)
          · next more =>
              have after : ¬first + count / 2 < cut := fun before =>
                more ((partitioned.2 _ middle).mpr before)
              exact ih (by omega) start (by omega) (by omega)

theorem lowerBound_partitioned {less : Item → Bool} {items : List Item} {cut : Nat}
    (partitioned : Partitioned less items cut) : lowerBound less items = cut :=
  search_partitioned partitioned (Nat.le_refl _) (Nat.zero_le _) (by simpa using partitioned.1)
    (by simp)

/-- In a list with strictly growing keys the search for a stored key stops at it. -/
theorem lowerBound_stored (key : Item → Nat) {before after : List Item} {item : Item}
    (growing : (before ++ item :: after).Pairwise fun first later => key first < key later) :
    lowerBound (fun held => decide (key held < key item)) (before ++ item :: after) =
      before.length := by
  refine lowerBound_partitioned ⟨by simp, fun index inside => ?_⟩
  obtain ⟨_, tail, across⟩ := List.pairwise_append.mp growing
  obtain ⟨later, _⟩ := List.pairwise_cons.mp tail
  by_cases early : index < before.length
  · have member : before[index] ∈ before := List.getElem_mem early
    simp [List.getElem_append_left early, early, across _ member item List.mem_cons_self]
  · have beyond : ∀ held ∈ item :: after, key item ≤ key held := by
      intro held member
      rcases List.mem_cons.mp member with rfl | member
      · exact Nat.le_refl _
      · exact Nat.le_of_lt (later held member)
    rw [List.getElem_append_right (by omega)]
    simpa [early] using beyond _ (List.getElem_mem _)

end VoltMod.LowerBound
