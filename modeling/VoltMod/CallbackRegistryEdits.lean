import VoltMod.CallbackRegistryRefinement

/-! What Find, Remove and a change in place do to entries in the order of their ids, whatever
they hold: an entry's place and its id say the same. -/

namespace VoltMod.CallbackRegistry

variable {Item : Type} {entries : List (Entry Item)} {registry : Registry Item}

def Growing (entries : List (Entry Item)) : Prop :=
  entries.Pairwise fun first later => first.id < later.id

theorem locate_none {id : Nat} (growing : Growing entries) (missing : locate id entries = none) :
    ∀ entry ∈ entries, entry.id ≠ id := by
  rintro entry member rfl
  obtain ⟨position, here⟩ := List.mem_iff_getElem?.mp member
  rw [locate_at growing here] at missing
  cases missing

theorem entry_unique {first second : Entry Item} (growing : Growing entries)
    (one : first ∈ entries) (other : second ∈ entries) (same : first.id = second.id) :
    first = second := by
  obtain ⟨position, here⟩ := List.mem_iff_getElem?.mp one
  obtain ⟨place, there⟩ := List.mem_iff_getElem?.mp other
  have found := locate_at growing here
  rw [same, locate_at growing there, Option.some.injEq] at found
  subst found
  exact Option.some.inj (here.symm.trans there)

/-- An entry between the others, none of which has its id. -/
theorem split_at {position : Nat} {entry : Entry Item} (growing : Growing entries)
    (here : entries[position]? = some entry) :
    ∃ before after, entries = before ++ entry :: after ∧ before.length = position ∧
      ∀ other ∈ before ++ after, other.id ≠ entry.id := by
  obtain ⟨inside, same⟩ := List.getElem?_eq_some_iff.mp here
  have split : entries = entries.take position ++ entry :: entries.drop (position + 1) := by
    rw [← same, ← List.drop_eq_getElem_cons inside, List.take_append_drop]
  refine ⟨_, _, split, by rw [List.length_take]; omega, ?_⟩
  rw [split] at growing
  obtain ⟨_, tail, across⟩ := List.pairwise_append.mp growing
  obtain ⟨above, _⟩ := List.pairwise_cons.mp tail
  intro other member
  rcases List.mem_append.mp member with early | late
  · exact Nat.ne_of_lt (across other early entry List.mem_cons_self)
  · exact Nat.ne_of_gt (above other late)

/-- To change the entry at its place is to change the one with its id. -/
theorem modify_located {position : Nat} {entry : Entry Item} (growing : Growing entries)
    (here : entries[position]? = some entry) (form : Entry Item → Entry Item) :
    entries.modify position form =
      entries.map fun other => if other.id = entry.id then form other else other := by
  obtain ⟨before, after, rfl, rfl, others⟩ := split_at growing here
  have same : ∀ part : List (Entry Item), (∀ other ∈ part, other.id ≠ entry.id) →
      (part.map fun other => if other.id = entry.id then form other else other) = part := by
    intro part apart
    exact (List.map_congr_left fun other member => if_neg (apart other member)).trans
      (List.map_id part)
  rw [modify_middle, List.map_append, List.map_cons, if_pos rfl,
    same before fun other member => others other (List.mem_append_left _ member),
    same after fun other member => others other (List.mem_append_right _ member)]

theorem erase_located {position : Nat} {entry : Entry Item} (growing : Growing entries)
    (here : entries[position]? = some entry) :
    entries.eraseIdx position = entries.filter fun other => other.id ≠ entry.id := by
  obtain ⟨before, after, rfl, rfl, others⟩ := split_at growing here
  rw [List.eraseIdx_append_of_length_le (Nat.le_refl _), Nat.sub_self, List.eraseIdx_cons_zero,
    List.filter_append, List.filter_cons_of_neg (by simp), ← List.filter_append]
  exact (List.filter_eq_self.mpr fun other member => by simpa using others other member).symm

/-- Find answers the entry with the id unless it is marked. -/
theorem find_isSome_iff {id : Nat} (growing : Growing registry.entries) :
    (find id registry).isSome ↔ ∃ entry ∈ registry.entries, entry.id = id ∧
      entry.removed = false := by
  rw [find]
  cases located : locate id registry.entries with
  | none =>
      simp only [Option.bind_none, Option.isSome_none, Bool.false_eq_true, false_iff]
      rintro ⟨entry, member, same, _⟩
      exact locate_none growing located entry member same
  | some position =>
      obtain ⟨entry, here, rfl⟩ := locate_sound located
      have member := List.mem_of_getElem? here
      simp only [Option.bind_some, here]
      constructor
      · intro found
        refine ⟨entry, member, rfl, ?_⟩
        cases marked : entry.removed with
        | false => rfl
        | true => simp [marked] at found
      · rintro ⟨other, inside, same, unmarked⟩
        rw [entry_unique growing inside member same] at unmarked
        simp [unmarked]

/-- What Remove does to an entry with the id: a mark inside a dispatch, out at once outside. -/
theorem remove_cases {id : Nat} (growing : Growing registry.entries) :
    (¬(find id registry).isSome ∧ (remove id registry).2 = registry) ∨
    ((find id registry).isSome ∧ (remove id registry).2 = { registry with
      live := registry.live - 1
      entries :=
        if 0 < registry.dispatchDepth then
          registry.entries.map fun entry => if entry.id = id then entry.mark else entry
        else registry.entries.filter fun entry => entry.id ≠ id }) := by
  rw [find_isSome_iff growing, remove]
  cases located : locate id registry.entries with
  | none =>
      refine .inl ⟨?_, rfl⟩
      rintro ⟨entry, member, same, _⟩
      exact locate_none growing located entry member same
  | some position =>
      obtain ⟨entry, here, rfl⟩ := locate_sound located
      have member := List.mem_of_getElem? here
      simp only [here]
      cases marked : entry.removed with
      | true =>
          refine .inl ⟨?_, rfl⟩
          rintro ⟨other, inside, same, unmarked⟩
          rw [entry_unique growing inside member same, marked] at unmarked
          cases unmarked
      | false =>
          refine .inr ⟨⟨entry, member, rfl, marked⟩, ?_⟩
          simp only [Bool.false_eq_true, if_false, modify_located growing here,
            erase_located growing here]

end VoltMod.CallbackRegistry
