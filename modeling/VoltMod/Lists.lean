/-! Lists cut at one of their elements. -/
namespace VoltMod.Lists

universe u
variable {Item : Type u} {items before after : List Item} {last item : Item}

/-- Where a list ends in one more element, the cut is at that one or at an earlier one. -/
theorem split_last (split : items ++ [last] = before ++ item :: after) :
    (item = last ∧ before = items) ∨ ∃ rest, items = before ++ item :: rest := by
  rcases List.eq_nil_or_concat after with rfl | ⟨rest, other, rfl⟩
  · obtain ⟨same, ends⟩ := List.append_inj' split rfl
    exact .inl ⟨(List.cons.inj ends).1.symm, same.symm⟩
  · have turned : items ++ [last] = (before ++ item :: rest) ++ [other] := by
      rw [split, List.append_assoc, List.cons_append, List.concat_eq_append]
    exact .inr ⟨rest, (List.append_inj' turned rfl).1⟩

end VoltMod.Lists
