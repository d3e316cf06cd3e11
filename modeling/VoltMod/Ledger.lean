import Mathlib.Data.List.Perm.Basic
import Mathlib.Data.List.Nodup
import Mathlib.Data.List.Count

/-! Exactly-once bookkeeping: every item handed in is either settled or still
outstanding, and never both. The three lists are whatever a machine keeps; the
laws say how handing in, settling and moving items keep them balanced. -/

namespace VoltMod.Ledger

universe u v
variable {Item : Type u}

def Accounted (handed settled outstanding : List Item) : Prop :=
  (settled ++ outstanding).Perm handed

theorem accounted_empty : Accounted ([] : List Item) [] [] :=
  List.Perm.refl []

theorem accounted_move {handed settled before after : List Item}
    (balanced : Accounted handed settled before) (moved : after.Perm before) :
    Accounted handed settled after :=
  (moved.append_left settled).trans balanced

theorem accounted_hand_in {handed settled before after : List Item} {item : Item}
    (balanced : Accounted handed settled before) (added : after.Perm (item :: before)) :
    Accounted (handed ++ [item]) settled after := by
  have placed : (settled ++ after).Perm (item :: (settled ++ before)) :=
    (added.append_left settled).trans List.perm_middle
  exact placed.trans ((balanced.cons item).trans (List.perm_append_singleton item handed).symm)

theorem accounted_settle {handed settled before after items : List Item}
    (balanced : Accounted handed settled before) (removed : before.Perm (items ++ after)) :
    Accounted handed (settled ++ items) after := by
  unfold Accounted
  rw [List.append_assoc]
  exact (removed.symm.append_left settled).trans balanced

/-- What is handed in may stand anywhere among what is accounted for. -/
theorem hand_in_between {front back handed : List Item} (balanced : (front ++ back).Perm handed)
    (item : Item) : (front ++ [item] ++ back).Perm (handed ++ [item]) := by
  rw [List.append_assoc, List.singleton_append]
  have placed : (front ++ item :: back).Perm (item :: (front ++ back)) := List.perm_middle
  exact placed.trans ((balanced.cons item).trans (List.perm_append_singleton item handed).symm)

theorem accounted_nodup {handed settled outstanding : List Item}
    (balanced : Accounted handed settled outstanding) (distinct : handed.Nodup) :
    (settled ++ outstanding).Nodup :=
  balanced.nodup_iff.mpr distinct

theorem accounted_mem_iff {handed settled outstanding : List Item}
    (balanced : Accounted handed settled outstanding) (item : Item) :
    item ∈ handed ↔ item ∈ settled ∨ item ∈ outstanding := by
  rw [← balanced.mem_iff, List.mem_append]

theorem accounted_exclusive {handed settled outstanding : List Item}
    (balanced : Accounted handed settled outstanding) (distinct : handed.Nodup) {item : Item}
    (done : item ∈ settled) : item ∉ outstanding := by
  intro waiting
  exact (List.nodup_append.mp (accounted_nodup balanced distinct)).2.2 item done item waiting rfl

theorem accounted_count [DecidableEq Item] {handed settled outstanding : List Item}
    (balanced : Accounted handed settled outstanding) (distinct : handed.Nodup) {item : Item}
    (member : item ∈ handed) :
    settled.count item = if item ∈ outstanding then 0 else 1 := by
  have parts := List.nodup_append.mp (accounted_nodup balanced distinct)
  split
  · next waiting =>
      rw [List.count_eq_zero]
      intro done
      exact accounted_exclusive balanced distinct done waiting
  · next absent =>
      have done := ((accounted_mem_iff balanced item).mp member).resolve_right absent
      exact List.count_eq_one_of_mem parts.1 done

/-- Taking out the one item of a key leaves those of the other keys. -/
theorem keyed_perm {Key : Type v} [DecidableEq Key] (key : Item → Key) {items : List Item}
    {item : Item} (distinct : (items.map key).Nodup) (member : item ∈ items) :
    items.Perm (item :: items.filter fun other => !decide (key other = key item)) := by
  induction items with
  | nil => simp at member
  | cons first rest ih =>
      obtain ⟨absent, tail⟩ := List.nodup_cons.mp (List.map_cons ▸ distinct)
      by_cases here : key first = key item
      · have same : first = item := by
          rcases List.mem_cons.mp member with rfl | later
          · rfl
          · exact absurd (here ▸ List.mem_map_of_mem later) absent
        subst same
        -- The item is the head, and no other item has its key: the filter takes nothing more.
        have others : rest.filter (fun other => !decide (key other = key first)) = rest := by
          apply List.filter_eq_self.mpr
          intro other later
          have different : key other ≠ key first := fun equal =>
            absent (equal ▸ List.mem_map_of_mem later)
          simpa using different
        rw [List.filter_cons_of_neg (by simp), others]
      · have later : item ∈ rest := by
          rcases List.mem_cons.mp member with rfl | later
          · exact absurd rfl here
          · exact later
        rw [List.filter_cons_of_pos (by simpa using here)]
        exact ((ih tail later).cons first).trans (List.Perm.swap item first _)

/-- Of the items of a key there is the one. -/
theorem keyed_alone {Key : Type v} [DecidableEq Key] (key : Item → Key) {items : List Item}
    {item : Item} (distinct : (items.map key).Nodup) (member : item ∈ items) :
    (items.filter fun other => decide (key other = key item)) = [item] := by
  have placed := keyed_perm key distinct member
  have kept := placed.filter fun other => decide (key other = key item)
  have nobody : (items.filter fun other => !decide (key other = key item)).filter
      (fun other => decide (key other = key item)) = [] := by
    rw [List.filter_eq_nil_iff]
    intro other inside
    simpa using (List.mem_filter.mp inside).2
  rw [List.filter_cons_of_pos (by simp), nobody] at kept
  exact List.perm_singleton.mp kept

end VoltMod.Ledger
