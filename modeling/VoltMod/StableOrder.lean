import Mathlib.Data.List.Basic
import Mathlib.Data.List.Induction
import Mathlib.Data.List.InsertIdx
import Mathlib.Data.List.Perm.Basic
import Mathlib.Order.Lattice

/-! Lists kept in order of a key by inserting before the first greater item, so
that items of one key stay in the order they came. `arrange` inserts a whole list
one by one; it is sorted, a permutation, keeps each key's own order, and commutes
with dropping items. -/

namespace VoltMod.StableOrder

universe u v w
variable {Item : Type u} {Key : Type v} [LinearOrder Key] (key : Item → Key)

def place (item : Item) : List Item → List Item
  | [] => [item]
  | held :: rest => if key item < key held then item :: held :: rest else held :: place item rest

def arrange (items : List Item) : List Item :=
  items.foldl (fun placed item => place key item placed) []

def Sorted (items : List Item) : Prop := items.Pairwise fun first later => key first ≤ key later

theorem place_perm (item : Item) (items : List Item) :
    (place key item items).Perm (item :: items) := by
  induction items with
  | nil => exact List.Perm.refl _
  | cons held rest ih =>
      rw [place]
      split
      · exact List.Perm.refl _
      · exact (ih.cons held).trans (List.Perm.swap item held rest)

theorem place_map {Other : Type w} (form : Item → Other) (otherKey : Other → Key)
    (same : ∀ item, otherKey (form item) = key item) (item : Item) (items : List Item) :
    place otherKey (form item) (items.map form) = (place key item items).map form := by
  induction items with
  | nil => rfl
  | cons held rest ih =>
      simp only [List.map_cons, place, same, ih]
      split <;> rfl

theorem place_sorted {item : Item} {items : List Item} (sorted : Sorted key items) :
    Sorted key (place key item items) := by
  induction items with
  | nil => exact List.pairwise_singleton _ _
  | cons held rest ih =>
      obtain ⟨least, tail⟩ := List.pairwise_cons.mp sorted
      rw [place]
      split
      · next before =>
          refine List.pairwise_cons.mpr ⟨fun other member => ?_, sorted⟩
          rcases List.mem_cons.mp member with rfl | member
          · exact le_of_lt before
          · exact (le_of_lt before).trans (least other member)
      · next after =>
          refine List.pairwise_cons.mpr ⟨fun other member => ?_, ih tail⟩
          rcases List.mem_cons.mp ((place_perm key item rest).mem_iff.mp member) with rfl | member
          · exact not_lt.mp after
          · exact least other member

/-- Among the items that are no greater, the new one comes last. -/
theorem place_append {item : Item} {before after : List Item}
    (small : ∀ held ∈ before, key held ≤ key item) :
    place key item (before ++ after) = before ++ place key item after := by
  induction before with
  | nil => rfl
  | cons held rest ih =>
      have least := small held List.mem_cons_self
      rw [List.cons_append, place, if_neg (not_lt.mpr least),
        ih fun other member => small other (List.mem_cons_of_mem _ member), List.cons_append]

theorem place_first {item : Item} {items : List Item} (great : ∀ held ∈ items, key item < key held) :
    place key item items = item :: items := by
  cases items with
  | nil => rfl
  | cons held rest => rw [place, if_pos (great held List.mem_cons_self)]

theorem place_filter_kept {item : Item} {items : List Item} (sorted : Sorted key items)
    {keep : Item → Bool} (kept : keep item = true) :
    (place key item items).filter keep = place key item (items.filter keep) := by
  induction items with
  | nil => simp [place, kept]
  | cons held rest ih =>
      obtain ⟨least, tail⟩ := List.pairwise_cons.mp sorted
      rw [place]
      split
      · next before =>
          rw [List.filter_cons_of_pos kept, place_first]
          intro other member
          rcases List.mem_cons.mp (List.mem_of_mem_filter member) with rfl | member
          · exact before
          · exact lt_of_lt_of_le before (least other member)
      · next after =>
          by_cases stays : keep held = true
          · rw [List.filter_cons_of_pos stays, List.filter_cons_of_pos stays, place, if_neg after,
              ih tail]
          · rw [List.filter_cons_of_neg stays, List.filter_cons_of_neg stays, ih tail]

theorem place_filter_gone {item : Item} (items : List Item)
    {keep : Item → Bool} (gone : keep item = false) :
    (place key item items).filter keep = items.filter keep := by
  induction items with
  | nil => simp [place, gone]
  | cons held rest ih =>
      rw [place]
      split
      · simp [gone]
      · simp only [List.filter_cons, ih]

theorem arrange_append_singleton (items : List Item) (item : Item) :
    arrange key (items ++ [item]) = place key item (arrange key items) := by
  simp [arrange]

theorem arrange_append (first second : List Item) :
    arrange key (first ++ second) =
      second.foldl (fun placed item => place key item placed) (arrange key first) := by
  simp [arrange]

theorem arrange_perm (items : List Item) : (arrange key items).Perm items := by
  induction items using List.reverseRecOn with
  | nil => exact List.Perm.refl _
  | append_singleton items item ih =>
      rw [arrange_append_singleton]
      exact ((place_perm key item _).trans (ih.cons item)).trans
        (List.perm_append_singleton item items).symm

theorem arrange_sorted (items : List Item) : Sorted key (arrange key items) := by
  induction items using List.reverseRecOn with
  | nil => exact List.Pairwise.nil
  | append_singleton items item ih =>
      rw [arrange_append_singleton]
      exact place_sorted key ih

-- Dropping before or after arranging is the same: what is dropped never decides where
-- another item goes, since the list is sorted at every insertion.
theorem arrange_filter (keep : Item → Bool) (items : List Item) :
    (arrange key items).filter keep = arrange key (items.filter keep) := by
  induction items using List.reverseRecOn with
  | nil => rfl
  | append_singleton items item ih =>
      rw [arrange_append_singleton, List.filter_append]
      by_cases kept : keep item = true
      · rw [place_filter_kept key (arrange_sorted key items) kept, ih,
          List.filter_cons_of_pos kept, List.filter_nil, arrange_append_singleton]
      · rw [place_filter_gone key _ (by simpa using kept), ih,
          List.filter_cons_of_neg kept, List.filter_nil, List.append_nil]

/-- Items that are all of one key are left as they came. -/
theorem arrange_constant {items : List Item} {value : Key}
    (same : ∀ item ∈ items, key item = value) : arrange key items = items := by
  induction items using List.reverseRecOn with
  | nil => rfl
  | append_singleton items item ih =>
      have earlier := ih fun other member => same other (List.mem_append_left _ member)
      have last := same item (by simp)
      rw [arrange_append_singleton, earlier]
      have small : ∀ held ∈ items, key held ≤ key item := fun held member => by
        rw [same held (List.mem_append_left _ member), last]
      have settled : place key item (items ++ []) = items ++ place key item [] :=
        place_append key small
      simpa [place] using settled

theorem arrange_stable (items : List Item) (value : Key) :
    (arrange key items).filter (fun item => key item = value) =
      items.filter fun item => key item = value := by
  rw [arrange_filter]
  have same : ∀ item ∈ items.filter (fun item => key item = value), key item = value := by
    intro item member
    simpa using (List.mem_filter.mp member).2
  exact arrange_constant key same

/-- The insertion a vector makes: in front of the first item that is greater. -/
theorem insert_before_greater (item : Item) (items : List Item) :
    items.insertIdx (items.findIdx fun held => key item < key held) item =
      place key item items := by
  induction items with
  | nil => rfl
  | cons held rest ih =>
      rw [place, List.findIdx_cons]
      by_cases before : key item < key held
      · simp [before]
      · simp [before, ih]

end VoltMod.StableOrder
