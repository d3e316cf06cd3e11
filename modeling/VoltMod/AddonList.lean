import VoltMod.Decimals
import VoltMod.DownloadQueue

/-! Host/Workshop/DownloadQueue.cpp: the edits of a reply's addon field, a comma separated list
of ids other plugins may have filled with anything. -/
namespace VoltMod.AddonList
open MigrationText (Text digit decimal)
open DownloadQueue (parseUInt64 splitAddonList parseAddonList)
open Decimals

/-- One more entry behind what the field holds. -/
def addEntry (field : Text) (id : Nat) : Text :=
  (if field = [] then field else field ++ [',']) ++ spelled id

/-- The field and the ids appended so far. -/
def appendStep (named : List Nat) (edited : Text × List Nat) (id : Nat) : Text × List Nat :=
  if id = 0 ∨ named.contains id ∨ edited.2.contains id then edited
  else (addEntry edited.1 id, edited.2 ++ [id])

def appendToAddonList (field : Text) (ids : List Nat) : Text × List Nat :=
  ids.foldl (appendStep (parseAddonList field)) (field, [])

def joinEntries (entries : List Text) : Text := [','].intercalate entries

/-- The first entry that spells the id, whatever its leading zeros. -/
def eraseEntry (entries : List Text) (id : Nat) : List Text :=
  entries.eraseP fun entry => parseUInt64 entry = some id

def removeFromAddonList (field : Text) (ids : List Nat) : Text :=
  joinEntries (ids.foldl eraseEntry (splitAddonList field))

/-- The field behind a row of appends, with what each call returned. -/
def appendEach (field : Text) : List (List Nat) → Text × List (List Nat)
  | [] => (field, [])
  | ids :: rest =>
      let (edited, appended) := appendToAddonList field ids
      let (last, returned) := appendEach edited rest
      (last, appended :: returned)

def extend (field : Text) (ids : List Nat) : Text := ids.foldl addEntry field

/-- Names that no entry of the field spells, each of them once. -/
structure Fresh (field : Text) (ids : List Nat) : Prop where
  bounded : ∀ id ∈ ids, id < 2 ^ 64
  nonzero : 0 ∉ ids
  unnamed : ∀ id ∈ ids, id ∉ parseAddonList field
  once : ids.Nodup

section Entries
variable {field : Text} {id : Nat}

theorem join_split (field : Text) : joinEntries (splitAddonList field) = field := by
  unfold joinEntries splitAddonList
  split
  · next empty => rw [empty, List.intercalate_nil]
  · exact List.intercalate_splitOn ','

theorem addEntry_some (field : Text) (id : Nat) : addEntry field id ≠ [] := by
  intro empty
  exact spelled_some id (List.append_eq_nil_iff.mp empty).2

theorem split_addEntry (field : Text) (id : Nat) :
    splitAddonList (addEntry field id) = splitAddonList field ++ [spelled id] := by
  have noComma : ',' ∉ spelled id := spelled_apart id rfl
  rw [splitAddonList, if_neg (addEntry_some field id), addEntry, splitAddonList]
  split
  · next empty => rw [empty, List.nil_append, List.nil_append, List.splitOn_eq_singleton noComma]
  · rw [List.append_assoc, List.singleton_append, List.splitOn_append_cons_self,
      List.splitOn_eq_singleton noComma]

theorem split_extend (field : Text) (ids : List Nat) :
    splitAddonList (extend field ids) = splitAddonList field ++ ids.map spelled := by
  induction ids generalizing field with
  | nil => rw [extend, List.foldl_nil, List.map_nil, List.append_nil]
  | cons id rest ih =>
      rw [extend, List.foldl_cons]
      change splitAddonList (extend (addEntry field id) rest) = _
      rw [ih, split_addEntry, List.append_assoc]
      rfl

theorem extend_append (field : Text) (first rest : List Nat) :
    extend field (first ++ rest) = extend (extend field first) rest := List.foldl_append

theorem parse_spelled (bound : id < 2 ^ 64) : parseUInt64 (spelled id) = some id := by
  rw [parseUInt64, decimal_spelled, if_pos ⟨spelled_some id, spelled_digits id, bound⟩]

theorem mem_parse : id ∈ parseAddonList field ↔
    id ≠ 0 ∧ ∃ entry ∈ splitAddonList field, parseUInt64 entry = some id := by
  simp only [parseAddonList, List.mem_filterMap, Option.filter_eq_some_iff, decide_eq_true_eq]
  constructor
  · rintro ⟨entry, member, reads, nonzero⟩
    exact ⟨nonzero, entry, member, reads⟩
  · rintro ⟨nonzero, entry, member, reads⟩
    exact ⟨entry, member, reads, nonzero⟩

/-- Every appended id is named once more, in order. -/
theorem parse_extend {ids : List Nat} (bounded : ∀ id ∈ ids, id < 2 ^ 64) (nonzero : 0 ∉ ids) :
    parseAddonList (extend field ids) = parseAddonList field ++ ids := by
  rw [parseAddonList, split_extend, List.filterMap_append, List.filterMap_map]
  congr 1
  induction ids with
  | nil => rfl
  | cons id rest ih =>
      have reads := parse_spelled (bounded id List.mem_cons_self)
      have positive : id ≠ 0 := fun zero => nonzero (zero ▸ List.mem_cons_self)
      have later := ih (fun other member => bounded other (List.mem_cons_of_mem _ member))
        (fun member => nonzero (List.mem_cons_of_mem _ member))
      rw [List.filterMap_cons, Function.comp_apply, reads, Option.filter_some, decide_eq_true positive,
        if_pos rfl, later]

end Entries

section Append
variable {field : Text} {ids : List Nat}

/-- What an append looks for: the ids that are new to the field, each at its first mention. -/
def newIds (field : Text) (ids : List Nat) : List Nat :=
  (ids.filter fun id => id ≠ 0 && !(parseAddonList field).contains id).eraseDups

/-- Neither in the field nor taken by this call. -/
def wanted (named taken : List Nat) (id : Nat) : Bool :=
  id ≠ 0 && !named.contains id && !taken.contains id

theorem wanted_iff {named taken : List Nat} {id : Nat} : wanted named taken id = true ↔
    ¬(id = 0 ∨ named.contains id ∨ taken.contains id) := by
  simp only [wanted, Bool.and_eq_true, decide_eq_true_eq, Bool.not_eq_true', not_or,
    Bool.not_eq_true, and_assoc]

/-- What is taken now is left out of the rest, as `eraseDups` leaves it out. -/
theorem wanted_next (named taken : List Nat) (id other : Nat) :
    wanted named (taken ++ [id]) other = (!other == id && wanted named taken other) := by
  rw [Bool.eq_iff_iff, Bool.and_eq_true, wanted_iff, wanted_iff]
  simp only [List.contains_append, Bool.or_eq_true, List.contains_iff_mem, List.mem_singleton,
    Bool.not_eq_true', beq_eq_false_iff_ne, not_or]
  tauto

theorem appendStep_ran (named : List Nat) (field : Text) (taken ids : List Nat) :
    ids.foldl (appendStep named) (extend field taken, taken) =
      (extend field (taken ++ (ids.filter (wanted named taken)).eraseDups),
        taken ++ (ids.filter (wanted named taken)).eraseDups) := by
  induction ids generalizing taken with
  | nil => rw [List.foldl_nil, List.filter_nil, List.eraseDups_nil, List.append_nil]
  | cons id rest ih =>
      rw [List.foldl_cons, appendStep]
      by_cases skipped : id = 0 ∨ named.contains id ∨ taken.contains id
      · have dropped : ¬wanted named taken id = true := fun kept => wanted_iff.mp kept skipped
        rw [if_pos skipped, ih taken, List.filter_cons_of_neg dropped]
      · have kept : wanted named taken id = true := wanted_iff.mpr skipped
        have grown : extend field (taken ++ [id]) = addEntry (extend field taken) id :=
          extend_append field taken [id]
        have rests : rest.filter (wanted named (taken ++ [id])) =
            (rest.filter (wanted named taken)).filter fun other => !other == id := by
          rw [List.filter_filter]
          exact List.filter_congr fun other _ => wanted_next named taken id other
        rw [if_neg skipped]
        dsimp only
        rw [← grown, ih (taken ++ [id]), rests, List.filter_cons_of_pos kept, List.eraseDups_cons,
          List.append_assoc, List.singleton_append]

theorem append_new (field : Text) (ids : List Nat) :
    appendToAddonList field ids = (extend field (newIds field ids), newIds field ids) := by
  have ran := appendStep_ran (parseAddonList field) field [] ids
  have unbarred : wanted (parseAddonList field) [] =
      fun id => id ≠ 0 && !(parseAddonList field).contains id := by
    funext id
    exact Bool.and_true _
  rw [List.nil_append, unbarred] at ran
  exact ran

theorem mem_newIds {id : Nat} :
    id ∈ newIds field ids ↔ id ∈ ids ∧ id ≠ 0 ∧ id ∉ parseAddonList field := by
  simp [newIds]

theorem nodup_eraseDups (ids : List Nat) : ids.eraseDups.Nodup := by
  cases ids with
  | nil => exact List.nodup_nil
  | cons id rest =>
      rw [List.eraseDups_cons, List.nodup_cons]
      constructor
      · simp
      · exact nodup_eraseDups _
termination_by ids.length
decreasing_by exact Nat.lt_succ_of_le (List.length_filter_le _ _)

theorem newIds_fresh (bounded : ∀ id ∈ ids, id < 2 ^ 64) : Fresh field (newIds field ids) := by
  constructor
  · intro id member
    exact bounded id (mem_newIds.mp member).1
  · intro member
    exact (mem_newIds.mp member).2.1 rfl
  · intro id member
    exact (mem_newIds.mp member).2.2
  · exact nodup_eraseDups _

end Append

section Remove
variable {field : Text} {ids : List Nat}

theorem Fresh.sublist (fresh : Fresh field ids) {fewer : List Nat} (inside : fewer.Sublist ids) :
    Fresh field fewer := by
  constructor
  · exact fun id member => fresh.bounded id (inside.subset member)
  · exact fun member => fresh.nonzero (inside.subset member)
  · exact fun id member => fresh.unnamed id (inside.subset member)
  · exact fresh.once.sublist inside

theorem eraseP_spelled (bounded : ∀ id ∈ ids, id < 2 ^ 64) (id : Nat) :
    (ids.map spelled).eraseP (fun entry => parseUInt64 entry = some id) =
      (ids.erase id).map spelled := by
  induction ids with
  | nil => rfl
  | cons first rest ih =>
      have reads := parse_spelled (bounded first List.mem_cons_self)
      have later := ih fun other member => bounded other (List.mem_cons_of_mem _ member)
      rw [List.map_cons]
      by_cases same : first = id
      · rw [same] at reads ⊢
        rw [List.eraseP_cons_of_pos (by simpa using reads), List.erase_cons_head]
      · have apart : (first == id) = false := beq_false_of_ne same
        rw [List.eraseP_cons_of_neg (by simpa [reads] using same), later,
          List.erase_cons_tail (by simp [apart]), List.map_cons]

/-- What the field held before the appends is not touched. -/
theorem eraseEntry_extended (fresh : Fresh field ids) {id : Nat} (taken : id ∈ ids) :
    eraseEntry (splitAddonList (extend field ids)) id =
      splitAddonList (extend field (ids.erase id)) := by
  have foreign : ∀ entry ∈ splitAddonList field,
      ¬decide (parseUInt64 entry = some id) = true := by
    intro entry member reads
    have nonzero : id ≠ 0 := fun zero => fresh.nonzero (zero ▸ taken)
    exact fresh.unnamed id taken
      (mem_parse.mpr ⟨nonzero, entry, member, of_decide_eq_true reads⟩)
  rw [split_extend, split_extend, eraseEntry, List.eraseP_append_right _ foreign,
    eraseP_spelled fresh.bounded]

theorem erased_extended (fresh : Fresh field ids) {gone : List Nat} (once : gone.Nodup)
    (inside : gone ⊆ ids) :
    gone.foldl eraseEntry (splitAddonList (extend field ids)) =
      splitAddonList (extend field (ids.diff gone)) := by
  induction gone generalizing ids with
  | nil => rfl
  | cons id rest ih =>
      rw [List.foldl_cons, List.diff_cons, eraseEntry_extended fresh (inside List.mem_cons_self)]
      apply ih (fresh.sublist List.erase_sublist) once.of_cons
      intro other member
      have apart : other ≠ id := fun same => (List.nodup_cons.mp once).1 (same ▸ member)
      exact (List.mem_erase_of_ne apart).mpr (inside (List.mem_cons_of_mem _ member))

theorem remove_extended (fresh : Fresh field ids) {gone : List Nat} (once : gone.Nodup)
    (inside : gone ⊆ ids) :
    removeFromAddonList (extend field ids) gone = extend field (ids.diff gone) := by
  rw [removeFromAddonList, erased_extended fresh once inside, join_split]

theorem removes_extended (fresh : Fresh field ids) {groups : List (List Nat)}
    (once : groups.flatten.Nodup) (inside : groups.flatten ⊆ ids) :
    groups.foldl removeFromAddonList (extend field ids) =
      extend field (ids.diff groups.flatten) := by
  induction groups generalizing ids with
  | nil => rfl
  | cons gone rest ih =>
      rw [List.flatten_cons] at once inside
      obtain ⟨onceHere, onceLater, apart⟩ := List.nodup_append'.mp once
      rw [List.foldl_cons, List.flatten_cons, List.diff_append,
        remove_extended fresh onceHere (List.append_subset.mp inside).1]
      apply ih (fresh.sublist (List.diff_sublist _ _)) onceLater
      intro id member
      exact List.mem_diff_of_mem ((List.append_subset.mp inside).2 member)
        fun early => apart early member

end Remove

section Runs
variable {field : Text} {ids : List Nat} {calls : List (List Nat)}

theorem Fresh.append {more : List Nat} (fresh : Fresh field ids)
    (next : Fresh (extend field ids) more) : Fresh field (ids ++ more) := by
  have named : ∀ id ∈ more, id ∉ parseAddonList field ∧ id ∉ ids := by
    intro id member
    have unnamed := next.unnamed id member
    rw [parse_extend fresh.bounded fresh.nonzero, List.mem_append, not_or] at unnamed
    exact unnamed
  constructor
  · intro id member
    exact (List.mem_append.mp member).elim (fresh.bounded id) (next.bounded id)
  · intro member
    exact (List.mem_append.mp member).elim fresh.nonzero next.nonzero
  · intro id member
    exact (List.mem_append.mp member).elim (fresh.unnamed id) fun later => (named id later).1
  · exact List.nodup_append'.mpr ⟨fresh.once, next.once, fun id early later =>
      (named id later).2 early⟩

theorem appendEach_fresh (field : Text)
    (bounded : ∀ ids ∈ calls, ∀ id ∈ ids, id < 2 ^ 64) :
    Fresh field (appendEach field calls).2.flatten ∧
      (appendEach field calls).1 = extend field (appendEach field calls).2.flatten := by
  induction calls generalizing field with
  | nil => exact ⟨⟨nofun, nofun, nofun, List.nodup_nil⟩, rfl⟩
  | cons ids rest ih =>
      have fresh : Fresh field (newIds field ids) :=
        newIds_fresh (bounded ids List.mem_cons_self)
      obtain ⟨later, ran⟩ := ih (extend field (newIds field ids))
        fun other member => bounded other (List.mem_cons_of_mem _ member)
      simp only [appendEach, append_new, List.flatten_cons]
      constructor
      · exact fresh.append later
      · rw [ran, extend_append]

theorem appends_removed (bounded : ∀ ids ∈ calls, ∀ id ∈ ids, id < 2 ^ 64)
    {groups : List (List Nat)} (same : groups.flatten.Perm (appendEach field calls).2.flatten) :
    groups.foldl removeFromAddonList (appendEach field calls).1 = field := by
  obtain ⟨fresh, ran⟩ := appendEach_fresh field bounded
  have nothing : (appendEach field calls).2.flatten.diff groups.flatten = [] := by
    rw [List.eq_nil_iff_forall_not_mem]
    intro id member
    exact (fresh.once.mem_sdiff_iff.mp member).2 (same.mem_iff.mpr (List.diff_subset _ _ member))
  rw [ran, removes_extended fresh (same.nodup_iff.mpr fresh.once) same.subset, nothing]
  rfl

theorem append_named (bounded : ∀ id ∈ ids, id < 2 ^ 64) :
    parseAddonList (appendToAddonList field ids).1 =
      parseAddonList field ++ newIds field ids := by
  have fresh : Fresh field (newIds field ids) := newIds_fresh bounded
  rw [append_new]
  exact parse_extend fresh.bounded fresh.nonzero

/-- An id that is named more often than before is named once. -/
theorem append_once (bounded : ∀ id ∈ ids, id < 2 ^ 64) {id : Nat}
    (more : (parseAddonList field).count id <
      (parseAddonList (appendToAddonList field ids).1).count id) :
    (parseAddonList (appendToAddonList field ids).1).count id = 1 := by
  have fresh : Fresh field (newIds field ids) := newIds_fresh bounded
  rw [append_named bounded, List.count_append] at more ⊢
  have taken : id ∈ newIds field ids := List.count_pos_iff.mp (by omega)
  rw [List.count_eq_zero_of_not_mem (fresh.unnamed id taken),
    List.count_eq_one_of_mem fresh.once taken]

/-- Edits are taken back byte for byte, in any order and grouping; an append adds the ids that
are new, in order, and names none twice. -/
theorem appends_taken_back :
    (∀ (field : Text) (calls : List (List Nat)), (∀ ids ∈ calls, ∀ id ∈ ids, id < 2 ^ 64) →
      ∀ groups : List (List Nat), groups.flatten.Perm (appendEach field calls).2.flatten →
        groups.foldl removeFromAddonList (appendEach field calls).1 = field) ∧
      ∀ (field : Text) (ids : List Nat), (∀ id ∈ ids, id < 2 ^ 64) →
        let (edited, appended) := appendToAddonList field ids
        appended = newIds field ids ∧
          parseAddonList edited = parseAddonList field ++ appended ∧
          ∀ id, (parseAddonList field).count id < (parseAddonList edited).count id →
            (parseAddonList edited).count id = 1 := by
  constructor
  · intro field calls bounded groups same
    exact appends_removed bounded same
  · intro field ids bounded
    have returned : (appendToAddonList field ids).2 = newIds field ids := by rw [append_new]
    constructor
    · exact returned
    · constructor
      · exact (append_named bounded).trans (congrArg _ returned.symm)
      · exact fun id => append_once bounded

theorem appends_taken_back_backwards :
    [[200], [100]].foldl removeFromAddonList
        (appendEach "5000,,x,".toList [[100, 5000, 100], [100, 200]]).1 = "5000,,x,".toList ∧
      parseAddonList (appendToAddonList "5000,,x,".toList [0, 100, 5000, 100]).1 =
        [5000, 100] := by
  constructor
  · exact appends_taken_back.1 _ _ (by decide) _ (by decide)
  · exact (appends_taken_back.2 _ _ (by decide)).2.1.trans (by decide)

end Runs

end VoltMod.AddonList
