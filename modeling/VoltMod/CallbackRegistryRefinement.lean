import VoltMod.CallbackRegistry

/-! The registry's entries are the stored handles of its roster, marked where
dropped, so that the search by id finds every one of them. -/
namespace VoltMod.CallbackRegistry
open Transition SnapshotPass

variable {Item : Type}

theorem stored_growing {roster : Roster (Handle Item)} (ordered : Ordered roster) :
    ((stored roster).map Handle.id).Pairwise (· < ·) :=
  (ids_distinct ordered).sublist (ordered.stored.map Handle.id)

/-- A stored id is found where its entry is. -/
theorem locate_stored {before after : List (Entry Item)} {entry : Entry Item}
    (growing : (before ++ entry :: after).Pairwise fun first later => first.id < later.id) :
    locate entry.id (before ++ entry :: after) = some before.length := by
  have found := LowerBound.lowerBound_stored (fun entry : Entry Item => entry.id) growing
  simp only [locate, found]
  simp

theorem locate_at {entries : List (Entry Item)} {position : Nat} {entry : Entry Item}
    (growing : entries.Pairwise fun first later => first.id < later.id)
    (here : entries[position]? = some entry) : locate entry.id entries = some position := by
  obtain ⟨inside, same⟩ := List.getElem?_eq_some_iff.mp here
  have split : entries = entries.take position ++ entry :: entries.drop (position + 1) := by
    rw [← same, ← List.drop_eq_getElem_cons inside, List.take_append_drop]
  rw [split] at growing
  have found := locate_stored growing
  rw [← split, List.length_take, Nat.min_eq_left (Nat.le_of_lt inside)] at found
  exact found

theorem locate_sound {id position : Nat} {entries : List (Entry Item)}
    (found : locate id entries = some position) :
    ∃ entry, entries[position]? = some entry ∧ entry.id = id := by
  simp only [locate] at found
  split at found
  · cases found
  · next entry here =>
      simp only [Option.ite_none_right_eq_some, Option.some.injEq] at found
      obtain ⟨same, rfl⟩ := found
      exact ⟨entry, here, same⟩

theorem modify_middle (form : Entry Item → Entry Item) (before after : List (Entry Item))
    (entry : Entry Item) :
    (before ++ entry :: after).modify before.length form = before ++ form entry :: after := by
  induction before with
  | nil => rfl
  | cons first rest ih => simp [ih]

theorem growing_others {before after : List (Handle Item)} {handle : Handle Item}
    (growing : ((before ++ handle :: after).map Handle.id).Pairwise (· < ·)) :
    ∀ other ∈ before ++ after, other.id ≠ handle.id := by
  rw [List.pairwise_map] at growing
  obtain ⟨_, tail, across⟩ := List.pairwise_append.mp growing
  obtain ⟨later, _⟩ := List.pairwise_cons.mp tail
  intro other member
  rcases List.mem_append.mp member with first | last
  · exact Nat.ne_of_lt (across other first handle List.mem_cons_self)
  · exact Nat.ne_of_gt (later other last)

theorem filter_others {before after : List (Handle Item)} {handle : Handle Item}
    (growing : ((before ++ handle :: after).map Handle.id).Pairwise (· < ·)) :
    (before ++ handle :: after).filter (fun other => !decide (other.id = handle.id)) =
      before ++ after := by
  have others := growing_others growing
  rw [List.filter_append, List.filter_cons_of_neg (by simp), ← List.filter_append]
  apply List.filter_eq_self.mpr
  intro other member
  simpa using others other member

theorem drop_live {handle : Handle Item} {roster : Roster (Handle Item)}
    (ordered : Ordered roster) (live : handle ∈ roster.live) :
    (roster.live.filter fun other => !decide (other.id = handle.id)).length =
      roster.live.length - 1 := by
  obtain ⟨before, after, split⟩ := List.append_of_mem live
  have growing := (ids_distinct ordered).sublist (ordered.lawful.live.map Handle.id)
  rw [split] at growing ⊢
  rw [filter_others growing]
  simp

variable [DecidableEq Item]

def entryOf (live : List (Handle Item)) (handle : Handle Item) : Entry Item :=
  ⟨handle, decide (handle ∉ live)⟩

structure Tracks (frame : Frame Item) (pass : Pass (Handle Item)) : Prop where
  index : frame.index = pass.turns.length
  count : frame.count = pass.opening.length
  inCall : frame.inCall = pass.inCall
  visited : frame.visited = pass.visited
  wanted : pass.wanted = fun handle => frame.wanted handle.item

structure Follows (registry : Registry Item) (roster : Roster (Handle Item)) : Prop where
  entries : registry.entries = (stored roster).map (entryOf roster.live)
  size : registry.live = roster.live.length
  nextId : registry.nextId = roster.ever.length + 1
  depth : registry.dispatchDepth = registry.frames.length
  frames : List.Forall₂ Tracks registry.frames roster.passes
  finished : List.Forall₂ Tracks registry.finished roster.finished

theorem follows_empty : Follows (empty : Registry Item) Roster.empty := by
  constructor <;> simp [empty, Roster.empty, stored]

theorem entries_growing {live handles : List (Handle Item)}
    (growing : (handles.map Handle.id).Pairwise (· < ·)) :
    (handles.map (entryOf live)).Pairwise fun first later => first.id < later.id := by
  rw [List.pairwise_map] at growing ⊢
  exact growing

theorem follows_calling {registry : Registry Item} {roster : Roster (Handle Item)}
    (follows : Follows registry roster) : calling registry = roster.idle := by
  rcases tracked_cases follows.frames with
    ⟨none, closed⟩ | ⟨frame, outer, pass, passes, top, inner, tracks, _⟩
  · simp [calling, Roster.idle, none, closed]
  · simp [calling, Roster.idle, top, inner, tracks.inCall]

theorem follows_depth {registry : Registry Item} {roster : Roster (Handle Item)}
    (follows : Follows registry roster) : registry.dispatchDepth = 0 ↔ roster.passes = [] := by
  rw [follows.depth, List.length_eq_zero_iff, tracked_nil_iff follows.frames]

theorem add_follows {item : Item} {registry : Registry Item} {roster : Roster (Handle Item)}
    (ordered : Ordered roster) (follows : Follows registry roster) :
    Follows (add item registry) { roster with
      ever := roster.ever ++ [⟨roster.ever.length + 1, item⟩]
      live := roster.live ++ [⟨roster.ever.length + 1, item⟩] } := by
  refine { follows with
    entries := ?_
    size := by simp [add, follows.size]
    nextId := by simp [add, follows.nextId] }
  have unchanged : (stored roster).map
      (entryOf (roster.live ++ [⟨roster.ever.length + 1, item⟩])) =
        (stored roster).map (entryOf roster.live) := by
    apply List.map_congr_left
    intro handle member
    have different : handle ≠ ⟨roster.ever.length + 1, item⟩ := fun same =>
      id_fresh ordered item (same ▸ ordered.stored.subset member)
    simp [entryOf, different]
  have last : entryOf (roster.live ++ [⟨roster.ever.length + 1, item⟩])
      ⟨roster.ever.length + 1, item⟩ = ⟨⟨roster.ever.length + 1, item⟩, false⟩ := by
    simp [entryOf]
  rw [stored_subscribe ordered, List.map_append, unchanged, List.map_singleton, last]
  simp [add, follows.entries, follows.nextId]

theorem subscribe_follows {item : Item} {starts : Bool} {registry : Registry Item}
    {roster : Roster (Handle Item)} (ordered : Ordered roster)
    (follows : Follows registry roster) :
    Option.Rel Follows (step registry (.subscribe item starts))
      (rosterStep roster (.subscribe item starts)) := by
  have empty : decide (registry.live = 0) = roster.live.isEmpty := by
    rw [follows.size, Bool.eq_iff_iff]
    simp
  simp only [step, rosterStep, follows_calling follows, SnapshotPass.subscribe, subscribe, empty]
  by_cases idle : roster.idle = true
  · by_cases refused : (roster.live.isEmpty && !starts) = true
    · rw [if_pos idle, if_pos refused, if_pos refused, if_pos idle]
      exact .some follows
    · rw [if_pos idle, if_neg refused, if_neg refused, if_pos idle]
      exact .some (add_follows ordered follows)
  · simp [idle]

/-- Dropping a handle still subscribed: its entry is found, and marked or erased. -/
theorem remove_live_follows {handle : Handle Item} {registry : Registry Item}
    {roster : Roster (Handle Item)} (ordered : Ordered roster)
    (follows : Follows registry roster) (live : handle ∈ roster.live) :
    Follows (remove handle.id registry).2
      { roster with live := roster.live.filter fun other => !decide (other.id = handle.id) } := by
  obtain ⟨before, after, split⟩ := List.append_of_mem (ordered.live.subset live)
  have growing := stored_growing ordered
  have entries := follows.entries
  rw [split, List.map_append, List.map_cons] at entries
  have found : locate handle.id registry.entries = some before.length := by
    have sorted : registry.entries.Pairwise fun first later => first.id < later.id :=
      follows.entries ▸ entries_growing growing
    rw [entries] at sorted ⊢
    simpa [entryOf] using locate_stored sorted
  have here : registry.entries[before.length]? = some (entryOf roster.live handle) := by
    rw [entries]
    simp
  have kept : (entryOf roster.live handle).removed = false := by simp [entryOf, live]
  rw [split] at growing
  have others := growing_others growing
  have same : ∀ other ∈ before ++ after, entryOf roster.live other =
      entryOf (roster.live.filter fun other => !decide (other.id = handle.id)) other := by
    intro other member
    simp [entryOf, others other member]
  have firsts := List.map_congr_left fun other member =>
    same other (List.mem_append_left after member)
  have lasts := List.map_congr_left fun other member =>
    same other (List.mem_append_right before member)
  simp only [remove, found, here, kept]
  -- Outside every dispatch the entry is erased, inside one it keeps its place with a mark.
  by_cases outside : roster.passes = []
  · have depth : ¬0 < registry.dispatchDepth := by
      simp [(follows_depth follows).mpr outside]
    have erased : registry.entries.eraseIdx before.length = (before ++ after).map
        (entryOf (roster.live.filter fun other => !decide (other.id = handle.id))) := by
      rw [entries, List.map_append, ← firsts, ← lasts]
      simp [List.eraseIdx_append_of_length_le]
    have all : stored { roster with
        live := roster.live.filter fun other => !decide (other.id = handle.id) } =
          before ++ after := by
      have plain : stored { roster with
          live := roster.live.filter fun other => !decide (other.id = handle.id) } =
            roster.live.filter fun other => !decide (other.id = handle.id) :=
        stored_outside outside
      rw [plain, ← stored_outside outside, split, filter_others growing]
    exact { follows with
      entries := by simpa [depth, all] using erased
      size := by simp [drop_live ordered live, follows.size] }
  · have depth : 0 < registry.dispatchDepth :=
      Nat.pos_of_ne_zero fun zero => outside ((follows_depth follows).mp zero)
    have marked : registry.entries.modify before.length Entry.mark =
        (before ++ handle :: after).map
          (entryOf (roster.live.filter fun other => !decide (other.id = handle.id))) := by
      have spot := modify_middle Entry.mark (before.map (entryOf roster.live))
        (after.map (entryOf roster.live)) (entryOf roster.live handle)
      rw [List.length_map] at spot
      rw [entries, spot, List.map_append, List.map_cons, ← firsts, ← lasts]
      simp [entryOf, Entry.mark]
    have all : stored { roster with
        live := roster.live.filter fun other => !decide (other.id = handle.id) } =
          before ++ handle :: after := by
      rw [← split]
      exact stored_inside rfl rfl outside
    exact { follows with
      entries := by simpa [depth, all] using marked
      size := by simp [drop_live ordered live, follows.size] }

theorem remove_gone_follows {id : Nat} {registry : Registry Item}
    {roster : Roster (Handle Item)} (follows : Follows registry roster)
    (absent : ∀ handle ∈ roster.live, handle.id ≠ id) :
    remove id registry = (false, registry) := by
  unfold remove
  split
  · rfl
  · next position found =>
      obtain ⟨entry, here, same⟩ := locate_sound found
      have member := List.mem_of_getElem? here
      rw [follows.entries] at member
      obtain ⟨handle, _, rfl⟩ := List.mem_map.mp member
      have dropped : handle ∉ roster.live := fun live => absent handle live same
      simp [here, entryOf, dropped]

theorem drop_follows {id : Nat} {registry : Registry Item} {roster : Roster (Handle Item)}
    (ordered : Ordered roster) (follows : Follows registry roster) :
    Option.Rel Follows (step registry (.drop id)) (rosterStep roster (.drop id)) := by
  simp only [step, rosterStep, follows_calling follows, drop]
  by_cases idle : roster.idle = true
  · rw [if_pos idle, if_pos idle]
    refine .some ?_
    by_cases held : ∃ handle ∈ roster.live, handle.id = id
    · obtain ⟨handle, live, rfl⟩ := held
      exact remove_live_follows ordered follows live
    · have absent : ∀ handle ∈ roster.live, handle.id ≠ id := fun handle live same =>
        held ⟨handle, live, same⟩
      have all : roster.live.filter (fun handle => !decide (handle.id = id)) = roster.live := by
        apply List.filter_eq_self.mpr
        intro handle live
        simpa using absent handle live
      rw [remove_gone_follows follows absent, all]
      exact follows
  · simp [idle]

theorem clear_follows {registry : Registry Item} {roster : Roster (Handle Item)}
    (follows : Follows registry roster) :
    Option.Rel Follows (step registry .clear) (rosterStep roster .clear) := by
  simp only [step, rosterStep, follows_calling follows, drop]
  by_cases idle : roster.idle = true
  · rw [if_pos idle, if_pos idle]
    have none : roster.live.filter (fun _ => !true) = [] := by simp
    rw [none]
    refine .some ?_
    by_cases outside : roster.passes = []
    · have depth := (follows_depth follows).mpr outside
      have empty : stored { roster with live := [] } = [] := stored_outside outside
      exact { follows with
        entries := by simp [clear, depth, empty]
        size := rfl }
    · have depth : registry.dispatchDepth ≠ 0 := fun zero =>
        outside ((follows_depth follows).mp zero)
      have same : stored { roster with live := [] } = stored roster :=
        stored_inside rfl rfl outside
      exact { follows with
        entries := by simp [clear, depth, same, follows.entries, entryOf, Entry.mark]
        size := rfl }
  · simp [idle]

theorem dispatch_follows {wanted : Item → Bool} {registry : Registry Item}
    {roster : Roster (Handle Item)} (follows : Follows registry roster) :
    Option.Rel Follows (step registry (.dispatch wanted))
      (rosterStep roster (.dispatch wanted)) := by
  have length : registry.entries.length = (stored roster).length := by simp [follows.entries]
  have tracks : Tracks (⟨0, registry.entries.length, wanted, false, []⟩ : Frame Item)
      ⟨stored roster, roster.ever.length, roster.live, fun handle => wanted handle.item, false,
        [], [], [], false, false⟩ := ⟨rfl, length, rfl, rfl, rfl⟩
  simp only [step, rosterStep, follows_calling follows, openPass]
  by_cases idle : roster.idle = true
  · rw [if_pos idle, if_pos idle]
    by_cases empty : stored roster = []
    · have none : registry.entries.length = 0 := by simp [length, empty]
      have finished := List.rel_append follows.finished (List.Forall₂.cons tracks .nil)
      rw [empty, none] at finished
      simp only [beginDispatch, empty, none, List.isEmpty_nil, if_true, Option.bind_some, closePass,
        Pass.ended, List.length_nil, decide_true, Bool.or_true, Bool.not_false, Bool.and_true]
      exact .some { follows with finished := finished }
    · have some_ : registry.entries.length ≠ 0 := by simpa [length] using empty
      have filled : (stored roster).isEmpty = false := by simpa using empty
      rw [filled]
      simp only [beginDispatch, some_, if_false]
      refine .some { follows with
        entries := ?_
        depth := by simp [follows.depth]
        frames := .cons tracks follows.frames }
      rw [stored_open rfl rfl]
      exact follows.entries
  · simp [idle]

theorem visit_tracks {frame : Frame Item} {pass : Pass (Handle Item)} (tracks : Tracks frame pass)
    (outside : pass.inCall = false) (live : List (Handle Item)) (handle : Handle Item) :
    Tracks (frame.visit (entryOf live handle))
      (pass.turned handle (decide (handle ∈ live))) := by
  have called : (!(entryOf live handle).removed && frame.wanted (entryOf live handle).item) =
      (decide (handle ∈ live) && pass.wanted handle) := by
    simp [entryOf, tracks.wanted]
  have index : frame.index + 1 = (pass.turns ++ [(handle, decide (handle ∈ live))]).length := by
    simp [tracks.index]
  by_cases visits : (decide (handle ∈ live) && pass.wanted handle) = true
  · simp only [Frame.visit, called, visits, if_true, Pass.turned]
    exact { tracks with index, inCall := rfl, visited := by rw [tracks.visited]; rfl }
  · simp only [Frame.visit, called, visits, Pass.turned]
    exact { tracks with index, inCall := by simp [tracks.inCall, outside] }

theorem iterate_follows {registry : Registry Item} {roster : Roster (Handle Item)}
    (ordered : Ordered roster) (follows : Follows registry roster) :
    Option.Rel Follows (step registry .iterate) (rosterStep roster .iterate) := by
  rcases tracked_cases follows.frames with
    ⟨none, closed⟩ | ⟨frame, outer, pass, passes, top, inner, tracks, rest⟩
  · simp [step, iterate, rosterStep, takeTurn, none, closed]
  · simp only [step, iterate, rosterStep, takeTurn, top, inner]
    have held : pass ∈ roster.passes := by simp [inner]
    have running := (ordered.opened pass (List.mem_append_left _ held)).2.2.2
    obtain ⟨later, front⟩ := ordered.passes pass held
    by_cases busy : pass.inCall = true
    · simp [tracks.inCall, busy]
    · cases next : pass.opening[pass.turns.length]? with
      | none =>
          have ended := List.getElem?_eq_none_iff.mp next
          simp [tracks.inCall, tracks.count, tracks.index, busy, running, ended]
      | some handle =>
          have going := (List.getElem?_eq_some_iff.mp next).1
          have entry : registry.entries[frame.index]? = some (entryOf roster.live handle) := by
            rw [follows.entries, ← front, tracks.index, List.getElem?_map,
              List.getElem?_append_left going, next, Option.map_some]
          have loops : ¬(frame.inCall || decide (frame.count ≤ frame.index)) = true := by
            simp [tracks.inCall, tracks.count, tracks.index, going, busy]
          have turns : ¬(pass.inCall || pass.stopped) = true := by simp [busy, running]
          rw [if_neg loops, if_neg turns, entry]
          have outside : pass.inCall = false := by simpa using busy
          refine .some { follows with
            entries := ?_
            depth := by simp [follows.depth, top]
            frames := .cons (visit_tracks tracks outside roster.live handle) rest }
          have view : (pass.turned handle (decide (handle ∈ roster.live))).view = pass.view := rfl
          rw [stored_turn inner view]
          exact follows.entries

theorem return_follows {registry : Registry Item} {roster : Roster (Handle Item)}
    (follows : Follows registry roster) :
    Option.Rel Follows (step registry .returnCall) (rosterStep roster .returnCall) := by
  rcases tracked_cases follows.frames with
    ⟨none, closed⟩ | ⟨frame, outer, pass, passes, top, inner, tracks, rest⟩
  · simp [step, returnCall, rosterStep, SnapshotPass.returnCall, none, closed]
  · simp only [step, returnCall, rosterStep, SnapshotPass.returnCall, top, inner, tracks.inCall]
    by_cases inside : pass.inCall = true
    · rw [if_pos inside, if_pos inside]
      refine .some { follows with
        entries := ?_
        depth := by simp [follows.depth, top]
        frames := .cons { tracks with inCall := rfl } rest }
      have view : (pass.returned false).view = pass.view := rfl
      rw [stored_turn inner view]
      exact follows.entries
    · simp [inside]

theorem filter_kept {kept all : List (Handle Item)} (part : kept.Sublist all)
    (distinct : all.Nodup) : all.filter (fun handle => handle ∈ kept) = kept := by
  induction part with
  | slnil => rfl
  | @cons kept all first part ih =>
      obtain ⟨absent, tail⟩ := List.nodup_cons.mp distinct
      have out : first ∉ kept := fun member => absent (part.subset member)
      rw [List.filter_cons_of_neg (by simpa using out), ih tail]
  | @cons_cons kept all first part ih =>
      obtain ⟨absent, tail⟩ := List.nodup_cons.mp distinct
      rw [List.filter_cons_of_pos (by simp)]
      have same : all.filter (fun handle => handle ∈ first :: kept) =
          all.filter fun handle => handle ∈ kept := by
        apply List.filter_congr
        intro handle member
        have other : handle ≠ first := fun equal => absent (equal ▸ member)
        simp [other]
      rw [same, ih tail]

theorem unremoved {registry : Registry Item} {roster : Roster (Handle Item)}
    (ordered : Ordered roster) (follows : Follows registry roster) :
    registry.entries.filter (fun entry => !entry.removed) =
      roster.live.map (entryOf roster.live) := by
  have distinct := ordered.stored.nodup ordered.lawful.distinct
  have same : (stored roster).filter ((fun entry => !entry.removed) ∘ entryOf roster.live) =
      roster.live := by
    refine Eq.trans ?_ (filter_kept ordered.live distinct)
    apply List.filter_congr
    intro handle _
    simp [entryOf]
  rw [follows.entries, List.filter_map, same]

/-- When the last dispatch ends, what is left are the live handles. -/
theorem entries_swept {registry : Registry Item} {roster : Roster (Handle Item)}
    (ordered : Ordered roster) (follows : Follows registry roster) :
    (if registry.entries.length != registry.live then
      registry.entries.filter fun entry => !entry.removed
    else registry.entries) = roster.live.map (entryOf roster.live) := by
  split
  · exact unremoved ordered follows
  · next same =>
      simp only [bne_iff_ne, ne_eq, not_not] at same
      rw [follows.entries, List.length_map, follows.size] at same
      rw [follows.entries, ← ordered.live.eq_of_length same.symm]

theorem end_follows {registry : Registry Item} {roster : Roster (Handle Item)}
    (ordered : Ordered roster) (follows : Follows registry roster) :
    Option.Rel Follows (step registry .endDispatch) (rosterStep roster .endDispatch) := by
  rcases tracked_cases follows.frames with
    ⟨none, closed⟩ | ⟨frame, outer, pass, passes, top, inner, tracks, rest⟩
  · simp [step, endDispatch, rosterStep, closePass, none, closed]
  · have held : pass ∈ roster.passes ++ roster.finished := by simp [inner]
    have faithful := ordered.lawful.faithful pass held
    have running := (ordered.opened pass held).2.2.2
    have turned : pass.turns.length ≤ pass.opening.length := by
      simpa using faithful.inOrder.length_le
    have closing : (!frame.inCall && decide (frame.count ≤ frame.index)) = pass.ended := by
      have ended : pass.opening.length ≤ pass.turns.length ↔
          pass.turns.length = pass.opening.length := by omega
      simp [Pass.ended, tracks.inCall, running, tracks.count, tracks.index, ended]
    simp only [step, endDispatch, rosterStep, closePass, top, inner, closing]
    by_cases done : pass.ended = true
    · have depth : registry.dispatchDepth - 1 = outer.length := by simp [follows.depth, top]
      have finished := List.rel_append follows.finished (List.Forall₂.cons tracks .nil)
      rw [if_pos done, if_pos done]
      cases rest with
      | nil =>
          have plain : stored { roster with
              passes := []
              finished := roster.finished ++ [pass] } = roster.live := stored_outside rfl
          refine .some { follows with
            entries := ?_
            depth := depth
            frames := .nil
            finished := finished }
          rw [plain, ← entries_swept ordered follows]
          simp [show registry.dispatchDepth - 1 = 0 from depth]
      | @cons _ nextPass _ laterPasses next others =>
          have same : stored { roster with
              passes := nextPass :: laterPasses
              finished := roster.finished ++ [pass] } = stored roster :=
            stored_inside rfl (by simp [inner]) (by simp [inner])
          refine .some { follows with
            entries := ?_
            depth := depth
            frames := .cons next others
            finished := finished }
          rw [same, ← follows.entries]
          simp [depth]
    · simp [done]

theorem step_follows {registry : Registry Item} {roster : Roster (Handle Item)}
    (label : Label Item) (ordered : Ordered roster) (follows : Follows registry roster) :
    Option.Rel Follows (step registry label) (rosterStep roster label) := by
  cases label with
  | subscribe item starts => exact subscribe_follows ordered follows
  | drop id => exact drop_follows ordered follows
  | clear => exact clear_follows follows
  | dispatch wanted => exact dispatch_follows follows
  | iterate => exact iterate_follows ordered follows
  | returnCall => exact return_follows follows
  | endDispatch => exact end_follows ordered follows

/-- The registry does what the roster of its handles says, and its own bookkeeping
is sound: the count, the ids, the search and the sweep. -/
structure Agrees (registry : Registry Item) (roster : Roster (Handle Item)) : Prop where
  frames : List.Forall₂ Tracks registry.frames roster.passes
  finished : List.Forall₂ Tracks registry.finished roster.finished
  handles : (registry.entries.filter fun entry => !entry.removed).map Entry.toHandle = roster.live
  count : registry.live = (registry.entries.filter fun entry => !entry.removed).length
  growing : registry.entries.Pairwise fun first later => first.id < later.id
  unused : ∀ entry ∈ registry.entries, entry.id < registry.nextId
  located : ∀ position entry, registry.entries[position]? = some entry →
    locate entry.id registry.entries = some position
  unknown : ∀ id, (∀ entry ∈ registry.entries, entry.id ≠ id) →
    locate id registry.entries = none
  clean : registry.frames = [] → ∀ entry ∈ registry.entries, entry.removed = false

theorem follows_agrees {registry : Registry Item} {roster : Roster (Handle Item)}
    (ordered : Ordered roster) (follows : Follows registry roster) :
    Agrees registry roster := by
  have growing : registry.entries.Pairwise fun first later => first.id < later.id :=
    follows.entries ▸ entries_growing (stored_growing ordered)
  have swept := unremoved ordered follows
  refine ⟨follows.frames, follows.finished, ?_, ?_, growing, ?_, ?_, ?_, ?_⟩
  · rw [swept, List.map_map]
    exact List.map_id _
  · rw [swept, List.length_map, follows.size]
  · intro entry member
    rw [follows.entries] at member
    obtain ⟨handle, inside, rfl⟩ := List.mem_map.mp member
    have known : handle.id ∈ roster.ever.map Handle.id :=
      List.mem_map_of_mem (ordered.stored.subset inside)
    rw [ordered.ids] at known
    obtain ⟨place, below, same⟩ := List.mem_map.mp known
    have bound := List.mem_range.mp below
    show handle.id < registry.nextId
    rw [follows.nextId, ← same]
    omega
  · intro position entry here
    exact locate_at growing here
  · intro id absent
    cases found : locate id registry.entries with
    | none => rfl
    | some position =>
        obtain ⟨entry, here, same⟩ := locate_sound found
        exact absurd same (absent entry (List.mem_of_getElem? here))
  · intro outside entry member
    have closed := (tracked_nil_iff follows.frames).mp outside
    rw [follows.entries, stored_outside closed] at member
    obtain ⟨handle, inside, rfl⟩ := List.mem_map.mp member
    simpa [entryOf] using inside

/-- Under any order of subscribing, dropping, clearing and raising the registry and the
roster of its handles take the same steps and agree, and the dispatches are orderly. -/
theorem raises_run_handlers (labels : List (Label Item)) :
    Option.Rel Agrees (run step empty labels) (run rosterStep Roster.empty labels) ∧
      Always rosterStep Orderly (Roster.empty : Roster (Handle Item)) labels := by
  refine ⟨?_, always_of_preserves step_ordered (fun _ => ordered_orderly) ordered_empty labels⟩
  have together : Option.Rel (fun registry roster => Ordered roster ∧ Follows registry roster)
      (run step empty labels) (run rosterStep (Roster.empty : Roster (Handle Item)) labels) := by
    refine run_related ?_ ⟨ordered_empty, follows_empty⟩ labels
    rintro registry roster label ⟨ordered, follows⟩
    apply rel_refine (step_follows label ordered follows)
    intro after next _ taken followed
    exact ⟨step_ordered roster label next ordered taken, followed⟩
  apply rel_refine together
  rintro registry roster _ _ ⟨ordered, follows⟩
  exact follows_agrees ordered follows

end VoltMod.CallbackRegistry
