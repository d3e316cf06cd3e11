import VoltMod.LowerBound
import VoltMod.SnapshotPass

/-! Core/Signals/CallbackRegistry.hpp under Core/Signals/Event.hpp: handlers by
growing id, erased at once outside every dispatch and only marked inside one. A
running dispatch is a frame, its loop taken one iteration at a time, so that a
handler may subscribe, drop, clear and raise again before it returns. An event's
lifecycle shows here only as whether its source starts for the first handler. -/
namespace VoltMod.CallbackRegistry
open Transition SnapshotPass

/-- A stored item under its id: what a Subscription stands for. -/
structure Handle (Item : Type) where
  id : Nat
  item : Item
  deriving DecidableEq, Repr

structure Entry (Item : Type) extends Handle Item where
  removed : Bool
  deriving DecidableEq, Repr

/-- A running DispatchIf; `visited` is history. -/
structure Frame (Item : Type) where
  index : Nat
  count : Nat
  wanted : Item → Bool
  inCall : Bool
  visited : List (Handle Item)

variable {Item : Type}

structure Registry (Item : Type) where
  entries : List (Entry Item)
  live : Nat
  dispatchDepth : Nat
  nextId : Nat
  frames : List (Frame Item)
  finished : List (Frame Item)

def empty : Registry Item := ⟨[], 0, 0, 1, [], []⟩

def add (item : Item) (registry : Registry Item) : Registry Item :=
  { registry with
    entries := registry.entries ++ [⟨⟨registry.nextId, item⟩, false⟩]
    live := registry.live + 1
    nextId := registry.nextId + 1 }

def locate (id : Nat) (entries : List (Entry Item)) : Option Nat :=
  let position := LowerBound.lowerBound (fun entry => decide (entry.id < id)) entries
  match entries[position]? with
  | none => none
  | some entry => if entry.id = id then some position else none

def Entry.mark (entry : Entry Item) : Entry Item := { entry with removed := true }

def remove (id : Nat) (registry : Registry Item) : Bool × Registry Item :=
  match locate id registry.entries with
  | none => (false, registry)
  | some position =>
      match registry.entries[position]? with
      | none => (false, registry)
      | some entry =>
          if entry.removed then (false, registry)
          else
            (true, { registry with
              live := registry.live - 1
              entries :=
                -- A running loop indexes the entries, so inside one the entry only gets its mark.
                if 0 < registry.dispatchDepth then registry.entries.modify position Entry.mark
                else registry.entries.eraseIdx position })

def clear (registry : Registry Item) : Registry Item :=
  { registry with
    live := 0
    entries := if registry.dispatchDepth = 0 then [] else registry.entries.map Entry.mark }

def find (id : Nat) (registry : Registry Item) : Option Item :=
  (locate id registry.entries).bind fun position =>
    registry.entries[position]?.bind fun entry =>
      if entry.removed then none else some entry.item

/-- Event's `+=` with a handler that is not empty; `starts` is what OnFirst answers,
true where there is none. -/
def subscribe (item : Item) (starts : Bool) (registry : Registry Item) : Registry Item :=
  if registry.live = 0 && !starts then registry else add item registry

def beginDispatch (wanted : Item → Bool) (registry : Registry Item) : Registry Item :=
  let frame : Frame Item := ⟨0, registry.entries.length, wanted, false, []⟩
  -- Nothing stored: DispatchIf returns before it takes a scope.
  if registry.entries.length = 0 then { registry with finished := registry.finished ++ [frame] }
  else
    { registry with
      dispatchDepth := registry.dispatchDepth + 1
      frames := frame :: registry.frames }

def Frame.visit (entry : Entry Item) (frame : Frame Item) : Frame Item :=
  if !entry.removed && frame.wanted entry.item then
    { frame with
      index := frame.index + 1
      inCall := true
      visited := frame.visited ++ [entry.toHandle] }
  else { frame with index := frame.index + 1 }

/-- One iteration of the loop, up to the item it calls. -/
def iterate (registry : Registry Item) : Option (Registry Item) :=
  match registry.frames with
  | [] => none
  | frame :: outer =>
      if frame.inCall || frame.count ≤ frame.index then none
      else
        match registry.entries[frame.index]? with
        | none => none
        | some entry => some { registry with frames := frame.visit entry :: outer }

def returnCall (registry : Registry Item) : Option (Registry Item) :=
  match registry.frames with
  | [] => none
  | frame :: outer =>
      if frame.inCall then
        some { registry with frames := { frame with inCall := false } :: outer }
      else none

/-- The end of a DispatchScope. -/
def endDispatch (registry : Registry Item) : Option (Registry Item) :=
  match registry.frames with
  | [] => none
  | frame :: outer =>
      if !frame.inCall && frame.count ≤ frame.index then
        let depth := registry.dispatchDepth - 1
        some { registry with
          dispatchDepth := depth
          frames := outer
          finished := registry.finished ++ [frame]
          entries :=
            -- The sweep, skipped where the count says that nothing is marked.
            if depth = 0 && registry.entries.length != registry.live then
              registry.entries.filter fun entry => !entry.removed
            else registry.entries }
      else none

/-- Handlers' code runs outside every dispatch or inside the innermost call. -/
def calling (registry : Registry Item) : Bool :=
  match registry.frames with
  | [] => true
  | frame :: _ => frame.inCall

inductive Label (Item : Type) where
  | subscribe (item : Item) (starts : Bool)
  | drop (id : Nat)
  | clear
  | dispatch (wanted : Item → Bool)
  | iterate
  | returnCall
  | endDispatch

/-- Event's Raise dispatches to every handler. -/
def Label.raise : Label Item := .dispatch fun _ => true

def step (registry : Registry Item) : Label Item → Option (Registry Item)
  | .subscribe item starts =>
      if calling registry then some (subscribe item starts registry) else none
  | .drop id => if calling registry then some (remove id registry).2 else none
  | .clear => if calling registry then some (clear registry) else none
  | .dispatch wanted => if calling registry then some (beginDispatch wanted registry) else none
  | .iterate => iterate registry
  | .returnCall => returnCall registry
  | .endDispatch => endDispatch registry

/-- What a dispatch goes over: the handles of that moment, with those dropped since
the outermost dispatch began still in place. -/
def stored (roster : Roster (Handle Item)) : List (Handle Item) :=
  match roster.passes.getLast? with
  | none => roster.live
  | some outermost => outermost.opening ++ roster.ever.drop outermost.since

def rosterStep [DecidableEq Item] (roster : Roster (Handle Item)) :
    Label Item → Option (Roster (Handle Item))
  | .subscribe item starts =>
      if roster.live.isEmpty && !starts then if roster.idle then some roster else none
      else SnapshotPass.subscribe ⟨roster.ever.length + 1, item⟩ roster
  | .drop id => drop (fun handle => handle.id = id) roster
  | .clear => drop (fun _ => true) roster
  | .dispatch wanted =>
      let opened := openPass (stored roster) roster.ever.length (fun handle => wanted handle.item)
        false roster
      if (stored roster).isEmpty then opened.bind closePass else opened
  | .iterate => takeTurn roster
  | .returnCall => SnapshotPass.returnCall false roster
  | .endDispatch => closePass roster

theorem stored_view (roster : Roster (Handle Item)) :
    stored roster = match (roster.passes.map Pass.view).getLast? with
      | none => roster.live
      | some view => view.1 ++ roster.ever.drop view.2 := by
  unfold stored
  rw [List.getLast?_map]
  cases roster.passes.getLast? <;> rfl

theorem stored_outside {roster : Roster (Handle Item)} (outside : roster.passes = []) :
    stored roster = roster.live := by
  simp [stored, outside]

theorem stored_inside {before after : Roster (Handle Item)} (ever : after.ever = before.ever)
    (last : (after.passes.map Pass.view).getLast? = (before.passes.map Pass.view).getLast?)
    (open_ : before.passes ≠ []) : stored after = stored before := by
  rw [stored_view, stored_view, last, ever]
  cases outermost : (before.passes.map Pass.view).getLast? with
  | none => simp [List.getLast?_eq_none_iff, open_] at outermost
  | some view => rfl

theorem stored_turn {roster : Roster (Handle Item)} {pass next : Pass (Handle Item)}
    {outer : List (Pass (Handle Item))} (passes : roster.passes = pass :: outer)
    (view : next.view = pass.view) :
    stored { roster with passes := next :: outer } = stored roster := by
  refine stored_inside rfl ?_ (by simp [passes])
  simp [passes, view]

/-- What every reachable roster keeps: ids are the places of the handles among all
ever made, and every open pass took the front of what is stored. -/
structure Ordered (roster : Roster (Handle Item)) : Prop where
  lawful : Lawful roster
  ids : roster.ever.map Handle.id = (List.range roster.ever.length).map Nat.succ
  passes : ∀ pass ∈ roster.passes, pass.opening <+: stored roster
  stored : (stored roster).Sublist roster.ever
  live : roster.live.Sublist (CallbackRegistry.stored roster)
  opened : ∀ pass ∈ roster.passes ++ roster.finished, pass.opening.Sublist roster.ever ∧
    pass.began.Sublist pass.opening ∧ pass.heeds = false ∧ pass.stopped = false

theorem ordered_empty : Ordered (Roster.empty : Roster (Handle Item)) := by
  refine ⟨lawful_empty, rfl, ?_, ?_, ?_, ?_⟩ <;> simp [Roster.empty, stored]

/-- What is stored stays: the passes and the live handles have to fit into it. -/
theorem ordered_later {before after : Roster (Handle Item)} (ordered : Ordered before)
    (lawful : Lawful after) (ever : after.ever = before.ever)
    (same : stored after = stored before)
    (passes : ∀ pass ∈ after.passes, pass.opening <+: stored before)
    (live : after.live.Sublist (stored before))
    (opened : ∀ pass ∈ after.passes ++ after.finished, pass.opening.Sublist before.ever ∧
      pass.began.Sublist pass.opening ∧ pass.heeds = false ∧ pass.stopped = false) :
    Ordered after where
  lawful := lawful
  ids := ever ▸ ordered.ids
  passes := same ▸ passes
  stored := same ▸ ever ▸ ordered.stored
  live := same ▸ live
  opened := ever ▸ opened

theorem ids_distinct {roster : Roster (Handle Item)} (ordered : Ordered roster) :
    (roster.ever.map Handle.id).Pairwise (· < ·) := by
  rw [ordered.ids, List.pairwise_map]
  exact List.pairwise_lt_range.imp Nat.succ_lt_succ

theorem id_fresh {roster : Roster (Handle Item)} (ordered : Ordered roster) (item : Item) :
    (⟨roster.ever.length + 1, item⟩ : Handle Item) ∉ roster.ever := by
  intro member
  have used : roster.ever.length + 1 ∈ roster.ever.map Handle.id := List.mem_map_of_mem member
  rw [ordered.ids] at used
  simp at used

theorem stored_subscribe {sub : Handle Item} {roster : Roster (Handle Item)}
    (ordered : Ordered roster) :
    stored { roster with ever := roster.ever ++ [sub], live := roster.live ++ [sub] } =
      stored roster ++ [sub] := by
  unfold stored
  dsimp only
  split
  · rfl
  · next outermost last =>
      have early := (ordered.lawful.earlier outermost
        (List.mem_append_left _ (List.mem_of_getLast? last))).1
      rw [List.drop_append_of_le_length early, List.append_assoc]

theorem subscribe_ordered {item : Item} {before after : Roster (Handle Item)}
    (ordered : Ordered before)
    (taken : SnapshotPass.subscribe ⟨before.ever.length + 1, item⟩ before = some after) :
    Ordered after := by
  have lawful := lawful_subscribe ordered.lawful (id_fresh ordered item) taken
  simp only [SnapshotPass.subscribe, Option.ite_none_right_eq_some, Option.some.injEq] at taken
  obtain ⟨_, rfl⟩ := taken
  refine ⟨lawful, by simp [ordered.ids, List.range_succ], ?_, ?_, ?_, ?_⟩
  · intro pass member
    rw [stored_subscribe ordered]
    exact (ordered.passes pass member).trans (List.prefix_append _ _)
  · rw [stored_subscribe ordered]
    exact ordered.stored.append_right _
  · rw [stored_subscribe ordered]
    exact ordered.live.append_right _
  · intro pass member
    obtain ⟨inside, rest⟩ := ordered.opened pass member
    exact ⟨inside.trans (List.sublist_append_left _ _), rest⟩

theorem drop_ordered {gone : Handle Item → Bool} {before after : Roster (Handle Item)}
    (ordered : Ordered before) (taken : drop gone before = some after) : Ordered after := by
  have lawful := lawful_drop ordered.lawful taken
  simp only [drop, Option.ite_none_right_eq_some, Option.some.injEq] at taken
  obtain ⟨_, rfl⟩ := taken
  -- While a pass is open what is dropped stays stored; outside it goes at once.
  by_cases outside : before.passes = []
  · have same : stored { before with live := before.live.filter fun handle => !gone handle } =
        before.live.filter fun handle => !gone handle := stored_outside outside
    refine ⟨lawful, ordered.ids, by simp [outside], ?_, ?_, ordered.opened⟩
    · rw [same]
      exact lawful.live
    · rw [same]
  · have same : stored { before with live := before.live.filter fun handle => !gone handle } =
        stored before := stored_inside rfl rfl outside
    exact ordered_later ordered lawful rfl same ordered.passes
      (List.filter_sublist.trans ordered.live) ordered.opened

theorem inner_ordered {pass next : Pass (Handle Item)} {outer : List (Pass (Handle Item))}
    {before : Roster (Handle Item)} (ordered : Ordered before)
    (passes : before.passes = pass :: outer)
    (lawful : Lawful { before with passes := next :: outer })
    (view : next.view = pass.view) (began : next.began = pass.began)
    (heeds : next.heeds = false) (stopped : next.stopped = false) :
    Ordered { before with passes := next :: outer } := by
  have opening : next.opening = pass.opening := congrArg Prod.fst view
  refine ordered_later ordered lawful rfl (stored_turn passes view) ?_ ordered.live ?_
  · intro other member
    rcases List.mem_cons.mp member with rfl | old
    · rw [opening]
      exact ordered.passes pass (by simp [passes])
    · exact ordered.passes other (by simp [passes, old])
  · intro other member
    rcases List.mem_cons.mp member with rfl | old
    · rw [opening, began]
      obtain ⟨inside, part, _, _⟩ := ordered.opened pass (by simp [passes])
      exact ⟨inside, part, heeds, stopped⟩
    · exact ordered.opened other (by
        rw [passes]
        exact List.mem_cons_of_mem _ old)

theorem close_ordered {before after : Roster (Handle Item)} (ordered : Ordered before)
    (taken : closePass before = some after) : Ordered after := by
  have lawful := lawful_close ordered.lawful taken
  obtain ⟨pass, outer, passes, _, _, rfl⟩ := closePass_cases taken
  have opened : ∀ other ∈ outer ++ (before.finished ++ [pass]),
      other.opening.Sublist before.ever ∧ other.began.Sublist other.opening ∧
        other.heeds = false ∧ other.stopped = false := by
    intro other member
    apply ordered.opened other
    simp only [List.mem_append, List.mem_singleton] at member
    simp only [passes, List.mem_append, List.mem_cons]
    tauto
  cases outer with
  | nil =>
      have same : stored { before with passes := [], finished := before.finished ++ [pass] } =
          before.live := stored_outside rfl
      refine ⟨lawful, ordered.ids, by simp, ?_, ?_, opened⟩
      · rw [same]
        exact lawful.live
      · rw [same]
  | cons next others =>
      have same : stored { before with
          passes := next :: others
          finished := before.finished ++ [pass] } = stored before := by
        refine stored_inside rfl ?_ (by simp [passes])
        simp [passes]
      refine ordered_later ordered lawful rfl same (fun other member => ?_) ordered.live opened
      exact ordered.passes other (by rw [passes]; exact List.mem_cons_of_mem _ member)

theorem stored_open {pass : Pass (Handle Item)} {roster : Roster (Handle Item)}
    (opening : pass.opening = stored roster) (since : pass.since = roster.ever.length) :
    stored { roster with passes := pass :: roster.passes } = stored roster := by
  by_cases outside : roster.passes = []
  · simp [stored_view, outside, Pass.view, opening, since]
  · refine stored_inside rfl ?_ outside
    have some_ : roster.passes.map Pass.view ≠ [] := by simpa using outside
    rw [List.map_cons, List.getLast?_cons_of_ne_nil some_]

theorem dispatch_ordered [DecidableEq Item] {wanted : Item → Bool}
    {before after : Roster (Handle Item)} (ordered : Ordered before)
    (taken : rosterStep before (.dispatch wanted) = some after) : Ordered after := by
  have distinct := ordered.stored.nodup ordered.lawful.distinct
  have inside : stored before ⊆ before.ever.take before.ever.length := by
    rw [List.take_length]
    exact ordered.stored.subset
  have all : ∀ opened, openPass (stored before) before.ever.length
      (fun handle => wanted handle.item) false before = some opened → Ordered opened := by
    intro opened taken
    have lawful := lawful_open ordered.lawful distinct (Nat.le_refl _) inside taken
    simp only [openPass, Option.ite_none_right_eq_some, Option.some.injEq] at taken
    obtain ⟨_, rfl⟩ := taken
    have same : stored { before with
        passes := ⟨stored before, before.ever.length, before.live,
          fun handle => wanted handle.item, false, [], [], [], false, false⟩ :: before.passes } =
        stored before := stored_open rfl rfl
    refine ordered_later ordered lawful rfl same ?_ ordered.live ?_
    · intro pass member
      rcases List.mem_cons.mp member with rfl | old
      · exact List.prefix_refl _
      · exact ordered.passes pass old
    · intro pass member
      rcases List.mem_cons.mp member with rfl | old
      · exact ⟨ordered.stored, ordered.live, rfl, rfl⟩
      · exact ordered.opened pass old
  simp only [rosterStep] at taken
  split at taken
  · obtain ⟨opened, first, closed⟩ := Option.bind_eq_some_iff.mp taken
    exact close_ordered (all opened first) closed
  · exact all after taken

theorem step_ordered [DecidableEq Item] : Preserves (@rosterStep Item _) Ordered := by
  intro before label after ordered taken
  cases label with
  | subscribe item starts =>
      simp only [rosterStep] at taken
      split at taken
      · simp only [Option.ite_none_right_eq_some, Option.some.injEq] at taken
        exact taken.2 ▸ ordered
      · exact subscribe_ordered ordered taken
  | drop id => exact drop_ordered ordered taken
  | clear => exact drop_ordered ordered taken
  | dispatch wanted => exact dispatch_ordered ordered taken
  | iterate =>
      have lawful := lawful_turn ordered.lawful taken
      obtain ⟨pass, outer, sub, passes, _, running, _, rfl⟩ := takeTurn_cases taken
      obtain ⟨_, _, heeds, _⟩ := ordered.opened pass (by simp [passes])
      exact inner_ordered ordered passes lawful rfl rfl heeds running
  | returnCall =>
      have lawful := lawful_return ordered.lawful taken
      obtain ⟨pass, outer, passes, _, rfl⟩ := returnCall_cases taken
      obtain ⟨_, _, heeds, _⟩ := ordered.opened pass (by simp [passes])
      exact inner_ordered ordered passes lawful rfl rfl heeds rfl
  | endDispatch => exact close_ordered ordered taken

theorem step_gone [DecidableEq Item] {handle : Handle Item} {before after : Roster (Handle Item)}
    {label : Label Item} (ordered : Ordered before) (gone : Gone handle before)
    (taken : rosterStep before label = some after) : Gone handle after := by
  cases label with
  | subscribe item starts =>
      simp only [rosterStep] at taken
      split at taken
      · simp only [Option.ite_none_right_eq_some, Option.some.injEq] at taken
        exact taken.2 ▸ gone
      · exact gone_subscribe gone (id_fresh ordered item) taken
  | drop id => exact gone_drop gone taken
  | clear => exact gone_drop gone taken
  | dispatch wanted =>
      simp only [rosterStep] at taken
      split at taken
      · obtain ⟨opened, first, closed⟩ := Option.bind_eq_some_iff.mp taken
        exact gone_close (gone_open gone first) closed
      · exact gone_open gone taken
  | iterate => exact gone_turn gone taken
  | returnCall => exact gone_return gone taken
  | endDispatch => exact gone_close gone taken

/-- What the dispatches over a registry amount to: each goes over handles in the order
they were made, all those subscribed when it began among them and no later one, and
visits once those wanted and not dropped before their turn; what was dropped never
comes back. -/
structure Orderly [DecidableEq Item] (roster : Roster (Handle Item)) : Prop where
  lawful : Lawful roster
  growing : (roster.ever.map Handle.id).Pairwise (· < ·)
  inOrder : ∀ pass ∈ roster.passes ++ roster.finished,
    pass.visited.Sublist pass.opening ∧ pass.opening.Sublist roster.ever
  began : ∀ pass ∈ roster.passes ++ roster.finished, pass.began.Sublist pass.opening
  whole : ∀ pass ∈ roster.finished, pass.turns.map Prod.fst = pass.opening
  dropped : ∀ handle labels after, Gone handle roster →
    run rosterStep roster labels = some after → Gone handle after

theorem ordered_orderly [DecidableEq Item] {roster : Roster (Handle Item)}
    (ordered : Ordered roster) : Orderly roster := by
  refine ⟨ordered.lawful, ids_distinct ordered, fun pass member => ?_, fun pass member => ?_,
    fun pass member => ?_, fun handle labels after gone ran => ?_⟩
  · exact ⟨visited_sublist (ordered.lawful.faithful pass member), (ordered.opened pass member).1⟩
  · exact (ordered.opened pass member).2.1
  · obtain ⟨_, _, _, running⟩ := ordered.opened pass (List.mem_append_right _ member)
    exact (ordered.lawful.finished pass member).2.resolve_left (by simp [running])
  · have kept : Preserves (@rosterStep Item _)
        (fun roster => Ordered roster ∧ Gone handle roster) := by
      rintro before label next ⟨ordered, gone⟩ taken
      exact ⟨step_ordered before label next ordered taken, step_gone ordered gone taken⟩
    exact (run_preserves kept ⟨ordered, gone⟩ ran).2

end VoltMod.CallbackRegistry
