import Mathlib.Data.Nat.Basic
import VoltMod.SnapshotPass
import VoltMod.StableOrder

/-! Host/Plugins/CallbackList.hpp: one host event's callbacks. A pass is a frame of
Walk, its loop taken one iteration at a time, so that a callback may add, remove and
dispatch before it returns. `SnapshotPass` says what such passes mean; the list
follows it. Tokens come from the host's counter and never repeat, and callbacks
cross the module boundary, so none throws. -/
namespace VoltMod.CallbackList
open Transition SnapshotPass StableOrder

structure Subscription (Call : Type) where
  token : Nat
  order : Nat
  call : Call
  deriving DecidableEq, Repr

structure Entry (Call : Type) extends Subscription Call where
  removed : Bool
  deriving DecidableEq, Repr

/-- A running Walk. `only` is the order DispatchTo asks for, `none` for Dispatch;
`visited` is history. -/
structure Frame (Call : Type) where
  index : Nat
  count : Nat
  only : Option Nat
  inCall : Bool
  stopped : Bool
  visited : List (Subscription Call)
  deriving DecidableEq, Repr

variable {Call : Type}

structure Callbacks (Call : Type) where
  entries : List (Entry Call)
  pending : List (Entry Call)
  depth : Nat
  frames : List (Frame Call)
  issued : List Nat
  finished : List (Frame Call)
  deriving DecidableEq, Repr

def empty : Callbacks Call := ⟨[], [], 0, [], [], []⟩

def isEmpty (list : Callbacks Call) : Bool :=
  list.pending.isEmpty && list.entries.all fun entry => entry.removed

def insert (entry : Entry Call) (entries : List (Entry Call)) : List (Entry Call) :=
  entries.insertIdx (entries.findIdx fun held => entry.order < held.order) entry

def applyPending (list : Callbacks Call) : Callbacks Call :=
  { list with
    entries := list.pending.foldl (fun entries entry => insert entry entries)
      (list.entries.filter fun entry => !entry.removed)
    pending := [] }

-- While a Walk runs, `entries` must not move: an addition waits for the outermost to end.
def add (token order : Nat) (call : Call) (list : Callbacks Call) : Callbacks Call :=
  let entry : Entry Call := ⟨⟨token, order, call⟩, false⟩
  if 0 < list.depth then { list with pending := list.pending ++ [entry] }
  else { list with entries := insert entry list.entries }

def mark (token : Nat) : List (Entry Call) → Option (List (Entry Call))
  | [] => none
  | entry :: rest =>
      if entry.token ≠ token ∨ entry.removed then (mark token rest).map (entry :: ·)
      else some ({ entry with removed := true } :: rest)

def remove (token : Nat) (list : Callbacks Call) : Bool × Callbacks Call :=
  match mark token list.entries with
  | some marked =>
      let list := { list with entries := marked }
      (true, if list.depth = 0 then applyPending list else list)
  | none =>
      if list.pending.any fun entry => entry.token = token then
        -- An entry that no pass has seen yet is taken out for good.
        (true, { list with pending := list.pending.eraseP fun entry => entry.token = token })
      else (false, list)

def Frame.asked (frame : Frame Call) (order : Nat) : Bool :=
  frame.only = none || frame.only = some order

def beginWalk (only : Option Nat) (list : Callbacks Call) : Callbacks Call :=
  { list with
    depth := list.depth + 1
    frames := ⟨0, list.entries.length, only, false, false, []⟩ :: list.frames }

def Frame.visit (entry : Entry Call) (frame : Frame Call) : Frame Call :=
  if !entry.removed && frame.asked entry.order then
    { frame with
      index := frame.index + 1
      inCall := true
      visited := frame.visited ++ [entry.toSubscription] }
  else { frame with index := frame.index + 1 }

/-- One iteration of the loop, up to the callback it calls. -/
def iterate (list : Callbacks Call) : Option (Callbacks Call) :=
  match list.frames with
  | [] => none
  | frame :: outer =>
      if frame.inCall || frame.stopped || frame.count ≤ frame.index then none
      else
        match list.entries[frame.index]? with
        | none => none
        | some entry => some { list with frames := frame.visit entry :: outer }

/-- A callback returns; DispatchTo answers false for it. -/
def returnCall (claims : Bool) (list : Callbacks Call) : Option (Callbacks Call) :=
  match list.frames with
  | [] => none
  | frame :: outer =>
      if frame.inCall then
        some { list with
          frames := { frame with
            inCall := false
            stopped := claims && frame.only.isNone } :: outer }
      else none

def endWalk (list : Callbacks Call) : Option (Callbacks Call) :=
  match list.frames with
  | [] => none
  | frame :: outer =>
      if !frame.inCall && (frame.stopped || frame.count ≤ frame.index) then
        let list := { list with
          depth := list.depth - 1
          frames := outer
          finished := list.finished ++ [frame] }
        some (if list.depth = 0 then applyPending list else list)
      else none

/-- Callers run outside every pass or inside the callback of the innermost one. -/
def calling (list : Callbacks Call) : Bool :=
  match list.frames with
  | [] => true
  | frame :: _ => frame.inCall

inductive Label (Call : Type) where
  | add (token order : Nat) (call : Call)
  | remove (token : Nat)
  | dispatch (only : Option Nat)
  | iterate
  | returnCall (claims : Bool)
  | endWalk

def step (list : Callbacks Call) : Label Call → Option (Callbacks Call)
  | .add token order call =>
      if calling list && !list.issued.contains token then
        some { add token order call list with issued := list.issued ++ [token] }
      else none
  | .remove token => if calling list then some (remove token list).2 else none
  | .dispatch only => if calling list then some (beginWalk only list) else none
  | .iterate => iterate list
  | .returnCall claims => returnCall claims list
  | .endWalk => endWalk list

/-- What a pass goes over: the outermost pass takes the subscriptions of that moment,
by order and then as they came, and the passes inside it take the same. -/
def opening (roster : Roster (Subscription Call)) : List (Subscription Call) × Nat :=
  match roster.passes.getLast? with
  | none => (arrange Subscription.order roster.live, roster.ever.length)
  | some outermost => (outermost.opening, outermost.since)

def asked (only : Option Nat) (sub : Subscription Call) : Bool :=
  only = none || only = some sub.order

def rosterStep [DecidableEq Call] (roster : Roster (Subscription Call)) :
    Label Call → Option (Roster (Subscription Call))
  | .add token order call =>
      if roster.ever.any fun sub => sub.token = token then none
      else subscribe ⟨token, order, call⟩ roster
  | .remove token => drop (fun sub => sub.token = token) roster
  | .dispatch only => openPass (opening roster).1 (opening roster).2 (asked only) only.isNone roster
  | .iterate => takeTurn roster
  -- DispatchTo is the pass that does not heed its answers.
  | .returnCall claims => SnapshotPass.returnCall claims roster
  | .endWalk => closePass roster

def Arranged (roster : Roster (Subscription Call)) (view : List (Subscription Call) × Nat) : Prop :=
  ∃ base, base.Sublist roster.ever ∧ view.1 = arrange Subscription.order base

/-- Every pass goes over subscriptions in their order, and nested ones over the same. -/
structure Ordered (roster : Roster (Subscription Call)) : Prop where
  lawful : Lawful roster
  tokens : (roster.ever.map Subscription.token).Nodup
  passes : ∀ view ∈ roster.passes.map Pass.view, Arranged roster view
  finished : ∀ view ∈ roster.finished.map Pass.view, Arranged roster view
  shared : ∀ view ∈ roster.passes.map Pass.view, ∀ other ∈ roster.passes.map Pass.view,
    view = other

theorem ordered_empty : Ordered (Roster.empty : Roster (Subscription Call)) := by
  refine ⟨lawful_empty, ?_, ?_, ?_, ?_⟩ <;> simp [Roster.empty]

theorem opening_arranged {roster : Roster (Subscription Call)} (ordered : Ordered roster) :
    Arranged roster (opening roster) := by
  unfold opening
  split
  · exact ⟨roster.live, ordered.lawful.live, rfl⟩
  · next outermost last =>
      exact ordered.passes outermost.view (List.mem_map_of_mem (List.mem_of_getLast? last))

theorem arranged_later {before after : Roster (Subscription Call)}
    {view : List (Subscription Call) × Nat} (arranged : Arranged before view)
    (grows : before.ever.Sublist after.ever) : Arranged after view := by
  obtain ⟨base, inside, same⟩ := arranged
  exact ⟨base, inside.trans grows, same⟩

theorem opening_shared {roster : Roster (Subscription Call)} (ordered : Ordered roster) :
    ∀ view ∈ roster.passes.map Pass.view, view = opening roster := by
  intro view member
  unfold opening
  split
  · next closed =>
      rw [List.getLast?_eq_none_iff.mp closed] at member
      simp at member
  · next outermost last =>
      exact ordered.shared view member outermost.view
        (List.mem_map_of_mem (List.mem_of_getLast? last))

variable [DecidableEq Call]

theorem step_lawful {before after : Roster (Subscription Call)} {label : Label Call}
    (ordered : Ordered before) (taken : rosterStep before label = some after) :
    Lawful after := by
  have lawful := ordered.lawful
  cases label with
  | add token order call =>
      simp only [rosterStep, Option.ite_none_left_eq_some] at taken
      refine lawful_subscribe lawful (fun member => taken.1 ?_) taken.2
      exact List.any_eq_true.mpr ⟨_, member, by simp⟩
  | remove token => exact lawful_drop lawful taken
  | dispatch only =>
      obtain ⟨base, inside, same⟩ := opening_arranged ordered
      have once : (opening before).1.Nodup := by
        rw [same, (arrange_perm _ base).nodup_iff]
        exact inside.nodup lawful.distinct
      have early : (opening before).2 ≤ before.ever.length ∧
          (opening before).1 ⊆ before.ever.take (opening before).2 := by
        unfold opening
        split
        · refine ⟨Nat.le_refl _, ?_⟩
          rw [List.take_length]
          exact List.Subset.trans (arrange_perm _ _).subset lawful.live.subset
        · next outermost last =>
            exact lawful.earlier outermost (List.mem_append_left _ (List.mem_of_getLast? last))
      exact lawful_open lawful once early.1 early.2 taken
  | iterate => exact lawful_turn lawful taken
  | returnCall claims => exact lawful_return lawful taken
  | endWalk => exact lawful_close lawful taken

theorem step_gone {before after : Roster (Subscription Call)} {label : Label Call}
    {sub : Subscription Call} (gone : Gone sub before)
    (taken : rosterStep before label = some after) : Gone sub after := by
  cases label with
  | add token order call =>
      simp only [rosterStep, Option.ite_none_left_eq_some] at taken
      refine gone_subscribe gone (fun member => taken.1 ?_) taken.2
      exact List.any_eq_true.mpr ⟨_, member, by simp⟩
  | remove token => exact gone_drop gone taken
  | dispatch only => exact gone_open gone taken
  | iterate => exact gone_turn gone taken
  | returnCall claims => exact gone_return gone taken
  | endWalk => exact gone_close gone taken

theorem step_ordered : Preserves (@rosterStep Call _) Ordered := by
  intro before label after ordered taken
  have lawful := step_lawful ordered taken
  cases label with
  | add token order call =>
      simp only [rosterStep, Option.ite_none_left_eq_some, subscribe,
        Option.ite_none_right_eq_some, Option.some.injEq] at taken
      obtain ⟨unused, _, rfl⟩ := taken
      have grows := List.sublist_append_left before.ever [⟨token, order, call⟩]
      refine ⟨lawful, ?_, fun view member => arranged_later (ordered.passes view member) grows,
        fun view member => arranged_later (ordered.finished view member) grows, ordered.shared⟩
      simpa using ordered.tokens.concat (by simpa using unused)
  | remove token =>
      simp only [rosterStep, drop, Option.ite_none_right_eq_some, Option.some.injEq] at taken
      obtain ⟨_, rfl⟩ := taken
      exact { ordered with lawful }
  | dispatch only =>
      simp only [rosterStep, openPass, Option.ite_none_right_eq_some, Option.some.injEq] at taken
      obtain ⟨_, rfl⟩ := taken
      -- All open passes have one view of the roster, so the new one is opened with the same.
      refine { ordered with lawful, passes := ?_, shared := ?_ }
      · intro view member
        rcases List.mem_cons.mp member with rfl | old
        · exact opening_arranged ordered
        · exact ordered.passes view old
      · intro view member other others
        have all : ∀ view ∈ opening before :: before.passes.map Pass.view,
            view = opening before := by
          intro view member
          rcases List.mem_cons.mp member with rfl | old
          · rfl
          · exact opening_shared ordered view old
        exact (all view member).trans (all other others).symm
  | iterate =>
      obtain ⟨ever, passes, finished⟩ := turn_views taken
      exact ⟨lawful, ever ▸ ordered.tokens, by simpa only [passes, Arranged, ever] using ordered.passes,
        by simpa only [finished, Arranged, ever] using ordered.finished, passes ▸ ordered.shared⟩
  | returnCall claims =>
      obtain ⟨ever, passes, finished⟩ := return_views taken
      exact ⟨lawful, ever ▸ ordered.tokens, by simpa only [passes, Arranged, ever] using ordered.passes,
        by simpa only [finished, Arranged, ever] using ordered.finished, passes ▸ ordered.shared⟩
  | endWalk =>
      obtain ⟨pass, outer, passes, _, _, rfl⟩ := closePass_cases taken
      have inside : ∀ view ∈ outer.map Pass.view, view ∈ before.passes.map Pass.view := by
        intro view member
        rw [passes, List.map_cons]
        exact List.mem_cons_of_mem _ member
      refine ⟨lawful, ordered.tokens, fun view member => ordered.passes view (inside view member),
        ?_, fun view member other others =>
          ordered.shared view (inside view member) other (inside other others)⟩
      intro view member
      rcases List.mem_append.mp (List.map_append ▸ member) with old | new
      · exact ordered.finished view old
      · rw [List.mem_singleton.mp new]
        exact ordered.passes pass.view (by simp [passes])

/-- What the passes over a list amount to: each goes over its subscriptions by order
and then as they were made, nested passes over those of the outermost, each visits
once those wanted and not dropped before their turn, until one claims; what was
dropped never comes back. -/
structure Orderly (roster : Roster (Subscription Call)) : Prop where
  lawful : Lawful roster
  sorted : ∀ pass ∈ roster.passes ++ roster.finished, Sorted Subscription.order pass.opening
  stable : ∀ pass ∈ roster.passes ++ roster.finished, ∀ order,
    (pass.opening.filter fun sub => sub.order = order).Sublist roster.ever
  shared : ∀ pass ∈ roster.passes, ∀ other ∈ roster.passes,
    pass.opening = other.opening ∧ pass.since = other.since
  inOrder : ∀ pass ∈ roster.passes ++ roster.finished, pass.visited.Sublist pass.opening
  dropped : ∀ sub labels after, Gone sub roster →
    run rosterStep roster labels = some after → Gone sub after

theorem ordered_orderly {roster : Roster (Subscription Call)} (ordered : Ordered roster) :
    Orderly roster := by
  have arranged : ∀ pass ∈ roster.passes ++ roster.finished, Arranged roster pass.view := by
    intro pass member
    rcases List.mem_append.mp member with open_ | ended
    · exact ordered.passes _ (List.mem_map_of_mem open_)
    · exact ordered.finished _ (List.mem_map_of_mem ended)
  refine ⟨ordered.lawful, fun pass member => ?_, fun pass member order => ?_,
    fun pass member other others => ?_,
    fun pass member => visited_sublist (ordered.lawful.faithful pass member),
    fun sub labels after gone ran => ?_⟩
  · obtain ⟨base, _, same⟩ := arranged pass member
    exact (show pass.opening = _ from same) ▸ arrange_sorted _ base
  · obtain ⟨base, inside, same⟩ := arranged pass member
    rw [show pass.opening = _ from same, arrange_stable]
    exact List.filter_sublist.trans inside
  · have same := ordered.shared _ (List.mem_map_of_mem member) _ (List.mem_map_of_mem others)
    exact ⟨congrArg Prod.fst same, congrArg Prod.snd same⟩
  · exact run_preserves (fun _ _ _ => step_gone) gone ran

end VoltMod.CallbackList
