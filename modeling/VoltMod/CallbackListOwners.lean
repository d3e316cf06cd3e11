import VoltMod.CallbackListRefinement

/-! A callback list as its owners see it: every plugin adds under its own order, and what it
is subscribed to changes by its own additions and removals alone, whatever passes are open. -/
namespace VoltMod.CallbackList
open Transition SnapshotPass StableOrder

variable {Call : Type}

/-- What is subscribed under an order, also while it waits for a pass to end. -/
def callsOf (order : Nat) (list : Callbacks Call) : List (Subscription Call) :=
  ((list.entries ++ list.pending).filter fun entry =>
    !entry.removed && entry.order = order).map Entry.toSubscription

variable [DecidableEq Call]

structure Tracked (list : Callbacks Call) : Prop where
  follows : ∃ roster, Ordered roster ∧ Simulates list roster
  nested : ∀ frame ∈ list.frames.tail, frame.inCall = true

theorem tracked_empty : Tracked (empty : Callbacks Call) :=
  ⟨⟨Roster.empty, ordered_empty, simulates_empty⟩, by simp [empty]⟩

theorem callsOf_follows {base waiting : List (Subscription Call)} {list : Callbacks Call}
    {roster : Roster (Subscription Call)} (follows : Follows base waiting list roster)
    (order : Nat) : callsOf order list = roster.live.filter fun sub => sub.order = order := by
  have stored : (list.entries.filter fun entry => !entry.removed && entry.order = order).map
      Entry.toSubscription =
        (base.filter fun sub => sub ∈ roster.live).filter fun sub => sub.order = order := by
    have apart : ∀ sub : Subscription Call,
        (!(entryOf roster.live sub).removed && decide ((entryOf roster.live sub).order = order)) =
          (decide (sub ∈ roster.live) && decide (sub.order = order)) := by
      intro sub
      simp [entryOf]
    rw [follows.entries, List.filter_map, List.map_map]
    simp only [Function.comp_def, apart]
    rw [show (fun sub : Subscription Call => (entryOf roster.live sub).toSubscription) = id from rfl,
      List.map_id, ← List.filter_filter]
    -- Of one order the arranged entries stand as they came.
    rw [arrange_stable, List.filter_comm]
  have waits : (list.pending.filter fun entry => !entry.removed && entry.order = order).map
      Entry.toSubscription = waiting.filter fun sub => sub.order = order := by
    rw [follows.pending, List.filter_map, List.map_map]
    exact List.map_id _
  rw [callsOf, List.filter_append, List.map_append, stored, waits, follows.live,
    List.filter_append, ← follows.live]

/-- What a step leaves subscribed under an order. -/
def effect (order : Nat) : Label Call → List (Subscription Call) → List (Subscription Call)
  | .add token owner call, subs => if owner = order then subs ++ [⟨token, owner, call⟩] else subs
  | .remove token, subs => subs.filter fun sub => sub.token ≠ token
  | _, subs => subs

theorem roster_effect {before after : Roster (Subscription Call)} {label : Label Call}
    (taken : rosterStep before label = some after) (order : Nat) :
    after.live.filter (fun sub => sub.order = order) =
      effect order label (before.live.filter fun sub => sub.order = order) := by
  cases label with
  | add token owner call =>
      simp only [rosterStep, Option.ite_none_left_eq_some, subscribe,
        Option.ite_none_right_eq_some, Option.some.injEq] at taken
      obtain ⟨_, _, rfl⟩ := taken
      by_cases own : owner = order
      · simp [effect, own]
      · simp [effect, own]
  | remove token =>
      simp only [rosterStep, drop, Option.ite_none_right_eq_some, Option.some.injEq] at taken
      obtain ⟨_, rfl⟩ := taken
      rw [effect, List.filter_comm]
      simp
  | dispatch only =>
      simp only [rosterStep, openPass, Option.ite_none_right_eq_some, Option.some.injEq] at taken
      obtain ⟨_, rfl⟩ := taken
      rfl
  | iterate =>
      simp only [rosterStep, takeTurn] at taken
      split at taken
      · cases taken
      · split at taken
        · cases taken
        · split at taken
          · cases taken
          · cases taken
            rfl
  | returnCall claims =>
      simp only [rosterStep, SnapshotPass.returnCall] at taken
      split at taken
      · cases taken
      · split at taken
        · cases taken
          rfl
        · cases taken
  | endWalk =>
      obtain ⟨_, _, _, _, _, rfl⟩ := closePass_cases taken
      rfl

omit [DecidableEq Call] in
@[simp] theorem remove_frames (token : Nat) (list : Callbacks Call) :
    (remove token list).2.frames = list.frames := by
  unfold remove
  split
  · dsimp only
    split
    · rfl
    · rfl
  · split
    · rfl
    · rfl

omit [DecidableEq Call] in
@[simp] theorem remove_issued (token : Nat) (list : Callbacks Call) :
    (remove token list).2.issued = list.issued := by
  unfold remove
  split
  · dsimp only
    split
    · rfl
    · rfl
  · split
    · rfl
    · rfl

omit [DecidableEq Call] in
@[simp] theorem add_frames (token order : Nat) (call : Call) (list : Callbacks Call) :
    (add token order call list).frames = list.frames := by
  unfold add
  dsimp only
  split
  · rfl
  · rfl

omit [DecidableEq Call] in
theorem calling_frames {before after : Callbacks Call} (same : after.frames = before.frames) :
    calling after = calling before := by
  unfold calling
  rw [same]

omit [DecidableEq Call] in
theorem iterate_cases {before after : Callbacks Call} (taken : iterate before = some after) :
    ∃ frame outer, before.frames = frame :: outer ∧
      ∃ next, after = { before with frames := next :: outer } := by
  unfold iterate at taken
  split at taken
  · cases taken
  · next frame outer frames =>
      split at taken
      · cases taken
      · split at taken
        · cases taken
        · cases taken
          exact ⟨frame, outer, frames, _, rfl⟩

omit [DecidableEq Call] in
theorem returnCall_cases {claims : Bool} {before after : Callbacks Call}
    (taken : returnCall claims before = some after) :
    ∃ frame outer, before.frames = frame :: outer ∧
      ∃ next, after = { before with frames := next :: outer } := by
  unfold returnCall at taken
  split at taken
  · cases taken
  · next frame outer frames =>
      split at taken
      · cases taken
        exact ⟨frame, outer, frames, _, rfl⟩
      · cases taken

omit [DecidableEq Call] in
theorem endWalk_cases {before after : Callbacks Call} (taken : endWalk before = some after) :
    ∃ frame outer, before.frames = frame :: outer ∧ after.frames = outer ∧
      after.issued = before.issued := by
  unfold endWalk at taken
  split at taken
  · cases taken
  · next frame outer frames =>
      split at taken
      · dsimp only at taken
        cases taken
        refine ⟨frame, outer, frames, ?_, ?_⟩
        · split
          · rfl
          · rfl
        · split
          · rfl
          · rfl
      · cases taken

omit [DecidableEq Call] in
/-- The passes outside the innermost one wait for a callback of theirs. -/
theorem nested_step {before after : Callbacks Call} {label : Label Call}
    (nested : ∀ frame ∈ before.frames.tail, frame.inCall = true)
    (taken : step before label = some after) :
    ∀ frame ∈ after.frames.tail, frame.inCall = true := by
  cases label with
  | add token order call =>
      simp only [step, Option.ite_none_right_eq_some, Option.some.injEq] at taken
      obtain ⟨_, rfl⟩ := taken
      rwa [add_frames]
  | remove token =>
      simp only [step, Option.ite_none_right_eq_some, Option.some.injEq] at taken
      obtain ⟨_, rfl⟩ := taken
      rwa [remove_frames]
  | dispatch only =>
      simp only [step, Option.ite_none_right_eq_some, Option.some.injEq] at taken
      obtain ⟨calls, rfl⟩ := taken
      unfold calling at calls
      intro frame member
      cases frames : before.frames with
      | nil => simp [beginWalk, frames] at member
      | cons inner outer =>
          rw [frames] at calls nested
          simp only [beginWalk, frames, List.tail_cons] at member
          rcases List.mem_cons.mp member with rfl | older
          · exact calls
          · exact nested frame older
  | iterate =>
      obtain ⟨frame, outer, frames, next, rfl⟩ := iterate_cases taken
      rw [frames] at nested
      exact nested
  | returnCall claims =>
      obtain ⟨frame, outer, frames, next, rfl⟩ := returnCall_cases taken
      rw [frames] at nested
      exact nested
  | endWalk =>
      obtain ⟨frame, outer, frames, left, _⟩ := endWalk_cases taken
      rw [frames] at nested
      rw [left]
      exact fun older member => nested older (List.mem_of_mem_tail member)

/-- A step of a list changes what is subscribed under an order as the label says. -/
theorem step_effect {before after : Callbacks Call} {label : Label Call}
    (tracked : Tracked before) (taken : step before label = some after) :
    Tracked after ∧ ∀ order, callsOf order after = effect order label (callsOf order before) := by
  obtain ⟨⟨roster, ordered, simulates⟩, nested⟩ := tracked
  have together := step_simulates label ordered simulates
  rw [taken] at together
  cases rosterTaken : rosterStep roster label with
  | none =>
      rw [rosterTaken] at together
      cases together
  | some next =>
      rw [rosterTaken] at together
      cases together with
      | some later =>
          refine ⟨⟨⟨next, step_ordered roster label next ordered rosterTaken, later⟩,
            nested_step nested taken⟩, fun order => ?_⟩
          obtain ⟨_, _, old⟩ := simulates
          obtain ⟨_, _, new⟩ := later
          rw [callsOf_follows old, callsOf_follows new]
          exact roster_effect rosterTaken order

/-- Adding under a token that was never issued. -/
theorem add_effect {list : Callbacks Call} {token owner : Nat} {call : Call}
    (tracked : Tracked list) (calls : calling list = true) (fresh : token ∉ list.issued) :
    Tracked { add token owner call list with issued := list.issued ++ [token] } ∧
      ∀ order, callsOf order { add token owner call list with issued := list.issued ++ [token] } =
        effect order (.add token owner call) (callsOf order list) := by
  apply step_effect tracked
  simp [step, calls, fresh]

theorem remove_effect {list : Callbacks Call} {token : Nat} (tracked : Tracked list)
    (calls : calling list = true) :
    Tracked (remove token list).2 ∧ ∀ order, callsOf order (remove token list).2 =
      (callsOf order list).filter fun sub => sub.token ≠ token := by
  have taken : step list (.remove token) = some (remove token list).2 := by simp [step, calls]
  exact step_effect tracked taken

theorem callsOf_issued {list : Callbacks Call} (tracked : Tracked list) {order : Nat}
    {sub : Subscription Call} (member : sub ∈ callsOf order list) :
    sub.token ∈ list.issued ∧ sub.order = order := by
  obtain ⟨⟨roster, ordered, base, waiting, follows⟩, _⟩ := tracked
  rw [callsOf_follows follows] at member
  obtain ⟨live, own⟩ := List.mem_filter.mp member
  refine ⟨?_, of_decide_eq_true own⟩
  rw [follows.issued]
  exact List.mem_map_of_mem (ordered.lawful.live.subset live)

/-- A token is subscribed once, whatever the order. -/
theorem callsOf_token {list : Callbacks Call} (tracked : Tracked list) {order other : Nat}
    {sub same : Subscription Call} (here : sub ∈ callsOf order list)
    (there : same ∈ callsOf other list) (token : sub.token = same.token) : sub = same := by
  obtain ⟨⟨roster, ordered, base, waiting, follows⟩, _⟩ := tracked
  rw [callsOf_follows follows] at here there
  exact List.inj_on_of_nodup_map ordered.tokens
    (ordered.lawful.live.subset (List.mem_of_mem_filter here))
    (ordered.lawful.live.subset (List.mem_of_mem_filter there)) token

theorem callsOf_nodup {list : Callbacks Call} (tracked : Tracked list) (order : Nat) :
    ((callsOf order list).map Subscription.token).Nodup := by
  obtain ⟨⟨roster, ordered, base, waiting, follows⟩, _⟩ := tracked
  rw [callsOf_follows follows]
  exact ((List.filter_sublist.trans ordered.lawful.live).map _).nodup ordered.tokens

/-- Where the passes outside wait, a list whose innermost pass has ended is called again. -/
theorem endWalk_calling {before after : Callbacks Call} (tracked : Tracked before)
    (taken : endWalk before = some after) : calling after = true := by
  obtain ⟨frame, outer, frames, left, _⟩ := endWalk_cases taken
  have nested := tracked.nested
  rw [frames] at nested
  unfold calling
  rw [left]
  cases outer with
  | nil => rfl
  | cons inner others => exact nested inner List.mem_cons_self

end VoltMod.CallbackList
