import VoltMod.CallbackList

/-! The entries, tombstones and waiting additions of a callback list, related to the
roster of its subscriptions: while a pass is open the entries are what the outermost
pass took, marked where dropped, and whatever came since waits aside. -/
namespace VoltMod.CallbackList
open Transition SnapshotPass StableOrder

variable {Call : Type} [DecidableEq Call]

def entryOf (live : List (Subscription Call)) (sub : Subscription Call) :
    Entry Call := ⟨sub, decide (sub ∉ live)⟩

def fresh (sub : Subscription Call) : Entry Call := ⟨sub, false⟩

structure Tracks (frame : Frame Call) (pass : Pass (Subscription Call)) : Prop where
  index : frame.index = pass.turns.length
  count : frame.count = pass.opening.length
  inCall : frame.inCall = pass.inCall
  stopped : frame.stopped = pass.stopped
  visited : frame.visited = pass.visited
  wanted : pass.wanted = asked frame.only
  heeds : pass.heeds = frame.only.isNone

/-- `base` is what the outermost pass opened with, or everything while none is open;
`waiting` came since. -/
structure Follows (base waiting : List (Subscription Call))
    (list : Callbacks Call) (roster : Roster (Subscription Call)) : Prop where
  entries : list.entries = (arrange Subscription.order base).map (entryOf roster.live)
  pending : list.pending = waiting.map fresh
  live : roster.live = base.filter (fun sub => sub ∈ roster.live) ++ waiting
  inside : base.Sublist roster.ever
  issued : list.issued = roster.ever.map Subscription.token
  depth : list.depth = list.frames.length
  frames : List.Forall₂ Tracks list.frames roster.passes
  finished : List.Forall₂ Tracks list.finished roster.finished
  openings : ∀ pass ∈ roster.passes, pass.opening = arrange Subscription.order base
  closed : roster.passes = [] → base = roster.live

theorem filter_mem_self (subs : List (Subscription Call)) :
    subs.filter (fun sub => sub ∈ subs) = subs := by
  rw [List.filter_eq_self]
  simp

theorem entryOf_fresh {live : List (Subscription Call)} {sub : Subscription Call}
    (member : sub ∈ live) : entryOf live sub = fresh sub := by
  simp [entryOf, fresh, member]

theorem insert_entryOf (live : List (Subscription Call)) (sub : Subscription Call)
    (subs : List (Subscription Call)) :
    insert (entryOf live sub) (subs.map (entryOf live)) =
      (place Subscription.order sub subs).map (entryOf live) := by
  rw [← place_map Subscription.order (entryOf live) (fun entry => entry.order) fun _ => rfl]
  exact insert_before_greater (fun entry : Entry Call => entry.order) _ _

theorem insert_all (live : List (Subscription Call)) (waiting subs : List (Subscription Call)) :
    (waiting.map (entryOf live)).foldl (fun entries entry => insert entry entries)
        (subs.map (entryOf live)) =
      (waiting.foldl (fun placed sub => place Subscription.order sub placed) subs).map
        (entryOf live) := by
  induction waiting generalizing subs with
  | nil => rfl
  | cons sub rest ih =>
      rw [List.map_cons, List.foldl_cons, insert_entryOf, ih, List.foldl_cons]

theorem unremoved (live : List (Subscription Call)) (subs : List (Subscription Call)) :
    (subs.map (entryOf live)).filter (fun entry => !entry.removed) =
      (subs.filter fun sub => sub ∈ live).map (entryOf live) := by
  rw [List.filter_map]
  congr 2
  funext sub
  simp [entryOf]

/-- What lands when the last pass ends: everything still subscribed, arranged. -/
theorem applyPending_entries {live base waiting : List (Subscription Call)}
    {list : Callbacks Call}
    (entries : list.entries = (arrange Subscription.order base).map (entryOf live))
    (pending : list.pending = waiting.map fresh)
    (split : live = base.filter (fun sub => sub ∈ live) ++ waiting) :
    (applyPending list).entries = (arrange Subscription.order live).map (entryOf live) := by
  have added : waiting.map fresh = waiting.map (entryOf live) := by
    refine List.map_congr_left fun sub member => (entryOf_fresh ?_).symm
    rw [split]
    exact List.mem_append_right _ member
  simp only [applyPending, entries, pending, added, unremoved, insert_all]
  rw [arrange_filter, ← arrange_append, ← split]

theorem mark_entryOf {token : Nat} {live subs : List (Subscription Call)}
    (distinct : (subs.map Subscription.token).Nodup) :
    mark token (subs.map (entryOf live)) =
      if ∃ sub ∈ subs, sub.token = token ∧ sub ∈ live then
        some (subs.map (entryOf (live.filter fun sub => !decide (sub.token = token))))
      else none := by
  induction subs with
  | nil => simp [mark]
  | cons sub rest ih =>
      obtain ⟨absent, tail⟩ := List.nodup_cons.mp (List.map_cons ▸ distinct)
      rw [List.map_cons, mark]
      by_cases found : sub.token = token ∧ sub ∈ live
      · have others : ∀ other ∈ rest, other.token ≠ token := fun other member same =>
          absent (found.1 ▸ same ▸ List.mem_map_of_mem member)
        have same : rest.map (entryOf live) =
            rest.map (entryOf (live.filter fun sub => !decide (sub.token = token))) := by
          apply List.map_congr_left
          intro other member
          simp [entryOf, others other member]
        simp [entryOf, found.1, found.2, same]
      -- A tombstone or another's token: the loop goes on, and neither entry changes.
      · have passed : (entryOf live sub).token ≠ token ∨ (entryOf live sub).removed = true := by
          simpa [entryOf, ← imp_iff_not_or] using found
        have kept : entryOf live sub =
            entryOf (live.filter fun sub => !decide (sub.token = token)) sub := by
          by_cases other : sub.token = token
          · have absent : sub ∉ live := fun member => found ⟨other, member⟩
            simp [entryOf, other, absent]
          · simp [entryOf, other]
        rw [if_pos passed, ih tail]
        by_cases later : ∃ other ∈ rest, other.token = token ∧ other ∈ live
        · have here : ∃ other ∈ sub :: rest, other.token = token ∧ other ∈ live := by
            obtain ⟨other, member, holds⟩ := later
            exact ⟨other, List.mem_cons_of_mem _ member, holds⟩
          rw [if_pos later, if_pos here, Option.map_some, List.map_cons, ← kept]
        · have nowhere : ¬∃ other ∈ sub :: rest, other.token = token ∧ other ∈ live := by
            rintro ⟨other, member, holds⟩
            rcases List.mem_cons.mp member with rfl | member
            · exact found holds
            · exact later ⟨other, member, holds⟩
          rw [if_neg later, if_neg nowhere, Option.map_none]

theorem follows_waiting_live {base waiting : List (Subscription Call)} {list : Callbacks Call}
    {roster : Roster (Subscription Call)} (follows : Follows base waiting list roster) :
    waiting ⊆ roster.live := by
  intro sub member
  rw [follows.live]
  exact List.mem_append_right _ member

theorem follows_waiting_outside {base waiting : List (Subscription Call)} {list : Callbacks Call}
    {roster : Roster (Subscription Call)} (lawful : Lawful roster)
    (follows : Follows base waiting list roster) : ∀ sub ∈ waiting, sub ∉ base := by
  intro sub member inside
  have distinct := lawful.live.nodup lawful.distinct
  rw [follows.live] at distinct
  have kept : sub ∈ base.filter fun sub => sub ∈ roster.live :=
    List.mem_filter.mpr ⟨inside, by simpa using follows_waiting_live follows member⟩
  exact (List.nodup_append.mp distinct).2.2 sub kept sub member rfl

theorem follows_closed {base waiting : List (Subscription Call)} {list : Callbacks Call}
    {roster : Roster (Subscription Call)} (follows : Follows base waiting list roster)
    (closed : roster.passes = []) : base = roster.live ∧ waiting = [] := by
  have same := follows.closed closed
  have split := follows.live
  rw [same, filter_mem_self] at split
  exact ⟨same, List.append_right_eq_self.mp split.symm⟩

theorem follows_calling {base waiting : List (Subscription Call)} {list : Callbacks Call}
    {roster : Roster (Subscription Call)} (follows : Follows base waiting list roster) :
    calling list = roster.idle := by
  rcases tracked_cases follows.frames with
    ⟨none, closed⟩ | ⟨frame, outer, pass, passes, top, inner, tracks, _⟩
  · simp [calling, Roster.idle, none, closed]
  · simp [calling, Roster.idle, top, inner, tracks.inCall]

theorem follows_depth {base waiting : List (Subscription Call)} {list : Callbacks Call}
    {roster : Roster (Subscription Call)} (follows : Follows base waiting list roster) :
    list.depth = 0 ↔ roster.passes = [] := by
  rw [follows.depth, List.length_eq_zero_iff, tracked_nil_iff follows.frames]

def Simulates (list : Callbacks Call) (roster : Roster (Subscription Call)) : Prop :=
  ∃ base waiting, Follows base waiting list roster

theorem entryOf_later {live : List (Subscription Call)} {sub other : Subscription Call}
    (different : other ≠ sub) : entryOf (live ++ [sub]) other = entryOf live other := by
  simp [entryOf, different]

theorem add_follows {sub : Subscription Call} {base waiting : List (Subscription Call)}
    {list : Callbacks Call} {roster : Roster (Subscription Call)}
    (follows : Follows base waiting list roster) (unused : sub ∉ roster.ever) :
    ∃ base waiting, Follows base waiting
      { add sub.token sub.order sub.call list with issued := list.issued ++ [sub.token] }
      { roster with ever := roster.ever ++ [sub], live := roster.live ++ [sub] } := by
  have others : ∀ other ∈ base, other ≠ sub := fun other member same =>
    unused (same ▸ follows.inside.subset member)
  have kept : base.filter (fun other => other ∈ roster.live ++ [sub]) =
      base.filter fun other => other ∈ roster.live := by
    apply List.filter_congr
    intro other member
    simp [others other member]
  have unchanged : (arrange Subscription.order base).map (entryOf (roster.live ++ [sub])) =
      (arrange Subscription.order base).map (entryOf roster.live) := by
    refine List.map_congr_left fun other member => entryOf_later ?_
    exact others other ((arrange_perm _ base).mem_iff.mp member)
  have issued : list.issued ++ [sub.token] =
      (roster.ever ++ [sub]).map Subscription.token := by simp [follows.issued]
  -- Inside a pass the addition waits; outside every pass it takes its place at once.
  by_cases open_ : 0 < list.depth
  · refine ⟨base, waiting ++ [sub], ?_⟩
    have closed : roster.passes ≠ [] := fun none =>
      absurd ((follows_depth follows).mpr none) (Nat.ne_of_gt open_)
    simp only [add, if_pos open_]
    exact { follows with
      entries := by rw [unchanged, follows.entries]
      pending := by simp [follows.pending, fresh]
      live := by
        rw [kept, ← List.append_assoc, ← follows.live]
      inside := follows.inside.trans (List.sublist_append_left _ _)
      issued := issued
      closed := fun none => absurd none closed }
  · have closed : roster.passes = [] := (follows_depth follows).mp (by omega)
    obtain ⟨rfl, rfl⟩ := follows_closed follows closed
    refine ⟨roster.live ++ [sub], [], ?_⟩
    simp only [add, if_neg open_]
    exact { follows with
      entries := by
        have last : (⟨sub, false⟩ : Entry Call) = entryOf (roster.live ++ [sub]) sub := by
          simp [entryOf]
        rw [arrange_append_singleton, ← insert_entryOf, unchanged, follows.entries, ← last]
      live := by rw [filter_mem_self, List.append_nil]
      inside := follows.inside.append_right [sub]
      issued := issued
      openings := by simp [closed]
      closed := fun _ => rfl }

theorem add_simulates {token order : Nat} {call : Call} {list : Callbacks Call}
    {roster : Roster (Subscription Call)} (simulates : Simulates list roster) :
    Option.Rel Simulates (step list (.add token order call))
      (rosterStep roster (.add token order call)) := by
  obtain ⟨base, waiting, follows⟩ := simulates
  have used : list.issued.contains token = roster.ever.any fun sub => sub.token = token := by
    rw [follows.issued, Bool.eq_iff_iff]
    simp
  simp only [step, rosterStep, follows_calling follows, used]
  by_cases known : (roster.ever.any fun sub => sub.token = token) = true
  · simp only [known, Bool.not_true, Bool.and_false, if_true]
    exact .none
  · have unused : token ∉ roster.ever.map Subscription.token := by simpa using known
    have new : (⟨token, order, call⟩ : Subscription Call) ∉ roster.ever := fun member =>
      unused (List.mem_map_of_mem member)
    by_cases idle : roster.idle = true
    · simp only [known, idle, subscribe, if_true]
      exact .some (add_follows follows new)
    · simp [known, idle, subscribe]

theorem follows_filter {base waiting : List (Subscription Call)} {list : Callbacks Call}
    {roster : Roster (Subscription Call)} (follows : Follows base waiting list roster)
    (keep : Subscription Call → Bool) :
    roster.live.filter keep =
      base.filter (fun sub => sub ∈ roster.live.filter keep) ++ waiting.filter keep := by
  have parts := congrArg (List.filter keep) follows.live
  rw [List.filter_append, List.filter_filter] at parts
  rw [parts]
  congr 1
  apply List.filter_congr
  intro sub _
  rw [← parts, Bool.eq_iff_iff]
  simp [and_comm]

theorem mark_follows {base waiting : List (Subscription Call)} {list : Callbacks Call}
    {roster : Roster (Subscription Call)} (distinct : (roster.ever.map Subscription.token).Nodup)
    (follows : Follows base waiting list roster) (token : Nat) :
    mark token list.entries =
      if ∃ sub ∈ base, sub.token = token ∧ sub ∈ roster.live then
        some ((arrange Subscription.order base).map
          (entryOf (roster.live.filter fun sub => !decide (sub.token = token))))
      else none := by
  have arranged := arrange_perm Subscription.order base
  have once : ((arrange Subscription.order base).map Subscription.token).Nodup :=
    (arranged.map Subscription.token).nodup_iff.mpr
      ((follows.inside.map Subscription.token).nodup distinct)
  rw [follows.entries, mark_entryOf once]
  simp only [arranged.mem_iff]

theorem remove_entry_follows {token : Nat} {base waiting : List (Subscription Call)}
    {list : Callbacks Call} {roster : Roster (Subscription Call)} (lawful : Lawful roster)
    (distinct : (roster.ever.map Subscription.token).Nodup)
    (follows : Follows base waiting list roster)
    (found : ∃ sub ∈ base, sub.token = token ∧ sub ∈ roster.live) :
    ∃ base waiting, Follows base waiting (remove token list).2
      { roster with live := roster.live.filter fun sub => !decide (sub.token = token) } := by
  have marked := mark_follows distinct follows token
  rw [if_pos found] at marked
  obtain ⟨sub, member, owner, _⟩ := found
  have kept : waiting.filter (fun sub => !decide (sub.token = token)) = waiting := by
    rw [List.filter_eq_self]
    intro other waits
    have elsewhere : other ≠ sub := fun same =>
      follows_waiting_outside lawful follows other waits (same ▸ member)
    have known := lawful.live.subset (follows_waiting_live follows waits)
    have injective := List.inj_on_of_nodup_map distinct known (follows.inside.subset member)
    simpa using fun same : other.token = token => elsewhere (injective (same.trans owner.symm))
  have split := follows_filter follows fun sub => !decide (sub.token = token)
  rw [kept] at split
  simp only [remove, marked]
  -- Outside every pass the marked entry is swept right away.
  by_cases closed : roster.passes = []
  · have settled := @applyPending_entries _ _ _ _ _ { list with
        entries := (arrange Subscription.order base).map
          (entryOf (roster.live.filter fun sub => !decide (sub.token = token))) }
      rfl follows.pending split
    refine ⟨roster.live.filter fun sub => !decide (sub.token = token), [], ?_⟩
    rw [if_pos ((follows_depth follows).mpr closed)]
    exact { follows with
      entries := settled
      pending := rfl
      live := by rw [filter_mem_self, List.append_nil]
      inside := List.filter_sublist.trans lawful.live
      openings := by simp [closed]
      closed := fun _ => rfl }
  · refine ⟨base, waiting, ?_⟩
    rw [if_neg fun zero => closed ((follows_depth follows).mp zero)]
    exact { follows with
      entries := rfl
      live := split
      closed := fun none => absurd none closed }

omit [DecidableEq Call] in
theorem erase_pending {token : Nat} {waiting : List (Subscription Call)}
    (distinct : (waiting.map Subscription.token).Nodup) :
    (waiting.map fresh).eraseP (fun entry => entry.token = token) =
      (waiting.filter fun sub => !decide (sub.token = token)).map fresh := by
  induction waiting with
  | nil => rfl
  | cons sub rest ih =>
      obtain ⟨absent, tail⟩ := List.nodup_cons.mp (List.map_cons ▸ distinct)
      by_cases owner : sub.token = token
      · have others : rest.filter (fun sub => !decide (sub.token = token)) = rest := by
          rw [List.filter_eq_self]
          intro other member
          have different : other.token ≠ token := fun same =>
            absent (owner ▸ same ▸ List.mem_map_of_mem member)
          simpa using different
        simp [fresh, owner, others]
      · simp [fresh, owner, ih tail]

omit [DecidableEq Call] in
theorem remove_pending_list {token : Nat} {waiting : List (Subscription Call)}
    {list : Callbacks Call} (pending : list.pending = waiting.map fresh)
    (distinct : (waiting.map Subscription.token).Nodup)
    (unmarked : mark token list.entries = none) :
    (remove token list).2 = { list with
      pending := (waiting.filter fun sub => !decide (sub.token = token)).map fresh } := by
  rw [← erase_pending distinct, ← pending]
  simp only [remove, unmarked]
  split
  · rfl
  · next absent =>
      rw [List.eraseP_of_forall_not]
      simpa using absent

theorem remove_pending_follows {token : Nat} {base waiting : List (Subscription Call)}
    {list : Callbacks Call} {roster : Roster (Subscription Call)} (lawful : Lawful roster)
    (distinct : (roster.ever.map Subscription.token).Nodup)
    (follows : Follows base waiting list roster)
    (absent : ¬∃ sub ∈ base, sub.token = token ∧ sub ∈ roster.live) :
    ∃ base waiting, Follows base waiting (remove token list).2
      { roster with live := roster.live.filter fun sub => !decide (sub.token = token) } := by
  have unmarked := mark_follows distinct follows token
  rw [if_neg absent] at unmarked
  have came : waiting.Sublist roster.ever := by
    refine List.Sublist.trans ?_ lawful.live
    rw [follows.live]
    exact List.sublist_append_right _ _
  have once := (came.map Subscription.token).nodup distinct
  rw [remove_pending_list follows.pending once unmarked]
  have kept : ∀ sub ∈ base, sub ∈ roster.live → sub.token ≠ token := fun sub member live same =>
    absent ⟨sub, member, same, live⟩
  refine ⟨base, waiting.filter fun sub => !decide (sub.token = token), ?_⟩
  exact { follows with
    entries := by
      rw [follows.entries]
      apply List.map_congr_left
      intro sub member
      have inside := (arrange_perm Subscription.order base).mem_iff.mp member
      by_cases live : sub ∈ roster.live
      · simp [entryOf, live, kept sub inside live]
      · simp [entryOf, live]
    pending := rfl
    live := follows_filter follows _
    closed := fun closed => by
      obtain ⟨same, _⟩ := follows_closed follows closed
      subst same
      refine (List.filter_eq_self.mpr fun sub member => ?_).symm
      simpa using kept sub member member }

theorem remove_simulates {token : Nat} {list : Callbacks Call}
    {roster : Roster (Subscription Call)} (ordered : Ordered roster)
    (simulates : Simulates list roster) :
    Option.Rel Simulates (step list (.remove token)) (rosterStep roster (.remove token)) := by
  obtain ⟨base, waiting, follows⟩ := simulates
  simp only [step, rosterStep, follows_calling follows]
  by_cases idle : roster.idle = true
  · have taken : drop (fun sub => decide (sub.token = token)) roster = some { roster with
        live := roster.live.filter fun sub => !decide (sub.token = token) } := by
      rw [drop, if_pos idle]
    rw [if_pos idle, taken]
    refine .some ?_
    by_cases found : ∃ sub ∈ base, sub.token = token ∧ sub ∈ roster.live
    · exact remove_entry_follows ordered.lawful ordered.tokens follows found
    · exact remove_pending_follows ordered.lawful ordered.tokens follows found
  · simp [idle, drop]

theorem dispatch_simulates {only : Option Nat} {list : Callbacks Call}
    {roster : Roster (Subscription Call)} (simulates : Simulates list roster) :
    Option.Rel Simulates (step list (.dispatch only)) (rosterStep roster (.dispatch only)) := by
  obtain ⟨base, waiting, follows⟩ := simulates
  have opened : (opening roster).1 = arrange Subscription.order base := by
    unfold opening
    split
    · next closed =>
        rw [(follows_closed follows (List.getLast?_eq_none_iff.mp closed)).1]
    · next outermost last =>
        exact follows.openings outermost (List.mem_of_getLast? last)
  simp only [step, rosterStep, follows_calling follows]
  by_cases idle : roster.idle = true
  · have taken : openPass (opening roster).1 (opening roster).2 (asked only) only.isNone roster =
        some { roster with
          passes := ⟨(opening roster).1, (opening roster).2, roster.live, asked only, only.isNone,
            [], [], [], false, false⟩ :: roster.passes } := by
      rw [openPass, if_pos idle]
    rw [if_pos idle, taken]
    refine .some ⟨base, waiting, ?_⟩
    exact { follows with
      depth := by simp [beginWalk, follows.depth]
      frames := by
        refine .cons ⟨rfl, ?_, rfl, rfl, rfl, rfl, rfl⟩ follows.frames
        rw [follows.entries, opened, List.length_map]
      openings := by
        intro pass member
        rcases List.mem_cons.mp member with rfl | outer
        · exact opened
        · exact follows.openings pass outer
      closed := by simp }
  · simp [idle, openPass]

theorem visit_tracks {frame : Frame Call} {pass : Pass (Subscription Call)}
    (tracks : Tracks frame pass) (outside : pass.inCall = false)
    (live : List (Subscription Call)) (sub : Subscription Call) :
    Tracks (frame.visit (entryOf live sub)) (pass.turned sub (decide (sub ∈ live))) := by
  have called : (!(entryOf live sub).removed && frame.asked (entryOf live sub).order) =
      (decide (sub ∈ live) && pass.wanted sub) := by
    simp [entryOf, Frame.asked, tracks.wanted, asked]
  have index : frame.index + 1 = (pass.turns ++ [(sub, decide (sub ∈ live))]).length := by
    simp [tracks.index]
  by_cases visits : (decide (sub ∈ live) && pass.wanted sub) = true
  · simp only [Frame.visit, called, visits, if_true, Pass.turned]
    exact { tracks with index, inCall := rfl, visited := by rw [tracks.visited]; rfl }
  · simp only [Frame.visit, called, visits, Pass.turned]
    exact { tracks with index, inCall := by simp [tracks.inCall, outside] }

theorem iterate_simulates {list : Callbacks Call} {roster : Roster (Subscription Call)}
    (simulates : Simulates list roster) :
    Option.Rel Simulates (step list .iterate) (rosterStep roster .iterate) := by
  obtain ⟨base, waiting, follows⟩ := simulates
  rcases tracked_cases follows.frames with
    ⟨none, closed⟩ | ⟨frame, outer, pass, passes, top, inner, tracks, rest⟩
  · simp [step, iterate, rosterStep, takeTurn, none, closed]
  · simp only [step, iterate, rosterStep, takeTurn, top, inner]
    by_cases busy : (pass.inCall || pass.stopped) = true
    · simp [tracks.inCall, tracks.stopped, busy]
    · have same : pass.opening = arrange Subscription.order base :=
        follows.openings pass (by simp [inner])
      have entry : list.entries[frame.index]? =
          pass.opening[pass.turns.length]?.map (entryOf roster.live) := by
        rw [follows.entries, tracks.index, same, List.getElem?_map]
      cases next : pass.opening[pass.turns.length]? with
      | none =>
          have ended := List.getElem?_eq_none_iff.mp next
          simp [tracks.inCall, tracks.stopped, tracks.count, tracks.index, busy, ended]
      | some sub =>
          have going := (List.getElem?_eq_some_iff.mp next).1
          have outside : pass.inCall = false := by
            simp only [Bool.or_eq_true, not_or, Bool.not_eq_true] at busy
            exact busy.1
          have taken : takeTurn roster = some { roster with
              passes := pass.turned sub (decide (sub ∈ roster.live)) :: passes } := by
            simp [takeTurn, inner, busy, next]
          have loops : ¬(frame.inCall || frame.stopped || decide (frame.count ≤ frame.index)) =
              true := by
            simpa [tracks.inCall, tracks.stopped, tracks.count, tracks.index, going] using busy
          rw [if_neg loops, if_neg busy, entry, next]
          refine .some ⟨base, waiting, ?_⟩
          exact { follows with
            depth := by simp [follows.depth, top]
            frames := .cons (visit_tracks tracks outside roster.live sub) rest
            openings := by
              intro other member
              rcases List.mem_cons.mp member with rfl | inside
              · exact same
              · exact follows.openings other (by simp [inner, inside])
            closed := by simp }

theorem return_simulates {claims : Bool} {list : Callbacks Call}
    {roster : Roster (Subscription Call)} (simulates : Simulates list roster) :
    Option.Rel Simulates (step list (.returnCall claims))
      (rosterStep roster (.returnCall claims)) := by
  obtain ⟨base, waiting, follows⟩ := simulates
  rcases tracked_cases follows.frames with
    ⟨none, closed⟩ | ⟨frame, outer, pass, passes, top, inner, tracks, rest⟩
  · simp [step, returnCall, rosterStep, SnapshotPass.returnCall, none, closed]
  · simp only [step, returnCall, rosterStep, SnapshotPass.returnCall, top, inner, tracks.inCall]
    by_cases inside : pass.inCall = true
    · have taken : SnapshotPass.returnCall claims roster =
          some { roster with passes := pass.returned claims :: passes } := by
        simp [SnapshotPass.returnCall, inner, inside]
      rw [if_pos inside, if_pos inside]
      refine .some ⟨base, waiting, ?_⟩
      exact { follows with
        depth := by simp [follows.depth, top]
        frames := .cons { tracks with
          inCall := rfl
          stopped := by simp [Pass.returned, tracks.heeds] } rest
        openings := by
          intro other member
          rcases List.mem_cons.mp member with rfl | old
          · exact follows.openings pass (by simp [inner])
          · exact follows.openings other (by simp [inner, old])
        closed := by simp }
    · simp [inside]

theorem end_simulates {list : Callbacks Call} {roster : Roster (Subscription Call)}
    (ordered : Ordered roster)
    (simulates : Simulates list roster) :
    Option.Rel Simulates (step list .endWalk) (rosterStep roster .endWalk) := by
  obtain ⟨base, waiting, follows⟩ := simulates
  rcases tracked_cases follows.frames with
    ⟨none, closed⟩ | ⟨frame, outer, pass, passes, top, inner, tracks, rest⟩
  · simp [step, endWalk, rosterStep, closePass, none, closed]
  · have faithful := ordered.lawful.faithful pass (by simp [inner])
    have turned : pass.turns.length ≤ pass.opening.length := by
      simpa using faithful.inOrder.length_le
    -- The loop's own exit test, read off the pass.
    have closing : (!frame.inCall && (frame.stopped || decide (frame.count ≤ frame.index))) =
        pass.ended := by
      have ended : pass.opening.length ≤ pass.turns.length ↔
          pass.turns.length = pass.opening.length := by omega
      simp [Pass.ended, tracks.inCall, tracks.stopped, tracks.count, tracks.index, ended]
    simp only [step, endWalk, rosterStep, closePass, top, inner, closing]
    by_cases done : pass.ended = true
    · have taken : closePass roster = some { roster with
          passes := passes
          finished := roster.finished ++ [pass] } := by
        simp [closePass, inner, done]
      have depth : list.depth - 1 = outer.length := by simp [follows.depth, top]
      have finished : List.Forall₂ Tracks (list.finished ++ [frame]) (roster.finished ++ [pass]) :=
        List.rel_append follows.finished (.cons tracks .nil)
      rw [if_pos done, if_pos done]
      refine .some ?_
      cases rest with
      | nil =>
          -- The outermost pass ends: tombstones go and what waited lands in order.
          rw [if_pos (show list.depth - 1 = 0 from depth)]
          refine ⟨roster.live, [], ?_⟩
          exact { follows with
            entries := applyPending_entries follows.entries follows.pending follows.live
            pending := rfl
            live := by rw [filter_mem_self, List.append_nil]
            inside := ordered.lawful.live
            depth := depth
            frames := .nil
            finished := finished
            openings := by simp
            closed := fun _ => rfl }
      | cons next others =>
          rw [if_neg (by simp [depth])]
          refine ⟨base, waiting, ?_⟩
          exact { follows with
            depth := depth
            frames := .cons next others
            finished := finished
            openings := fun other member => follows.openings other (by simp [inner, member])
            closed := by simp }
    · simp [done]

theorem step_simulates {list : Callbacks Call} {roster : Roster (Subscription Call)}
    (label : Label Call) (ordered : Ordered roster) (simulates : Simulates list roster) :
    Option.Rel Simulates (step list label) (rosterStep roster label) := by
  cases label with
  | add token order call => exact add_simulates simulates
  | remove token => exact remove_simulates ordered simulates
  | dispatch only => exact dispatch_simulates simulates
  | iterate => exact iterate_simulates simulates
  | returnCall claims => exact return_simulates simulates
  | endWalk => exact end_simulates ordered simulates

theorem simulates_empty : Simulates (empty : Callbacks Call) Roster.empty := by
  refine ⟨[], [], ?_⟩
  constructor <;> simp [empty, Roster.empty, arrange]

/-- Outside every pass the entries are the live subscriptions, in order. -/
structure Settled (live : List (Subscription Call)) (list : Callbacks Call) : Prop where
  same : (list.entries.map Entry.toSubscription).Perm live
  sorted : Sorted Subscription.order (list.entries.map Entry.toSubscription)
  kept : ∀ entry ∈ list.entries, entry.removed = false
  landed : list.pending = []

/-- The list does what the roster of its subscriptions says. -/
structure Agrees (list : Callbacks Call) (roster : Roster (Subscription Call)) : Prop where
  frames : List.Forall₂ Tracks list.frames roster.passes
  finished : List.Forall₂ Tracks list.finished roster.finished
  settled : list.frames = [] → Settled roster.live list
  isEmpty : isEmpty list = roster.live.isEmpty
  removes : ∀ token, (remove token list).1 = roster.live.any fun sub => sub.token = token

theorem follows_isEmpty {base waiting : List (Subscription Call)} {list : Callbacks Call}
    {roster : Roster (Subscription Call)} (follows : Follows base waiting list roster) :
    isEmpty list = roster.live.isEmpty := by
  have gone : list.entries.all (fun entry => entry.removed) =
      (base.filter fun sub => sub ∈ roster.live).isEmpty := by
    rw [follows.entries, Bool.eq_iff_iff]
    simp [entryOf, (arrange_perm Subscription.order base).mem_iff]
  have none : list.pending.isEmpty = waiting.isEmpty := by simp [follows.pending]
  rw [isEmpty, gone, none, Bool.eq_iff_iff, Bool.and_eq_true]
  simp only [List.isEmpty_iff]
  rw [and_comm, ← List.append_eq_nil_iff, ← follows.live]

theorem follows_removes {base waiting : List (Subscription Call)} {list : Callbacks Call}
    {roster : Roster (Subscription Call)} (distinct : (roster.ever.map Subscription.token).Nodup)
    (follows : Follows base waiting list roster) (token : Nat) :
    (remove token list).1 = roster.live.any fun sub => sub.token = token := by
  have marked := mark_follows distinct follows token
  by_cases found : ∃ sub ∈ base, sub.token = token ∧ sub ∈ roster.live
  · rw [if_pos found] at marked
    obtain ⟨sub, _, owner, live⟩ := found
    simp only [remove, marked]
    exact (List.any_eq_true.mpr ⟨sub, live, by simpa using owner⟩).symm
  · rw [if_neg found] at marked
    have stored : (base.filter fun sub => sub ∈ roster.live).any
        (fun sub => sub.token = token) = false := by
      rw [List.any_eq_false]
      intro sub member
      obtain ⟨inside, live⟩ := List.mem_filter.mp member
      simpa using fun same => found ⟨sub, inside, same, by simpa using live⟩
    have waits : (list.pending.any fun entry => entry.token = token) =
        waiting.any fun sub => sub.token = token := by
      rw [follows.pending, List.any_map]
      rfl
    rw [follows.live, List.any_append, stored, Bool.false_or, ← waits]
    simp only [remove, marked]
    split
    · next some_ => exact some_.symm
    · next none => simpa using none

theorem simulates_agrees {list : Callbacks Call} {roster : Roster (Subscription Call)}
    (ordered : Ordered roster) (simulates : Simulates list roster) : Agrees list roster := by
  obtain ⟨base, waiting, follows⟩ := simulates
  refine ⟨follows.frames, follows.finished, fun closed => ?_, follows_isEmpty follows,
    follows_removes ordered.tokens follows⟩
  obtain ⟨rfl, rfl⟩ := follows_closed follows ((tracked_nil_iff follows.frames).mp closed)
  have subs : list.entries.map Entry.toSubscription =
      arrange Subscription.order roster.live := by
    rw [follows.entries, List.map_map]
    exact List.map_id _
  refine ⟨subs ▸ arrange_perm _ _, subs ▸ arrange_sorted _ _, ?_, follows.pending⟩
  intro entry member
  rw [follows.entries] at member
  obtain ⟨sub, inside, rfl⟩ := List.mem_map.mp member
  simpa [entryOf] using (arrange_perm _ _).mem_iff.mp inside

/-- The list and the roster of its subscriptions take the same steps and agree, and
the roster's passes are orderly. -/
theorem passes_visit_subscriptions (labels : List (Label Call)) :
    Option.Rel Agrees (run step empty labels) (run rosterStep Roster.empty labels) ∧
      Always rosterStep Orderly (Roster.empty : Roster (Subscription Call)) labels := by
  refine ⟨?_, always_of_preserves step_ordered (fun _ => ordered_orderly) ordered_empty labels⟩
  have together : Option.Rel (fun list roster => Ordered roster ∧ Simulates list roster)
      (run step empty labels) (run rosterStep (Roster.empty : Roster (Subscription Call)) labels) := by
    refine run_related ?_ ⟨ordered_empty, simulates_empty⟩ labels
    rintro list roster label ⟨ordered, simulates⟩
    apply rel_refine (step_simulates label ordered simulates)
    intro after next _ taken followed
    exact ⟨step_ordered roster label next ordered taken, followed⟩
  apply rel_refine together
  rintro list roster _ _ ⟨ordered, simulates⟩
  exact simulates_agrees ordered simulates

end VoltMod.CallbackList
