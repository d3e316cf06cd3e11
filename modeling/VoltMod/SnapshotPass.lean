import Mathlib.Data.List.Basic
import Mathlib.Data.List.Forall2
import Mathlib.Data.List.Nodup
import VoltMod.Transition

/-! Re-entrant passes over a roster of subscriptions. A pass goes over the list it
opened with, one turn for each member; a turn calls the member if it is still
subscribed and the pass wants it, and a call may subscribe, drop and open passes of
its own before it returns. Passes nest, innermost first. This is what a dispatch
means; how a list keeps its entries while passes are open is left to its own model. -/

namespace VoltMod.SnapshotPass

universe u v
variable {Sub : Type u}

/-- `since` is how many subscriptions had been made when the opening list was taken,
`began` who was subscribed when the pass began. `turns` says of each member whose turn
has come whether it was subscribed then, `answers` what each returned call answered.
Only a pass that `heeds` ends early. -/
structure Pass (Sub : Type u) where
  opening : List Sub
  since : Nat
  began : List Sub
  wanted : Sub → Bool
  heeds : Bool
  turns : List (Sub × Bool)
  visited : List Sub
  answers : List Bool
  inCall : Bool
  stopped : Bool

structure Roster (Sub : Type u) where
  ever : List Sub
  live : List Sub
  passes : List (Pass Sub)
  finished : List (Pass Sub)

def Roster.empty : Roster Sub := ⟨[], [], [], []⟩

/-- Code of the subscribers runs outside every pass or inside the innermost call. -/
def Roster.idle (roster : Roster Sub) : Bool :=
  match roster.passes with
  | [] => true
  | pass :: _ => pass.inCall

def subscribe (sub : Sub) (roster : Roster Sub) : Option (Roster Sub) :=
  if roster.idle then
    some { roster with ever := roster.ever ++ [sub], live := roster.live ++ [sub] }
  else none

def drop (gone : Sub → Bool) (roster : Roster Sub) : Option (Roster Sub) :=
  if roster.idle then
    some { roster with live := roster.live.filter fun sub => !gone sub }
  else none

def openPass (opening : List Sub) (since : Nat) (wanted : Sub → Bool) (heeds : Bool)
    (roster : Roster Sub) : Option (Roster Sub) :=
  if roster.idle then
    some { roster with
      passes := ⟨opening, since, roster.live, wanted, heeds, [], [], [], false, false⟩ ::
        roster.passes }
  else none

def Pass.turned (sub : Sub) (present : Bool) (pass : Pass Sub) : Pass Sub :=
  { pass with
    turns := pass.turns ++ [(sub, present)]
    visited := if present && pass.wanted sub then pass.visited ++ [sub] else pass.visited
    inCall := present && pass.wanted sub }

def takeTurn [DecidableEq Sub] (roster : Roster Sub) : Option (Roster Sub) :=
  match roster.passes with
  | [] => none
  | pass :: outer =>
      if pass.inCall || pass.stopped then none
      else
        match pass.opening[pass.turns.length]? with
        | none => none
        | some sub =>
            some { roster with passes := pass.turned sub (decide (sub ∈ roster.live)) :: outer }

def Pass.returned (answer : Bool) (pass : Pass Sub) : Pass Sub :=
  { pass with
    answers := pass.answers ++ [answer && pass.heeds]
    inCall := false
    stopped := answer && pass.heeds }

def returnCall (answer : Bool) (roster : Roster Sub) : Option (Roster Sub) :=
  match roster.passes with
  | [] => none
  | pass :: outer =>
      if pass.inCall then some { roster with passes := pass.returned answer :: outer } else none

def Pass.ended (pass : Pass Sub) : Bool :=
  !pass.inCall && (pass.stopped || decide (pass.turns.length = pass.opening.length))

def closePass (roster : Roster Sub) : Option (Roster Sub) :=
  match roster.passes with
  | [] => none
  | pass :: outer =>
      if pass.ended then
        some { roster with passes := outer, finished := roster.finished ++ [pass] }
      else none

/-- A pass as far as it has come: its turns follow the opening list, it visited
exactly the members wanted and subscribed at their turn, none of them twice, and
only the last answer can have stopped it. -/
structure Faithful (pass : Pass Sub) : Prop where
  distinct : pass.opening.Nodup
  inOrder : pass.turns.map Prod.fst <+: pass.opening
  present : ∀ turn ∈ pass.turns, turn.2 = true → turn.1 ∈ pass.began
  visited : pass.visited =
    (pass.turns.filter fun turn => turn.2 && pass.wanted turn.1).map Prod.fst
  answered : pass.visited.length = pass.answers.length + if pass.inCall then 1 else 0
  stopped : pass.answers =
    List.replicate (pass.answers.length - if pass.stopped then 1 else 0) false ++
      if pass.stopped then [true] else []
  calm : pass.inCall = true → pass.stopped = false
  certain : pass.stopped = true → pass.answers ≠ []

theorem faithful_opened {opening : List Sub} (distinct : opening.Nodup) (since : Nat)
    (began : List Sub) (wanted : Sub → Bool) (heeds : Bool) :
    Faithful ⟨opening, since, began, wanted, heeds, [], [], [], false, false⟩ := by
  constructor <;> simp [distinct]

theorem faithful_turned {pass : Pass Sub} {sub : Sub} {present : Bool} (faithful : Faithful pass)
    (outside : pass.inCall = false) (running : pass.stopped = false)
    (next : pass.opening[pass.turns.length]? = some sub)
    (began : present = true → sub ∈ pass.began) :
    Faithful (pass.turned sub present) := by
  have quiet : pass.answers = List.replicate pass.answers.length false := by
    simpa [running] using faithful.stopped
  refine ⟨faithful.distinct, ?_, ?_, ?_, ?_, ?_, fun _ => running, ?_⟩
  -- The turns taken so far are the front of the opening list, so the next member is the
  -- head of what is left.
  · obtain ⟨rest, split⟩ := faithful.inOrder
    rw [← split, List.getElem?_append_right (by simp), List.length_map, Nat.sub_self] at next
    cases rest with
    | nil => simp at next
    | cons first rest =>
        simp only [List.getElem?_cons_zero, Option.some.injEq] at next
        subst next
        refine ⟨rest, ?_⟩
        simpa [Pass.turned] using split
  · intro turn member
    rcases List.mem_append.mp member with old | new
    · exact faithful.present turn old
    · rw [List.mem_singleton.mp new]
      exact began
  · simp only [Pass.turned, List.filter_append, List.map_append, ← faithful.visited]
    by_cases called : (present && pass.wanted sub) = true
    · simp [called]
    · simp [called]
  · have count := faithful.answered
    rw [outside] at count
    by_cases called : (present && pass.wanted sub) = true
    · simp [Pass.turned, called, count]
    · simp [Pass.turned, called, count]
  · simpa [Pass.turned, running] using quiet
  · intro stopped
    simp [Pass.turned, running] at stopped

theorem faithful_returned {pass : Pass Sub} (answer : Bool) (faithful : Faithful pass)
    (inside : pass.inCall = true) : Faithful (pass.returned answer) := by
  have running := faithful.calm inside
  have quiet : pass.answers = List.replicate pass.answers.length false := by
    simpa [running] using faithful.stopped
  refine ⟨faithful.distinct, faithful.inOrder, faithful.present, faithful.visited,
    ?_, ?_, ?_, ?_⟩
  · simpa [Pass.returned, inside] using faithful.answered
  · by_cases claimed : (answer && pass.heeds) = true
    · simpa [Pass.returned, claimed] using quiet
    · simp only [Bool.not_eq_true] at claimed
      simpa [Pass.returned, claimed, List.replicate_succ'] using quiet
  · simp [Pass.returned]
  · simp [Pass.returned]

theorem visited_sublist {pass : Pass Sub} (faithful : Faithful pass) :
    pass.visited.Sublist pass.opening := by
  rw [faithful.visited]
  exact (List.filter_sublist.map Prod.fst).trans faithful.inOrder.sublist

/-- What holds of a roster whatever was done to it. A subscription made after a pass
took its list is not in it, and a pass that ended without being stopped gave every
member its turn. -/
structure Lawful (roster : Roster Sub) : Prop where
  distinct : roster.ever.Nodup
  live : roster.live.Sublist roster.ever
  faithful : ∀ pass ∈ roster.passes ++ roster.finished, Faithful pass
  earlier : ∀ pass ∈ roster.passes ++ roster.finished, pass.since ≤ roster.ever.length ∧
    pass.opening ⊆ roster.ever.take pass.since
  began : ∀ pass ∈ roster.passes, ∀ sub ∈ pass.opening, sub ∈ roster.live → sub ∈ pass.began
  finished : ∀ pass ∈ roster.finished, pass.inCall = false ∧
    (pass.stopped = true ∨ pass.turns.map Prod.fst = pass.opening)

theorem lawful_empty : Lawful (Roster.empty : Roster Sub) := by
  constructor <;> simp [Roster.empty]

theorem lawful_subscribe {sub : Sub} {before after : Roster Sub} (lawful : Lawful before)
    (fresh : sub ∉ before.ever) (taken : subscribe sub before = some after) : Lawful after := by
  simp only [subscribe, Option.ite_none_right_eq_some, Option.some.injEq] at taken
  obtain ⟨_, rfl⟩ := taken
  refine ⟨?_, lawful.live.append_right [sub], lawful.faithful, ?_, ?_, lawful.finished⟩
  · exact List.concat_eq_append ▸ lawful.distinct.concat fresh
  · intro pass member
    obtain ⟨early, inside⟩ := lawful.earlier pass member
    rw [List.take_append_of_le_length early]
    exact ⟨Nat.le_trans early (by simp), inside⟩
  · intro pass member other inside live
    -- A member of an open pass was subscribed before the pass took its list, so it is not
    -- the new one.
    have known := (lawful.earlier pass (List.mem_append_left _ member)).2 inside
    rcases List.mem_append.mp live with old | new
    · exact lawful.began pass member other inside old
    · exact absurd (List.mem_singleton.mp new ▸ List.mem_of_mem_take known) fresh

theorem lawful_drop {gone : Sub → Bool} {before after : Roster Sub} (lawful : Lawful before)
    (taken : drop gone before = some after) : Lawful after := by
  simp only [drop, Option.ite_none_right_eq_some, Option.some.injEq] at taken
  obtain ⟨_, rfl⟩ := taken
  exact { lawful with
    live := List.filter_sublist.trans lawful.live
    began := fun pass member sub inside live =>
      lawful.began pass member sub inside (List.mem_of_mem_filter live) }

theorem lawful_open {opening : List Sub} {since : Nat} {wanted : Sub → Bool} {heeds : Bool}
    {before after : Roster Sub} (lawful : Lawful before) (distinct : opening.Nodup)
    (early : since ≤ before.ever.length) (inside : opening ⊆ before.ever.take since)
    (taken : openPass opening since wanted heeds before = some after) : Lawful after := by
  simp only [openPass, Option.ite_none_right_eq_some, Option.some.injEq] at taken
  obtain ⟨_, rfl⟩ := taken
  refine { lawful with faithful := ?_, earlier := ?_, began := ?_ }
  · intro pass member
    rcases List.mem_cons.mp member with rfl | old
    · exact faithful_opened distinct since before.live wanted heeds
    · exact lawful.faithful pass old
  · intro pass member
    rcases List.mem_cons.mp member with rfl | old
    · exact ⟨early, inside⟩
    · exact lawful.earlier pass old
  · intro pass member sub opened live
    rcases List.mem_cons.mp member with rfl | old
    · exact live
    · exact lawful.began pass old sub opened live

/-- The innermost pass goes on over the same list. -/
theorem lawful_inner {before : Roster Sub} {pass next : Pass Sub} {outer : List (Pass Sub)}
    (lawful : Lawful before) (passes : before.passes = pass :: outer)
    (advanced : Faithful next) (same : next.opening = pass.opening)
    (since : next.since = pass.since) (began : next.began = pass.began) :
    Lawful { before with passes := next :: outer } := by
  have held : pass ∈ before.passes ++ before.finished := by simp [passes]
  have others : ∀ other ∈ outer ++ before.finished, other ∈ before.passes ++ before.finished := by
    simp only [passes, List.cons_append]
    exact fun other member => List.mem_cons_of_mem _ member
  refine { lawful with faithful := ?_, earlier := ?_, began := ?_ }
  · intro other member
    rcases List.mem_cons.mp member with rfl | old
    · exact advanced
    · exact lawful.faithful other (others other old)
  · intro other member
    rcases List.mem_cons.mp member with rfl | old
    · rw [same, since]
      exact lawful.earlier pass held
    · exact lawful.earlier other (others other old)
  · intro other member
    rcases List.mem_cons.mp member with rfl | old
    · rw [same, began]
      exact lawful.began pass (by simp [passes])
    · exact lawful.began other (by simp [passes, old])

theorem takeTurn_cases [DecidableEq Sub] {before after : Roster Sub}
    (taken : takeTurn before = some after) :
    ∃ pass outer sub, before.passes = pass :: outer ∧ pass.inCall = false ∧
      pass.stopped = false ∧ pass.opening[pass.turns.length]? = some sub ∧
      after = { before with passes := pass.turned sub (decide (sub ∈ before.live)) :: outer } := by
  unfold takeTurn at taken
  split at taken
  · cases taken
  · next pass outer passes =>
      split at taken
      · cases taken
      · next free =>
          split at taken
          · cases taken
          · next sub next =>
              simp only [Bool.or_eq_true, not_or, Bool.not_eq_true] at free
              exact ⟨pass, outer, sub, passes, free.1, free.2, next, (Option.some.inj taken).symm⟩

theorem lawful_turn [DecidableEq Sub] {before after : Roster Sub} (lawful : Lawful before)
    (taken : takeTurn before = some after) : Lawful after := by
  obtain ⟨pass, outer, sub, passes, outside, running, next, rfl⟩ := takeTurn_cases taken
  have held : pass ∈ before.passes := by simp [passes]
  have faithful := lawful.faithful pass (List.mem_append_left _ held)
  refine lawful_inner lawful passes (faithful_turned faithful outside running next ?_) rfl rfl rfl
  intro live
  have inside := (List.getElem?_eq_some_iff.mp next).2 ▸ List.getElem_mem _
  exact lawful.began pass held sub inside (by simpa using live)

theorem returnCall_cases {answer : Bool} {before after : Roster Sub}
    (taken : returnCall answer before = some after) :
    ∃ pass outer, before.passes = pass :: outer ∧ pass.inCall = true ∧
      after = { before with passes := pass.returned answer :: outer } := by
  unfold returnCall at taken
  split at taken
  · cases taken
  · next pass outer passes =>
      split at taken
      · next inside => exact ⟨pass, outer, passes, inside, (Option.some.inj taken).symm⟩
      · cases taken

theorem lawful_return {answer : Bool} {before after : Roster Sub} (lawful : Lawful before)
    (taken : returnCall answer before = some after) : Lawful after := by
  obtain ⟨pass, outer, passes, called, rfl⟩ := returnCall_cases taken
  have faithful := lawful.faithful pass (by simp [passes])
  exact lawful_inner lawful passes (faithful_returned answer faithful called) rfl rfl rfl

theorem closePass_cases {before after : Roster Sub} (taken : closePass before = some after) :
    ∃ pass outer, before.passes = pass :: outer ∧ pass.inCall = false ∧
      (pass.stopped = true ∨ pass.turns.length = pass.opening.length) ∧
      after = { before with passes := outer, finished := before.finished ++ [pass] } := by
  unfold closePass at taken
  split at taken
  · cases taken
  · next pass outer passes =>
      split at taken
      · next ended =>
          simp only [Pass.ended, Bool.and_eq_true, Bool.not_eq_true', Bool.or_eq_true,
            decide_eq_true_eq] at ended
          exact ⟨pass, outer, passes, ended.1, ended.2, (Option.some.inj taken).symm⟩
      · cases taken

theorem lawful_close {before after : Roster Sub} (lawful : Lawful before)
    (taken : closePass before = some after) : Lawful after := by
  obtain ⟨pass, outer, passes, outside, ended, rfl⟩ := closePass_cases taken
  have same : ∀ other, other ∈ outer ++ (before.finished ++ [pass]) ↔
      other ∈ before.passes ++ before.finished := by
    intro other
    simp only [passes, List.mem_append, List.mem_cons, List.not_mem_nil]
    tauto
  refine { lawful with faithful := ?_, earlier := ?_, began := ?_, finished := ?_ }
  · exact fun other member => lawful.faithful other ((same other).mp member)
  · exact fun other member => lawful.earlier other ((same other).mp member)
  · exact fun other member => lawful.began other (by simp [passes, member])
  · intro other member
    rcases List.mem_append.mp member with old | new
    · exact lawful.finished other old
    · rw [List.mem_singleton.mp new]
      refine ⟨outside, ended.imp_right fun all => ?_⟩
      have faithful := lawful.faithful pass (by simp [passes])
      exact faithful.inOrder.eq_of_length (by simpa using all)

/-- What a pass was opened with, which its turns leave alone. -/
def Pass.view (pass : Pass Sub) : List Sub × Nat := (pass.opening, pass.since)

theorem turn_views [DecidableEq Sub] {before after : Roster Sub}
    (taken : takeTurn before = some after) :
    after.ever = before.ever ∧ after.passes.map Pass.view = before.passes.map Pass.view ∧
      after.finished = before.finished := by
  obtain ⟨pass, outer, sub, passes, _, _, _, rfl⟩ := takeTurn_cases taken
  simp [passes, Pass.view, Pass.turned]

theorem return_views {answer : Bool} {before after : Roster Sub}
    (taken : returnCall answer before = some after) :
    after.ever = before.ever ∧ after.passes.map Pass.view = before.passes.map Pass.view ∧
      after.finished = before.finished := by
  obtain ⟨pass, outer, passes, _, rfl⟩ := returnCall_cases taken
  simp [passes, Pass.view, Pass.returned]

/-- A stack of loop frames tracked one by one by the open passes: both are empty, or
their tops track each other. -/
theorem tracked_cases {Frame : Type v} {Tracks : Frame → Pass Sub → Prop} {frames : List Frame}
    {passes : List (Pass Sub)} (tracked : List.Forall₂ Tracks frames passes) :
    (frames = [] ∧ passes = []) ∨
      ∃ frame outer pass rest, frames = frame :: outer ∧ passes = pass :: rest ∧
        Tracks frame pass ∧ List.Forall₂ Tracks outer rest := by
  cases tracked with
  | nil => exact Or.inl ⟨rfl, rfl⟩
  | cons tracks rest => exact Or.inr ⟨_, _, _, _, rfl, rfl, tracks, rest⟩

theorem tracked_nil_iff {Frame : Type v} {Tracks : Frame → Pass Sub → Prop} {frames : List Frame}
    {passes : List (Pass Sub)} (tracked : List.Forall₂ Tracks frames passes) :
    frames = [] ↔ passes = [] := by
  rw [← List.length_eq_zero_iff, tracked.length_eq, List.length_eq_zero_iff]

/-- Subscribed once and dropped since. -/
def Gone (sub : Sub) (roster : Roster Sub) : Prop := sub ∈ roster.ever ∧ sub ∉ roster.live

theorem gone_subscribe {sub other : Sub} {before after : Roster Sub} (gone : Gone other before)
    (fresh : sub ∉ before.ever) (taken : subscribe sub before = some after) :
    Gone other after := by
  simp only [subscribe, Option.ite_none_right_eq_some, Option.some.injEq] at taken
  obtain ⟨_, rfl⟩ := taken
  refine ⟨List.mem_append_left _ gone.1, fun member => ?_⟩
  rcases List.mem_append.mp member with old | new
  · exact gone.2 old
  · exact fresh (List.mem_singleton.mp new ▸ gone.1)

theorem gone_drop {dropped : Sub → Bool} {other : Sub} {before after : Roster Sub}
    (gone : Gone other before) (taken : drop dropped before = some after) : Gone other after := by
  simp only [drop, Option.ite_none_right_eq_some, Option.some.injEq] at taken
  obtain ⟨_, rfl⟩ := taken
  exact ⟨gone.1, fun member => gone.2 (List.mem_of_mem_filter member)⟩

theorem gone_open {opening : List Sub} {since : Nat} {wanted : Sub → Bool} {heeds : Bool}
    {other : Sub} {before after : Roster Sub} (gone : Gone other before)
    (taken : openPass opening since wanted heeds before = some after) : Gone other after := by
  simp only [openPass, Option.ite_none_right_eq_some, Option.some.injEq] at taken
  obtain ⟨_, rfl⟩ := taken
  exact gone

theorem gone_turn [DecidableEq Sub] {other : Sub} {before after : Roster Sub}
    (gone : Gone other before) (taken : takeTurn before = some after) : Gone other after := by
  obtain ⟨pass, outer, sub, _, _, _, _, rfl⟩ := takeTurn_cases taken
  exact gone

theorem gone_return {answer : Bool} {other : Sub} {before after : Roster Sub}
    (gone : Gone other before) (taken : returnCall answer before = some after) :
    Gone other after := by
  obtain ⟨pass, outer, _, _, rfl⟩ := returnCall_cases taken
  exact gone

theorem gone_close {other : Sub} {before after : Roster Sub} (gone : Gone other before)
    (taken : closePass before = some after) : Gone other after := by
  obtain ⟨pass, outer, _, _, _, rfl⟩ := closePass_cases taken
  exact gone

end VoltMod.SnapshotPass
