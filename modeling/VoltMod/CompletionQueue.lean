import Mathlib.Data.List.Range
import VoltMod.HttpClient

/-! Core/Threading/GameThreadQueue.hpp under any order of steps: every critical section is one
step, and so is RunAll's look at the flag before its own. Any thread pushes at any time; RunAll
and Clear are the game thread's. A completion that RunAll has called may push, may clear, as
stopping its client does, and ends by returning or by throwing. `events` is history. -/
namespace VoltMod.CompletionQueue
open Transition Ledger
open HttpClient (GameThreadQueue)

variable {Callback : Type}

/-- The ticket tells the pushes apart; only the proofs read it. -/
structure Completion (Callback : Type) where
  ticket : Nat
  callback : Callback
  deriving DecidableEq

inductive Event (Callback : Type) where
  | pushed (completion : Completion Callback)
  | began (completion : Completion Callback)
  | cleared (dropped : List (Completion Callback))
  | unwound (dropped : List (Completion Callback))
  deriving DecidableEq

/-- The game thread: outside RunAll, in it behind a flag seen set, between the completions it
took out, or in one of them with the others left. -/
inductive Game (Callback : Type) where
  | idle
  | flagged
  | between (ready : List (Completion Callback))
  | calling (ready : List (Completion Callback))

def Game.ready : Game Callback → List (Completion Callback)
  | .idle | .flagged => []
  | .between ready | .calling ready => ready

@[simp] theorem ready_idle : (.idle : Game Callback).ready = [] := rfl

@[simp] theorem ready_between (ready : List (Completion Callback)) :
    (Game.between ready).ready = ready := rfl

@[simp] theorem ready_calling (ready : List (Completion Callback)) :
    (Game.calling ready).ready = ready := rfl

structure State (Callback : Type) where
  queue : GameThreadQueue (Completion Callback)
  game : Game Callback
  events : List (Event Callback)

def start : State Callback := ⟨.empty, .idle, []⟩

def Event.push : Event Callback → Option (Completion Callback)
  | .pushed completion => some completion
  | .began _ | .cleared _ | .unwound _ => none

def Event.run : Event Callback → Option (Completion Callback)
  | .began completion => some completion
  | .pushed _ | .cleared _ | .unwound _ => none

def Event.drop : Event Callback → List (Completion Callback)
  | .cleared dropped => dropped
  | .pushed _ | .began _ | .unwound _ => []

def Event.abandon : Event Callback → List (Completion Callback)
  | .unwound dropped => dropped
  | .pushed _ | .began _ | .cleared _ => []

def pushed (events : List (Event Callback)) : List (Completion Callback) :=
  events.filterMap Event.push

def ran (events : List (Event Callback)) : List (Completion Callback) :=
  events.filterMap Event.run

/-- What a Clear dropped. -/
def cleared (events : List (Event Callback)) : List (Completion Callback) :=
  events.flatMap Event.drop

/-- What was lost with a RunAll that an exception left. -/
def unwound (events : List (Event Callback)) : List (Completion Callback) :=
  events.flatMap Event.abandon

def push (callback : Callback) (state : State Callback) : State Callback :=
  let completion : Completion Callback := ⟨(pushed state.events).length, callback⟩
  { state with
    queue := state.queue.push completion
    events := state.events ++ [.pushed completion] }

/-- RunAll up to its lock. -/
def look (state : State Callback) : Option (State Callback) :=
  match state.game with
  | .idle => some { state with game := if state.queue.any then .flagged else .idle }
  | _ => none

def swap (state : State Callback) : Option (State Callback) :=
  match state.game with
  | .flagged => some { state with queue := .empty, game := .between state.queue.waiting }
  | _ => none

def call (state : State Callback) : Option (State Callback) :=
  match state.game with
  | .between (completion :: rest) =>
      some { state with game := .calling rest, events := state.events ++ [.began completion] }
  | _ => none

def returns (state : State Callback) : Option (State Callback) :=
  match state.game with
  | .calling ready => some { state with game := .between ready }
  | _ => none

/-- The frame catches it, behind RunAll. -/
def throws (state : State Callback) : Option (State Callback) :=
  match state.game with
  | .calling ready =>
      some { state with game := .idle, events := state.events ++ [.unwound ready] }
  | _ => none

def finish (state : State Callback) : Option (State Callback) :=
  match state.game with
  | .between [] => some { state with game := .idle }
  | _ => none

def clear (state : State Callback) : Option (State Callback) :=
  match state.game with
  | .idle | .calling _ =>
      some { state with
        queue := .empty
        events := state.events ++ [.cleared state.queue.waiting] }
  | _ => none

inductive Label (Callback : Type) where
  | push (callback : Callback)
  | look
  | swap
  | call
  | returns
  | throws
  | finish
  | clear

def step (state : State Callback) : Label Callback → Option (State Callback)
  | .push callback => some (push callback state)
  | .look => look state
  | .swap => swap state
  | .call => call state
  | .returns => returns state
  | .throws => throws state
  | .finish => finish state
  | .clear => clear state

/-- A completion was pushed before a Clear and called after it. -/
def Stale (events : List (Event Callback)) : Prop :=
  ∃ completion dropped, [.pushed completion, .cleared dropped, .began completion].Sublist events

structure Lawful (state : State Callback) : Prop where
  once : (pushed state.events).Nodup
  order : (ran state.events).Sublist (pushed state.events)
  /-- What is pushed is run, dropped by a Clear, or still to be run. -/
  kept : Accounted (pushed state.events) (ran state.events ++ cleared state.events)
    (state.game.ready ++ state.queue.waiting)
  fresh : ¬Stale state.events
  flagged : state.queue.any = true ↔ state.queue.waiting ≠ []

/-- The batch that RunAll took out is at its end. -/
def guard (state : State Callback) : Label Callback → Prop
  | .clear | .throws => state.game.ready = []
  | _ => True

instance (state : State Callback) : (label : Label Callback) → Decidable (guard state label)
  | .clear | .throws => decidable_of_iff (state.game.ready.isEmpty = true) List.isEmpty_iff
  | .push _ | .look | .swap | .call | .returns | .finish => isTrue trivial

/-- What every state keeps. -/
structure Sound (state : State Callback) : Prop where
  tickets : (pushed state.events).map Completion.ticket =
    List.range (pushed state.events).length
  order : (ran state.events ++ (state.game.ready ++ state.queue.waiting)).Sublist
    (pushed state.events)
  kept : Accounted (pushed state.events)
    (ran state.events ++ cleared state.events ++ unwound state.events)
    (state.game.ready ++ state.queue.waiting)
  flagged : state.queue.any = !state.queue.waiting.isEmpty
  fresh : ∀ completion dropped, [.pushed completion, .cleared dropped].Sublist state.events →
    completion ∉ state.queue.waiting

/-- The laws of what RunAll took out, as it will run it: nothing breaks off the batch. -/
structure Kept (state : State Callback) : Prop where
  whole : unwound state.events = []
  fresh : ¬Stale (state.events ++ state.game.ready.map .began)

section History
variable {events more : List (Event Callback)} {event : Event Callback}
  {completion : Completion Callback}

@[simp] theorem pushed_append (events : List (Event Callback)) (event : Event Callback) :
    pushed (events ++ [event]) = pushed events ++ event.push.toList := by
  cases event with
  | pushed completion => simp [pushed, Event.push]
  | began completion => simp [pushed, List.filterMap_cons, Event.push]
  | cleared dropped => simp [pushed, List.filterMap_cons, Event.push]
  | unwound dropped => simp [pushed, List.filterMap_cons, Event.push]

@[simp] theorem ran_append (events : List (Event Callback)) (event : Event Callback) :
    ran (events ++ [event]) = ran events ++ event.run.toList := by
  cases event with
  | pushed completion => simp [ran, List.filterMap_cons, Event.run]
  | began completion => simp [ran, Event.run]
  | cleared dropped => simp [ran, List.filterMap_cons, Event.run]
  | unwound dropped => simp [ran, List.filterMap_cons, Event.run]

@[simp] theorem cleared_append (events : List (Event Callback)) (event : Event Callback) :
    cleared (events ++ [event]) = cleared events ++ event.drop := by
  simp [cleared]

@[simp] theorem unwound_append (events : List (Event Callback)) (event : Event Callback) :
    unwound (events ++ [event]) = unwound events ++ event.abandon := by
  simp [unwound]

theorem sublist_last {Item : Type} {front items : List Item} {last other : Item}
    (inside : (front ++ [last]).Sublist (items ++ [other])) (apart : last ≠ other) :
    (front ++ [last]).Sublist items := by
  have reversed := inside.reverse
  simp only [List.reverse_append, List.reverse_singleton, List.singleton_append] at reversed
  rcases List.sublist_cons_iff.mp reversed with kept | ⟨rest, same, -⟩
  · simpa using kept.reverse
  · exact absurd (List.cons.inj same).1 apart

theorem Stale.mono (stale : Stale events) (inside : events.Sublist more) : Stale more := by
  obtain ⟨completion, dropped, here⟩ := stale
  exact ⟨completion, dropped, here.trans inside⟩

/-- Only a call at the end makes a history stale. -/
theorem stale_last (idle : event.run = none) (stale : Stale (events ++ [event])) :
    Stale events := by
  obtain ⟨completion, dropped, here⟩ := stale
  refine ⟨completion, dropped, @sublist_last _ [_, _] _ _ _ here ?_⟩
  rintro rfl
  cases idle

/-- What is pushed now is no Clear's. -/
theorem stale_pushed {ready : List (Completion Callback)}
    (stale : Stale (events ++ [.pushed completion] ++ ready.map .began)) :
    Stale (events ++ ready.map .began) := by
  obtain ⟨other, dropped, here⟩ := stale
  rw [List.append_assoc, List.sublist_append_iff] at here
  obtain ⟨front, back, whole, early, late⟩ := here
  have cleared : ∀ rest, ¬(.cleared dropped :: rest : List (Event Callback)).Sublist
      (ready.map .began) := by
    intro rest inside
    have member := inside.subset List.mem_cons_self
    simp at member
  rw [List.singleton_append, List.sublist_cons_iff] at late
  rcases late with later | ⟨rest, rfl, later⟩
  · exact ⟨other, dropped, whole ▸ early.append later⟩
  · cases front with
    | nil =>
        rw [← (List.cons.inj whole).2] at later
        exact absurd later (cleared _)
    | cons first front =>
        have inside : .pushed completion ∈ [Event.cleared dropped, .began other] := by
          rw [(List.cons.inj whole).2]
          simp
        simp at inside

/-- What RunAll takes out was pushed after every Clear. -/
theorem stale_taken {ready : List (Completion Callback)}
    (young : ∀ completion dropped, [.pushed completion, .cleared dropped].Sublist events →
      completion ∉ ready)
    (stale : Stale (events ++ ready.map .began)) : Stale events := by
  obtain ⟨completion, dropped, here⟩ := stale
  obtain ⟨front, back, whole, early, late⟩ := List.sublist_append_iff.mp here
  have calls : ∀ event ∈ back, ∃ completion ∈ ready, event = .began completion := by
    intro event member
    obtain ⟨completion, inside, rfl⟩ := List.mem_map.mp (late.subset member)
    exact ⟨completion, inside, rfl⟩
  cases back using List.reverseRecOn with
  | nil =>
      rw [List.append_nil] at whole
      exact ⟨completion, dropped, whole ▸ early⟩
  | append_singleton back last =>
      rw [← List.append_assoc] at whole
      have parts : [Event.pushed completion, .cleared dropped] = front ++ back ∧
          [Event.began completion] = [last] := List.append_inj' whole rfl
      cases back using List.reverseRecOn with
      | nil =>
          rw [List.append_nil] at parts
          obtain ⟨other, inside, same⟩ := calls last (by simp)
          obtain rfl : completion = other := by
            rw [← (List.cons.inj parts.2).1] at same
            injection same
          exact absurd inside (young _ dropped (parts.1 ▸ early))
      | append_singleton back other =>
          rw [← List.append_assoc] at parts
          have second : [Event.pushed completion] = front ++ back ∧
              [Event.cleared dropped] = [other] := List.append_inj' parts.1 rfl
          obtain ⟨_, -, same⟩ := calls other (by simp)
          rw [← (List.cons.inj second.2).1] at same
          cases same

end History

section Steps
variable {before after : State Callback} {label : Label Callback}

theorem start_sound : Sound (start : State Callback) where
  tickets := rfl
  order := .slnil
  kept := accounted_empty
  flagged := rfl
  fresh _ _ inside := by cases inside

theorem start_kept : Kept (start : State Callback) where
  whole := rfl
  fresh := by
    rintro ⟨_, _, inside⟩
    cases inside

theorem push_sound (sound : Sound before) (callback : Callback) : Sound (push callback before) := by
  have tickets : (pushed (push callback before).events) = pushed before.events ++
      [⟨(pushed before.events).length, callback⟩] := pushed_append _ _
  constructor
  case tickets =>
    rw [tickets, List.map_append, sound.tickets, List.length_append, List.length_singleton,
      List.range_succ]
    rfl
  case order =>
    have longer := sound.order.append_right [⟨(pushed before.events).length, callback⟩]
    rw [tickets]
    simpa [push, Event.run, GameThreadQueue.push] using longer
  case kept =>
    have placed : (before.game.ready ++ (push callback before).queue.waiting).Perm
        (⟨(pushed before.events).length, callback⟩ ::
          (before.game.ready ++ before.queue.waiting)) := by
      rw [push, GameThreadQueue.push, ← List.append_assoc]
      exact List.perm_append_singleton _ _
    have handed := accounted_hand_in sound.kept placed
    rw [tickets]
    simpa [push, Event.run, Event.drop, Event.abandon] using handed
  case flagged => simp [push, GameThreadQueue.push]
  case fresh =>
    intro completion dropped inside
    have earlier : [.pushed completion, .cleared dropped].Sublist before.events :=
      @sublist_last (Event Callback) [.pushed completion] _ (.cleared dropped) _ inside (by simp)
    simp only [push, GameThreadQueue.push, List.mem_append, List.mem_singleton, not_or]
    refine ⟨sound.fresh completion dropped earlier, ?_⟩
    rintro rfl
    have member : ⟨(pushed before.events).length, callback⟩ ∈ pushed before.events :=
      List.mem_filterMap.mpr ⟨_, earlier.subset List.mem_cons_self, rfl⟩
    have ticket := List.mem_map_of_mem (f := Completion.ticket) member
    rw [sound.tickets, List.mem_range] at ticket
    exact Nat.lt_irrefl _ ticket

/-- A move of the game thread that touches neither the queue nor what is left of the batch. -/
theorem Sound.move (sound : Sound before) {game : Game Callback}
    (ready : game.ready = before.game.ready) : Sound { before with game } where
  tickets := sound.tickets
  order := by rw [ready]; exact sound.order
  kept := by rw [ready]; exact sound.kept
  flagged := sound.flagged
  fresh := sound.fresh

theorem Kept.move (kept : Kept before) {game : Game Callback}
    (ready : game.ready = before.game.ready) : Kept { before with game } where
  whole := kept.whole
  fresh := by rw [ready]; exact kept.fresh

theorem look_moves (taken : look before = some after) :
    ∃ game : Game Callback, game.ready = before.game.ready ∧ after = { before with game } := by
  unfold look at taken
  split at taken
  · next idle =>
      refine ⟨_, ?_, (Option.some.inj taken).symm⟩
      rw [idle]
      split <;> rfl
  · cases taken

theorem returns_moves (taken : returns before = some after) :
    ∃ game : Game Callback, game.ready = before.game.ready ∧ after = { before with game } := by
  unfold returns at taken
  split at taken
  · next ready calling => exact ⟨_, by rw [calling]; rfl, (Option.some.inj taken).symm⟩
  · cases taken

theorem finish_moves (taken : finish before = some after) :
    ∃ game : Game Callback, game.ready = before.game.ready ∧ after = { before with game } := by
  unfold finish at taken
  split at taken
  · next done => exact ⟨_, by rw [done]; rfl, (Option.some.inj taken).symm⟩
  · cases taken

theorem swap_takes (taken : swap before = some after) : before.game.ready = [] ∧
    after = { before with queue := .empty, game := .between before.queue.waiting } := by
  unfold swap at taken
  split at taken
  · next flagged => exact ⟨by rw [flagged]; rfl, (Option.some.inj taken).symm⟩
  · cases taken

theorem call_begins (taken : call before = some after) : ∃ completion rest,
    before.game.ready = completion :: rest ∧
      after = { before with
        game := .calling rest
        events := before.events ++ [.began completion] } := by
  unfold call at taken
  split at taken
  · next completion rest here =>
      exact ⟨completion, rest, by rw [here]; rfl, (Option.some.inj taken).symm⟩
  · cases taken

theorem throws_unwinds (taken : throws before = some after) :
    after = { before with
      game := .idle
      events := before.events ++ [.unwound before.game.ready] } := by
  unfold throws at taken
  split at taken
  · next ready calling =>
      rw [calling]
      exact (Option.some.inj taken).symm
  · cases taken

theorem clear_drops (taken : clear before = some after) :
    after = { before with
      queue := .empty
      events := before.events ++ [.cleared before.queue.waiting] } := by
  unfold clear at taken
  split at taken
  · exact (Option.some.inj taken).symm
  · exact (Option.some.inj taken).symm
  · cases taken

/-- A Clear drops what waits, and nothing that waits was pushed before it. -/
theorem clear_sound (sound : Sound before) (taken : clear before = some after) : Sound after := by
  obtain rfl := clear_drops taken
  constructor
  case tickets => simpa [Event.push] using sound.tickets
  case order =>
    have whole := sound.order
    rw [← List.append_assoc] at whole
    have fewer := (List.sublist_append_left _ before.queue.waiting).trans whole
    simpa [Event.push, Event.run, GameThreadQueue.empty] using fewer
  case kept =>
    have settled := accounted_settle sound.kept
      (@List.perm_append_comm _ before.game.ready before.queue.waiting)
    have moved : (ran before.events ++ (cleared before.events ++ before.queue.waiting) ++
        unwound before.events).Perm (ran before.events ++ cleared before.events ++
          unwound before.events ++ before.queue.waiting) := by
      simp only [List.append_assoc]
      exact (List.perm_append_comm.append_left _).append_left _
    have balanced : Accounted _ _ _ := (moved.append_right before.game.ready).trans settled
    simpa [Event.push, Event.run, Event.drop, Event.abandon, GameThreadQueue.empty] using balanced
  case flagged => rfl
  case fresh => exact fun _ _ _ => List.not_mem_nil

theorem swap_sound (sound : Sound before) (taken : swap before = some after) : Sound after := by
  obtain ⟨done, rfl⟩ := swap_takes taken
  constructor
  case tickets => exact sound.tickets
  case order => simpa [done, GameThreadQueue.empty] using sound.order
  case kept => simpa [done, GameThreadQueue.empty] using sound.kept
  case flagged => rfl
  case fresh => exact fun _ _ _ => List.not_mem_nil

theorem young_append {event : Event Callback} (other : ∀ dropped, event ≠ .cleared dropped)
    (fresh : ∀ completion dropped, [.pushed completion, .cleared dropped].Sublist before.events →
      completion ∉ before.queue.waiting) (completion : Completion Callback)
    (dropped : List (Completion Callback))
    (inside : [.pushed completion, .cleared dropped].Sublist (before.events ++ [event])) :
    completion ∉ before.queue.waiting :=
  fresh completion dropped (@sublist_last (Event Callback) [.pushed completion] _ (.cleared dropped)
    _ inside (other dropped).symm)

theorem call_sound (sound : Sound before) (taken : call before = some after) : Sound after := by
  obtain ⟨completion, rest, ready, rfl⟩ := call_begins taken
  constructor
  case tickets => simpa [Event.push] using sound.tickets
  case order => simpa [ready, Event.push, Event.run] using sound.order
  case kept =>
    have balanced := sound.kept
    rw [ready, List.cons_append] at balanced
    have settled := accounted_settle balanced
      (List.Perm.refl ([completion] ++ (rest ++ before.queue.waiting)))
    have moved : (ran before.events ++ [completion] ++ cleared before.events ++
        unwound before.events).Perm (ran before.events ++ cleared before.events ++
          unwound before.events ++ [completion]) := by
      simp only [List.append_assoc]
      apply List.Perm.append_left
      rw [← List.append_assoc (cleared before.events)]
      exact List.perm_append_comm
    have whole : Accounted _ _ _ := (moved.append_right (rest ++ before.queue.waiting)).trans settled
    simpa [Event.push, Event.run, Event.drop, Event.abandon] using whole
  case flagged => exact sound.flagged
  case fresh => exact young_append nofun sound.fresh

theorem throws_sound (sound : Sound before) (taken : throws before = some after) :
    Sound after := by
  obtain rfl := throws_unwinds taken
  constructor
  case tickets => simpa [Event.push] using sound.tickets
  case order =>
    have whole := sound.order
    have fewer := ((List.sublist_append_right before.game.ready before.queue.waiting).append_left
      (ran before.events)).trans whole
    simpa [Event.push, Event.run] using fewer
  case kept =>
    have settled := accounted_settle sound.kept
      (List.Perm.refl (before.game.ready ++ before.queue.waiting))
    simpa [Event.push, Event.run, Event.drop, Event.abandon] using settled
  case flagged => exact sound.flagged
  case fresh => exact young_append nofun sound.fresh

theorem step_sound (sound : Sound before) (taken : step before label = some after) :
    Sound after := by
  cases label with
  | push callback =>
      obtain rfl := Option.some.inj taken
      exact push_sound sound callback
  | look =>
      obtain ⟨game, ready, rfl⟩ := look_moves taken
      exact sound.move ready
  | swap => exact swap_sound sound taken
  | call => exact call_sound sound taken
  | returns =>
      obtain ⟨game, ready, rfl⟩ := returns_moves taken
      exact sound.move ready
  | throws => exact throws_sound sound taken
  | finish =>
      obtain ⟨game, ready, rfl⟩ := finish_moves taken
      exact sound.move ready
  | clear => exact clear_sound sound taken

/-- What RunAll has left to run was pushed. -/
theorem ready_pushed (sound : Sound before) {completion : Completion Callback}
    (inside : completion ∈ before.game.ready) : .pushed completion ∈ before.events := by
  have member := sound.order.subset
    (List.mem_append_right _ (List.mem_append_left before.queue.waiting inside))
  obtain ⟨event, listed, push⟩ := List.mem_filterMap.mp member
  cases event with
  | pushed other =>
      obtain rfl := Option.some.inj push
      exact listed
  | began other => cases push
  | cleared dropped => cases push
  | unwound dropped => cases push

/-- A Clear leaves stale whatever of the batch it comes before. -/
theorem clear_stale (sound : Sound before) (left : before.game.ready ≠ [])
    (dropped : List (Completion Callback)) :
    Stale (before.events ++ [.cleared dropped] ++ before.game.ready.map .began) := by
  obtain ⟨completion, inside⟩ := List.exists_mem_of_ne_nil _ left
  refine ⟨completion, dropped, ?_⟩
  have early := List.singleton_sublist.mpr (ready_pushed sound inside)
  have late := List.singleton_sublist.mpr (List.mem_map_of_mem (f := Event.began) inside)
  exact (early.append (List.Sublist.refl [.cleared dropped])).append late

theorem clear_law (sound : Sound before) (kept : Kept before) (taken : clear before = some after) :
    Kept after ↔ before.game.ready = [] := by
  obtain rfl := clear_drops taken
  constructor
  · intro later
    by_contra left
    exact later.fresh (clear_stale sound left _)
  · intro done
    constructor
    · simpa [Event.abandon] using kept.whole
    · have fresh := kept.fresh
      simp only [done, List.map_nil, List.append_nil] at fresh ⊢
      exact fun stale => fresh (stale_last rfl stale)

theorem throws_law (kept : Kept before) (taken : throws before = some after) :
    Kept after ↔ before.game.ready = [] := by
  obtain rfl := throws_unwinds taken
  constructor
  · intro later
    have whole := later.whole
    simp only [unwound_append, Event.abandon, List.append_eq_nil_iff] at whole
    exact whole.2
  · intro done
    constructor
    · simp [Event.abandon, kept.whole, done]
    · have fresh := kept.fresh
      simp only [done, List.map_nil, List.append_nil, ready_idle] at fresh ⊢
      exact fun stale => fresh (stale_last rfl stale)

/-- A step keeps the laws of the batch exactly where its guard holds. -/
theorem step_law (sound : Sound before) (kept : Kept before)
    (taken : step before label = some after) :
    Sound after ∧ (Kept after ↔ guard before label) := by
  refine ⟨step_sound sound taken, ?_⟩
  cases label with
  | push callback =>
      obtain rfl := Option.some.inj taken
      refine iff_of_true ⟨?_, ?_⟩ trivial
      · simpa [push, Event.abandon] using kept.whole
      · exact fun stale => kept.fresh (stale_pushed stale)
  | look =>
      obtain ⟨game, ready, rfl⟩ := look_moves taken
      exact iff_of_true (kept.move ready) trivial
  | swap =>
      obtain ⟨done, rfl⟩ := swap_takes taken
      refine iff_of_true ⟨kept.whole, fun stale => ?_⟩ trivial
      have fresh := kept.fresh
      rw [done, List.map_nil, List.append_nil] at fresh
      exact fresh (stale_taken sound.fresh stale)
  | call =>
      obtain ⟨completion, rest, ready, rfl⟩ := call_begins taken
      refine iff_of_true ⟨?_, ?_⟩ trivial
      · simpa [Event.abandon] using kept.whole
      · have fresh := kept.fresh
        simpa [ready] using fresh
  | returns =>
      obtain ⟨game, ready, rfl⟩ := returns_moves taken
      exact iff_of_true (kept.move ready) trivial
  | throws => exact throws_law kept taken
  | finish =>
      obtain ⟨game, ready, rfl⟩ := finish_moves taken
      exact iff_of_true (kept.move ready) trivial
  | clear => exact clear_law sound kept taken

/-- A broken law stays broken. -/
theorem step_kept_back (taken : step before label = some after) (kept : Kept after) :
    Kept before := by
  cases label with
  | push callback =>
      obtain rfl := Option.some.inj taken
      refine ⟨by simpa [push, Event.abandon] using kept.whole, fun stale => kept.fresh ?_⟩
      exact stale.mono ((List.sublist_append_left _ _).append_right _)
  | look =>
      obtain ⟨game, ready, rfl⟩ := look_moves taken
      exact kept.move ready.symm
  | swap =>
      obtain ⟨done, rfl⟩ := swap_takes taken
      refine ⟨kept.whole, fun stale => kept.fresh (stale.mono ?_)⟩
      rw [done, List.map_nil, List.append_nil]
      exact List.sublist_append_left _ _
  | call =>
      obtain ⟨completion, rest, ready, rfl⟩ := call_begins taken
      refine ⟨by simpa [Event.abandon] using kept.whole, ?_⟩
      have fresh := kept.fresh
      simpa [ready] using fresh
  | returns =>
      obtain ⟨game, ready, rfl⟩ := returns_moves taken
      exact kept.move ready.symm
  | throws =>
      obtain rfl := throws_unwinds taken
      have whole := kept.whole
      simp only [unwound_append, Event.abandon, List.append_eq_nil_iff] at whole
      refine ⟨whole.1, fun stale => kept.fresh (stale.mono ?_)⟩
      simp [whole.2]
  | finish =>
      obtain ⟨game, ready, rfl⟩ := finish_moves taken
      exact kept.move ready.symm
  | clear =>
      obtain rfl := clear_drops taken
      refine ⟨by simpa [Event.abandon] using kept.whole, fun stale => kept.fresh ?_⟩
      exact stale.mono ((List.sublist_append_left _ _).append_right _)

theorem lawful_of_kept (sound : Sound before) (kept : Kept before) : Lawful before where
  once := by
    apply List.Nodup.of_map Completion.ticket
    rw [sound.tickets]
    exact List.nodup_range
  order := (List.sublist_append_left _ _).trans sound.order
  kept := by simpa [kept.whole] using sound.kept
  fresh stale := kept.fresh (stale.mono (List.sublist_append_left _ _))
  flagged := by simp [sound.flagged]

/-- Outside RunAll nothing is left that could break a law. -/
theorem kept_of_lawful (sound : Sound before) (done : before.game.ready = [])
    (lawful : Lawful before) : Kept before where
  whole := by
    have one := sound.kept.length_eq.trans lawful.kept.length_eq.symm
    simp only [List.length_append] at one
    exact List.length_eq_zero_iff.mp (by omega)
  fresh := by
    rw [done, List.map_nil, List.append_nil]
    exact lawful.fresh

end Steps

theorem kept_iff_guarded (labels : List (Label Callback)) :
    Always step Kept start labels ↔ Guarded step guard start labels :=
  always_iff_guarded (fun _ _ _ sound kept taken => step_law sound kept taken) start_sound
    start_kept labels

theorem guarded_lawful {labels : List (Label Callback)}
    (guarded : Guarded step guard start labels) : Always step Lawful start labels := by
  have both : ∀ (before : State Callback) label after, Sound before ∧ Kept before →
      guard before label → step before label = some after → Sound after ∧ Kept after := by
    rintro before label after ⟨sound, kept⟩ met taken
    obtain ⟨later, exact⟩ := step_law sound kept taken
    exact ⟨later, exact.mpr met⟩
  exact always_of_guarded both (fun state held => lawful_of_kept held.1 held.2)
    ⟨start_sound, start_kept⟩ guarded

/-- The laws hold throughout a run whose Clears and exceptions each find RunAll at the end of
its batch, and behind RunAll they hold of no other run. -/
theorem completions_lawful_iff {labels : List (Label Callback)} {after : State Callback}
    (taken : run step start labels = some after) :
    (Guarded step guard start labels → Always step Lawful start labels) ∧
      (after.game.ready = [] → (Lawful after ↔ Guarded step guard start labels)) := by
  refine ⟨guarded_lawful, fun done => ?_⟩
  constructor
  · intro lawful
    have sound : Sound after :=
      run_preserves (fun _ _ _ sound taken => step_sound sound taken) start_sound taken
    have kept := kept_of_lawful sound done lawful
    exact (kept_iff_guarded labels).mp
      (always_of_end (fun _ _ _ taken kept => step_kept_back taken kept) taken kept)
  · intro guarded
    exact (always_iff_everywhere ..).mp (guarded_lawful guarded) labels after List.prefix_rfl taken

/-- The last of a batch may clear, and what is pushed behind the Clear runs in the next frame. -/
theorem cleared_by_last :
    let tour : List (Label String) :=
      [.push "first", .push "second", .look, .swap, .call, .returns, .call, .push "dropped",
        .clear, .push "third", .returns, .finish, .look, .swap, .call]
    Always step Lawful start tour ∧
      (run step start tour).map (fun state => (ran state.events).map Completion.callback) =
        some ["first", "second", "third"] :=
  ⟨(completions_lawful_iff rfl).1 (by decide), by decide⟩

/-- The first of two completions stops the client, and the second is called all the same. -/
theorem stopped_and_called : ¬∀ (labels : List (Label String)) (after : State String),
    run step start labels = some after → Lawful after := by
  intro always
  have lawful := always [.push "first", .push "second", .look, .swap, .call, .clear, .returns,
    .call] _ rfl
  apply lawful.fresh
  exact ⟨⟨1, "second"⟩, [], by decide⟩

end VoltMod.CompletionQueue
