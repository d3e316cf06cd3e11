import Mathlib.Data.List.Forall2
import VoltMod.ButtonPressMessage
import VoltMod.Cooldown

/-! Host/Input/ButtonPresses.cpp: presses queued from the messages of clients and raised on the
next frame. A handler runs between two raises, and what it does may bring more messages. What the
message's fields and its connection hold is read by the engine. -/
namespace VoltMod.ButtonPresses
open Transition ButtonPress

def customHudClickType : Int := 390

def warningIntervalSeconds : Int := 10

structure Press where
  slot : Int
  buttonId : List UInt8
  deriving DecidableEq, Repr

/-- An inbound message: its id, `msg_type` and `msg_data`, and the slot of its connection. -/
structure Message where
  messageId : Int
  type : Int
  slot : Int
  data : List UInt8

def validSlot (slot : Int) : Bool := decide (0 ≤ slot) && decide (slot < 64)

/-- Whether a message is a press at all. -/
def isPress (messageId : Int) (message : Message) : Bool :=
  message.messageId == messageId && message.type == customHudClickType && validSlot message.slot

/-- `raising` is what OnFrame swapped out and has still to raise. Behind it, history: every press
queued with the frame it is due in, every press raised with its frame, and all the messages. -/
structure State where
  queued : List Press
  raising : Option (List Press)
  warnings : Cooldowns.State Int
  frame : Nat
  accepted : List (Press × Nat)
  raised : List (Press × Nat)
  messages : List Message

def start (clock : Int) : State := ⟨[], none, Cooldowns.initial clock, 0, [], [], []⟩

/-- `WarnMalformed`, with whether it warns left to the log. -/
def warnMalformed (slot now : Int) (state : State) : Option State :=
  (Cooldowns.step state.warnings (.tryStart slot now warningIntervalSeconds)).map fun warnings =>
    { state with warnings }

def queue (messageId : Int) (message : Message) (now : Int) (state : State) : Option State :=
  if isPress messageId message then
    match parse message.data with
    | .error _ => warnMalformed message.slot now state
    | .ok payload =>
        -- a NUL would end the id early in the plugins
        if 0 ∈ payload.buttonId then some state
        else
          let press : Press := ⟨message.slot, payload.buttonId⟩
          some { state with
            queued := state.queued ++ [press]
            accepted := state.accepted ++ [(press, state.frame + 1)] }
  else some state

inductive Label where
  | message (message : Message) (now : Int)
  | frame
  | raise
  | endFrame

def step (messageId : Int) (state : State) : Label → Option State
  | .message message now =>
      queue messageId message now { state with messages := state.messages ++ [message] }
  | .frame =>
      match state.raising with
      | some _ => none
      | none => some { state with
          queued := [], raising := some state.queued, frame := state.frame + 1 }
  | .raise =>
      match state.raising with
      | some (press :: rest) => some { state with
          raising := some rest, raised := state.raised ++ [(press, state.frame)] }
      | _ => none
  | .endFrame =>
      match state.raising with
      | some [] => some { state with raising := none }
      | _ => none

/-- The press a message carries, if any. -/
def pressOf (messageId : Int) (message : Message) : Option Press :=
  if isPress messageId message then
    match parse message.data with
    | .error _ => none
    | .ok payload => if 0 ∈ payload.buttonId then none else some ⟨message.slot, payload.buttonId⟩
  else none

def malformed (messageId : Int) (message : Message) : Bool :=
  isPress messageId message && (parse message.data).toOption.isNone

def Asked (event : Cooldowns.Event Int) (message : Message) : Prop :=
  ∃ now granted, event = .asked message.slot now warningIntervalSeconds granted

/-- Every press there was is raised once, in order and in the frame after it came; and every
malformed one asks for its slot's warning. -/
structure Delivered (messageId : Int) (state : State) : Prop where
  accepted : state.accepted.map Prod.fst = state.messages.filterMap (pressOf messageId)
  raised : state.accepted = state.raised ++ (state.raising.getD []).map (·, state.frame) ++
    state.queued.map (·, state.frame + 1)
  asked : List.Forall₂ Asked state.warnings.log (state.messages.filter (malformed messageId))
  warned : Cooldowns.Answered state.warnings.log

structure Sound (messageId : Int) (state : State) : Prop extends Delivered messageId state where
  cooled : Cooldowns.Sound warningIntervalSeconds state.warnings

variable {messageId : Int} {before after : State}

theorem start_sound (clock : Int) : Sound messageId (start clock) where
  accepted := rfl
  raised := rfl
  asked := .nil
  warned := by
    have sound : Cooldowns.Sound warningIntervalSeconds (start clock).warnings :=
      Cooldowns.initial_sound clock
    exact sound.answered
  cooled := Cooldowns.initial_sound clock

/-- A message that is neither a press nor malformed changes nothing but the history. -/
theorem Sound.passed (sound : Sound messageId before) {message : Message}
    (none_ : pressOf messageId message = none) (fine : malformed messageId message = false) :
    Sound messageId { before with messages := before.messages ++ [message] } where
  accepted := by
    rw [List.filterMap_append, List.filterMap_cons_none none_, List.filterMap_nil, List.append_nil]
    exact sound.accepted
  raised := sound.raised
  asked := by
    rw [List.filter_append, List.filter_cons_of_neg (by simp [fine]), List.filter_nil,
      List.append_nil]
    exact sound.asked
  warned := sound.warned
  cooled := sound.cooled

theorem Sound.queued (sound : Sound messageId before) {message : Message} {press : Press}
    (some_ : pressOf messageId message = some press) (fine : malformed messageId message = false) :
    Sound messageId { before with
      messages := before.messages ++ [message], queued := before.queued ++ [press]
      accepted := before.accepted ++ [(press, before.frame + 1)] } where
  accepted := by
    rw [List.filterMap_append, List.filterMap_cons_some some_, List.filterMap_nil, List.map_append,
      sound.accepted]
    rfl
  raised := by
    rw [sound.raised, List.map_append, List.map_singleton, List.append_assoc _ _ [_]]
  asked := by
    rw [List.filter_append, List.filter_cons_of_neg (by simp [fine]), List.filter_nil,
      List.append_nil]
    exact sound.asked
  warned := sound.warned
  cooled := sound.cooled

theorem warned_asks {warnings next : Cooldowns.State Int} {slot now seconds : Int}
    (taken : Cooldowns.step warnings (.tryStart slot now seconds) = some next) :
    ∃ granted, next.log = warnings.log ++ [.asked slot now seconds granted] := by
  simp only [Cooldowns.step] at taken
  split at taken
  · cases taken
  · cases taken
    exact ⟨_, rfl⟩

theorem Sound.refused (sound : Sound messageId before) {message : Message} {now : Int}
    (none_ : pressOf messageId message = none) (bad : malformed messageId message = true)
    {warnings : Cooldowns.State Int}
    (taken : Cooldowns.step before.warnings (.tryStart message.slot now warningIntervalSeconds) =
      some warnings) :
    Sound messageId { before with messages := before.messages ++ [message], warnings } where
  accepted := by
    rw [List.filterMap_append, List.filterMap_cons_none none_, List.filterMap_nil, List.append_nil]
    exact sound.accepted
  raised := sound.raised
  asked := by
    obtain ⟨granted, same⟩ := warned_asks taken
    rw [same, List.filter_append, List.filter_cons_of_pos bad, List.filter_nil]
    exact List.rel_append sound.asked (.cons ⟨now, granted, rfl⟩ .nil)
  warned := (Cooldowns.step_sound sound.cooled (Int.le_refl _) taken).answered
  cooled := Cooldowns.step_sound sound.cooled (Int.le_refl _) taken

theorem queue_sound (sound : Sound messageId before) {message : Message} {now : Int}
    (taken : queue messageId message now { before with messages := before.messages ++ [message] } =
      some after) : Sound messageId after := by
  rw [queue] at taken
  split at taken
  · rename_i press
    split at taken
    · rename_i parsed
      obtain ⟨warnings, asked, rfl⟩ := Option.map_eq_some_iff.mp taken
      have none_ : pressOf messageId message = none := by rw [pressOf, if_pos press, parsed]
      have bad : malformed messageId message = true := by
        rw [malformed, press, parsed]
        rfl
      exact sound.refused none_ bad asked
    · rename_i payload parsed
      have fine : malformed messageId message = false := by
        rw [malformed, press, parsed]
        rfl
      split at taken
      · rename_i nul
        cases taken
        exact sound.passed (by rw [pressOf, if_pos press, parsed]; exact if_pos nul) fine
      · rename_i nul
        cases taken
        exact sound.queued (by rw [pressOf, if_pos press, parsed]; exact if_neg nul) fine
  · rename_i other
    cases taken
    have fine : malformed messageId message = false := by
      rw [malformed, Bool.not_eq_true _ |>.mp other, Bool.false_and]
    exact sound.passed (by rw [pressOf, if_neg other]) fine

theorem step_sound : Preserves (step messageId) (Sound messageId) := by
  intro before label after sound taken
  cases label with
  | message message now => exact queue_sound sound taken
  | frame =>
      rw [step] at taken
      split at taken
      · cases taken
      · rename_i idle
        cases taken
        refine ⟨⟨sound.accepted, ?_, sound.asked, sound.warned⟩, sound.cooled⟩
        have raised := sound.raised
        rw [idle] at raised
        simpa using raised
  | raise =>
      rw [step] at taken
      split at taken
      · rename_i press rest raising
        cases taken
        refine ⟨⟨sound.accepted, ?_, sound.asked, sound.warned⟩, sound.cooled⟩
        have raised := sound.raised
        rw [raising] at raised
        simpa using raised
      · cases taken
  | endFrame =>
      rw [step] at taken
      split at taken
      · rename_i raising
        cases taken
        refine ⟨⟨sound.accepted, ?_, sound.asked, sound.warned⟩, sound.cooled⟩
        have raised := sound.raised
        rw [raising] at raised
        simpa using raised
      · cases taken

/-- However messages, frames and handlers that cause more messages interleave, no press is lost,
doubled, reordered or raised in another frame. -/
theorem presses_delivered (messageId clock : Int) (labels : List Label) :
    Always (step messageId) (Delivered messageId) (start clock) labels :=
  always_of_preserves step_sound (fun _ sound => sound.toDelivered) (start_sound clock) labels

end VoltMod.ButtonPresses
