import VoltMod.CallbackRegistryRefinement

/-! Core/Signals/LazyHook.cpp shared by any number of events (Core/Signals/Event.hpp), each a
CallbackRegistry. Whether an install succeeds is decided at each try. The loops of
different events advance in any order here, every nesting of raises among them. -/
namespace VoltMod.LazyHook
open Transition CallbackRegistry

structure Hook where
  installed : Bool
  listening : Nat
  deriving DecidableEq, Repr

variable {Item : Type}

/-- `attempts` is history: how many events had a live handler at each try to install. -/
structure Shared (Item : Type) where
  hook : Hook
  events : List (Registry Item)
  attempts : List Nat

def start (count : Nat) : Shared Item := ⟨⟨false, 0⟩, List.replicate count empty, []⟩

def addListener (installs : Bool) (hook : Hook) : Bool × Hook :=
  if hook.listening = 0 then
    if installs then (true, ⟨true, 1⟩) else (false, hook)
  else (true, { hook with listening := hook.listening + 1 })

def removeListener (hook : Hook) : Hook :=
  if 0 < hook.listening then
    if hook.listening - 1 = 0 then ⟨false, 0⟩
    else { hook with listening := hook.listening - 1 }
  else hook

def liveHandlers (registry : Registry Item) : List (Entry Item) :=
  registry.entries.filter fun entry => !entry.removed

def hasLive (registry : Registry Item) : Bool := !(liveHandlers registry).isEmpty

def liveEvents (shared : Shared Item) : Nat := shared.events.countP hasLive

def setEvent (event : Nat) (registry : Registry Item) (shared : Shared Item) : Shared Item :=
  { shared with events := shared.events.set event registry }

/-- Event's `+=`, with the id of the Subscription it returns; none is an empty one. -/
def subscribe (event : Nat) (registry : Registry Item) (handler : Option Item) (installs : Bool)
    (shared : Shared Item) : Option Nat × Shared Item :=
  match handler with
  | none => (none, shared)
  | some item =>
      if registry.live = 0 then
        let result := addListener installs shared.hook
        let tried := { shared with
          hook := result.2
          attempts :=
            if shared.hook.listening = 0 then shared.attempts ++ [liveEvents shared]
            else shared.attempts }
        if result.1 then (some registry.nextId, setEvent event (add item registry) tried)
        else (none, tried)
      else (some registry.nextId, setEvent event (add item registry) shared)

/-- The cleanup of a Subscription. -/
def drop (event : Nat) (registry : Registry Item) (id : Nat) (shared : Shared Item) :
    Shared Item :=
  let result := remove id registry
  let dropped := setEvent event result.2 shared
  if result.1 && decide (result.2.live = 0) then
    { dropped with hook := removeListener dropped.hook }
  else dropped

inductive Label (Item : Type) where
  | subscribe (event : Nat) (handler : Option Item) (installs : Bool)
  | drop (event id : Nat)
  | raise (event : Nat)
  | iterate (event : Nat)
  | returnCall (event : Nat)
  | endDispatch (event : Nat)

/-- One step of an event's own loop. -/
def advance (event : Nat) (label : CallbackRegistry.Label Item) (shared : Shared Item) :
    Option (Shared Item) :=
  shared.events[event]?.bind fun registry =>
    (CallbackRegistry.step registry label).map fun next => setEvent event next shared

def step (shared : Shared Item) : Label Item → Option (Shared Item)
  | .subscribe event handler installs =>
      shared.events[event]?.bind fun registry =>
        if calling registry then some (subscribe event registry handler installs shared).2
        else none
  | .drop event id =>
      shared.events[event]?.bind fun registry =>
        if calling registry then some (drop event registry id shared) else none
  | .raise event => advance event .raise shared
  | .iterate event => advance event .iterate shared
  | .returnCall event => advance event .returnCall shared
  | .endDispatch event => advance event .endDispatch shared

/-- The hook goes with the live handlers, and a refused subscription leaves no trace. -/
structure Balances (shared : Shared Item) : Prop where
  installed : shared.hook.installed = true ↔ ∃ registry ∈ shared.events, hasLive registry = true
  listening : shared.hook.listening = liveEvents shared
  attempts : ∀ live ∈ shared.attempts, live = 0
  refused : ∀ event registry handler installs, shared.events[event]? = some registry →
    (subscribe event registry handler installs shared).1 = none →
    (subscribe event registry handler installs shared).2.events = shared.events ∧
      (subscribe event registry handler installs shared).2.hook = shared.hook

/-- What a registry reachable from an empty one keeps. -/
def Tracked [DecidableEq Item] (registry : Registry Item) : Prop :=
  ∃ roster, Ordered roster ∧ Follows registry roster

structure Sound [DecidableEq Item] (shared : Shared Item) : Prop where
  tracked : ∀ registry ∈ shared.events, Tracked registry
  listening : shared.hook.listening = liveEvents shared
  installed : shared.hook.installed = decide (0 < shared.hook.listening)
  attempts : ∀ live ∈ shared.attempts, live = 0

theorem setEvent_live {shared : Shared Item} {event : Nat} {registry : Registry Item}
    (here : shared.events[event]? = some registry) (next : Registry Item) :
    liveEvents (setEvent event next shared) + (if hasLive registry then 1 else 0) =
      liveEvents shared + (if hasLive next then 1 else 0) := by
  obtain ⟨inside, same⟩ := List.getElem?_eq_some_iff.mp here
  have counted := List.boole_getElem_le_countP (p := hasLive) inside
  rw [same] at counted
  rw [liveEvents, setEvent, List.countP_set inside, same, liveEvents]
  omega

theorem liveEvents_pos_iff (shared : Shared Item) :
    0 < liveEvents shared ↔ ∃ registry ∈ shared.events, hasLive registry = true :=
  List.countP_pos_iff

/-- The steps of an event's loop mark and sweep only what was dropped before. -/
theorem loop_live {registry next : Registry Item} {label : CallbackRegistry.Label Item}
    (loop : label = .raise ∨ label = .iterate ∨ label = .returnCall ∨ label = .endDispatch)
    (taken : CallbackRegistry.step registry label = some next) : next.live = registry.live := by
  rcases loop with rfl | rfl | rfl | rfl
  · simp only [CallbackRegistry.step, CallbackRegistry.Label.raise,
      Option.ite_none_right_eq_some, Option.some.injEq] at taken
    obtain ⟨_, rfl⟩ := taken
    unfold beginDispatch
    split <;> rfl
  · simp only [CallbackRegistry.step, iterate] at taken
    split at taken
    · cases taken
    · split at taken
      · cases taken
      · split at taken
        · cases taken
        · cases taken
          rfl
  · simp only [CallbackRegistry.step, returnCall] at taken
    split at taken
    · cases taken
    · split at taken
      · cases taken
        rfl
      · cases taken
  · simp only [CallbackRegistry.step, endDispatch] at taken
    split at taken
    · cases taken
    · split at taken
      · cases taken
        rfl
      · cases taken

theorem remove_cases (id : Nat) (registry : Registry Item) :
    ((remove id registry).1 = false ∧ (remove id registry).2 = registry) ∨
      (remove id registry).1 = true ∧ (remove id registry).2.live = registry.live - 1 ∧
        hasLive registry = true := by
  unfold remove
  split
  · exact Or.inl ⟨rfl, rfl⟩
  · next position found =>
      split
      · exact Or.inl ⟨rfl, rfl⟩
      · next entry here =>
          split
          · exact Or.inl ⟨rfl, rfl⟩
          · next kept =>
              refine Or.inr ⟨rfl, rfl, ?_⟩
              have member : entry ∈ liveHandlers registry :=
                List.mem_filter.mpr ⟨List.mem_of_getElem? here, by simpa using kept⟩
              simpa [hasLive] using List.ne_nil_of_mem member

/-- What `+=` with a handler does: nothing but a failed try, or one handler more, with
the hook told of the first. -/
theorem subscribe_cases (event : Nat) (registry : Registry Item) (item : Item) (installs : Bool)
    (shared : Shared Item) :
    (registry.live = 0 ∧ shared.hook.listening = 0 ∧ installs = false ∧
        subscribe event registry (some item) installs shared =
          (none, { shared with attempts := shared.attempts ++ [liveEvents shared] })) ∨
      (registry.live = 0 ∧ shared.hook.listening = 0 ∧ installs = true ∧
        subscribe event registry (some item) installs shared =
          (some registry.nextId, setEvent event (add item registry)
            ⟨⟨true, 1⟩, shared.events, shared.attempts ++ [liveEvents shared]⟩)) ∨
      (registry.live = 0 ∧ shared.hook.listening ≠ 0 ∧
        subscribe event registry (some item) installs shared =
          (some registry.nextId, setEvent event (add item registry)
            { shared with hook :=
              { shared.hook with listening := shared.hook.listening + 1 } })) ∨
      (registry.live ≠ 0 ∧
        subscribe event registry (some item) installs shared =
          (some registry.nextId, setEvent event (add item registry) shared)) := by
  unfold subscribe addListener
  by_cases first : registry.live = 0
  · by_cases idle : shared.hook.listening = 0
    · cases installs with
      | false => exact Or.inl ⟨first, idle, rfl, by simp [first, idle]⟩
      | true => exact Or.inr (Or.inl ⟨first, idle, rfl, by simp [first, idle]⟩)
    · exact Or.inr (Or.inr (Or.inl ⟨first, idle, by simp [first, idle]⟩))
  · exact Or.inr (Or.inr (Or.inr ⟨first, by simp [first]⟩))

section Tracking
variable [DecidableEq Item]

theorem tracked_empty : Tracked (empty : Registry Item) :=
  ⟨_, ordered_empty, follows_empty⟩

theorem tracked_step {registry next : Registry Item} {label : CallbackRegistry.Label Item}
    (tracked : Tracked registry) (taken : CallbackRegistry.step registry label = some next) :
    Tracked next := by
  obtain ⟨roster, ordered, follows⟩ := tracked
  have together := step_follows label ordered follows
  rw [taken] at together
  revert together
  cases taken_ : rosterStep roster label with
  | none => exact nofun
  | some after =>
      rintro ⟨related⟩
      exact ⟨after, step_ordered roster label after ordered taken_, related⟩

theorem hasLive_iff {registry : Registry Item} (tracked : Tracked registry) :
    hasLive registry = true ↔ registry.live ≠ 0 := by
  obtain ⟨roster, ordered, follows⟩ := tracked
  rw [hasLive, liveHandlers, unremoved ordered follows, follows.size]
  simp

theorem tracked_set {shared : Shared Item} (sound : Sound shared) {event : Nat}
    {next : Registry Item} (tracked : Tracked next) :
    ∀ registry ∈ (setEvent event next shared).events, Tracked registry := by
  intro registry member
  rcases List.mem_or_eq_of_mem_set member with old | rfl
  · exact sound.tracked registry old
  · exact tracked

theorem advance_sound {before after : Shared Item} {event : Nat}
    {label : CallbackRegistry.Label Item} (sound : Sound before)
    (loop : label = .raise ∨ label = .iterate ∨ label = .returnCall ∨ label = .endDispatch)
    (taken : advance event label before = some after) : Sound after := by
  obtain ⟨registry, here, moved⟩ := Option.bind_eq_some_iff.mp taken
  obtain ⟨next, stepped, rfl⟩ := Option.map_eq_some_iff.mp moved
  have old := sound.tracked registry (List.mem_of_getElem? here)
  have new := tracked_step old stepped
  have same : hasLive next = hasLive registry := by
    rw [Bool.eq_iff_iff, hasLive_iff new, hasLive_iff old, loop_live loop stepped]
  have counts := setEvent_live here next
  rw [same] at counts
  refine ⟨tracked_set sound new, ?_, sound.installed, sound.attempts⟩
  exact sound.listening.trans (Nat.add_right_cancel counts).symm

theorem subscribe_sound {shared : Shared Item} {event : Nat} {registry : Registry Item}
    {handler : Option Item} {installs : Bool} (sound : Sound shared)
    (here : shared.events[event]? = some registry) (outside : calling registry = true) :
    Sound (subscribe event registry handler installs shared).2 := by
  cases handler with
  | none => exact sound
  | some item =>
      have old := sound.tracked registry (List.mem_of_getElem? here)
      have added : CallbackRegistry.step registry (.subscribe item true) =
          some (add item registry) := by
        simp [CallbackRegistry.step, outside, CallbackRegistry.subscribe]
      have new := tracked_step old added
      have live : hasLive (add item registry) = true := (hasLive_iff new).mpr (Nat.succ_ne_zero _)
      have counts := setEvent_live here (add item registry)
      rw [if_pos live] at counts
      have quiet : registry.live = 0 → ¬hasLive registry = true :=
        fun none_ some_ => (hasLive_iff old).mp some_ none_
      have tried : ∀ count ∈ shared.attempts ++ [liveEvents shared],
          shared.hook.listening = 0 → count = 0 := by
        intro count member idle
        rcases List.mem_append.mp member with before | now
        · exact sound.attempts count before
        · rw [List.mem_singleton.mp now, ← sound.listening, idle]
      rcases subscribe_cases event registry item installs shared with
        ⟨first, idle, _, same⟩ | ⟨first, idle, _, same⟩ | ⟨first, busy, same⟩ | ⟨some_, same⟩
      · rw [same]
        exact ⟨sound.tracked, sound.listening, sound.installed,
          fun count member => tried count member idle⟩
      · rw [if_neg (quiet first), idle.symm.trans sound.listening |>.symm] at counts
        rw [same]
        exact ⟨tracked_set sound new, counts.symm, rfl,
          fun count member => tried count member idle⟩
      · rw [if_neg (quiet first), ← sound.listening] at counts
        rw [same]
        refine ⟨tracked_set sound new, counts.symm, ?_, sound.attempts⟩
        have running : shared.hook.installed = true := by
          rw [sound.installed]
          exact decide_eq_true (Nat.pos_of_ne_zero busy)
        exact running.trans (decide_eq_true (Nat.succ_pos _)).symm
      · rw [if_pos ((hasLive_iff old).mpr some_)] at counts
        rw [same]
        refine ⟨tracked_set sound new, ?_, sound.installed, sound.attempts⟩
        exact sound.listening.trans (Nat.add_right_cancel counts).symm

theorem drop_sound {shared : Shared Item} {event id : Nat} {registry : Registry Item}
    (sound : Sound shared) (here : shared.events[event]? = some registry)
    (outside : calling registry = true) : Sound (drop event registry id shared) := by
  have old := sound.tracked registry (List.mem_of_getElem? here)
  have dropped : CallbackRegistry.step registry (.drop id) = some (remove id registry).2 := by
    simp [CallbackRegistry.step, outside]
  have new := tracked_step old dropped
  have counts := setEvent_live here (remove id registry).2
  rcases remove_cases id registry with ⟨kept, same⟩ | ⟨gone, fewer, live⟩
  · have unmoved : drop event registry id shared = setEvent event registry shared := by
      simp [drop, kept, same]
    rw [same] at counts
    rw [unmoved]
    refine ⟨tracked_set sound old, ?_, sound.installed, sound.attempts⟩
    exact sound.listening.trans (Nat.add_right_cancel counts).symm
  · rw [if_pos live, ← sound.listening] at counts
    by_cases last : (remove id registry).2.live = 0
    · have quiet : ¬hasLive (remove id registry).2 = true :=
        fun some_ => (hasLive_iff new).mp some_ last
      rw [if_neg quiet] at counts
      have stopped : drop event registry id shared =
          { setEvent event (remove id registry).2 shared with
            hook := removeListener shared.hook } := by
        simp [drop, gone, last, setEvent]
      rw [stopped]
      have running : 0 < shared.hook.listening := by omega
      by_cases only : shared.hook.listening - 1 = 0
      · have bare : removeListener shared.hook = ⟨false, 0⟩ := by
          simp [removeListener, running, only]
        rw [bare]
        refine ⟨tracked_set sound new, ?_, rfl, sound.attempts⟩
        change 0 = liveEvents (setEvent event (remove id registry).2 shared)
        omega
      · have others : removeListener shared.hook =
            { shared.hook with listening := shared.hook.listening - 1 } := by
          simp [removeListener, running, only]
        rw [others]
        refine ⟨tracked_set sound new, ?_, ?_, sound.attempts⟩
        · change shared.hook.listening - 1 = liveEvents (setEvent event (remove id registry).2 shared)
          omega
        · apply sound.installed.trans
          rw [decide_eq_true running, decide_eq_true (Nat.pos_of_ne_zero only)]
    · rw [if_pos ((hasLive_iff new).mpr last), sound.listening] at counts
      have others : drop event registry id shared =
          setEvent event (remove id registry).2 shared := by
        simp [drop, gone, last]
      rw [others]
      refine ⟨tracked_set sound new, ?_, sound.installed, sound.attempts⟩
      exact sound.listening.trans (Nat.add_right_cancel counts).symm

theorem step_sound : Preserves (@step Item) Sound := by
  intro before label after sound taken
  cases label with
  | subscribe event handler installs =>
      obtain ⟨registry, here, moved⟩ := Option.bind_eq_some_iff.mp taken
      simp only [Option.ite_none_right_eq_some, Option.some.injEq] at moved
      obtain ⟨outside, rfl⟩ := moved
      exact subscribe_sound sound here outside
  | drop event id =>
      obtain ⟨registry, here, moved⟩ := Option.bind_eq_some_iff.mp taken
      simp only [Option.ite_none_right_eq_some, Option.some.injEq] at moved
      obtain ⟨outside, rfl⟩ := moved
      exact drop_sound sound here outside
  | raise event => exact advance_sound sound (Or.inl rfl) taken
  | iterate event => exact advance_sound sound (Or.inr (Or.inl rfl)) taken
  | returnCall event => exact advance_sound sound (Or.inr (Or.inr (Or.inl rfl))) taken
  | endDispatch event => exact advance_sound sound (Or.inr (Or.inr (Or.inr rfl))) taken

theorem start_sound (count : Nat) : Sound (start count : Shared Item) := by
  refine ⟨fun registry member => ?_, ?_, rfl, nofun⟩
  · rw [List.eq_of_mem_replicate member]
    exact tracked_empty
  · rw [liveEvents, start, List.countP_replicate]
    rfl

theorem sound_balances {shared : Shared Item} (sound : Sound shared) : Balances shared := by
  refine ⟨?_, sound.listening, sound.attempts, fun event registry handler installs here refused => ?_⟩
  · rw [sound.installed, decide_eq_true_iff, sound.listening]
    exact liveEvents_pos_iff shared
  · cases handler with
    | none => exact ⟨rfl, rfl⟩
    | some item =>
        rcases subscribe_cases event registry item installs shared with
          ⟨_, _, _, same⟩ | ⟨_, _, _, same⟩ | ⟨_, _, same⟩ | ⟨_, same⟩
        · rw [same]
          exact ⟨rfl, rfl⟩
        · rw [same] at refused
          cases refused
        · rw [same] at refused
          cases refused
        · rw [same] at refused
          cases refused

end Tracking

/-- The hook is installed exactly while some event has a live handler. -/
theorem hook_follows_handlers (count : Nat) (labels : List (Label Item)) :
    Always step Balances (start count : Shared Item) labels := by
  -- Handlers need no equality; only the rosters they are tracked by do.
  classical
  exact always_of_preserves step_sound (fun _ sound => sound_balances sound)
    (start_sound count) labels

end VoltMod.LazyHook
