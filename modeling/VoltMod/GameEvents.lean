import VoltMod.LazyHook
import VoltMod.OrderedDict

/-! Events/GameEvents.cpp: one engine listener shared by every subscribed event name, whose
handlers are a CallbackRegistry each. The engine drops listeners on its own at a map change
and may refuse one; both are labels here. -/
namespace VoltMod.Events
open Transition CallbackRegistry LazyHook OrderedDict

variable {Item : Type}

structure EventHandlers (Item : Type) where
  handlers : Registry Item
  attached : Bool

def EventHandlers.fresh : EventHandlers Item := ⟨empty, false⟩

/-- `listeners` is the engine's: the names this listener is on. `lost` is history: the names
the engine refused or dropped since it last took them. -/
structure GameEvents (Item : Type) where
  manager : Bool
  events : List (String × EventHandlers Item)
  listeners : List String
  lost : List String

def start (manager : Bool) : GameEvents Item := ⟨manager, [], [], []⟩

/-- The engine's AddListener. -/
def addListener (accepts : Bool) (name : String) (state : GameEvents Item) : GameEvents Item :=
  if accepts then
    { state with
      listeners := state.listeners ++ [name]
      lost := state.lost.filter fun other => decide (other ≠ name) }
  else { state with lost := state.lost ++ [name] }

def add (name : String) (item : Item) (accepts : Bool) (state : GameEvents Item) :
    GameEvents Item :=
  if !state.manager then state
  else
    let entry := (lookup name state.events).getD .fresh
    let asked := if entry.attached then state else addListener accepts name state
    { asked with
      events := alter name .fresh
        (fun entry => ⟨CallbackRegistry.add item entry.handlers, entry.attached || accepts⟩)
        state.events }

def EventHandlers.isEmpty (entry : EventHandlers Item) : Bool := decide (entry.handlers.live = 0)

/-- The names the loop of OnServerStartup asks the engine for. -/
def wanted (events : List (String × EventHandlers Item)) : List String :=
  keys (events.filter fun event => !event.2.isEmpty)

/-- One round of that loop. -/
def EventHandlers.reattach (accepts : String → Bool) (name : String) (entry : EventHandlers Item) :
    EventHandlers Item :=
  { entry with attached := !entry.isEmpty && accepts name }

def onServerStartup (accepts : String → Bool) (state : GameEvents Item) : GameEvents Item :=
  if !state.manager || state.events.isEmpty then state
  else
    { state with
      events := state.events.map fun event => (event.1, event.2.reattach accepts event.1)
      -- RemoveListener comes first, so what is listened to afterwards is what the loop added.
      listeners := (wanted state.events).filter accepts
      lost := (wanted state.events).filter fun name => !accepts name }

def removeAllListeners (state : GameEvents Item) : GameEvents Item :=
  { state with
    listeners := if state.manager && !state.events.isEmpty then [] else state.listeners
    events := state.events.map fun event => (event.1, ⟨clear event.2.handlers, false⟩) }

/-- A map change: the engine keeps some of its listeners. -/
def resetListeners (kept : String → Bool) (state : GameEvents Item) : GameEvents Item :=
  { state with
    listeners := state.listeners.filter kept
    lost := state.lost ++ state.listeners.filter fun name => !kept name }

/-- A step of the handlers of one name. -/
def advance (name : String) (label : CallbackRegistry.Label Item) (state : GameEvents Item) :
    Option (GameEvents Item) :=
  (lookup name state.events).bind fun entry =>
    (CallbackRegistry.step entry.handlers label).map fun next =>
      { state with events := alter name .fresh (fun entry => ⟨next, entry.attached⟩) state.events }

inductive Label (Item : Type) where
  | add (name : String) (item : Item) (accepts : Bool)
  | drop (name : String) (id : Nat)
  | fireGameEvent (name : String)
  | iterate (name : String)
  | returnCall (name : String)
  | endDispatch (name : String)
  | onServerStartup (accepts : String → Bool)
  | removeAllListeners
  | resetListeners (kept : String → Bool)

def step (state : GameEvents Item) : Label Item → Option (GameEvents Item)
  | .add name item accepts =>
      if calling ((lookup name state.events).getD .fresh).handlers then
        some (add name item accepts state)
      else none
  | .drop name id => advance name (.drop id) state
  | .fireGameEvent name => if name ∈ state.listeners then advance name .raise state else none
  | .iterate name => advance name .iterate state
  | .returnCall name => advance name .returnCall state
  | .endDispatch name => advance name .endDispatch state
  | .onServerStartup accepts => some (onServerStartup accepts state)
  | .removeAllListeners =>
      if state.events.all fun event => calling event.2.handlers then
        some (removeAllListeners state)
      else none
  | .resetListeners kept => some (resetListeners kept state)

/-- Every name is listened to at most once, and one with a live handler is listened to unless
the engine itself refused or dropped it since. -/
structure Served (state : GameEvents Item) : Prop where
  once : state.listeners.Nodup
  known : ∀ name ∈ state.listeners, (lookup name state.events).isSome
  heard : ∀ name entry, lookup name state.events = some entry → hasLive entry.handlers = true →
    (name ∈ state.listeners ↔ name ∉ state.lost)

structure Sound [DecidableEq Item] (state : GameEvents Item) : Prop where
  tracked : ∀ name entry, lookup name state.events = some entry → Tracked entry.handlers
  distinct : (keys state.events).Nodup
  once : state.listeners.Nodup
  apart : ∀ name ∈ state.listeners, name ∉ state.lost
  attached : ∀ name ∈ state.listeners, ∃ entry, lookup name state.events = some entry ∧
    entry.attached = true
  missed : ∀ name entry, lookup name state.events = some entry →
    entry.attached = true ∨ hasLive entry.handlers = true →
    name ∈ state.listeners ∨ name ∈ state.lost
  bare : state.manager = false → state.events = []

theorem lookup_changed {Value Other : Type} (change : String → Value → Other)
    (dict : List (String × Value)) (key : String) :
    lookup key (dict.map fun entry => (entry.1, change entry.1 entry.2)) =
      (lookup key dict).map (change key) := by
  induction dict with
  | nil => rfl
  | cons entry rest hypothesis =>
      simp only [List.map_cons, lookup]
      by_cases here : entry.1 = key
      · rw [if_pos here, if_pos here, here, Option.map_some]
      · rw [if_neg here, if_neg here, hypothesis]

theorem keys_changed {Value Other : Type} (change : String → Value → Other)
    (dict : List (String × Value)) :
    keys (dict.map fun entry => (entry.1, change entry.1 entry.2)) = keys dict := by
  simp [keys]

theorem mem_wanted {events : List (String × EventHandlers Item)}
    (distinct : (keys events).Nodup) (name : String) :
    name ∈ wanted events ↔
      ∃ entry, lookup name events = some entry ∧ entry.isEmpty = false := by
  rw [wanted, keys, List.mem_map]
  constructor
  · rintro ⟨⟨_, entry⟩, member, rfl⟩
    obtain ⟨held, live⟩ := List.mem_filter.mp member
    exact ⟨entry, (lookup_mem distinct).mpr held, by simpa using live⟩
  · rintro ⟨entry, held, live⟩
    have member := (lookup_mem distinct).mp held
    exact ⟨(name, entry), List.mem_filter.mpr ⟨member, by simpa using live⟩, rfl⟩

theorem wanted_nodup {events : List (String × EventHandlers Item)}
    (distinct : (keys events).Nodup) : (wanted events).Nodup :=
  distinct.sublist (List.filter_sublist.map Prod.fst)

theorem entry_attached {state : GameEvents Item} {name : String} {entry : EventHandlers Item}
    (own : (lookup name state.events).getD .fresh = entry) (attached : entry.attached = true) :
    lookup name state.events = some entry := by
  cases there : lookup name state.events with
  | none =>
      rw [there] at own
      subst own
      cases attached
  | some known =>
      rw [there] at own
      exact congrArg some own

section Tracking
variable [DecidableEq Item]

theorem live_isEmpty {entry : EventHandlers Item} (tracked : Tracked entry.handlers) :
    hasLive entry.handlers = true ↔ entry.isEmpty = false := by
  rw [hasLive_iff tracked, EventHandlers.isEmpty, decide_eq_false_iff_not]

/-- What a change to one name's entry has to keep, of that name and of the others. -/
structure Stores (name : String) (entry : EventHandlers Item) (before after : GameEvents Item) :
    Prop where
  manager : after.manager = true
  events : ∃ change : EventHandlers Item → EventHandlers Item,
    change ((lookup name before.events).getD .fresh) = entry ∧
      after.events = alter name .fresh change before.events
  tracked : Tracked entry.handlers
  once : after.listeners.Nodup
  apart : ∀ other ∈ after.listeners, other ∉ after.lost
  attached : name ∈ after.listeners → entry.attached = true
  missed : entry.attached = true ∨ hasLive entry.handlers = true →
    name ∈ after.listeners ∨ name ∈ after.lost
  listeners : ∀ other, other ≠ name → (other ∈ after.listeners ↔ other ∈ before.listeners)
  lost : ∀ other, other ≠ name → other ∈ before.lost → other ∈ after.lost

theorem Stores.sound {name : String} {entry : EventHandlers Item} {before after : GameEvents Item}
    (stores : Stores name entry before after) (sound : Sound before) : Sound after := by
  obtain ⟨change, changed, events⟩ := stores.events
  have found : ∀ other, lookup other after.events =
      if name = other then some entry else lookup other before.events := by
    intro other
    rw [events, lookup_alter, changed]
  refine ⟨?_, events ▸ alter_distinct sound.distinct, stores.once, stores.apart, ?_, ?_, ?_⟩
  · intro other there holds
    rw [found] at holds
    split at holds
    · cases holds
      exact stores.tracked
    · exact sound.tracked other there holds
  · intro other listened
    by_cases here : name = other
    · subst here
      exact ⟨entry, by rw [found, if_pos rfl], stores.attached listened⟩
    · obtain ⟨kept, there, attached⟩ :=
        sound.attached other ((stores.listeners other (Ne.symm here)).mp listened)
      exact ⟨kept, by rw [found, if_neg here, there], attached⟩
  · intro other there holds claims
    rw [found] at holds
    by_cases here : name = other
    · subst here
      rw [if_pos rfl] at holds
      cases holds
      exact stores.missed claims
    · rw [if_neg here] at holds
      exact (sound.missed other there holds claims).imp
        (stores.listeners other (Ne.symm here)).mpr (stores.lost other (Ne.symm here))
  · intro without
    rw [stores.manager] at without
    cases without

/-- A step of one name's handlers that adds none. -/
theorem advance_sound {before after : GameEvents Item} {name : String}
    {label : CallbackRegistry.Label Item} (sound : Sound before)
    (fewer : ∀ registry next, Tracked registry → CallbackRegistry.step registry label = some next →
      hasLive next = true → hasLive registry = true)
    (taken : advance name label before = some after) : Sound after := by
  obtain ⟨entry, held, moved⟩ := Option.bind_eq_some_iff.mp taken
  obtain ⟨next, stepped, rfl⟩ := Option.map_eq_some_iff.mp moved
  have old := sound.tracked name entry held
  have running : before.manager = true := by
    by_contra without
    rw [sound.bare (by simpa using without)] at held
    cases held
  have stores : Stores name ⟨next, entry.attached⟩ before { before with
      events := alter name .fresh (fun entry => ⟨next, entry.attached⟩) before.events } := by
    refine
      { manager := running
        events := ⟨_, by rw [held]; rfl, rfl⟩
        tracked := tracked_step old stepped
        once := sound.once
        apart := sound.apart
        attached := ?_
        missed := ?_
        listeners := fun _ _ => Iff.rfl
        lost := fun _ _ member => member }
    · intro listened
      obtain ⟨known, there, attached⟩ := sound.attached name listened
      cases held.symm.trans there
      exact attached
    · intro claims
      exact sound.missed name entry held (claims.imp_right (fewer entry.handlers next old stepped))
  exact stores.sound sound

theorem loop_fewer {label : CallbackRegistry.Label Item}
    (loop : label = .raise ∨ label = .iterate ∨ label = .returnCall ∨ label = .endDispatch)
    (registry next : Registry Item) (tracked : Tracked registry)
    (taken : CallbackRegistry.step registry label = some next) (live : hasLive next = true) :
    hasLive registry = true := by
  rw [hasLive_iff tracked, ← loop_live loop taken]
  exact (hasLive_iff (tracked_step tracked taken)).mp live

theorem drop_fewer (id : Nat) (registry next : Registry Item) (_ : Tracked registry)
    (taken : CallbackRegistry.step registry (.drop id) = some next) (live : hasLive next = true) :
    hasLive registry = true := by
  simp only [CallbackRegistry.step, Option.ite_none_right_eq_some, Option.some.injEq] at taken
  obtain ⟨_, rfl⟩ := taken
  rcases remove_cases id registry with ⟨_, same⟩ | ⟨_, _, held⟩
  · exact same ▸ live
  · exact held

theorem entry_tracked {state : GameEvents Item} (sound : Sound state) (name : String) :
    Tracked ((lookup name state.events).getD .fresh).handlers := by
  cases there : lookup name state.events with
  | none => exact tracked_empty
  | some known => exact sound.tracked name known there

theorem add_sound {state : GameEvents Item} {name : String} (sound : Sound state) (item : Item)
    (accepts : Bool) (outside : calling ((lookup name state.events).getD .fresh).handlers = true) :
    Sound (add name item accepts state) := by
  unfold add
  split
  · exact sound
  · next running =>
    have here : state.manager = true := by simpa using running
    have old := entry_tracked sound name
    generalize own : (lookup name state.events).getD .fresh = entry at outside old
    have added : CallbackRegistry.step entry.handlers (.subscribe item true) =
        some (CallbackRegistry.add item entry.handlers) := by
      simp [CallbackRegistry.step, outside, CallbackRegistry.subscribe]
    have new := tracked_step old added
    -- The engine is on a name only through an entry that is marked so.
    have free : entry.attached = false → name ∉ state.listeners := by
      intro detached listened
      obtain ⟨known, there, attached⟩ := sound.attached name listened
      rw [there] at own
      obtain rfl : known = entry := own
      rw [detached] at attached
      cases attached
    have stores : Stores name
        ⟨CallbackRegistry.add item entry.handlers, entry.attached || accepts⟩ state
        { (if entry.attached then state else addListener accepts name state) with
          events := alter name .fresh (fun entry =>
            ⟨CallbackRegistry.add item entry.handlers, entry.attached || accepts⟩) state.events } := by
      -- On the name already, taken by the engine now, or refused and noted as lost.
      cases attached : entry.attached with
      | true =>
          have known := entry_attached own attached
          exact
            { manager := here
              events := ⟨_, by rw [own, attached], rfl⟩
              tracked := new
              once := sound.once
              apart := sound.apart
              attached := fun _ => rfl
              missed := fun _ => sound.missed name entry known (.inl attached)
              listeners := fun _ _ => Iff.rfl
              lost := fun _ _ member => member }
      | false =>
          have absent := free attached
          cases accepts with
          | true =>
              exact
                { manager := here
                  events := ⟨_, by rw [own, attached], rfl⟩
                  tracked := new
                  once := List.nodup_append.mpr ⟨sound.once, List.nodup_singleton name, by
                    intro other inside last member same
                    obtain rfl := List.mem_singleton.mp member
                    exact absent (same ▸ inside)⟩
                  apart := by
                    intro other member lost
                    simp only [Bool.false_eq_true, if_false, addListener, if_true,
                      List.mem_append, List.mem_singleton] at member
                    simp only [Bool.false_eq_true, if_false, addListener, if_true,
                      List.mem_filter, decide_eq_true_eq] at lost
                    exact member.elim (fun old => sound.apart other old lost.1) lost.2
                  attached := fun _ => rfl
                  missed := fun _ => .inl (by simp [addListener])
                  listeners := fun other apart => by simp [addListener, apart]
                  lost := fun other apart member => by simp [addListener, apart, member] }
          | false =>
              exact
                { manager := here
                  events := ⟨_, by rw [own, attached], rfl⟩
                  tracked := new
                  once := sound.once
                  apart := by
                    intro other member lost
                    simp only [Bool.false_eq_true, if_false, addListener, List.mem_append,
                      List.mem_singleton] at lost
                    exact lost.elim (sound.apart other member)
                      fun same => absent (same ▸ member)
                  attached := fun listened => absurd listened absent
                  missed := fun _ => .inr (by simp [addListener])
                  listeners := fun other apart => Iff.rfl
                  lost := fun other apart member => by simp [addListener, member] }
    rw [← own] at stores ⊢
    exact stores.sound sound

theorem startup_sound {state : GameEvents Item} (sound : Sound state) (accepts : String → Bool) :
    Sound (onServerStartup accepts state) := by
  unfold onServerStartup
  split
  · exact sound
  · next running =>
    have found : ∀ name, lookup name (state.events.map fun event =>
        (event.1, event.2.reattach accepts event.1)) =
        (lookup name state.events).map (EventHandlers.reattach accepts name) :=
      lookup_changed (EventHandlers.reattach accepts) state.events
    refine
      { tracked := ?_
        distinct := ?_
        once := (wanted_nodup sound.distinct).filter _
        apart := ?_
        attached := ?_
        missed := ?_
        bare := ?_ }
    · intro name changed holds
      rw [found, Option.map_eq_some_iff] at holds
      obtain ⟨entry, there, rfl⟩ := holds
      exact sound.tracked name entry there
    · rw [keys_changed (EventHandlers.reattach accepts)]
      exact sound.distinct
    · intro name listened lost
      simp only [List.mem_filter] at listened lost
      simp [listened.2] at lost
    · intro name listened
      obtain ⟨asked, taken⟩ := List.mem_filter.mp listened
      obtain ⟨entry, there, live⟩ := (mem_wanted sound.distinct name).mp asked
      exact ⟨_, by rw [found, there]; rfl, by simp [EventHandlers.reattach, live, taken]⟩
    · intro name changed holds claims
      rw [found, Option.map_eq_some_iff] at holds
      obtain ⟨entry, there, rfl⟩ := holds
      have live : entry.isEmpty = false := by
        rcases claims with attached | live
        · simp only [EventHandlers.reattach, Bool.and_eq_true, Bool.not_eq_true'] at attached
          exact attached.1
        · exact (live_isEmpty (sound.tracked name entry there)).mp live
      have asked := (mem_wanted sound.distinct name).mpr ⟨entry, there, live⟩
      cases taken : accepts name with
      | true => exact .inl (List.mem_filter.mpr ⟨asked, taken⟩)
      | false => exact .inr (List.mem_filter.mpr ⟨asked, by simp [taken]⟩)
    · intro without
      rw [sound.bare without, List.map_nil]

theorem removeAll_sound {state : GameEvents Item} (sound : Sound state)
    (outside : ∀ event ∈ state.events, calling event.2.handlers = true) :
    Sound (removeAllListeners state) := by
  have found : ∀ name, lookup name (removeAllListeners state).events =
      (lookup name state.events).map fun entry => ⟨clear entry.handlers, false⟩ := by
    intro name
    rw [removeAllListeners, lookup_changed fun _ (entry : EventHandlers Item) =>
      (⟨clear entry.handlers, false⟩ : EventHandlers Item)]
  have silent : (removeAllListeners state).listeners = [] := by
    simp only [removeAllListeners, ite_eq_left_iff, Bool.and_eq_true, Bool.not_eq_true',
      List.isEmpty_eq_false_iff, not_and_or, not_not, Bool.not_eq_true]
    intro idle
    have bare : state.events = [] := idle.elim sound.bare id
    refine List.eq_nil_iff_forall_not_mem.mpr fun name listened => ?_
    obtain ⟨entry, there, _⟩ := sound.attached name listened
    rw [bare] at there
    cases there
  have cleared : ∀ name entry, lookup name state.events = some entry →
      Tracked (clear entry.handlers) := by
    intro name entry there
    have member := (lookup_mem sound.distinct).mp there
    have taken : CallbackRegistry.step entry.handlers .clear = some (clear entry.handlers) := by
      simp [CallbackRegistry.step, outside _ member]
    exact tracked_step (sound.tracked name entry there) taken
  refine
    { tracked := ?_
      distinct := ?_
      once := by rw [silent]; exact List.nodup_nil
      apart := fun name listened => absurd (silent ▸ listened) List.not_mem_nil
      attached := fun name listened => absurd (silent ▸ listened) List.not_mem_nil
      missed := ?_
      bare := ?_ }
  · intro name changed holds
    rw [found, Option.map_eq_some_iff] at holds
    obtain ⟨entry, there, rfl⟩ := holds
    exact cleared name entry there
  · rw [removeAllListeners, keys_changed fun _ (entry : EventHandlers Item) =>
      (⟨clear entry.handlers, false⟩ : EventHandlers Item)]
    exact sound.distinct
  · intro name changed holds claims
    rw [found, Option.map_eq_some_iff] at holds
    obtain ⟨entry, there, rfl⟩ := holds
    rcases claims with attached | live
    · cases attached
    · exact absurd rfl ((hasLive_iff (cleared name entry there)).mp live)
  · intro without
    rw [removeAllListeners, sound.bare without, List.map_nil]

theorem reset_sound {state : GameEvents Item} (sound : Sound state) (kept : String → Bool) :
    Sound (resetListeners kept state) := by
  refine
    { tracked := sound.tracked
      distinct := sound.distinct
      once := sound.once.filter _
      apart := ?_
      attached := ?_
      missed := ?_
      bare := sound.bare }
  · intro name listened lost
    obtain ⟨before, keeps⟩ := List.mem_filter.mp listened
    rcases List.mem_append.mp lost with old | dropped
    · exact sound.apart name before old
    · simp [keeps] at dropped
  · intro name listened
    exact sound.attached name (List.mem_filter.mp listened).1
  · intro name entry there claims
    rcases sound.missed name entry there claims with listened | lost
    · cases keeps : kept name with
      | true => exact .inl (List.mem_filter.mpr ⟨listened, keeps⟩)
      | false =>
          exact .inr (List.mem_append_right _ (List.mem_filter.mpr ⟨listened, by simp [keeps]⟩))
    · exact .inr (List.mem_append_left _ lost)

theorem step_sound : Preserves (@step Item) Sound := by
  intro before label after sound taken
  cases label with
  | add name item accepts =>
      simp only [step, Option.ite_none_right_eq_some, Option.some.injEq] at taken
      obtain ⟨outside, rfl⟩ := taken
      exact add_sound sound item accepts outside
  | drop name id => exact advance_sound sound (drop_fewer id) taken
  | fireGameEvent name =>
      simp only [step, Option.ite_none_right_eq_some] at taken
      exact advance_sound sound (loop_fewer (.inl rfl)) taken.2
  | iterate name => exact advance_sound sound (loop_fewer (.inr (.inl rfl))) taken
  | returnCall name => exact advance_sound sound (loop_fewer (.inr (.inr (.inl rfl)))) taken
  | endDispatch name => exact advance_sound sound (loop_fewer (.inr (.inr (.inr rfl)))) taken
  | onServerStartup accepts =>
      cases taken
      exact startup_sound sound accepts
  | removeAllListeners =>
      simp only [step, Option.ite_none_right_eq_some, Option.some.injEq, List.all_eq_true] at taken
      obtain ⟨outside, rfl⟩ := taken
      exact removeAll_sound sound outside
  | resetListeners kept =>
      cases taken
      exact reset_sound sound kept

theorem start_sound (manager : Bool) : Sound (start manager : GameEvents Item) :=
  { tracked := nofun
    distinct := List.nodup_nil
    once := List.nodup_nil
    apart := nofun
    attached := nofun
    missed := nofun
    bare := fun _ => rfl }

theorem sound_served {state : GameEvents Item} (sound : Sound state) : Served state := by
  refine ⟨sound.once, ?_, ?_⟩
  · intro name listened
    obtain ⟨entry, there, _⟩ := sound.attached name listened
    rw [there]
    rfl
  · intro name entry there live
    exact ⟨sound.apart name, (sound.missed name entry there (.inr live)).resolve_right⟩

end Tracking

/-- No event is delivered twice, and none with a live handler is missed on this side. -/
theorem listeners_follow_handlers (manager : Bool) (labels : List (Label Item)) :
    Always step Served (start manager : GameEvents Item) labels := by
  classical
  exact always_of_preserves step_sound (fun _ sound => sound_served sound)
    (start_sound manager) labels

end VoltMod.Events
