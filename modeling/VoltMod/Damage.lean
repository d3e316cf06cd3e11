import Mathlib.Data.List.Basic
import Mathlib.Data.List.Perm.Basic

/-! Hooks/Damage.cpp: which weapon each `player_death` names while Apply deals its hits. The
hit being dealt is one variable, saved on the stack of Apply; an event's handlers may deal
hits of their own, whose deaths are fired before it returns. -/
namespace VoltMod.DamageHits

structure DamageInfo where
  weapon : String
  victimWeapon : String
  deriving DecidableEq, Repr

structure GameEvent where
  name : String
  userid : Int
  weapon : String
  deriving DecidableEq, Repr

def maxPlayers : Nat := 64

def playerDeath : String := "player_death"

inductive Delivery where
  | server (event : GameEvent)
  | client (slot : Nat) (event : GameEvent)
  /-- The engine's own, to every client. -/
  | broadcast (event : GameEvent)
  deriving DecidableEq, Repr

/-- What happens on the game thread: a hit Apply is asked for, with all that happens inside
the engine's TakeDamage, or an event fired, with all that the server's listeners do. -/
inductive Happening where
  | applied (victim : Bool) (info : DamageInfo) (inside : List Happening)
  | fired (event : GameEvent) (dontBroadcast : Bool) (handlers : List Happening)

/-- `installs`: there is an event manager and its FireEvent can be hooked; `bound`: the listener
signature did bind. -/
structure Server where
  available : Bool
  installs : Bool
  bound : Bool
  connected : Nat → Bool

structure Damage where
  hit : Option DamageInfo
  deathEvents : Bool
  deriving DecidableEq, Repr

def idle : Damage := ⟨none, false⟩

section Source
variable (server : Server)

/-- GetClientLegacyListener: whether there is one. -/
def listener (slot : Nat) : Bool := server.bound && server.connected slot

def hookDeathEvents (state : Damage) : Damage :=
  if state.deathEvents || !server.installs then state else { state with deathEvents := true }

def setWeapon (weapon : String) (event : GameEvent) : GameEvent := { event with weapon }

def sendDeath (death : GameEvent) (info : DamageInfo) : List Delivery :=
  ((List.range maxPlayers).filter (listener server)).map fun slot =>
    .client slot (setWeapon (if (slot : Int) = death.userid then info.victimWeapon else info.weapon)
      death)

/-- What is sent at once, and the event and flag the original FireEvent is called with. -/
def onFireEvent (state : Damage) (event : GameEvent) (dontBroadcast : Bool) :
    List Delivery × GameEvent × Bool :=
  match state.hit with
  | none => ([], event, dontBroadcast)
  | some info =>
      if info.weapon = "" then ([], event, dontBroadcast)
      else if event.name ≠ playerDeath then ([], event, dontBroadcast)
      else if info.victimWeapon = "" || dontBroadcast then
        ([], setWeapon info.weapon event, dontBroadcast)
      else (sendDeath server event info, setWeapon info.weapon event, true)

/-- A FireEvent as the engine calls it: through the hook, once that is installed. -/
def hookedFire (state : Damage) (event : GameEvent) (dontBroadcast : Bool) :
    List Delivery × GameEvent × Bool :=
  if state.deathEvents then onFireEvent server state event dontBroadcast
  else ([], event, dontBroadcast)

/-- The engine's own FireEvent: the server's listeners first. -/
def original (event : GameEvent) (dontBroadcast : Bool) (nested : List Delivery) : List Delivery :=
  .server event :: nested ++ if dontBroadcast then [] else [.broadcast event]

mutual

def play (state : Damage) : Happening → Damage × List Delivery
  | .applied victim info inside =>
      if !victim || !server.available then (state, [])
      else
        let hooked := if info.weapon = "" then state else hookDeathEvents server state
        let (after, sent) := playAll { hooked with hit := some info } inside
        ({ after with hit := hooked.hit }, sent)
  | .fired event dontBroadcast handlers =>
      let (sent, passed, quiet) := hookedFire server state event dontBroadcast
      let (after, nested) := playAll state handlers
      (after, sent ++ original passed quiet nested)

def playAll (state : Damage) : List Happening → Damage × List Delivery
  | [] => (state, [])
  | first :: rest =>
      let (middle, sent) := play state first
      let (after, later) := playAll middle rest
      (after, sent ++ later)

end

end Source

/-- What a slot's client gets of a delivery. -/
def hears (server : Server) (slot : Nat) : Delivery → Option GameEvent
  | .server _ => none
  | .client other event => if other = slot then some event else none
  | .broadcast event => if server.connected slot then some event else none

def heardHere : Delivery → Option GameEvent
  | .server event => some event
  | _ => none

section Lexical
variable (server : Server)

/-- The hit whose weapon a death is named after, from the innermost one it happens in. -/
def namedAfter (dealing : Option DamageInfo) (event : GameEvent) : Option DamageInfo :=
  dealing.filter fun info => server.installs && info.weapon ≠ "" && event.name = playerDeath

/-- What the server's listeners read. -/
def shown (dealing : Option DamageInfo) (event : GameEvent) : GameEvent :=
  match namedAfter server dealing event with
  | none => event
  | some info => setWeapon info.weapon event

/-- What a slot's client reads. -/
def shownTo (slot : Nat) (dealing : Option DamageInfo) (event : GameEvent) : GameEvent :=
  match namedAfter server dealing event with
  | none => event
  | some info =>
      if info.victimWeapon ≠ "" ∧ (slot : Int) = event.userid then
        setWeapon info.victimWeapon event
      else setWeapon info.weapon event

/-- Without the listener signature no client gets a death that is told to each on its own. -/
def reaches (slot : Nat) (dealing : Option DamageInfo) (event : GameEvent) : Bool :=
  server.connected slot &&
    match namedAfter server dealing event with
    | none => true
    | some info => info.victimWeapon = "" || server.bound

mutual

def shownAll (dealing : Option DamageInfo) : Happening → List GameEvent
  | .applied victim info inside =>
      if victim && server.available then shownEach (some info) inside else []
  | .fired event _ handlers => shown server dealing event :: shownEach dealing handlers

def shownEach (dealing : Option DamageInfo) : List Happening → List GameEvent
  | [] => []
  | first :: rest => shownAll dealing first ++ shownEach dealing rest

end

mutual

def shownAllTo (slot : Nat) (dealing : Option DamageInfo) : Happening → List GameEvent
  | .applied victim info inside =>
      if victim && server.available then shownEachTo slot (some info) inside else []
  | .fired event dontBroadcast handlers =>
      (if !dontBroadcast && reaches server slot dealing event then
        [shownTo server slot dealing event] else []) ++
        shownEachTo slot dealing handlers

def shownEachTo (slot : Nat) (dealing : Option DamageInfo) : List Happening → List GameEvent
  | [] => []
  | first :: rest => shownAllTo slot dealing first ++ shownEachTo slot dealing rest

end

end Lexical

section Agreement
variable {server : Server} {state : Damage}

/-- While a named hit is dealt the deaths are hooked, where they can be. -/
structure Ready (server : Server) (state : Damage) : Prop where
  installed : state.deathEvents = true → server.installs = true
  hooked : ∀ info, state.hit = some info → info.weapon ≠ "" → server.installs = true →
    state.deathEvents = true

/-- The steps inside a hit leave it as it was, and all is heard as its place says. -/
structure Agrees (server : Server) (state : Damage) (outcome : Damage × List Delivery)
    (here : List GameEvent) (there : Nat → List GameEvent) : Prop where
  hit : outcome.1.hit = state.hit
  ready : Ready server outcome.1
  kept : state.deathEvents = true → outcome.1.deathEvents = true
  here : outcome.2.filterMap heardHere = here
  there : ∀ slot < maxPlayers, (outcome.2.filterMap (hears server slot)).Perm (there slot)

theorem ready_hooked (ready : Ready server state) (info : DamageInfo) :
    Ready server { (if info.weapon = "" then state else hookDeathEvents server state) with
      hit := some info } := by
  refine ⟨?_, ?_⟩
  · intro hooked
    split at hooked
    · exact ready.installed hooked
    · simp only [hookDeathEvents] at hooked
      split at hooked
      · exact ready.installed hooked
      · next unhooked =>
          simp only [Bool.or_eq_true, not_or, Bool.not_eq_true, Bool.not_eq_false'] at unhooked
          exact unhooked.2
  · intro other same named installs
    cases same
    simp only [if_neg named, hookDeathEvents, installs, Bool.not_true, Bool.or_false]
    split
    · assumption
    · rfl

theorem hooked_hit (info : DamageInfo) :
    (if info.weapon = "" then state else hookDeathEvents server state).hit = state.hit := by
  unfold hookDeathEvents
  split
  · rfl
  · split <;> rfl

theorem hooked_kept (info : DamageInfo) (hooked : state.deathEvents = true) :
    (if info.weapon = "" then state else hookDeathEvents server state).deathEvents = true := by
  simp [hookDeathEvents, hooked]

theorem ready_unhooked {after : Damage} (ready : Ready server state) (info : DamageInfo)
    (inside : Ready server after) (kept : state.deathEvents = true → after.deathEvents = true) :
    Ready server { after with
      hit := (if info.weapon = "" then state else hookDeathEvents server state).hit } := by
  rw [hooked_hit info]
  exact ⟨inside.installed, fun other held named installs =>
    kept (ready.hooked other held named installs)⟩

theorem sendDeath_here (death : GameEvent) (info : DamageInfo) :
    (sendDeath server death info).filterMap heardHere = [] := by
  simp [sendDeath, List.filterMap_eq_nil_iff, heardHere]

/-- Of a message each to some slots, a slot gets its own. -/
theorem addressed {items : List Nat} (distinct : items.Nodup) (slot : Nat)
    (message : Nat → GameEvent) :
    (items.map fun other => Delivery.client other (message other)).filterMap (hears server slot) =
      if slot ∈ items then [message slot] else [] := by
  induction items with
  | nil => rfl
  | cons other rest ih =>
      obtain ⟨absent, others⟩ := List.nodup_cons.mp distinct
      rw [List.map_cons, List.filterMap_cons, ih others]
      by_cases here : other = slot
      · subst here
        simp [hears, absent]
      · have apart : slot ≠ other := Ne.symm here
        simp [hears, here, apart]

theorem sendDeath_there (death : GameEvent) (info : DamageInfo) {slot : Nat}
    (valid : slot < maxPlayers) :
    (sendDeath server death info).filterMap (hears server slot) =
      if listener server slot then
        [setWeapon (if (slot : Int) = death.userid then info.victimWeapon else info.weapon) death]
      else [] := by
  rw [sendDeath, addressed (List.nodup_range.filter _)]
  simp [valid]

theorem hookedFire_plain (event : GameEvent) (dontBroadcast : Bool)
    (plain : namedAfter server state.hit event = none) (ready : Ready server state) :
    hookedFire server state event dontBroadcast = ([], event, dontBroadcast) := by
  unfold hookedFire onFireEvent
  split
  · next hooked =>
      split
      · rfl
      · next info same =>
          rw [same, namedAfter, Option.filter_some, ite_eq_right_iff] at plain
          split
          · rfl
          · next named =>
              split
              · rfl
              · next death =>
                  have dealt := ready.installed hooked
                  have death : event.name = playerDeath := by simpa using death
                  exact absurd (plain (by simp [dealt, named, death])) (by simp)
  · rfl

theorem namedAfter_some {event : GameEvent} {info : DamageInfo}
    (named : namedAfter server state.hit event = some info) :
    state.hit = some info ∧ server.installs = true ∧ info.weapon ≠ "" ∧
      event.name = playerDeath := by
  rw [namedAfter, Option.filter_eq_some_iff] at named
  obtain ⟨dealt, facts⟩ := named
  simp only [Bool.and_eq_true, decide_eq_true_eq] at facts
  exact ⟨dealt, facts.1.1, facts.1.2, facts.2⟩

theorem hookedFire_named {event : GameEvent} {info : DamageInfo} (dontBroadcast : Bool)
    (named : namedAfter server state.hit event = some info) (ready : Ready server state) :
    hookedFire server state event dontBroadcast =
      if info.victimWeapon = "" || dontBroadcast then
        ([], setWeapon info.weapon event, dontBroadcast)
      else (sendDeath server event info, setWeapon info.weapon event, true) := by
  obtain ⟨dealt, installs, weapon, death⟩ := namedAfter_some named
  have hooked := ready.hooked info dealt weapon installs
  simp only [hookedFire, hooked, if_true, onFireEvent, dealt, if_neg weapon, death, ne_eq,
    not_true_eq_false, if_false]

theorem original_here (event : GameEvent) (dontBroadcast : Bool) (nested : List Delivery) :
    (original event dontBroadcast nested).filterMap heardHere =
      event :: nested.filterMap heardHere := by
  cases dontBroadcast <;> simp [original, heardHere]

theorem original_there (event : GameEvent) (dontBroadcast : Bool) (nested : List Delivery)
    (slot : Nat) :
    ((original event dontBroadcast nested).filterMap (hears server slot)).Perm
      ((if !dontBroadcast && server.connected slot then [event] else []) ++
        nested.filterMap (hears server slot)) := by
  cases dontBroadcast with
  | true => simp [original, List.filterMap_cons, hears]
  | false =>
      rw [original, List.cons_append, List.filterMap_cons, List.filterMap_append]
      refine List.perm_append_comm.trans ?_
      cases present : server.connected slot <;> simp [hears, present]

/-- What the hook makes of one event, as its audiences see it. -/
theorem fired_agrees (ready : Ready server state) (event : GameEvent) (dontBroadcast : Bool)
    {nested : Damage × List Delivery} {here : List GameEvent} {there : Nat → List GameEvent}
    (inside : Agrees server state nested here there) :
    Agrees server state
      (nested.1, (hookedFire server state event dontBroadcast).1 ++
        original (hookedFire server state event dontBroadcast).2.1
          (hookedFire server state event dontBroadcast).2.2 nested.2)
      (shown server state.hit event :: here)
      fun slot =>
        (if !dontBroadcast && reaches server slot state.hit event then
          [shownTo server slot state.hit event] else []) ++ there slot := by
  cases named : namedAfter server state.hit event with
  | none =>
      rw [hookedFire_plain event dontBroadcast named ready]
      refine
        { inside with
          here := by
            rw [List.nil_append, original_here, inside.here, shown, named]
          there := fun slot valid => ?_ }
      rw [List.nil_append, reaches, shownTo, named, Bool.and_true]
      exact (original_there event dontBroadcast nested.2 slot).trans
        ((inside.there slot valid).append_left _)
  | some info =>
      rw [hookedFire_named dontBroadcast named ready]
      -- One event serves everyone, unless the victim is shown another weapon.
      by_cases together : (info.victimWeapon = "" || dontBroadcast) = true
      · rw [if_pos together]
        refine
          { inside with
            here := by
              rw [List.nil_append, original_here, inside.here, shown, named]
            there := fun slot valid => ?_ }
        rw [List.nil_append]
        refine (original_there _ dontBroadcast nested.2 slot).trans ?_
        rw [reaches, shownTo, named]
        refine List.Perm.append ?_ (inside.there slot valid)
        cases dontBroadcast with
        | true => simp
        | false =>
            have same : info.victimWeapon = "" := by simpa using together
            simp [same]
      · rw [if_neg together]
        obtain ⟨split_, loud⟩ : info.victimWeapon ≠ "" ∧ dontBroadcast = false := by
          simpa using together
        refine
          { inside with
            here := by
              rw [List.filterMap_append, sendDeath_here, List.nil_append, original_here,
                inside.here, shown, named]
            there := fun slot valid => ?_ }
        rw [List.filterMap_append, sendDeath_there event info valid, reaches, shownTo, named]
        refine List.Perm.append ?_ ?_
        · have told : listener server slot = (server.connected slot && server.bound) :=
            Bool.and_comm _ _
          simp only [loud, split_, told, Bool.not_false, Bool.true_and, decide_false,
            Bool.false_or, ne_eq, not_false_eq_true, true_and]
          split
          · split <;> exact .refl _
          · exact .refl _
        · refine (original_there _ true nested.2 slot).trans ?_
          simpa using inside.there slot valid

mutual

theorem play_agrees (state : Damage) (ready : Ready server state) :
    ∀ happening, Agrees server state (play server state happening)
      (shownAll server state.hit happening) fun slot => shownAllTo server slot state.hit happening
  | .applied victim info inside => by
      unfold play shownAll shownAllTo
      rw [← Bool.not_and]
      cases deals : victim && server.available with
      | false =>
          exact ⟨rfl, ready, id, rfl, fun _ _ => .nil⟩
      | true =>
          have within := playAll_agrees _ (ready_hooked ready info) inside
          have kept := within.kept ∘ hooked_kept info
          exact
            { hit := hooked_hit info
              ready := ready_unhooked ready info within.ready kept
              kept
              here := within.here
              there := within.there }
  | .fired event dontBroadcast handlers => by
      unfold play shownAll shownAllTo
      exact fired_agrees ready event dontBroadcast (playAll_agrees state ready handlers)

theorem playAll_agrees (state : Damage) (ready : Ready server state) :
    ∀ happenings, Agrees server state (playAll server state happenings)
      (shownEach server state.hit happenings) fun slot =>
        shownEachTo server slot state.hit happenings
  | [] => ⟨rfl, ready, id, rfl, fun _ _ => .nil⟩
  | first :: rest => by
      have now := play_agrees state ready first
      have later := playAll_agrees _ now.ready rest
      unfold playAll shownEach shownEachTo
      rw [now.hit] at later
      exact
        { hit := later.hit.trans now.hit
          ready := later.ready
          kept := later.kept ∘ now.kept
          here := by rw [List.filterMap_append, now.here, later.here]
          there := fun slot valid => by
            rw [List.filterMap_append]
            exact (now.there slot valid).append (later.there slot valid) }

end

end Agreement

end VoltMod.DamageHits
