import VoltMod.Players
import VoltMod.Transition
import Mathlib.Data.List.Nodup
import Mathlib.Logic.Function.Basic

/-! Players/PlayerManager.cpp: the roster and the events of the connection lifecycle. What an
operation has still to do is a list of tasks. A handler that runs may Remove any slot's player,
whose tasks then come first; it subscribes and drops nothing, so a raise calls the handlers in
order. The serial tells two connections of one slot apart. -/
namespace VoltMod.PlayerManager
open MigrationText (Text)
open Players (Player)
open Transition

structure Occupant where
  serial : Nat
  player : Player
  deriving DecidableEq, Repr

/-- The events of the manager and of the slot feed it raises. -/
inductive Signal where
  | connected | disconnected | fullyConnected | changed | slotFullyConnected
  deriving DecidableEq, Repr

structure Handlers (Subscriber : Type) where
  of : Signal → List Subscriber
  once : ∀ signal, (of signal).Nodup

inductive Task (Subscriber : Type) where
  /-- A handler's turn; the slot feed names no player. -/
  | call (signal : Signal) (slot : Int) (occupant : Option Occupant) (subscriber : Subscriber)
  | inHandler
  | drop (slot : Int)
  /-- The rest of Drop, the handlers told. -/
  | erase (slot : Int)
  /-- The rest of Add, the slot's last occupant dropped. -/
  | seat (player : Player)
  | changed (slot : Int)
  /-- The rest of Clear, everyone dropped. -/
  | clearRest (slots : List Int)
  deriving DecidableEq, Repr

inductive Entry (Subscriber : Type) where
  | seated (occupant : Occupant)
  | left (occupant : Occupant)
  /-- `there` is whether the occupant was in the roster at the call. -/
  | called (signal : Signal) (slot : Int) (occupant : Option Occupant) (subscriber : Subscriber)
      (there : Bool)
  deriving DecidableEq, Repr

/-- The log is history, which no step reads. -/
structure Manager (Subscriber : Type) where
  bySlot : List Occupant
  bySteamId : Int → Option Occupant
  tasks : List (Task Subscriber)
  next : Nat
  log : List (Entry Subscriber)

variable {Subscriber : Type}

def start : Manager Subscriber := ⟨[], fun _ => none, [], 0, []⟩

def get (slot : Int) (bySlot : List Occupant) : Option Occupant :=
  bySlot.find? fun occupant => occupant.player.slot = slot

/-- Bots share one id, so they are not indexed. -/
def indexBySteamId (occupant : Occupant) (index : Int → Option Occupant) :
    Int → Option Occupant :=
  if occupant.player.isBot then index
  else Function.update index occupant.player.steamId (some occupant)

/-- A later connection under the same id keeps its entry. -/
def unindexBySteamId (occupant : Occupant) (index : Int → Option Occupant) :
    Int → Option Occupant :=
  if occupant.player.isBot ∨ index occupant.player.steamId ≠ some occupant then index
  else Function.update index occupant.player.steamId none

section Manager
variable (handlers : Handlers Subscriber)

def calls (signal : Signal) (slot : Int) (occupant : Option Occupant)
    (subscribers : List Subscriber) : List (Task Subscriber) :=
  subscribers.map (Task.call signal slot occupant)

def raise (signal : Signal) (slot : Int) (occupant : Option Occupant) : List (Task Subscriber) :=
  calls signal slot occupant (handlers.of signal)

def isThere (occupant : Option Occupant) (bySlot : List Occupant) : Bool :=
  occupant.all fun occupant => get occupant.player.slot bySlot = some occupant

/-- The next thing to do, where no handler is running. -/
def perform (manager : Manager Subscriber) : Option (Manager Subscriber) :=
  match manager.tasks with
  | [] | .inHandler :: _ => none
  | .call signal slot occupant subscriber :: rest => some { manager with
      tasks := .inHandler :: rest
      log := manager.log ++
        [.called signal slot occupant subscriber (isThere occupant manager.bySlot)] }
  | .drop slot :: rest =>
      match get slot manager.bySlot with
      | none => some { manager with tasks := rest }
      | some occupant => some { manager with
          tasks := raise handlers .disconnected slot (some occupant) ++ .erase slot :: rest }
  | .erase slot :: rest =>
      match get slot manager.bySlot with
      | none => some { manager with tasks := rest }
      | some occupant => some { manager with
          bySlot := manager.bySlot.filter fun other => other.player.slot ≠ slot
          bySteamId := unindexBySteamId occupant manager.bySteamId
          tasks := rest
          log := manager.log ++ [.left occupant] }
  | .seat player :: rest =>
      let occupant : Occupant := ⟨manager.next, player⟩
      some { manager with
        bySlot := occupant :: manager.bySlot.filter fun other => other.player.slot ≠ player.slot
        bySteamId := indexBySteamId occupant manager.bySteamId
        tasks := raise handlers .changed player.slot none ++
          (raise handlers .connected player.slot (some occupant) ++ rest)
        next := manager.next + 1
        log := manager.log ++ [.seated occupant] }
  | .changed slot :: rest => some { manager with
      tasks := raise handlers .changed slot none ++ rest }
  | .clearRest slots :: rest => some { manager with
      bySlot := []
      bySteamId := fun _ => none
      tasks := slots.flatMap (raise handlers .changed · none) ++ rest
      log := manager.log ++ manager.bySlot.map .left }

inductive Label where
  | add (player : Player)
  | remove (slot : Int)
  | clear
  | onClientFullyConnected (slot : Int)
  | perform
  /-- The running handler returns. -/
  | return

def remove (slot : Int) (manager : Manager Subscriber) : Manager Subscriber :=
  if (get slot manager.bySlot).isSome then
    { manager with tasks := .drop slot :: .changed slot :: manager.tasks }
  else manager

def clear (manager : Manager Subscriber) : Manager Subscriber :=
  let slots := (manager.bySlot.map fun occupant => occupant.player.slot).mergeSort
  { manager with tasks := slots.map .drop ++ [.clearRest slots] }

def onClientFullyConnected (slot : Int) (manager : Manager Subscriber) : Manager Subscriber :=
  match get slot manager.bySlot with
  | none => manager
  | some occupant => { manager with
      tasks := raise handlers .slotFullyConnected slot none ++
        raise handlers .fullyConnected slot (some occupant) }

def step (manager : Manager Subscriber) : Label → Option (Manager Subscriber)
  | .add player =>
      if manager.tasks = [] then
        some { manager with tasks := [.drop player.slot, .seat player] }
      else none
  | .clear => if manager.tasks = [] then some (clear manager) else none
  | .onClientFullyConnected slot =>
      if manager.tasks = [] then some (onClientFullyConnected handlers slot manager) else none
  | .remove slot =>
      match manager.tasks with
      | [] | .inHandler :: _ => some (remove slot manager)
      | _ => none
  | .perform => perform handlers manager
  | .return =>
      match manager.tasks with
      | .inHandler :: rest => some { manager with tasks := rest }
      | _ => none

end Manager

/-- Whether the task is about whoever is in the slot now. -/
def Task.concerns (slot : Int) : Task Subscriber → Bool
  | .call _ other (some _) _ => other = slot
  | .erase other => other = slot
  | _ => false

/-- Nobody is removed whose Disconnected is being raised, or about whom handlers of a raise under
way or to come have still to be called. -/
def Spared (manager : Manager Subscriber) : Label → Prop
  | .remove slot => (get slot manager.bySlot).isSome = true →
      ∀ task ∈ manager.tasks, task.concerns slot = false
  | _ => True

def Entry.stay (slot : Int) : Entry Subscriber → Option Bool
  | .seated occupant => if occupant.player.slot = slot then some true else none
  | .left occupant => if occupant.player.slot = slot then some false else none
  | .called .. => none

def occupancy (slot : Int) (log : List (Entry Subscriber)) : List Bool :=
  log.filterMap (Entry.stay slot)

def follow (joined : Option Bool) (news : Bool) : Option Bool :=
  if joined = some (!news) then some news else none

/-- What the last of alternating news said, from nobody there; none where they did not. -/
def status (news : List Bool) : Option Bool := news.foldl follow (some false)

/-- Told that the slot changed hands, the occupant being seated by then. -/
def Announced (slot : Int) (occupant : Occupant) (subscriber : Subscriber)
    (log : List (Entry Subscriber)) : Prop :=
  ∃ before after there, log = before ++ .called .changed slot none subscriber there :: after ∧
    .seated occupant ∈ before

def Told (handlers : Handlers Subscriber) (log : List (Entry Subscriber)) : Prop :=
  ∀ before slot occupant subscriber there after,
    log = before ++ .called .connected slot (some occupant) subscriber there :: after →
    ∀ other ∈ handlers.of .changed, Announced slot occupant other before

section Log
variable [DecidableEq Subscriber]

/-- What an event tells a subscriber of a slot: joined or left. -/
def Entry.news (subscriber : Subscriber) (slot : Int) : Entry Subscriber → Option Bool
  | .called .connected other (some _) told _ =>
      if other = slot ∧ told = subscriber then some true else none
  | .called .disconnected other (some _) told _ =>
      if other = slot ∧ told = subscriber then some false else none
  | _ => none

def heard (subscriber : Subscriber) (slot : Int) (log : List (Entry Subscriber)) : List Bool :=
  log.filterMap (Entry.news subscriber slot)

/-- What the lifecycle events promise: the player is there at every call, who subscribes to both
hears of a slot's players joining and leaving by turns, and a slot's change is told between two
occupants and before the second one's Connected. -/
structure Orderly (handlers : Handlers Subscriber) (manager : Manager Subscriber) : Prop where
  there : ∀ signal slot occupant subscriber there,
    .called signal slot (some occupant) subscriber there ∈ manager.log → there = true
  alternate : ∀ subscriber ∈ handlers.of .connected, subscriber ∈ handlers.of .disconnected →
    ∀ slot, (status (heard subscriber slot manager.log)).isSome = true
  inTurn : ∀ slot, (status (occupancy slot manager.log)).isSome = true
  told : Told handlers manager.log

/-- Where a slot's player stands: what of their events is still to come, and who has heard. -/
inductive Phase (handlers : Handlers Subscriber) (slot : Int) (news : Subscriber → Option Bool) :
    Option Occupant → List (Task Subscriber) → Prop where
  | vacant (silent : ∀ subscriber ∈ handlers.of .connected,
      subscriber ∈ handlers.of .disconnected → news subscriber = some false) :
      Phase handlers slot news none []
  | joining (occupant : Occupant) (left : List Subscriber) (rest : left <:+ handlers.of .connected)
      (told : ∀ subscriber ∈ handlers.of .connected, subscriber ∈ handlers.of .disconnected →
        news subscriber = some (decide (subscriber ∉ left))) :
      Phase handlers slot news (some occupant) (calls .connected slot (some occupant) left)
  | loading (occupant : Occupant) (left : List Subscriber)
      (told : ∀ subscriber ∈ handlers.of .connected, subscriber ∈ handlers.of .disconnected →
        news subscriber = some true) :
      Phase handlers slot news (some occupant) (calls .fullyConnected slot (some occupant) left)
  | leaving (occupant : Occupant) (left : List Subscriber)
      (rest : left <:+ handlers.of .disconnected)
      (told : ∀ subscriber ∈ handlers.of .connected, subscriber ∈ handlers.of .disconnected →
        news subscriber = some (decide (subscriber ∈ left))) :
      Phase handlers slot news (some occupant)
        (calls .disconnected slot (some occupant) left ++ [.erase slot])

end Log

/-- The rest of an operation, below which nothing waits. -/
def Task.isLast : Task Subscriber → Bool
  | .seat _ | .clearRest _ => true
  | _ => false

/-- Whether the task counts on the slot to be empty by its turn. -/
def Task.empties (slot : Int) : Task Subscriber → Bool
  | .seat player => player.slot = slot
  | .clearRest _ => true
  | _ => false

/-- What may wait below what. -/
structure Before (upper lower : Task Subscriber) : Prop where
  last : upper.isLast = false
  drops : ∀ slot, upper = .drop slot → lower.concerns slot = false
  announces : ∀ slot occupant subscriber other,
    upper = .call .connected slot (some occupant) subscriber →
      lower ≠ .call .changed slot none other

structure Sound [DecidableEq Subscriber] (handlers : Handlers Subscriber)
    (manager : Manager Subscriber) : Prop where
  phase : ∀ slot, Phase handlers slot (fun subscriber => status (heard subscriber slot manager.log))
    (get slot manager.bySlot) (manager.tasks.filter (Task.concerns slot))
  ordered : manager.tasks.Pairwise Before
  emptied : ∀ task ∈ manager.tasks, ∀ slot, task.empties slot = true →
    (get slot manager.bySlot).isSome = true →
      .drop slot ∈ manager.tasks ∨ .erase slot ∈ manager.tasks
  announcing : ∀ slot occupant subscriber,
    .call .connected slot (some occupant) subscriber ∈ manager.tasks →
      ∀ other ∈ handlers.of .changed,
        .call .changed slot none other ∈ manager.tasks ∨
          Announced slot occupant other manager.log
  seated : ∀ slot occupant, get slot manager.bySlot = some occupant →
    .seated occupant ∈ manager.log
  inTurn : ∀ slot, status (occupancy slot manager.log) = some (get slot manager.bySlot).isSome
  there : ∀ signal slot occupant subscriber there,
    .called signal slot (some occupant) subscriber there ∈ manager.log → there = true
  told : Told handlers manager.log
  indexed : ∀ steamId occupant, manager.bySteamId steamId = some occupant →
    get occupant.player.slot manager.bySlot = some occupant ∧
      occupant.player.steamId = steamId ∧ occupant.player.isBot = false

section Lists
variable {bySlot : List Occupant} {occupant : Occupant} {slot other : Int}

theorem get_some (found : get slot bySlot = some occupant) :
    occupant ∈ bySlot ∧ occupant.player.slot = slot :=
  ⟨List.mem_of_find?_eq_some found, by simpa using List.find?_some found⟩

theorem get_cons (slot : Int) (first : Occupant) (rest : List Occupant) :
    get slot (first :: rest) = if first.player.slot = slot then some first else get slot rest := by
  rw [get, List.find?_cons]
  by_cases here : first.player.slot = slot
  · simp [here]
  · simp [here, get]

theorem get_vacated (other slot : Int) (bySlot : List Occupant) :
    get other (bySlot.filter fun occupant => occupant.player.slot ≠ slot) =
      if other = slot then none else get other bySlot := by
  induction bySlot with
  | nil => simp [get]
  | cons first rest ih =>
      by_cases here : first.player.slot = slot
      · rw [List.filter_cons_of_neg (by simpa using here), ih, get_cons]
        by_cases same : other = slot
        · rw [if_pos same, if_pos same]
        · rw [if_neg same, if_neg same, if_neg fun meets => same (meets.symm.trans here)]
      · rw [List.filter_cons_of_pos (by simpa using here), get_cons, get_cons, ih]
        by_cases there : first.player.slot = other
        · rw [if_pos there, if_neg fun meets => here (there.trans meets), if_pos there]
        · rw [if_neg there, if_neg there]

theorem get_seated (other : Int) (occupant : Occupant) (bySlot : List Occupant) :
    get other (occupant :: bySlot.filter fun other =>
      other.player.slot ≠ occupant.player.slot) =
      if other = occupant.player.slot then some occupant else get other bySlot := by
  rw [get_cons, get_vacated]
  by_cases same : other = occupant.player.slot
  · rw [if_pos same.symm, if_pos same]
  · rw [if_neg fun meets => same meets.symm, if_neg same, if_neg same]

theorem vacant_nil (vacant : ∀ slot, get slot bySlot = none) : bySlot = [] := by
  cases bySlot with
  | nil => rfl
  | cons first rest =>
      have here := vacant first.player.slot
      simp [get] at here

theorem status_append (news : List Bool) (last : Bool) :
    status (news ++ [last]) = follow (status news) last := by
  rw [status, List.foldl_append]
  rfl

theorem status_next (news : Entry Subscriber → Option Bool) (log : List (Entry Subscriber))
    (entry : Entry Subscriber) :
    status ((log ++ [entry]).filterMap news) =
      (news entry).elim (status (log.filterMap news)) (follow (status (log.filterMap news))) := by
  rw [List.filterMap_append]
  cases told : news entry with
  | none => simp [told]
  | some last =>
      simp only [List.filterMap_cons, told, List.filterMap_nil, Option.elim]
      exact status_append _ last

theorem occupancy_next (slot : Int) (log : List (Entry Subscriber)) (entry : Entry Subscriber) :
    status (occupancy slot (log ++ [entry])) =
      (entry.stay slot).elim (status (occupancy slot log)) (follow (status (occupancy slot log))) :=
  status_next _ log entry

theorem heard_next [DecidableEq Subscriber] (subscriber : Subscriber) (slot : Int)
    (log : List (Entry Subscriber)) (entry : Entry Subscriber) :
    status (heard subscriber slot (log ++ [entry])) =
      (entry.news subscriber slot).elim (status (heard subscriber slot log))
        (follow (status (heard subscriber slot log))) :=
  status_next _ log entry

end Lists

section Announcements
variable {handlers : Handlers Subscriber} {log : List (Entry Subscriber)}
  {entry : Entry Subscriber}

theorem announced_append {slot : Int} {occupant : Occupant} {subscriber : Subscriber}
    (announced : Announced slot occupant subscriber log) (more : List (Entry Subscriber)) :
    Announced slot occupant subscriber (log ++ more) := by
  obtain ⟨before, after, there, rfl, seated⟩ := announced
  exact ⟨before, after ++ more, there, by simp, seated⟩

theorem told_append (told : Told handlers log)
    (next : ∀ slot occupant subscriber there,
      entry = .called .connected slot (some occupant) subscriber there →
      ∀ other ∈ handlers.of .changed, Announced slot occupant other log) :
    Told handlers (log ++ [entry]) := by
  intro before slot occupant subscriber there after split other member
  rcases after.eq_nil_or_concat with rfl | ⟨earlier, last, rfl⟩
  · obtain ⟨rfl, same⟩ := List.append_inj' split rfl
    exact next slot occupant subscriber there (List.singleton_inj.mp same) other member
  · rw [List.concat_eq_append, ← List.cons_append, ← List.append_assoc] at split
    have same := (List.append_inj' split rfl).1
    exact told before slot occupant subscriber there earlier same other member

end Announcements

section Tasks
variable {tasks pushed rest : List (Task Subscriber)} {head : Task Subscriber}

/-- Above which anything may be pushed. -/
structure Tame (upper : Task Subscriber) : Prop where
  last : upper.isLast = false
  noDrop : ∀ slot, upper ≠ .drop slot
  noJoin : ∀ slot occupant subscriber,
    upper ≠ .call .connected slot (some occupant) subscriber

theorem tame_before {upper : Task Subscriber} (tame : Tame upper) (lower : Task Subscriber) :
    Before upper lower :=
  ⟨tame.last, fun slot same => absurd same (tame.noDrop slot),
    fun slot occupant subscriber _ same => absurd same (tame.noJoin slot occupant subscriber)⟩

theorem tame_empties {upper : Task Subscriber} (tame : Tame upper) (slot : Int) :
    upper.empties slot = false := by
  have last := tame.last
  cases upper with
  | seat player => cases last
  | clearRest slots => cases last
  | _ => rfl

theorem inHandler_tame : Tame (.inHandler : Task Subscriber) := ⟨rfl, nofun, nofun⟩

theorem erase_tame (slot : Int) : Tame (.erase slot : Task Subscriber) := ⟨rfl, nofun, nofun⟩

theorem tame_ordered (tame : ∀ task ∈ pushed, Tame task) (ordered : tasks.Pairwise Before) :
    (pushed ++ tasks).Pairwise Before := by
  rw [List.pairwise_append]
  refine ⟨?_, ordered, fun upper member lower _ => tame_before (tame upper member) lower⟩
  exact List.pairwise_of_forall_mem_list fun upper member lower _ =>
    tame_before (tame upper member) lower

theorem mem_calls {signal : Signal} {slot : Int} {occupant : Option Occupant}
    {subscribers : List Subscriber} :
    head ∈ calls signal slot occupant subscribers ↔
      ∃ subscriber ∈ subscribers, .call signal slot occupant subscriber = head :=
  List.mem_map

theorem filter_own {slot : Int} (task : Task Subscriber) (own : task.concerns slot = true)
    (rest : List (Task Subscriber)) : (task :: rest).filter (Task.concerns slot) =
      task :: rest.filter (Task.concerns slot) :=
  List.filter_cons_of_pos own

theorem filter_apart {slot : Int} (task : Task Subscriber) (apart : task.concerns slot = false)
    (rest : List (Task Subscriber)) :
    (task :: rest).filter (Task.concerns slot) = rest.filter (Task.concerns slot) :=
  List.filter_cons_of_neg (Bool.eq_false_iff.mp apart)

theorem calls_apart {signal : Signal} {slot other : Int} {occupant : Option Occupant}
    (apart : occupant = none ∨ slot ≠ other) (subscribers : List Subscriber) :
    (calls signal slot occupant subscribers).filter (Task.concerns other) = [] := by
  rw [List.filter_eq_nil_iff]
  intro task member
  obtain ⟨subscriber, _, rfl⟩ := mem_calls.mp member
  cases occupant with
  | none => exact Bool.false_ne_true
  | some occupant => simpa [Task.concerns] using apart

theorem calls_own (signal : Signal) (slot : Int) (occupant : Occupant)
    (subscribers : List Subscriber) :
    (calls signal slot (some occupant) subscribers).filter (Task.concerns slot) =
      calls signal slot (some occupant) subscribers := by
  rw [List.filter_eq_self]
  intro task member
  obtain ⟨subscriber, _, rfl⟩ := mem_calls.mp member
  simp [Task.concerns]

theorem calls_tame {signal : Signal} {slot : Int} {occupant : Option Occupant}
    (apart : signal ≠ .connected) (subscribers : List Subscriber) :
    ∀ task ∈ calls signal slot occupant subscribers, Tame task := by
  intro task member
  obtain ⟨subscriber, _, rfl⟩ := mem_calls.mp member
  refine ⟨rfl, nofun, fun _ _ _ same => apart ?_⟩
  cases same
  rfl

theorem joining_ordered (slot : Int) (occupant : Occupant) (subscribers : List Subscriber) :
    (calls .connected slot (some occupant) subscribers).Pairwise Before := by
  apply List.pairwise_of_forall_mem_list
  intro upper above lower below
  obtain ⟨first, _, rfl⟩ := mem_calls.mp above
  obtain ⟨second, _, rfl⟩ := mem_calls.mp below
  exact ⟨rfl, nofun, fun _ _ _ _ _ => nofun⟩

theorem Task.drop_before {slot : Int} {lower : Task Subscriber}
    (apart : lower.concerns slot = false) : Before (.drop slot) lower :=
  ⟨rfl, fun _ same => Task.drop.inj same ▸ apart, nofun⟩

end Tasks

end VoltMod.PlayerManager
