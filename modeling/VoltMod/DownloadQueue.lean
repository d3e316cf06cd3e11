import Mathlib.Algebra.Group.Nat.Defs
import Mathlib.Algebra.GroupWithZero.Nat
import Mathlib.Algebra.Ring.Int.Defs
import Mathlib.Data.Int.Order.Basic
import Mathlib.Data.List.Nodup
import Mathlib.Logic.Function.Basic
import Mathlib.Order.Lattice
import VoltMod.MigrationText
import VoltMod.Transition

/-! Host/Workshop/DownloadQueue.cpp: which required addons a client still owes, and what
it is sent next. Times are of any ordered type with differences. A run's messages name no
addon of the engine's; `offers` beside the queue is history, which no step reads. The
`addons` fields of connection replies are left out. -/
namespace VoltMod.DownloadQueue
open MigrationText (Text digit decimal)
open Transition

def parseUInt64 (text : Text) : Option Nat :=
  if text ≠ [] ∧ text.all digit ∧ decimal text < 2 ^ 64 then some (decimal text) else none

def splitAddonList (field : Text) : List Text :=
  if field = [] then [] else field.splitOn ','

def parseAddonList (field : Text) : List Nat :=
  (splitAddonList field).filterMap fun entry => (parseUInt64 entry).filter (· ≠ 0)

inductive AddonAction where
  | unchanged | send | trimToFirst | kick | keepMounted
  deriving DecidableEq, Repr

structure AddonDecision where
  action : AddonAction
  id : Nat
  remaining : Nat
  deriving DecidableEq, Repr

def unchanged : AddonDecision := ⟨.unchanged, 0, 0⟩

structure Requirement where
  id : Nat
  holders : Nat
  deriving DecidableEq, Repr

/-- `sending` is 0 while nothing is on offer, `leftAt` while the client is connected. -/
structure Client (Time : Type) where
  downloaded : List Nat
  sending : Nat
  sentAt : Time
  attempts : Nat
  leftAt : Time

structure Queue (Time : Type) where
  required : List Requirement
  clients : Int → Option (Client Time)

variable {Time : Type}

def empty : Queue Time := ⟨[], fun _ => none⟩

def add (id : Nat) (queue : Queue Time) : Bool × Queue Time :=
  if id = 0 then (false, queue)
  else if queue.required.any fun requirement => requirement.id = id then
    (true, { queue with required := queue.required.map fun requirement =>
      if requirement.id = id then { requirement with holders := requirement.holders + 1 }
      else requirement })
  else (true, { queue with required := queue.required ++ [⟨id, 1⟩] })

def remove (id : Nat) (queue : Queue Time) : Queue Time :=
  { queue with required := queue.required.filterMap fun requirement =>
      if requirement.id = id then
        -- The last holder takes the requirement with it.
        if requirement.holders ≤ 1 then none
        else some { requirement with holders := requirement.holders - 1 }
      else some requirement }

def required (queue : Queue Time) : List Nat := queue.required.map Requirement.id

theorem add_required {id : Nat} {queue : Queue Time} (known : ∀ item ∈ required queue, item ≠ 0) :
    ∀ item ∈ required (add id queue).2, item ≠ 0 := by
  intro item member
  unfold add at member
  split at member
  · exact known item member
  · next nonzero =>
      split at member
      -- A held addon only gains a holder.
      · simp only [required, List.map_map, List.mem_map, Function.comp_apply] at member
        obtain ⟨requirement, held, rfl⟩ := member
        have same := known requirement.id (List.mem_map_of_mem held)
        split
        · exact same
        · exact same
      · simp only [required, List.map_append, List.mem_append, List.map_cons, List.map_nil,
          List.mem_singleton] at member
        rcases member with held | rfl
        · exact known item held
        · exact nonzero

theorem add_clients (id : Nat) (queue : Queue Time) : (add id queue).2.clients = queue.clients := by
  unfold add
  split
  · rfl
  · split <;> rfl

theorem remove_required {id : Nat} {queue : Queue Time} {item : Nat}
    (member : item ∈ required (remove id queue)) : item ∈ required queue := by
  simp only [required, remove, List.mem_map, List.mem_filterMap] at member ⊢
  obtain ⟨kept, ⟨requirement, held, same⟩, rfl⟩ := member
  refine ⟨requirement, held, ?_⟩
  split at same
  · split at same
    · cases same
    · cases same
      rfl
  · cases same
    rfl

/-- How many Adds of an addon no Remove has matched. -/
def holders (id : Nat) (queue : Queue Time) : Nat :=
  ((queue.required.find? fun requirement => requirement.id = id).map Requirement.holders).getD 0

/-- An addon is required once, and by someone. -/
structure Held (queue : Queue Time) : Prop where
  once : (required queue).Nodup
  some_ : ∀ requirement ∈ queue.required, 1 ≤ requirement.holders

theorem add_holders {id : Nat} {queue : Queue Time} (held : Held queue) (nonzero : id ≠ 0) :
    (add id queue).1 = true ∧ Held (add id queue).2 ∧
      ∀ other, holders other (add id queue).2 = holders other queue + if other = id then 1 else 0 := by
  unfold add
  rw [if_neg nonzero]
  split
  -- One more holder for a file already asked for.
  · next known =>
      refine ⟨rfl, ⟨?_, ?_⟩, fun other => ?_⟩
      · have same : (queue.required.map fun requirement =>
            if requirement.id = id then { requirement with holders := requirement.holders + 1 }
            else requirement).map Requirement.id = queue.required.map Requirement.id := by
          rw [List.map_map]
          refine List.map_congr_left fun requirement _ => ?_
          rw [Function.comp_apply]
          split
          · rfl
          · rfl
        rw [required, same]
        exact held.once
      · intro requirement member
        obtain ⟨old, inside, rfl⟩ := List.mem_map.mp member
        split
        · exact Nat.le_add_left 1 old.holders
        · exact held.some_ old inside
      · have lookup : (fun requirement : Requirement => decide (requirement.id = other)) ∘
            (fun requirement => if requirement.id = id then
              { requirement with holders := requirement.holders + 1 } else requirement) =
            fun requirement => decide (requirement.id = other) := by
          funext requirement
          rw [Function.comp_apply]
          split
          · rfl
          · rfl
        rw [holders, holders, List.find?_map, lookup]
        cases found : queue.required.find? fun requirement => requirement.id = other with
        | none =>
            have apart : other ≠ id := by
              rintro rfl
              obtain ⟨requirement, member, same⟩ := List.any_eq_true.mp known
              exact List.find?_eq_none.mp found requirement member same
            simp [apart]
        | some requirement =>
            have named : requirement.id = other := by simpa using List.find?_some found
            by_cases same : other = id
            · simp [named, same]
            · simp [named, same]
  -- A new file, asked for last.
  · next unknown =>
      have fresh : id ∉ required queue := by
        intro member
        obtain ⟨requirement, inside, same⟩ := List.mem_map.mp member
        exact unknown (List.any_eq_true.mpr ⟨requirement, inside, decide_eq_true same⟩)
      refine ⟨rfl, ⟨?_, ?_⟩, fun other => ?_⟩
      · rw [required, List.map_append]
        change (required queue ++ [id]).Nodup
        rw [← List.concat_eq_append]
        exact List.Nodup.concat fresh held.once
      · intro requirement member
        rcases List.mem_append.mp member with old | new
        · exact held.some_ requirement old
        · obtain rfl := List.mem_singleton.mp new
          exact Nat.le_refl 1
      · rw [holders, holders, List.find?_append]
        by_cases same : other = id
        · subst same
          have none_ : (queue.required.find? fun requirement => requirement.id = other) = none := by
            refine List.find?_eq_none.mpr fun requirement member hit => ?_
            exact fresh (List.mem_map.mpr ⟨requirement, member, of_decide_eq_true hit⟩)
          simp [none_]
        · have apart : ¬id = other := fun equal => same equal.symm
          simp [same, apart]

/-- What a Remove leaves of a requirement. -/
def left (id : Nat) (requirement : Requirement) : Option Requirement :=
  if requirement.id = id then
    if requirement.holders ≤ 1 then none
    else some { requirement with holders := requirement.holders - 1 }
  else some requirement

theorem left_id {id : Nat} {requirement kept : Requirement}
    (stays : left id requirement = some kept) :
    kept.id = requirement.id ∧ (1 ≤ requirement.holders → 1 ≤ kept.holders) := by
  unfold left at stays
  split at stays
  · split at stays
    · cases stays
    · cases stays
      exact ⟨rfl, fun _ => by dsimp only; omega⟩
  · cases stays
    exact ⟨rfl, fun least => least⟩

theorem left_missing {id other : Nat} {requirements : List Requirement}
    (missing : other ∉ requirements.map Requirement.id) :
    other ∉ (requirements.filterMap (left id)).map Requirement.id := by
  intro member
  obtain ⟨kept, inside, rfl⟩ := List.mem_map.mp member
  obtain ⟨requirement, old, stays⟩ := List.mem_filterMap.mp inside
  exact missing ((left_id stays).1 ▸ List.mem_map_of_mem old)

theorem find_missing {id : Nat} {requirements : List Requirement}
    (missing : id ∉ requirements.map Requirement.id) :
    (requirements.find? fun requirement => requirement.id = id) = none :=
  List.find?_eq_none.mpr fun requirement member hit =>
    missing (List.mem_map.mpr ⟨requirement, member, of_decide_eq_true hit⟩)

theorem left_once {id : Nat} {requirements : List Requirement}
    (once : (requirements.map Requirement.id).Nodup) :
    ((requirements.filterMap (left id)).map Requirement.id).Nodup := by
  induction requirements with
  | nil => exact List.nodup_nil
  | cons requirement rest ih =>
      obtain ⟨unseen, tail⟩ := List.nodup_cons.mp once
      have later := ih tail
      cases stays : left id requirement with
      | none => rwa [List.filterMap_cons_none stays]
      | some kept =>
          rw [List.filterMap_cons_some stays, List.map_cons, (left_id stays).1]
          exact List.nodup_cons.mpr ⟨left_missing unseen, later⟩

/-- `holders` in a list of requirements. -/
def holdersIn (id : Nat) (requirements : List Requirement) : Nat :=
  ((requirements.find? fun requirement => requirement.id = id).map Requirement.holders).getD 0

theorem left_holders {id : Nat} {requirements : List Requirement}
    (once : (requirements.map Requirement.id).Nodup)
    (some_ : ∀ requirement ∈ requirements, 1 ≤ requirement.holders) (other : Nat) :
    holdersIn other (requirements.filterMap (left id)) =
      holdersIn other requirements - if other = id then 1 else 0 := by
  induction requirements with
  | nil => simp [holdersIn]
  | cons requirement rest ih =>
      obtain ⟨unseen, tail⟩ := List.nodup_cons.mp once
      have later := ih tail fun old member => some_ old (List.mem_cons_of_mem requirement member)
      rw [holdersIn, holdersIn] at later ⊢
      by_cases here : requirement.id = other
      · subst here
        have gone : ((rest.filterMap (left id)).find? fun held => held.id = requirement.id) = none :=
          find_missing (left_missing unseen)
        by_cases same : requirement.id = id
        · by_cases last : requirement.holders ≤ 1
          · have least := some_ requirement List.mem_cons_self
            have stays : left id requirement = none := by simp [left, same, last]
            rw [List.filterMap_cons_none stays, gone]
            simp [same]
            omega
          · have stays : left id requirement =
                some { requirement with holders := requirement.holders - 1 } := by
              simp [left, same, last]
            rw [List.filterMap_cons_some stays]
            simp [same]
        · have stays : left id requirement = some requirement := by simp [left, same]
          rw [List.filterMap_cons_some stays]
          simp [same]
      · cases stays : left id requirement with
        | none =>
            rw [List.filterMap_cons_none stays, later]
            simp [here]
        | some kept =>
            have named := (left_id stays).1
            rw [List.filterMap_cons_some stays, List.find?_cons_of_neg (by simp [named, here]),
              later, List.find?_cons_of_neg (by simp [here])]

theorem remove_holders {id : Nat} {queue : Queue Time} (held : Held queue) :
    Held (remove id queue) ∧
      ∀ other, holders other (remove id queue) = holders other queue - if other = id then 1 else 0 := by
  refine ⟨⟨left_once held.once, ?_⟩, fun other => left_holders held.once held.some_ other⟩
  intro kept member
  obtain ⟨requirement, old, stays⟩ := List.mem_filterMap.mp member
  exact (left_id stays).2 (held.some_ requirement old)

def missingFor (queue : Queue Time) (steamId : Int) : List Nat :=
  match queue.clients steamId with
  | none => required queue
  | some client => (required queue).filter fun id => id ∉ client.downloaded

theorem missingFor_required {queue : Queue Time} {steamId : Int} {id : Nat}
    (member : id ∈ missingFor queue steamId) : id ∈ required queue := by
  unfold missingFor at member
  split at member
  · exact member
  · exact List.mem_of_mem_filter member

def clientMountList (queue : Queue Time) (steamId : Int) : List Nat :=
  match queue.clients steamId with
  | none => []
  | some client =>
      (required queue).filter fun id => id = client.sending || client.downloaded.contains id

def setClient (steamId : Int) (client : Option (Client Time)) (queue : Queue Time) : Queue Time :=
  { queue with clients := Function.update queue.clients steamId client }

@[simp] theorem required_setClient (steamId : Int) (client : Option (Client Time))
    (queue : Queue Time) : required (setClient steamId client queue) = required queue := rfl

variable [Zero Time]

/-- `_clients[steamId]`, which inserts a new client where there is none. -/
def clientOf (queue : Queue Time) (steamId : Int) : Client Time :=
  (queue.clients steamId).getD ⟨[], 0, 0, 0, 0⟩

theorem clientOf_known {queue : Queue Time} {steamId : Int} {client : Client Time}
    (known : queue.clients steamId = some client) : clientOf queue steamId = client := by
  simp [clientOf, known]

@[simp] theorem clientOf_setClient (steamId : Int) (client : Client Time) (queue : Queue Time) :
    clientOf (setClient steamId (some client) queue) steamId = client := by
  simp [clientOf, setClient]

theorem clientOf_setClient_other {steamId other : Int} (different : other ≠ steamId)
    (client : Option (Client Time)) (queue : Queue Time) :
    clientOf (setClient steamId client queue) other = clientOf queue other := by
  simp [clientOf, setClient, different]

def nextToSend (steamId : Int) (now : Time) (maxAttempts : Nat) (queue : Queue Time) :
    AddonDecision × Queue Time :=
  match missingFor queue steamId with
  | [] => (unchanged, queue)
  | next :: rest =>
      let client := clientOf queue steamId
      -- The same addon coming round again means the last offer was not taken.
      let attempts := if client.sending = next then client.attempts + 1 else 1
      if maxAttempts < attempts then
        (⟨.kick, next, 0⟩, setClient steamId (some { client with attempts := attempts }) queue)
      else
        (⟨.send, next, rest.length⟩,
          setClient steamId (some { client with
            attempts := attempts
            sending := next
            sentAt := now }) queue)

/-- What one sign-on does: nothing, or an offer of the first missing addon, or a kick
over it. -/
theorem nextToSend_cases (steamId : Int) (now : Time) (maxAttempts : Nat) (queue : Queue Time) :
    nextToSend steamId now maxAttempts queue = (unchanged, queue) ∨
      ∃ next rest attempts, missingFor queue steamId = next :: rest ∧
        attempts = (if (clientOf queue steamId).sending = next
          then (clientOf queue steamId).attempts + 1 else 1) ∧
        (maxAttempts < attempts ∧ nextToSend steamId now maxAttempts queue =
            (⟨.kick, next, 0⟩,
              setClient steamId (some { clientOf queue steamId with attempts := attempts }) queue) ∨
          attempts ≤ maxAttempts ∧ nextToSend steamId now maxAttempts queue =
            (⟨.send, next, rest.length⟩,
              setClient steamId (some { clientOf queue steamId with
                attempts := attempts
                sending := next
                sentAt := now }) queue)) := by
  unfold nextToSend
  cases missing : missingFor queue steamId with
  | nil => exact Or.inl rfl
  | cons next rest =>
      refine Or.inr ⟨next, rest, _, rfl, rfl, ?_⟩
      dsimp only
      generalize (if (clientOf queue steamId).sending = next
        then (clientOf queue steamId).attempts + 1 else 1) = attempts
      by_cases spent : maxAttempts < attempts
      · exact Or.inl ⟨spent, if_pos spent⟩
      · exact Or.inr ⟨Nat.le_of_not_lt spent, if_neg spent⟩

def markSending (steamId : Int) (id : Nat) (now : Time) (queue : Queue Time) : Queue Time :=
  if id = 0 then queue
  else
    setClient steamId (some { clientOf queue steamId with
      sending := id
      sentAt := now
      attempts := 0 }) queue

def decideJoinMessage (steamId : Int) (reconnect : Bool) (addons : Text) (now : Time)
    (maxAttempts : Nat) (queue : Queue Time) : AddonDecision × Queue Time :=
  if !reconnect then nextToSend steamId now maxAttempts queue
  else
    match parseAddonList addons with
    | [] =>
        match clientMountList queue steamId with
        | [] => (unchanged, queue)
        | mounted :: _ => (⟨.keepMounted, mounted, 0⟩, queue)
    | first :: rest =>
        let sent := markSending steamId first now queue
        (if rest = [] then unchanged else ⟨.trimToFirst, first, rest.length⟩, sent)

variable [LinearOrder Time] [Sub Time]

/-- Whether the reconnect comes in time for the addon on offer. -/
def inTime (queue : Queue Time) (steamId : Int) (now timeout : Time) : Bool :=
  (queue.clients steamId).any fun client =>
    client.sending ≠ 0 && decide (now - client.sentAt ≤ timeout)

def clientReconnected (steamId : Int) (now timeout : Time) (queue : Queue Time) : Queue Time :=
  match queue.clients steamId with
  | none => queue
  | some client =>
      let back := { client with leftAt := 0 }
      if client.sending = 0 then setClient steamId (some back) queue
      else if now - client.sentAt ≤ timeout then
        setClient steamId (some { back with
          downloaded :=
            if client.sending ∈ client.downloaded then client.downloaded
            else client.downloaded ++ [client.sending]
          attempts := 0
          sending := 0 }) queue
      -- Too late: the offer is forgotten, its attempts are not.
      else setClient steamId (some { back with sending := 0 }) queue

def clientLeft (steamId : Int) (now forgetAfter : Time) (queue : Queue Time) : Queue Time :=
  let marked := match queue.clients steamId with
    | some client => setClient steamId (some { client with leftAt := now }) queue
    | none => queue
  { marked with clients := fun other =>
      (marked.clients other).filter fun client =>
        !(decide (0 < client.leftAt) && decide (forgetAfter < now - client.leftAt)) }

def clearProgress (queue : Queue Time) : Queue Time := { queue with clients := fun _ => none }

/-- `offers` counts the Sends of an addon since the client last completed a prompt
reconnect for it, was told Kick over it or was forgotten. -/
structure Progress (Time : Type) where
  queue : Queue Time
  offers : Int → Nat → Nat

def setOffers (steamId : Int) (id count : Nat) (offers : Int → Nat → Nat) : Int → Nat → Nat :=
  Function.update offers steamId (Function.update (offers steamId) id count)

@[simp] theorem setOffers_same (steamId : Int) (id count : Nat) (offers : Int → Nat → Nat) :
    setOffers steamId id count offers steamId id = count := by
  simp [setOffers]

theorem setOffers_other {steamId other : Int} {id item : Nat}
    (different : other ≠ steamId ∨ item ≠ id) (count : Nat) (offers : Int → Nat → Nat) :
    setOffers steamId id count offers other item = offers other item := by
  by_cases same : other = steamId
  · subst same
    simp [setOffers, different.resolve_left (fun no => no rfl)]
  · simp [setOffers, same]

theorem setOffers_le {steamId : Int} {id count : Nat} {offers : Int → Nat → Nat}
    (less : count ≤ offers steamId id) (other : Int) (item : Nat) :
    setOffers steamId id count offers other item ≤ offers other item := by
  by_cases same : other = steamId ∧ item = id
  · obtain ⟨rfl, rfl⟩ := same
    rwa [setOffers_same]
  · exact Nat.le_of_eq (setOffers_other (not_and_or.mp same) count offers)

def told (steamId : Int) (decision : AddonDecision) (offers : Int → Nat → Nat) :
    Int → Nat → Nat :=
  match decision.action with
  | .send => setOffers steamId decision.id (offers steamId decision.id + 1) offers
  | .kick => setOffers steamId decision.id 0 offers
  | .unchanged | .trimToFirst | .keepMounted => offers

def start : Progress Time := ⟨empty, fun _ _ => 0⟩

/-- Nothing is counted for a client that is not known any more. -/
def forgetOffers (progress : Progress Time) : Progress Time :=
  { progress with offers := fun steamId id =>
      if (progress.queue.clients steamId).isSome then progress.offers steamId id else 0 }

inductive Label (Time : Type) where
  | add (id : Nat)
  | remove (id : Nat)
  | joinMessage (steamId : Int) (reconnect : Bool) (addons : Text) (now : Time)
  | clientReconnected (steamId : Int) (now timeout : Time)
  | clientLeft (steamId : Int) (now forgetAfter : Time)
  | clearProgress

def step (maxAttempts : Nat) (progress : Progress Time) :
    Label Time → Option (Progress Time)
  | .add id => some { progress with queue := (add id progress.queue).2 }
  | .remove id => some { progress with queue := remove id progress.queue }
  | .joinMessage steamId reconnect addons now =>
      if reconnect ∧ parseAddonList addons ≠ [] then none
      else
        let (decision, queue) :=
          decideJoinMessage steamId reconnect addons now maxAttempts progress.queue
        some ⟨queue, told steamId decision progress.offers⟩
  | .clientReconnected steamId now timeout =>
      some
        { queue := clientReconnected steamId now timeout progress.queue
          offers :=
            if inTime progress.queue steamId now timeout then
              setOffers steamId (clientOf progress.queue steamId).sending 0 progress.offers
            else progress.offers }
  | .clientLeft steamId now forgetAfter =>
      some (forgetOffers { progress with
        queue := clientLeft steamId now forgetAfter progress.queue })
  | .clearProgress => some (forgetOffers { progress with queue := clearProgress progress.queue })

/-- No addon is offered more than `maxAttempts` times without one of the three. -/
def Capped (maxAttempts : Nat) (progress : Progress Time) : Prop :=
  ∀ steamId id, progress.offers steamId id ≤ maxAttempts

/-- A sign-on offers the addon that is on offer already, or one that has not been offered
since it was last counted from zero. -/
def Resumes (progress : Progress Time) : Label Time → Prop
  | .joinMessage steamId false _ _ =>
      ∀ next rest, missingFor progress.queue steamId = next :: rest →
        (clientOf progress.queue steamId).sending = next ∨ progress.offers steamId next = 0
  | _ => True

/-- The attempts are at least the offers of the addon on offer, and no offer outlives the
client it was made to. -/
structure Sound (maxAttempts : Nat) (progress : Progress Time) : Prop where
  capped : Capped maxAttempts progress
  counted : ∀ steamId, progress.offers steamId (clientOf progress.queue steamId).sending ≤
    (clientOf progress.queue steamId).attempts
  named : ∀ steamId, progress.offers steamId 0 = 0
  known : ∀ id ∈ required progress.queue, id ≠ 0

omit [LinearOrder Time] [Sub Time] in
theorem start_sound (maxAttempts : Nat) : Sound maxAttempts (start : Progress Time) := by
  refine ⟨fun steamId id => Nat.zero_le _, fun steamId => Nat.zero_le _, fun steamId => rfl, ?_⟩
  intro id member
  simp [start, empty, required] at member

omit [LinearOrder Time] [Sub Time] in
/-- The sound parts outlast whatever counts no offer and lowers no attempt. -/
theorem sound_of_le {maxAttempts : Nat} {before after : Progress Time}
    (sound : Sound maxAttempts before)
    (fewer : ∀ steamId id, after.offers steamId id ≤ before.offers steamId id)
    (requires : ∀ id ∈ required after.queue, id ≠ 0)
    (counted : ∀ steamId, after.offers steamId (clientOf after.queue steamId).sending ≤
      (clientOf after.queue steamId).attempts) : Sound maxAttempts after := by
  refine ⟨fun steamId id => ?_, counted, fun steamId => ?_, requires⟩
  · exact Nat.le_trans (fewer steamId id) (sound.capped steamId id)
  · exact Nat.le_zero.mp (Nat.le_trans (fewer steamId 0) (Nat.le_of_eq (sound.named steamId)))

omit [LinearOrder Time] [Sub Time] in
/-- The addon on offer was not offered more often than the attempts say, so its next
offer stays within the limit. -/
theorem nextToSend_sound {maxAttempts : Nat} {progress : Progress Time}
    (sound : Sound maxAttempts progress) {steamId : Int} {now : Time}
    (resumes : ∀ next rest, missingFor progress.queue steamId = next :: rest →
      (clientOf progress.queue steamId).sending = next ∨ progress.offers steamId next = 0) :
    Sound maxAttempts
      ⟨(nextToSend steamId now maxAttempts progress.queue).2,
        told steamId (nextToSend steamId now maxAttempts progress.queue).1 progress.offers⟩ := by
  rcases nextToSend_cases steamId now maxAttempts progress.queue with
    same | ⟨next, rest, attempts, missing, counts, ⟨spent, same⟩ | ⟨within, same⟩⟩
  · rw [same]
    exact sound
  · rw [same]
    refine sound_of_le sound (setOffers_le (Nat.zero_le _)) sound.known fun other => ?_
    by_cases here : other = steamId
    · subst here
      simp only [clientOf_setClient]
      refine Nat.le_trans (setOffers_le (Nat.zero_le _) _ _) ?_
      exact Nat.le_trans (sound.capped _ _) (Nat.le_of_lt spent)
    · simp only [clientOf_setClient_other here]
      exact Nat.le_trans (setOffers_le (Nat.zero_le _) _ _) (sound.counted other)
  · have least : progress.offers steamId next + 1 ≤ attempts := by
      rcases resumes next rest missing with sending | fresh
      · rw [counts, if_pos sending]
        exact Nat.succ_le_succ (sending ▸ sound.counted steamId)
      · rw [fresh, counts]
        split <;> omega
    have nonzero : next ≠ 0 :=
      sound.known next (missingFor_required (missing ▸ List.mem_cons_self))
    rw [same]
    refine ⟨fun other id => ?_, fun other => ?_, fun other => ?_, sound.known⟩
    · by_cases here : other = steamId ∧ id = next
      · obtain ⟨rfl, rfl⟩ := here
        simpa [told] using Nat.le_trans least within
      · simpa [told, setOffers_other (not_and_or.mp here)] using sound.capped other id
    · by_cases here : other = steamId
      · subst here
        simpa [told] using least
      · simpa [told, clientOf_setClient_other here, setOffers_other (Or.inl here)]
          using sound.counted other
    · simpa [told, setOffers_other (Or.inr (Ne.symm nonzero))] using sound.named other

theorem clientReconnected_required (steamId : Int) (now timeout : Time) (queue : Queue Time) :
    required (clientReconnected steamId now timeout queue) = required queue := by
  unfold clientReconnected
  split
  · rfl
  · simp only
    split
    · rfl
    · split <;> rfl

theorem clientReconnected_other {steamId other : Int} (different : other ≠ steamId)
    (now timeout : Time) (queue : Queue Time) :
    clientOf (clientReconnected steamId now timeout queue) other = clientOf queue other := by
  unfold clientReconnected
  split
  · rfl
  · simp only
    split
    · exact clientOf_setClient_other different _ queue
    · split
      · exact clientOf_setClient_other different _ queue
      · exact clientOf_setClient_other different _ queue

/-- A reconnect leaves nothing on offer, in time or not. -/
theorem clientReconnected_sending (steamId : Int) (now timeout : Time) (queue : Queue Time) :
    (clientOf (clientReconnected steamId now timeout queue) steamId).sending = 0 := by
  unfold clientReconnected
  cases known : queue.clients steamId with
  | none => simp [clientOf, known]
  | some client =>
      by_cases idle : client.sending = 0
      · simp [idle]
      · by_cases prompt : now - client.sentAt ≤ timeout
        · simp [idle, prompt]
        · simp [idle, prompt]

theorem clientReconnected_sound {maxAttempts : Nat} {progress : Progress Time}
    (sound : Sound maxAttempts progress) (steamId : Int) (now timeout : Time) :
    Sound maxAttempts
      ⟨clientReconnected steamId now timeout progress.queue,
        if inTime progress.queue steamId now timeout then
          setOffers steamId (clientOf progress.queue steamId).sending 0 progress.offers
        else progress.offers⟩ := by
  have fewer : ∀ other id, (if inTime progress.queue steamId now timeout then
      setOffers steamId (clientOf progress.queue steamId).sending 0 progress.offers
      else progress.offers) other id ≤ progress.offers other id := by
    intro other id
    split
    · exact setOffers_le (Nat.zero_le _) other id
    · exact Nat.le_refl _
  refine sound_of_le sound fewer ?_ fun other => ?_
  · rw [clientReconnected_required]
    exact sound.known
  · by_cases here : other = steamId
    · subst here
      -- Nothing is on offer any more, and nothing was ever offered under id 0.
      rw [clientReconnected_sending]
      refine Nat.le_trans (fewer _ 0) ?_
      rw [sound.named]
      exact Nat.zero_le _
    · rw [clientReconnected_other here]
      exact Nat.le_trans (fewer other _) (sound.counted other)

omit [LinearOrder Time] [Sub Time] in
/-- Clients may be forgotten and marked, as long as the offers go with the client. -/
theorem forgetOffers_sound {maxAttempts : Nat} {progress : Progress Time} {queue : Queue Time}
    (sound : Sound maxAttempts progress) (same : queue.required = progress.queue.required)
    (kept : ∀ steamId client, queue.clients steamId = some client →
      client.sending = (clientOf progress.queue steamId).sending ∧
        client.attempts = (clientOf progress.queue steamId).attempts) :
    Sound maxAttempts (forgetOffers { progress with queue := queue }) := by
  refine sound_of_le sound (fun steamId id => ?_) (fun id member => ?_) fun steamId => ?_
  · simp only [forgetOffers]
    split
    · exact Nat.le_refl _
    · exact Nat.zero_le _
  · refine sound.known id ?_
    simpa [forgetOffers, required, same] using member
  · cases known : queue.clients steamId with
    | none => simp [forgetOffers, known]
    | some client =>
        obtain ⟨sending, attempts⟩ := kept steamId client known
        simp only [forgetOffers, known, clientOf_known known, sending, attempts]
        exact sound.counted steamId

theorem clientLeft_kept {steamId other : Int} {now forgetAfter : Time} {queue : Queue Time}
    {client : Client Time}
    (known : (clientLeft steamId now forgetAfter queue).clients other = some client) :
    client.sending = (clientOf queue other).sending ∧
      client.attempts = (clientOf queue other).attempts := by
  simp only [clientLeft, Option.filter_eq_some_iff] at known
  obtain ⟨marked, _⟩ := known
  cases left : queue.clients steamId with
  | none =>
      rw [left] at marked
      simp [clientOf_known marked]
  | some found =>
      simp only [left] at marked
      by_cases here : other = steamId
      · subst here
        simp only [setClient, Function.update_self, Option.some.injEq] at marked
        subst marked
        simp [clientOf_known left]
      · simp only [setClient, Function.update_of_ne here] at marked
        simp [clientOf_known marked]

theorem step_sound {maxAttempts : Nat} {before after : Progress Time} {label : Label Time}
    (sound : Sound maxAttempts before) (resumes : Resumes before label)
    (taken : step maxAttempts before label = some after) : Sound maxAttempts after := by
  cases label with
  | add id =>
      cases taken
      refine sound_of_le sound (fun _ _ => Nat.le_refl _) (add_required sound.known) ?_
      intro steamId
      simpa [clientOf, add_clients] using sound.counted steamId
  | remove id =>
      cases taken
      exact sound_of_le sound (fun _ _ => Nat.le_refl _)
        (fun item member => sound.known item (remove_required member)) sound.counted
  | joinMessage steamId reconnect addons now =>
      simp only [step] at taken
      split at taken
      · cases taken
      · next sent =>
          cases taken
          cases reconnect with
          | false => exact nextToSend_sound sound resumes
          | true =>
              have none_ : parseAddonList addons = [] := by simpa using sent
              simp only [decideJoinMessage, none_, Bool.not_true, Bool.false_eq_true, if_false]
              split
              · exact sound
              · exact sound
  | clientReconnected steamId now timeout =>
      cases taken
      exact clientReconnected_sound sound steamId now timeout
  | clientLeft steamId now forgetAfter =>
      cases taken
      refine forgetOffers_sound sound ?_ fun other client known => clientLeft_kept known
      unfold clientLeft
      cases before.queue.clients steamId with
      | none => rfl
      | some client => rfl
  | clearProgress =>
      cases taken
      exact forgetOffers_sound sound rfl fun _ _ known => nomatch known

/-- Where every sign-on resumes its offer, no addon is offered past the limit. -/
theorem offers_capped_throughout (maxAttempts : Nat) (labels : List (Label Time))
    (guarded : Guarded (step maxAttempts) Resumes (start : Progress Time) labels) :
    Always (step maxAttempts) (Capped maxAttempts) start labels :=
  always_of_guarded (fun _ _ _ sound resumes taken => step_sound sound resumes taken)
    (fun _ sound => sound.capped) (start_sound maxAttempts) guarded

/-- Two declined offers, a prompt reconnect, and the next addon offered until the kick. -/
theorem offers_capped_declined :
    Always (step 3) (Capped 3) (start : Progress Int) [.add 100, .add 200,
      .joinMessage 7 false [] 1, .joinMessage 7 false [] 2, .clientReconnected 7 3 30,
      .joinMessage 7 false [] 4, .joinMessage 7 false [] 5, .joinMessage 7 false [] 6,
      .joinMessage 7 false [] 7, .clientLeft 7 8 600] := by
  refine offers_capped_throughout 3 _ ?_
  refine guarded_cons rfl trivial (guarded_cons rfl trivial ?_)
  refine guarded_cons rfl (fun _ _ missing => ?_) ?_
  · cases missing
    exact Or.inr rfl
  refine guarded_cons rfl (fun _ _ missing => ?_) ?_
  · cases missing
    exact Or.inl rfl
  refine guarded_cons rfl trivial ?_
  refine guarded_cons rfl (fun _ _ missing => ?_) ?_
  · cases missing
    exact Or.inr rfl
  refine guarded_cons rfl (fun _ _ missing => ?_) ?_
  · cases missing
    exact Or.inl rfl
  refine guarded_cons rfl (fun _ _ missing => ?_) ?_
  · cases missing
    exact Or.inl rfl
  refine guarded_cons rfl (fun _ _ missing => ?_) ?_
  · cases missing
    exact Or.inl rfl
  exact guarded_cons rfl trivial trivial

/-- Every offer taken up too late starts the count anew: the fourth is a Send as well. -/
theorem late_reconnect_offers_again :
    ∃ after : Progress Int,
      run (step 3) start [.add 100,
        .joinMessage 7 false [] 0, .clientReconnected 7 40 30,
        .joinMessage 7 false [] 41, .clientReconnected 7 80 30,
        .joinMessage 7 false [] 81, .clientReconnected 7 120 30,
        .joinMessage 7 false [] 121] = some after ∧
      after.offers 7 100 = 4 ∧ ¬Capped 3 after := by
  refine ⟨_, rfl, rfl, fun capped => ?_⟩
  exact absurd (capped 7 100) (by decide)

end VoltMod.DownloadQueue
