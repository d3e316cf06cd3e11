import VoltMod.SharedStateRuns

/-! Host/Workshop/WorkshopDownloads.cpp over the registries the plugins hold addons with: what the
clients' messages and comings and goings do to the one queue. `since` beside the state is history,
when an addon was last taken with nobody holding it. -/
namespace VoltMod.WorkshopDownloads
open DownloadQueue (Client Queue AddonDecision required missingFor clientMountList decideJoinMessage
  clientReconnected clientLeft clientOf setClient)
open MigrationText (Text)
open SharedState (Shared Sound Downloads total withdraw)
open Transition

variable {Address Call Implementation Time : Type}

def queueOf (shared : Shared Address Call Implementation Time) : Queue Time :=
  (shared.downloads.map Downloads.queue).getD DownloadQueue.empty

def hasMissing (queue : Queue Time) (steamId : Int) : Bool :=
  match queue.clients steamId with
  | none => queue.required ≠ []
  | some client => queue.required.any fun requirement => requirement.id ∉ client.downloaded

structure Station (Address Call Implementation Time : Type) where
  shared : Shared Address Call Implementation Time
  ticks : Nat
  since : Nat → Nat

def start (addons : Bool) : Station Address Call Implementation Time :=
  ⟨SharedState.start addons, 0, fun _ => 0⟩

def withQueue (change : Queue Time → Queue Time)
    (station : Station Address Call Implementation Time) :
    Station Address Call Implementation Time :=
  { station with shared := { station.shared with
      downloads := station.shared.downloads.map fun downloads =>
        { downloads with queue := change downloads.queue } } }

inductive Event (Address Call Implementation Time : Type) where
  | registry (label : SharedState.Label Address Call Implementation)
  | joinMessage (steamId : Int) (reconnect : Bool) (addons : Text) (now : Time)
  | clientReconnected (steamId : Int) (now timeout : Time)
  | clientLeft (steamId : Int) (now forgetAfter : Time)

section Steps
variable [DecidableEq Address] [Zero Time] [LinearOrder Time] [Sub Time]

def step (maxAttempts : Nat) (station : Station Address Call Implementation Time) :
    Event Address Call Implementation Time → Option (Station Address Call Implementation Time)
  | .registry label =>
      (SharedState.step station.shared label).map fun after =>
        { shared := after
          ticks := station.ticks + 1
          since := fun id =>
            if total id station.shared.plugins = 0 ∧ 0 < total id after.plugins then station.ticks
            else station.since id }
  | .joinMessage steamId reconnect addons now => some (withQueue (fun queue =>
      (decideJoinMessage steamId reconnect addons now maxAttempts queue).2) station)
  | .clientReconnected steamId now timeout =>
      some (withQueue (clientReconnected steamId now timeout) station)
  | .clientLeft steamId now forgetAfter =>
      some (withQueue (clientLeft steamId now forgetAfter) station)

end Steps

/-- The addon a client is being sent. -/
def onOffer (client : Client Time) : Option Nat :=
  if client.sending = 0 then none else some client.sending

def downloadedBy (steamId : Int) (queue : Queue Time) : List Nat :=
  ((queue.clients steamId).map Client.downloaded).getD []

/-- What the queue says of itself in one state. -/
structure Agrees (station : Station Address Call Implementation Time) : Prop where
  held : ∀ id, id ∈ required (queueOf station.shared) ↔ 0 < total id station.shared.plugins
  order : (required (queueOf station.shared)).Pairwise fun first later =>
    station.since first < station.since later
  missing : ∀ steamId, hasMissing (queueOf station.shared) steamId = true ↔
    missingFor (queueOf station.shared) steamId ≠ []
  mounts : ∀ steamId client, (queueOf station.shared).clients steamId = some client →
    (clientMountList (queueOf station.shared) steamId).Sublist (required (queueOf station.shared)) ∧
      ∀ id, id ∈ clientMountList (queueOf station.shared) steamId ↔
        id ∈ required (queueOf station.shared) ∧
          (id ∈ client.downloaded ∨ onOffer client = some id)

/-- An addon becomes downloaded only by a reconnect in time while it is being sent. -/
def Entered [LinearOrder Time] [Sub Time] (before after : Station Address Call Implementation Time)
    (event : Event Address Call Implementation Time) : Prop :=
  ∀ steamId id, id ∈ downloadedBy steamId (queueOf after.shared) →
    id ∉ downloadedBy steamId (queueOf before.shared) →
      ∃ now timeout client, event = .clientReconnected steamId now timeout ∧
        (queueOf before.shared).clients steamId = some client ∧ onOffer client = some id ∧
          now - client.sentAt ≤ timeout

/-- Whether an event is a sign-on or a reconnect of the client. -/
def concerns (steamId : Int) : Event Address Call Implementation Time → Bool
  | .joinMessage other .. | .clientReconnected other .. => other = steamId
  | .registry _ | .clientLeft .. => false

section Offers
variable [DecidableEq Address] [Zero Time] [LinearOrder Time] [Sub Time]

/-- A Send that a reconnect answers in time, whatever else has happened to others and as long as
the client is remembered, leaves the client with fewer addons to download. -/
def Shrinks (maxAttempts : Nat) (before : Station Address Call Implementation Time) : Prop :=
  ∀ steamId reconnect addons now id remaining sent between middle later timeout after,
    (decideJoinMessage steamId reconnect addons now maxAttempts (queueOf before.shared)).1 =
      ⟨.send, id, remaining⟩ →
    step maxAttempts before (.joinMessage steamId reconnect addons now) = some sent →
    run (step maxAttempts) sent between = some middle →
    (∀ event ∈ between, concerns steamId event = false) →
    ((queueOf middle.shared).clients steamId).isSome = true →
    later - now ≤ timeout →
    step maxAttempts middle (.clientReconnected steamId later timeout) = some after →
    required (queueOf after.shared) = required (queueOf before.shared) →
      (missingFor (queueOf after.shared) steamId).Sublist
          (missingFor (queueOf before.shared) steamId) ∧
        id ∈ missingFor (queueOf before.shared) steamId ∧
        id ∉ missingFor (queueOf after.shared) steamId

end Offers

section Queues
variable {queue : Queue Time} {steamId : Int}

theorem hasMissing_iff (queue : Queue Time) (steamId : Int) :
    hasMissing queue steamId = true ↔ missingFor queue steamId ≠ [] := by
  unfold hasMissing missingFor
  cases queue.clients steamId with
  | none => simp [required]
  | some client => simp [required, List.filter_eq_nil_iff]

theorem mem_mountList {client : Client Time} (known : queue.clients steamId = some client)
    (named : 0 ∉ required queue) (id : Nat) : id ∈ clientMountList queue steamId ↔
      id ∈ required queue ∧ (id ∈ client.downloaded ∨ onOffer client = some id) := by
  rw [clientMountList, known]
  simp only [List.mem_filter, Bool.or_eq_true, decide_eq_true_eq, List.contains_iff_mem, onOffer]
  refine and_congr_right fun member => (or_comm).trans (or_congr_right ?_)
  split
  · next idle =>
      rw [idle]
      exact iff_of_false (fun same => named (same ▸ member)) nofun
  · rw [Option.some.injEq, eq_comm]

theorem mountList_sublist (queue : Queue Time) (steamId : Int) :
    (clientMountList queue steamId).Sublist (required queue) := by
  unfold clientMountList
  split
  · exact List.nil_sublist _
  · exact List.filter_sublist

theorem holders_pos_iff (held : DownloadQueue.Held queue) (id : Nat) :
    0 < DownloadQueue.holders id queue ↔ id ∈ required queue := by
  unfold DownloadQueue.holders
  cases found : queue.required.find? fun requirement => requirement.id = id with
  | none =>
      have absent : id ∉ required queue := by
        intro member
        obtain ⟨requirement, inside, same⟩ := List.mem_map.mp member
        exact List.find?_eq_none.mp found requirement inside (decide_eq_true same)
      simp [absent]
  | some requirement =>
      have member := List.mem_of_find?_eq_some found
      have named : requirement.id = id := by simpa using List.find?_some found
      have least := held.some_ requirement member
      have inside : id ∈ required queue := named ▸ List.mem_map_of_mem member
      exact iff_of_true least inside

/-- What a change of the requirements leaves of the clients: a client is there as it was, or
forgotten. The required addons lose some, or gain a new one at the end. -/
structure Moves (before after : Queue Time) : Prop where
  required : (required after).Sublist (required before) ∨
    ∃ id, id ≠ 0 ∧ id ∉ required before ∧ required after = required before ++ [id]
  clients : ∀ steamId, after.clients steamId = none ∨
    after.clients steamId = before.clients steamId

/-- The same where nothing is gained. -/
structure Drops (before after : Queue Time) : Prop where
  required : (required after).Sublist (required before)
  clients : ∀ steamId, after.clients steamId = none ∨
    after.clients steamId = before.clients steamId

theorem Drops.refl (queue : Queue Time) : Drops queue queue :=
  ⟨List.Sublist.refl _, fun _ => Or.inr rfl⟩

theorem Drops.trans {first second third : Queue Time} (here : Drops first second)
    (next : Drops second third) : Drops first third := by
  refine ⟨next.required.trans here.required, fun steamId => ?_⟩
  rcases next.clients steamId with gone | same
  · exact Or.inl gone
  · rw [same]
    exact here.clients steamId

theorem Drops.moves {before after : Queue Time} (drops : Drops before after) :
    Moves before after :=
  ⟨Or.inl drops.required, drops.clients⟩

theorem add_moves (id : Nat) (queue : Queue Time) :
    Moves queue (DownloadQueue.add id queue).2 := by
  refine ⟨?_, fun steamId => Or.inr (congrFun (DownloadQueue.add_clients id queue) steamId)⟩
  unfold DownloadQueue.add
  split
  · exact Or.inl (List.Sublist.refl _)
  · next nonzero =>
      split
      · have same : (queue.required.map fun requirement =>
            if requirement.id = id then { requirement with holders := requirement.holders + 1 }
            else requirement).map DownloadQueue.Requirement.id = required queue := by
          rw [required, List.map_map]
          apply List.map_congr_left
          intro requirement _
          rw [Function.comp_apply]
          split
          · rfl
          · rfl
        apply Or.inl
        rw [required, same]
      · next unknown =>
          refine Or.inr ⟨id, nonzero, fun member => unknown ?_, ?_⟩
          · obtain ⟨requirement, inside, same⟩ := List.mem_map.mp member
            exact List.any_eq_true.mpr ⟨requirement, inside, decide_eq_true same⟩
          · rw [required, List.map_append]
            rfl

theorem remove_drops (id : Nat) (queue : Queue Time) :
    Drops queue (DownloadQueue.remove id queue) := by
  refine ⟨?_, fun _ => Or.inr rfl⟩
  obtain ⟨requirements, clients⟩ := queue
  change ((requirements.filterMap (DownloadQueue.left id)).map DownloadQueue.Requirement.id).Sublist
    (requirements.map DownloadQueue.Requirement.id)
  induction requirements with
  | nil => exact List.Sublist.refl _
  | cons requirement rest ih =>
      cases stays : DownloadQueue.left id requirement with
      | none =>
          rw [List.filterMap_cons_none stays]
          exact ih.cons _
      | some kept =>
          rw [List.filterMap_cons_some stays, List.map_cons, (DownloadQueue.left_id stays).1]
          exact ih.cons_cons _

end Queues

section Registries
variable {shared after : Shared Address Call Implementation Time}

theorem withdraw_drops (id : Nat) (shared : Shared Address Call Implementation Time) :
    Drops (queueOf shared) (queueOf (withdraw id shared)) := by
  unfold queueOf withdraw
  cases shared.downloads with
  | none => exact Drops.refl _
  | some downloads =>
      simp only [Option.map_some, Option.getD_some, Downloads.remove]
      have drops := remove_drops id downloads.queue
      split
      -- With the last addon the clients are forgotten.
      · exact ⟨drops.required, fun _ => Or.inl rfl⟩
      · exact drops

theorem withdraw_all_drops (ids : List Nat) (shared : Shared Address Call Implementation Time) :
    Drops (queueOf shared) (queueOf (ids.foldl (fun shared id => withdraw id shared) shared)) := by
  induction ids generalizing shared with
  | nil => exact Drops.refl _
  | cons id rest ih => exact (withdraw_drops id shared).trans (ih (withdraw id shared))

variable [DecidableEq Address]

theorem perform_moves (plugin : SharedState.Context Address)
    (shared : Shared Address Call Implementation Time)
    (request : SharedState.Request Call Implementation) :
    Moves (queueOf shared) (queueOf (SharedState.perform plugin shared request)) := by
  have still := (Drops.refl (queueOf shared)).moves
  cases request with
  | subscribe event callback =>
      cases callback with
      | none => exact still
      | some call => exact still
  | unsubscribe token =>
      simp only [SharedState.perform, SharedState.unsubscribe]
      split
      · exact still
      · exact still
  | publish name implementation => exact still
  | unpublish name => exact still
  | registerCommand name => exact still
  | add id installs =>
      simp only [SharedState.perform, SharedState.add]
      split
      · exact still
      · next downloads found =>
          have moves : Moves (queueOf shared) (downloads.add id installs).2.queue := by
            rw [queueOf, found, Downloads.add]
            split
            · exact (Drops.refl _).moves
            · split
              · exact add_moves id downloads.queue
              · exact (Drops.refl _).moves
          split
          · exact moves
          · exact moves
  | remove id =>
      simp only [SharedState.perform, SharedState.remove]
      split
      · exact (withdraw_drops id _).moves
      · exact still

theorem registry_moves {label : SharedState.Label Address Call Implementation}
    (taken : SharedState.step shared label = some after) :
    Moves (queueOf shared) (queueOf after) := by
  have still := (Drops.refl (queueOf shared)).moves
  -- Only a plugin's removal and a request reach the queue.
  cases label with
  | addPlugin address name logTag version =>
      simp only [SharedState.step, Option.ite_none_right_eq_some, Option.some.injEq] at taken
      obtain ⟨_, rfl⟩ := taken
      unfold SharedState.addPlugin
      split
      · exact still
      · exact still
  | removePlugin name =>
      simp only [SharedState.step, Option.ite_none_right_eq_some, Option.some.injEq] at taken
      obtain ⟨_, rfl⟩ := taken
      unfold SharedState.removePlugin
      split
      · exact still
      · next plugin _ =>
          have drops := withdraw_all_drops plugin.addons { shared with
            events := plugin.subscriptions.foldl SharedState.removeSubscribed shared.events
            services := (PublishedInterfaces.removeAll plugin.address shared.services).2 }
          exact drops.moves
  | request address request =>
      simp only [SharedState.step] at taken
      split at taken
      · cases taken
      · simp only [Option.ite_none_right_eq_some, Option.some.injEq] at taken
        obtain ⟨_, rfl⟩ := taken
        exact perform_moves _ shared request
  | registerHostCommand name =>
      simp only [SharedState.step, Option.ite_none_right_eq_some, Option.some.injEq] at taken
      obtain ⟨_, rfl⟩ := taken
      exact still
  | dispatch event only =>
      simp only [SharedState.step, Option.ite_none_right_eq_some, Option.some.injEq] at taken
      obtain ⟨_, rfl⟩ := taken
      exact still
  | iterate =>
      simp only [SharedState.step] at taken
      split at taken
      · cases taken
      · obtain ⟨list, _, rfl⟩ := Option.map_eq_some_iff.mp taken
        exact still
  | returnCall claims =>
      simp only [SharedState.step] at taken
      split at taken
      · cases taken
      · obtain ⟨list, _, rfl⟩ := Option.map_eq_some_iff.mp taken
        exact still
  | endWalk =>
      simp only [SharedState.step] at taken
      split at taken
      · cases taken
      · obtain ⟨list, _, rfl⟩ := Option.map_eq_some_iff.mp taken
        exact still

end Registries

section Clients
variable [Zero Time] [LinearOrder Time] [Sub Time]

/-- All that is known of the client was known of it before. -/
def Unmoved (steamId : Int) (before after : Queue Time) : Prop :=
  ∀ client, after.clients steamId = some client → ∃ known, before.clients steamId = some known ∧
    client.downloaded = known.downloaded ∧ client.sending = known.sending ∧
      client.sentAt = known.sentAt

omit [Zero Time] [LinearOrder Time] [Sub Time] in
theorem unmoved_of_clients {steamId : Int} {before after : Queue Time}
    (clients : after.clients steamId = none ∨ after.clients steamId = before.clients steamId) :
    Unmoved steamId before after := by
  intro client known
  rcases clients with gone | same
  · rw [gone] at known
    cases known
  · exact ⟨client, same ▸ known, rfl, rfl, rfl⟩

omit [Zero Time] [LinearOrder Time] [Sub Time] in
theorem unmoved_downloaded {steamId : Int} {before after : Queue Time}
    (unmoved : Unmoved steamId before after) {id : Nat} (member : id ∈ downloadedBy steamId after) :
    id ∈ downloadedBy steamId before := by
  unfold downloadedBy at member ⊢
  cases known : after.clients steamId with
  | none => simp [known] at member
  | some client =>
      obtain ⟨old, found, same, _⟩ := unmoved client known
      rw [known, Option.map_some, Option.getD_some, same] at member
      rwa [found, Option.map_some, Option.getD_some]

theorem clientLeft_unmoved (steamId other : Int) (now forgetAfter : Time) (queue : Queue Time) :
    Unmoved steamId queue (clientLeft other now forgetAfter queue) := by
  intro client known
  simp only [clientLeft, Option.filter_eq_some_iff] at known
  obtain ⟨marked, _⟩ := known
  split at marked
  · next left found =>
      by_cases here : steamId = other
      · subst here
        simp only [setClient, Function.update_self, Option.some.injEq] at marked
        subst marked
        exact ⟨left, found, rfl, rfl, rfl⟩
      · simp only [setClient, Function.update_of_ne here] at marked
        exact ⟨client, marked, rfl, rfl, rfl⟩
  · exact ⟨client, marked, rfl, rfl, rfl⟩

theorem clientReconnected_clients {steamId other : Int} (apart : steamId ≠ other)
    (now timeout : Time) (queue : Queue Time) :
    (clientReconnected other now timeout queue).clients steamId = queue.clients steamId := by
  unfold clientReconnected
  split
  · rfl
  · dsimp only
    split
    · exact Function.update_of_ne apart ..
    · split
      · exact Function.update_of_ne apart ..
      · exact Function.update_of_ne apart ..

omit [LinearOrder Time] [Sub Time] in
/-- A sign-on writes to one client at most, and leaves what it has downloaded. -/
theorem decideJoinMessage_cases (steamId : Int) (reconnect : Bool) (addons : Text) (now : Time)
    (maxAttempts : Nat) (queue : Queue Time) :
    (decideJoinMessage steamId reconnect addons now maxAttempts queue).2 = queue ∨
      ∃ client, (decideJoinMessage steamId reconnect addons now maxAttempts queue).2 =
          setClient steamId (some client) queue ∧
        client.downloaded = (clientOf queue steamId).downloaded := by
  unfold decideJoinMessage
  split
  · rcases DownloadQueue.nextToSend_cases steamId now maxAttempts queue with
      same | ⟨next, rest, attempts, _, _, ⟨_, same⟩ | ⟨_, same⟩⟩
    · exact Or.inl (congrArg Prod.snd same)
    · exact Or.inr ⟨_, congrArg Prod.snd same, rfl⟩
    · exact Or.inr ⟨_, congrArg Prod.snd same, rfl⟩
  · split
    · split
      · exact Or.inl rfl
      · exact Or.inl rfl
    · unfold DownloadQueue.markSending
      dsimp only
      split
      · exact Or.inl rfl
      · exact Or.inr ⟨_, rfl, rfl⟩

omit [LinearOrder Time] [Sub Time] in
theorem decideJoinMessage_downloaded (steamId other : Int) (reconnect : Bool) (addons : Text)
    (now : Time) (maxAttempts : Nat) (queue : Queue Time) :
    downloadedBy other (decideJoinMessage steamId reconnect addons now maxAttempts queue).2 =
      downloadedBy other queue := by
  rcases decideJoinMessage_cases steamId reconnect addons now maxAttempts queue with
    same | ⟨client, same, downloaded⟩
  · rw [same]
  · rw [same]
    by_cases here : other = steamId
    · subst here
      simp only [downloadedBy, setClient, Function.update_self, Option.map_some, Option.getD_some,
        downloaded, clientOf]
      cases queue.clients other with
      | none => rfl
      | some known => rfl
    · simp only [downloadedBy, setClient, Function.update_of_ne here]

omit [LinearOrder Time] [Sub Time] in
theorem decideJoinMessage_required (steamId : Int) (reconnect : Bool) (addons : Text) (now : Time)
    (maxAttempts : Nat) (queue : Queue Time) :
    (decideJoinMessage steamId reconnect addons now maxAttempts queue).2.required =
      queue.required := by
  rcases decideJoinMessage_cases steamId reconnect addons now maxAttempts queue with
    same | ⟨client, same, _⟩
  · rw [same]
  · rw [same]
    rfl

/-- Only a client that is known, has something on offer and comes in time gains an addon. -/
theorem clientReconnected_downloaded {steamId other : Int} {now timeout : Time}
    {queue : Queue Time} {id : Nat}
    (member : id ∈ downloadedBy other (clientReconnected steamId now timeout queue))
    (fresh : id ∉ downloadedBy other queue) :
    other = steamId ∧ ∃ client, queue.clients steamId = some client ∧ onOffer client = some id ∧
      now - client.sentAt ≤ timeout := by
  have here : other = steamId := by
    by_contra apart
    rw [downloadedBy, clientReconnected_clients apart] at member
    exact fresh member
  subst here
  refine ⟨rfl, ?_⟩
  unfold clientReconnected at member
  cases known : queue.clients other with
  | none =>
      rw [known] at member
      exact absurd member fresh
  | some client =>
      have old : id ∉ client.downloaded := by simpa [downloadedBy, known] using fresh
      rw [known] at member
      dsimp only at member
      by_cases idle : client.sending = 0
      · rw [if_pos idle] at member
        simp [downloadedBy, setClient, old] at member
      · rw [if_neg idle] at member
        by_cases prompt : now - client.sentAt ≤ timeout
        · rw [if_pos prompt] at member
          simp only [downloadedBy, setClient, Function.update_self, Option.map_some,
            Option.getD_some] at member
          refine ⟨client, rfl, ?_, prompt⟩
          rw [onOffer, if_neg idle]
          split at member
          · exact absurd member old
          · exact ((List.mem_append.mp member).resolve_left old |> List.mem_singleton.mp) ▸ rfl
        · rw [if_neg prompt] at member
          simp [downloadedBy, setClient, old] at member

end Clients

section Runs
variable [DecidableEq Address] [DecidableEq Call] [Zero Time] [LinearOrder Time] [Sub Time]
  {before after : Station Address Call Implementation Time}
  {event : Event Address Call Implementation Time}

/-- What a run keeps. -/
structure Kept (station : Station Address Call Implementation Time) : Prop where
  sound : Sound station.shared
  order : (required (queueOf station.shared)).Pairwise fun first later =>
    station.since first < station.since later
  past : ∀ id ∈ required (queueOf station.shared), station.since id < station.ticks
  named : 0 ∉ required (queueOf station.shared)

omit [DecidableEq Address] [Zero Time] [LinearOrder Time] [Sub Time] in
theorem required_held {shared : Shared Address Call Implementation Time} (sound : Sound shared)
    (id : Nat) : id ∈ required (queueOf shared) ↔ 0 < total id shared.plugins := by
  rw [← sound.holds.counts id, SharedState.holders]
  cases found : shared.downloads with
  | none => simp [queueOf, found, required, DownloadQueue.empty]
  | some downloads =>
      have held := sound.holds.queue downloads found
      rw [Option.map_some, Option.getD_some, holders_pos_iff held, queueOf, found]
      rfl

omit [DecidableEq Address] [DecidableEq Call] [Zero Time] [LinearOrder Time] [Sub Time] in
theorem queueOf_withQueue (change : Queue Time → Queue Time)
    (station : Station Address Call Implementation Time) :
    queueOf (withQueue change station).shared = change (queueOf station.shared) ∨
      queueOf (withQueue change station).shared = DownloadQueue.empty ∧
        queueOf station.shared = DownloadQueue.empty := by
  unfold withQueue queueOf
  cases station.shared.downloads with
  | none => exact Or.inr ⟨rfl, rfl⟩
  | some downloads => exact Or.inl rfl

omit [DecidableEq Address] [DecidableEq Call] [Zero Time] [LinearOrder Time] [Sub Time] in
theorem agrees_of_kept [DecidableEq Call] (kept : Kept before) : Agrees before :=
  ⟨required_held kept.sound, kept.order, fun steamId => hasMissing_iff _ steamId,
    fun steamId _ known => ⟨mountList_sublist _ steamId, mem_mountList known kept.named⟩⟩

omit [DecidableEq Address] [Zero Time] [LinearOrder Time] [Sub Time] in
/-- A change of the clients alone. -/
theorem withQueue_kept {change : Queue Time → Queue Time}
    (same : ∀ queue : Queue Time, (change queue).required = queue.required) (kept : Kept before) :
    Kept (withQueue change before) := by
  obtain ⟨⟨distinct, recorded, tables, holds⟩, order, past, named⟩ := kept
  have requires : required (queueOf (withQueue change before).shared) =
      required (queueOf before.shared) := by
    rcases queueOf_withQueue change before with changed | ⟨none, none_⟩
    · rw [changed, required, same]
      rfl
    · rw [none, none_]
  refine ⟨⟨⟨distinct.names, distinct.addresses, distinct.orders, distinct.below⟩,
    ⟨recorded.tracked, recorded.calls, recorded.issued, recorded.recorded, recorded.orphans⟩,
    ⟨tables.services, tables.publishers, tables.commands, tables.registrants⟩, ?_, ?_⟩,
    requires ▸ order, requires ▸ past, requires ▸ named⟩
  · intro downloads member
    obtain ⟨old, found, rfl⟩ := Option.map_eq_some_iff.mp member
    obtain ⟨once, some_⟩ := holds.queue old found
    rw [required] at once
    exact ⟨by rwa [required, same], by rwa [same]⟩
  · intro id
    refine Eq.trans ?_ (holds.counts id)
    rw [SharedState.holders, SharedState.holders]
    simp only [withQueue]
    cases before.shared.downloads with
    | none => rfl
    | some downloads =>
        simp only [Option.map_some, Option.getD_some, DownloadQueue.holders, same]

theorem clientReconnected_requirements (steamId : Int) (now timeout : Time) (queue : Queue Time) :
    (clientReconnected steamId now timeout queue).required = queue.required := by
  unfold clientReconnected
  split
  · rfl
  · dsimp only
    split
    · rfl
    · split
      · rfl
      · rfl

theorem clientLeft_requirements (steamId : Int) (now forgetAfter : Time) (queue : Queue Time) :
    (clientLeft steamId now forgetAfter queue).required = queue.required := by
  unfold clientLeft
  dsimp only
  split
  · rfl
  · rfl

omit [Zero Time] [LinearOrder Time] [Sub Time] in
theorem registry_kept {label : SharedState.Label Address Call Implementation}
    {shared : Shared Address Call Implementation Time} (kept : Kept before)
    (taken : SharedState.step before.shared label = some shared) :
    Kept (⟨shared, before.ticks + 1, fun id =>
      if total id before.shared.plugins = 0 ∧ 0 < total id shared.plugins then before.ticks
      else before.since id⟩ : Station Address Call Implementation Time) := by
  obtain ⟨sound, order, past, named⟩ := kept
  obtain ⟨next, _⟩ := SharedState.step_sound sound taken
  have stays : ∀ id ∈ required (queueOf before.shared),
      (if total id before.shared.plugins = 0 ∧ 0 < total id shared.plugins then before.ticks
        else before.since id) = before.since id := by
    intro id member
    have some_ := (required_held sound id).mp member
    rw [if_neg]
    rintro ⟨none, _⟩
    omega
  rcases (registry_moves taken).required with fewer | ⟨id, nonzero, fresh, grown⟩
  · refine ⟨next, (order.sublist fewer).imp_of_mem fun {first later} here there before => ?_,
      fun id member => ?_, fun zero => named (fewer.subset zero)⟩
    · dsimp only
      rwa [stays first (fewer.subset here), stays later (fewer.subset there)]
    · dsimp only
      rw [stays id (fewer.subset member)]
      exact Nat.lt_succ_of_lt (past id (fewer.subset member))
  · -- The new addon is taken now, after all that are required already.
    have none : total id before.shared.plugins = 0 := by
      rw [required_held sound id] at fresh
      omega
    have taken : 0 < total id shared.plugins :=
      (required_held next id).mp (grown ▸ List.mem_append_right _ (List.mem_singleton_self id))
    have now : (if total id before.shared.plugins = 0 ∧ 0 < total id shared.plugins then
        before.ticks else before.since id) = before.ticks := if_pos ⟨none, taken⟩
    refine ⟨next, ?_, fun other member => ?_, ?_⟩
    · dsimp only
      rw [grown]
      refine List.pairwise_append.mpr ⟨order.imp_of_mem fun {first later} here there before => ?_,
        List.pairwise_singleton _ _, fun first here later last => ?_⟩
      · rwa [stays first here, stays later there]
      · rw [List.mem_singleton.mp last, now, stays first here]
        exact past first here
    · dsimp only at member ⊢
      rw [grown] at member
      rcases List.mem_append.mp member with old | last
      · rw [stays other old]
        exact Nat.lt_succ_of_lt (past other old)
      · rw [List.mem_singleton.mp last, now]
        exact Nat.lt_succ_self _
    · dsimp only
      rw [grown]
      intro zero
      rcases List.mem_append.mp zero with old | last
      · exact named old
      · exact nonzero (List.mem_singleton.mp last).symm

theorem step_kept {maxAttempts : Nat} (kept : Kept before)
    (taken : step maxAttempts before event = some after) : Kept after := by
  cases event with
  | registry label =>
      obtain ⟨shared, stepped, rfl⟩ := Option.map_eq_some_iff.mp taken
      exact registry_kept kept stepped
  | joinMessage steamId reconnect addons now =>
      cases taken
      exact withQueue_kept (decideJoinMessage_required steamId reconnect addons now maxAttempts) kept
  | clientReconnected steamId now timeout =>
      cases taken
      exact withQueue_kept (clientReconnected_requirements steamId now timeout) kept
  | clientLeft steamId now forgetAfter =>
      cases taken
      exact withQueue_kept (clientLeft_requirements steamId now forgetAfter) kept

omit [DecidableEq Call] in
theorem step_entered {maxAttempts : Nat} (taken : step maxAttempts before event = some after) :
    Entered before after event := by
  intro who id member fresh
  cases event with
  | registry label =>
      obtain ⟨shared, stepped, rfl⟩ := Option.map_eq_some_iff.mp taken
      have unmoved := unmoved_of_clients ((registry_moves stepped).clients who)
      exact absurd (unmoved_downloaded unmoved member) fresh
  | joinMessage steamId reconnect addons now =>
      cases taken
      rcases queueOf_withQueue (fun queue =>
        (decideJoinMessage steamId reconnect addons now maxAttempts queue).2) before with
        changed | ⟨none, none_⟩
      · rw [changed, decideJoinMessage_downloaded] at member
        exact absurd member fresh
      · rw [none, ← none_] at member
        exact absurd member fresh
  | clientReconnected steamId now timeout =>
      cases taken
      rcases queueOf_withQueue (clientReconnected steamId now timeout) before with
        changed | ⟨none, none_⟩
      · rw [changed] at member
        obtain ⟨rfl, client, known, offered, prompt⟩ := clientReconnected_downloaded member fresh
        exact ⟨now, timeout, client, rfl, known, offered, prompt⟩
      · rw [none, ← none_] at member
        exact absurd member fresh
  | clientLeft steamId now forgetAfter =>
      cases taken
      rcases queueOf_withQueue (clientLeft steamId now forgetAfter) before with
        changed | ⟨none, none_⟩
      · rw [changed] at member
        exact absurd (unmoved_downloaded (clientLeft_unmoved who steamId now forgetAfter _) member)
          fresh
      · rw [none, ← none_] at member
        exact absurd member fresh

omit [DecidableEq Address] [DecidableEq Call] [Zero Time] [LinearOrder Time] [Sub Time] in
theorem unmoved_withQueue {who : Int} {change : Queue Time → Queue Time}
    (unmoved : Unmoved who (queueOf before.shared) (change (queueOf before.shared))) :
    Unmoved who (queueOf before.shared) (queueOf (withQueue change before).shared) := by
  rcases queueOf_withQueue change before with changed | ⟨none, none_⟩
  · rwa [changed]
  · rw [none, none_]
    exact unmoved_of_clients (Or.inr rfl)

omit [DecidableEq Call] in
theorem step_unmoved {maxAttempts : Nat} {who : Int} (apart : concerns who event = false)
    (taken : step maxAttempts before event = some after) :
    Unmoved who (queueOf before.shared) (queueOf after.shared) := by
  cases event with
  | registry label =>
      obtain ⟨shared, stepped, rfl⟩ := Option.map_eq_some_iff.mp taken
      exact unmoved_of_clients ((registry_moves stepped).clients who)
  | joinMessage steamId reconnect addons now =>
      cases taken
      refine unmoved_withQueue (unmoved_of_clients (Or.inr ?_))
      have other : who ≠ steamId := Ne.symm (of_decide_eq_false apart)
      rcases decideJoinMessage_cases steamId reconnect addons now maxAttempts
        (queueOf before.shared) with same | ⟨client, same, _⟩
      · rw [same]
      · rw [same]
        exact Function.update_of_ne other ..
  | clientReconnected steamId now timeout =>
      cases taken
      have other : who ≠ steamId := Ne.symm (of_decide_eq_false apart)
      exact unmoved_withQueue
        (unmoved_of_clients (Or.inr (clientReconnected_clients other now timeout _)))
  | clientLeft steamId now forgetAfter =>
      cases taken
      exact unmoved_withQueue (clientLeft_unmoved who steamId now forgetAfter _)

omit [DecidableEq Call] in
theorem run_unmoved {maxAttempts : Nat} {who : Int}
    {events : List (Event Address Call Implementation Time)}
    (apart : ∀ event ∈ events, concerns who event = false)
    (ran : run (step maxAttempts) before events = some after) :
    Unmoved who (queueOf before.shared) (queueOf after.shared) := by
  induction events generalizing before with
  | nil =>
      cases ran
      exact fun client known => ⟨client, known, rfl, rfl, rfl⟩
  | cons event rest ih =>
      obtain ⟨next, taken, tail⟩ := (run_cons_iff ..).mp ran
      intro client known
      obtain ⟨later, found, downloaded, sending, sentAt⟩ :=
        ih (fun other member => apart other (List.mem_cons_of_mem event member)) tail client known
      obtain ⟨first, stood, downloaded', sending', sentAt'⟩ :=
        step_unmoved (apart event List.mem_cons_self) taken later found
      exact ⟨first, stood, downloaded.trans downloaded', sending.trans sending',
        sentAt.trans sentAt'⟩

omit [DecidableEq Address] [DecidableEq Call] [Zero Time] [LinearOrder Time] [Sub Time] in
theorem missingFor_downloaded (queue : Queue Time) (steamId : Int) :
    missingFor queue steamId =
      (required queue).filter fun id => id ∉ downloadedBy steamId queue := by
  unfold missingFor downloadedBy
  cases queue.clients steamId with
  | none => simp
  | some client => rfl

omit [DecidableEq Address] [DecidableEq Call] [LinearOrder Time] [Sub Time] in
theorem send_cases {steamId : Int} {reconnect : Bool} {addons : Text} {now : Time}
    {maxAttempts : Nat} {queue : Queue Time} {id remaining : Nat}
    (decision : (decideJoinMessage steamId reconnect addons now maxAttempts queue).1 =
      ⟨.send, id, remaining⟩) :
    id ∈ missingFor queue steamId ∧ ∃ client,
      (decideJoinMessage steamId reconnect addons now maxAttempts queue).2 =
          setClient steamId (some client) queue ∧
        client.downloaded = (clientOf queue steamId).downloaded ∧ client.sending = id ∧
          client.sentAt = now := by
  unfold decideJoinMessage at decision ⊢
  split
  · next away =>
      rw [if_pos away] at decision
      rcases DownloadQueue.nextToSend_cases steamId now maxAttempts queue with
        same | ⟨next, rest, attempts, missing, _, ⟨_, same⟩ | ⟨_, same⟩⟩
      · rw [same] at decision
        cases decision
      · rw [same] at decision
        cases decision
      · rw [same] at decision ⊢
        obtain ⟨_, rfl, _⟩ := AddonDecision.mk.inj decision
        exact ⟨missing ▸ List.mem_cons_self, _, rfl, rfl, rfl, rfl⟩
  · next away =>
      rw [if_neg away] at decision
      split at decision
      · split at decision
        · cases decision
        · cases decision
      · dsimp only at decision
        split at decision
        · cases decision
        · cases decision

theorem answered_downloaded {steamId : Int} {now timeout : Time} {queue : Queue Time}
    {client : Client Time} (known : queue.clients steamId = some client)
    (offered : client.sending ≠ 0) (prompt : now - client.sentAt ≤ timeout) (id : Nat) :
    id ∈ downloadedBy steamId (clientReconnected steamId now timeout queue) ↔
      id ∈ client.downloaded ∨ id = client.sending := by
  rw [clientReconnected, known]
  simp only [if_neg offered, if_pos prompt, downloadedBy, setClient, Function.update_self,
    Option.map_some, Option.getD_some]
  split
  · next held => exact ⟨Or.inl, fun either => either.elim (fun old => old) fun same => same ▸ held⟩
  · rw [List.mem_append, List.mem_singleton]

theorem kept_shrinks {maxAttempts : Nat} (kept : Kept before) : Shrinks maxAttempts before := by
  intro steamId reconnect addons now id remaining sent between middle later timeout after decision
    offers ran apart remembered prompt answers requires
  obtain ⟨missing, client, offered, downloaded, sending, sentAt⟩ := send_cases decision
  have nonzero : id ≠ 0 := by
    rintro rfl
    exact kept.named (DownloadQueue.missingFor_required missing)
  cases offers
  cases answers
  -- A host without downloads sends nothing.
  rcases queueOf_withQueue (fun queue =>
    (decideJoinMessage steamId reconnect addons now maxAttempts queue).2) before with
    asked | ⟨_, none⟩
  swap
  · simp [none, missingFor, DownloadQueue.empty, required] at missing
  obtain ⟨now_, known⟩ := Option.isSome_iff_exists.mp remembered
  obtain ⟨first, stood, downloaded', sending', sentAt'⟩ := run_unmoved apart ran now_ known
  rw [asked, offered] at stood
  simp only [setClient, Function.update_self, Option.some.injEq] at stood
  subst first
  rcases queueOf_withQueue (clientReconnected steamId later timeout) middle with
    answered | ⟨_, none⟩
  swap
  · simp [none, DownloadQueue.empty] at known
  have gained : ∀ item, item ∈ downloadedBy steamId
      (queueOf (withQueue (clientReconnected steamId later timeout) middle).shared) ↔
        item ∈ downloadedBy steamId (queueOf before.shared) ∨ item = id := by
    intro item
    rw [answered, answered_downloaded known (by rwa [sending', sending])
      (by rwa [sentAt', sentAt]), downloaded', downloaded, sending', sending, downloadedBy, clientOf]
    cases (queueOf before.shared).clients steamId with
    | none => rfl
    | some held => rfl
  rw [missingFor_downloaded, missingFor_downloaded, requires]
  refine ⟨List.monotone_filter_right _ fun item absent => ?_, ?_, fun member => ?_⟩
  · simp only [gained, decide_eq_true_eq, not_or] at absent ⊢
    exact absent.1
  · rwa [missingFor_downloaded] at missing
  · have absent := of_decide_eq_true (List.mem_filter.mp member).2
    exact absent ((gained id).mpr (Or.inr rfl))

omit [DecidableEq Address] [Zero Time] [LinearOrder Time] [Sub Time] in
theorem start_kept (addons : Bool) :
    Kept (start addons : Station Address Call Implementation Time) := by
  have none : required (queueOf
      (SharedState.start addons : Shared Address Call Implementation Time)) = [] := by
    cases addons with
    | false => rfl
    | true => rfl
  refine ⟨SharedState.start_sound addons, ?_, ?_, ?_⟩
  · simp [start, none]
  · simp [start, none]
  · simp [start, none]

end Runs

/-- In every state of every run the queue's answers agree with one another and with what the
plugins hold, no addon is taken for downloaded that was not, and an answered Send is progress. -/
theorem queue_views_agree [DecidableEq Address] [Zero Time] [LinearOrder Time] [Sub Time]
    (maxAttempts : Nat) (addons : Bool)
    (events : List (Event Address Call Implementation Time)) :
    Always (step maxAttempts) (fun station => Agrees station ∧
      (∀ event after, step maxAttempts station event = some after → Entered station after event) ∧
        Shrinks maxAttempts station) (start addons) events := by
  classical
  exact always_of_preserves (fun _ _ _ kept taken => step_kept kept taken)
    (fun _ kept => ⟨agrees_of_kept kept, fun _ _ taken => step_entered taken, kept_shrinks kept⟩)
    (start_kept addons) events

end VoltMod.WorkshopDownloads
