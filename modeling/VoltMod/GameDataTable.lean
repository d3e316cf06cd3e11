import VoltMod.GameDataResolution

/-!
Host/GameData/GameDataTable.cpp serves the one resolution to every plugin, and
Engine/GameData/Bindings.cpp takes a plugin's members from it.
-/

namespace VoltMod.GameData

open SigScanner (Image ScanRange ScanResult)

structure GameDataLocation where
  found : Bool := false
  address : Nat := 0
  value : Int := -1
  reason : String := ""
  deriving DecidableEq, Repr

/-- No scanner where the file was not read; `written` is the record kept of the resolution. -/
structure GameDataTable where
  scanner : Option GameDataScanner
  written : Option GameDataRecord

def createTable (process : Process) : Result GameDataDocument → GameDataTable
  | .error _ => ⟨none, none⟩
  | .ok file =>
      let scanner := resolveAll process file (create file)
      ⟨some scanner, if scanner.failures = [] then some scanner.record else none⟩

def GameDataTable.ready (table : GameDataTable) : Bool := table.scanner.isSome

def notBound (reason : String) : GameDataLocation := { reason }

def GameDataTable.lookup (table : GameDataTable) (sections : List GameDataSection) (key : String) :
    GameDataLocation :=
  match table.scanner.bind (·.find key) with
  | none => notBound "not in gamedata"
  | some entry =>
      if entry.reason ≠ "" then notBound entry.reason
      else if entry.kind.any (sections.contains ·) then
        { found := true, address := entry.address, value := entry.value }
      else
        let held := entry.sections.headD ""
        notBound s!"in '{held}', which this member does not bind from"

/-! Engine/GameData/Bindings.cpp -/

inductive MemberKind where
  | fn | address | virtualFn | offset
  deriving DecidableEq, Repr

structure Member where
  kind : MemberKind
  key : String
  deriving DecidableEq, Repr

def MemberKind.sections : MemberKind → List GameDataSection
  | .fn => [.function]
  | .address => [.function, .global]
  | .virtualFn => [.vtable]
  | .offset => [.offset]

/-- The members in the order they are bound. -/
def members : List Member :=
  [⟨.fn, "CreateEntityByName"⟩, ⟨.fn, "DispatchSpawn"⟩, ⟨.fn, "CEntityInstance::AcceptInput"⟩,
    ⟨.fn, "CEntitySystem::AddEntityIOEvent"⟩, ⟨.fn, "CBaseModelEntity::SetModel"⟩,
    ⟨.fn, "CBaseEntity::EmitSoundParams"⟩, ⟨.fn, "CBaseEntity::StopSound"⟩,
    ⟨.address, "CBaseEntity::EmitSoundFilter"⟩, ⟨.address, "GetLegacyGameEventListener"⟩,
    ⟨.fn, "CBaseEntity::TakeDamageOld"⟩, ⟨.fn, "CTakeDamageInfo::CTakeDamageInfo"⟩,
    ⟨.fn, "CCSGameRules::TerminateRound"⟩, ⟨.fn, "CCSPlayer_WeaponServices::DropWeapon"⟩,
    ⟨.fn, "CCSCustomHudLayout::SetHasClass"⟩, ⟨.fn, "CCSCustomHudLayout::SetHasClassForPlayer"⟩,
    ⟨.fn, "CCSCustomHudLayout::SetDialogVariableString"⟩,
    ⟨.fn, "CCSCustomHudLayout::SetDialogVariableStringForPlayer"⟩,
    ⟨.fn, "CCSCustomHudLayout::SetInputCaptureEnabled"⟩,
    ⟨.virtualFn, "INetworkMessageProcessingPreFilter::FilterMessage"⟩,
    ⟨.fn, "CNetworkGameServer::ReplyConnection"⟩,
    ⟨.address, "CSource2Server::g_GameEventManager"⟩,
    ⟨.virtualFn, "CBasePlayerPawn::CommitSuicide"⟩, ⟨.virtualFn, "CCSPlayerController::ChangeTeam"⟩,
    ⟨.virtualFn, "CCSPlayerController::Respawn"⟩, ⟨.virtualFn, "CBaseEntity::Teleport"⟩,
    ⟨.virtualFn, "CNavPhysicsInterface::Nav_TraceLine"⟩,
    ⟨.virtualFn, "CNavPhysicsInterface::Nav_TraceShape"⟩,
    ⟨.virtualFn, "CCSPlayer_ItemServices::GiveNamedItem"⟩,
    ⟨.virtualFn, "CCSPlayer_ItemServices::RemoveAllItems"⟩,
    ⟨.virtualFn, "CCSPlayer_WeaponServices::SelectItem"⟩,
    ⟨.virtualFn, "CPlayer_MovementServices::RunCommand"⟩,
    ⟨.virtualFn, "CServerSideClient::ProcessRespondCvarValue"⟩,
    ⟨.virtualFn, "CServerSideClient::SendNetMessage"⟩,
    ⟨.offset, "GameEntitySystem"⟩, ⟨.offset, "CheckTransmitPlayerSlot"⟩,
    ⟨.offset, "CServerSideClientBase::m_nClientSlot"⟩,
    ⟨.offset, "CServerSideClient::INetworkMessageProcessingPreFilter"⟩,
    ⟨.offset, "CServerSideClientBase::m_SteamID"⟩, ⟨.offset, "CNetworkGameServer::m_szAddons"⟩,
    ⟨.offset, "CUserCmd::CSGOUserCmdPB"⟩, ⟨.offset, "CUserCmdBase::cmdNum"⟩]

/-- What a member holds: an address, an index or an offset, or an index and its table. -/
structure BoundMember where
  member : Member
  address : Nat := 0
  value : Int := -1
  deriving DecidableEq, Repr

/-- A member's `operator bool`. -/
def BoundMember.usable (held : BoundMember) : Bool :=
  match held.member.kind with
  | .fn | .address => held.address ≠ 0
  | .virtualFn => 0 ≤ held.value && held.address ≠ 0
  | .offset => 0 ≤ held.value

structure Bindings where
  held : List BoundMember
  failures : List String

section Bind
variable (look : List GameDataSection → String → GameDataLocation)

/-- Each kind of member takes from the location what it holds. -/
def bindMember (bindings : Bindings) (member : Member) : Bindings :=
  let location := look member.kind.sections member.key
  let failures := if location.found then bindings.failures
    else bindings.failures ++ [lineOf member.key location.reason]
  let held : BoundMember := match member.kind with
    | .fn | .address => { member, address := location.address }
    | .virtualFn => { member, address := location.address, value := location.value }
    | .offset => { member, value := location.value }
  ⟨bindings.held ++ [held], failures⟩

def bindAll : List Member → Bindings → Bindings
  | [], bindings => bindings
  | member :: rest, bindings => bindAll rest (bindMember look bindings member)

def joined : List String → String
  | [] => ""
  | [part] => part
  | part :: rest => part ++ "; " ++ joined rest

def bind : Bindings × Status :=
  let bindings := bindAll look members ⟨[], []⟩
  (bindings,
    if bindings.failures ≠ [] then
      .error (.engine s!"{bindings.failures.length} did not bind: {joined bindings.failures}")
    else .ok ())

end Bind

/-- What the table holds of a key, from what the key gives on its own. -/
def locationAlone (process : Process) (file : GameDataDocument) (sections : List GameDataSection)
    (key : String) : GameDataLocation :=
  match holders file key with
  | [] => notBound "not in gamedata"
  | [kind] =>
      match alone process file (some kind) key with
      | .error error => notBound error.detail
      | .ok (bound, _) =>
          if kind ∈ sections then
            { found := true, address := bound.address, value := bound.value }
          else notBound s!"in '{kind.name}', which this member does not bind from"
  | first :: second :: _ => notBound s!"in both '{first.name}' and '{second.name}'"

section Lookup
variable (process : Process) (file : GameDataDocument)

theorem lookup_alone (sections : List GameDataSection) (key : String) :
    (createTable process (.ok file)).lookup sections key =
      locationAlone process file sections key := by
  have found : (createTable process (.ok file)).scanner.bind (·.find key) =
      (entryAlone process file key).map Prod.fst := (resolved_alone process file key).1
  rw [GameDataTable.lookup, found, locationAlone, entryAlone]
  have answers (kind : GameDataSection) := alone_answers process file (some kind) key
  rcases holders file key with _ | ⟨kind, _ | ⟨second, rest⟩⟩
  · rfl
  · dsimp only
    cases result : alone process file (some kind) key with
    | error error =>
        have given := answers kind
        rw [result] at given
        exact if_pos given
    | ok bound =>
        by_cases taken : kind ∈ sections
        · simp [kindOf, taken]
        · simp [kindOf, taken]
  · have both : s!"in both '{kind.name}' and '{second.name}'" ≠ "" := by simp [toString]
    exact if_pos both

/-- A lookup is answered as the key resolves on its own, by the one section that holds it and the
caller takes, and says why exactly where it finds nothing. -/
theorem lookup_served (sections : List GameDataSection) (key : String) :
    (createTable process (.ok file)).lookup sections key =
        locationAlone process file sections key ∧
      (((createTable process (.ok file)).lookup sections key).found = true ↔
        ((createTable process (.ok file)).lookup sections key).reason = "") := by
  have same := lookup_alone process file sections key
  refine ⟨same, ?_⟩
  rw [GameDataTable.lookup]
  split
  · simp [notBound]
  · next entry _ =>
      split
      · next given => simp [notBound, given]
      · split
        · simp
        · simp [notBound, toString]

/-- The key stands in one section, one the member takes, and resolves there. -/
def Resolves (member : Member) : Prop :=
  ∃ kind bound recorded, holders file member.key = [kind] ∧ kind ∈ member.kind.sections ∧
    alone process file (some kind) member.key = .ok (bound, recorded)

/-- The location is that of the one section, or says why there is none. -/
theorem location_cases (member : Member) :
    (∃ reason, locationAlone process file member.kind.sections member.key = notBound reason ∧
        ¬ Resolves process file member) ∨
      ∃ kind bound recorded, holders file member.key = [kind] ∧ kind ∈ member.kind.sections ∧
        alone process file (some kind) member.key = .ok (bound, recorded) ∧
        locationAlone process file member.kind.sections member.key =
          { found := true, address := bound.address, value := bound.value } := by
  -- No section holds the key, one or several; only one that the member takes can bind it.
  cases held : holders file member.key with
  | nil =>
      refine .inl ⟨"not in gamedata", ?_, ?_⟩
      · rw [locationAlone, held]
      · rintro ⟨kind, _, _, single, _⟩
        rw [held] at single
        cases single
  | cons kind others =>
      cases others with
      | nil =>
          cases given : alone process file (some kind) member.key with
          | error error =>
              refine .inl ⟨error.detail, ?_, ?_⟩
              · rw [locationAlone, held]
                dsimp only
                rw [given]
              · rintro ⟨other, bound, recorded, single, _, found⟩
                rw [held] at single
                cases single
                rw [given] at found
                cases found
          | ok found =>
              obtain ⟨bound, recorded⟩ := found
              by_cases taken : kind ∈ member.kind.sections
              · refine .inr ⟨kind, bound, recorded, rfl, taken, given, ?_⟩
                rw [locationAlone, held]
                dsimp only
                rw [given]
                exact if_pos taken
              · refine .inl ⟨s!"in '{kind.name}', which this member does not bind from", ?_, ?_⟩
                · rw [locationAlone, held]
                  dsimp only
                  rw [given]
                  exact if_neg taken
                · rintro ⟨other, _, _, single, admitted, _⟩
                  rw [held] at single
                  cases single
                  exact taken admitted
      | cons second rest =>
          refine .inl ⟨s!"in both '{kind.name}' and '{second.name}'", ?_, ?_⟩
          · rw [locationAlone, held]
          · rintro ⟨other, _, _, single, _⟩
            rw [held] at single
            cases single

theorem found_resolves (member : Member) :
    (locationAlone process file member.kind.sections member.key).found = true ↔
      Resolves process file member := by
  rcases location_cases process file member with ⟨reason, given, unresolved⟩ |
    ⟨kind, bound, recorded, single, taken, found, given⟩
  · rw [given]
    exact ⟨nofun, fun resolves => absurd resolves unresolved⟩
  · rw [given]
    exact ⟨fun _ => ⟨kind, bound, recorded, single, taken, found⟩, fun _ => rfl⟩

/-- What a member takes from a location. -/
def boundOf (member : Member) (location : GameDataLocation) : BoundMember :=
  match member.kind with
  | .fn | .address => { member, address := location.address }
  | .virtualFn => { member, address := location.address, value := location.value }
  | .offset => { member, value := location.value }

theorem notBound_unusable (member : Member) (reason : String) :
    (boundOf member (notBound reason)).usable = false := by
  obtain ⟨kind, key⟩ := member
  cases kind <;> rfl

theorem usable_resolves (member : Member)
    (usable : (boundOf member
      (locationAlone process file member.kind.sections member.key)).usable = true) :
    Resolves process file member := by
  rcases location_cases process file member with ⟨reason, given, unresolved⟩ |
    ⟨kind, bound, recorded, single, taken, found, given⟩
  · rw [given, notBound_unusable] at usable
    cases usable
  · exact ⟨kind, bound, recorded, single, taken, found⟩

theorem resolves_usable (member : Member) (other : member.kind ≠ .offset)
    (resolves : Resolves process file member) :
    (boundOf member (locationAlone process file member.kind.sections member.key)).usable = true := by
  rcases location_cases process file member with ⟨reason, given, unresolved⟩ |
    ⟨kind, bound, recorded, single, taken, found, given⟩
  · exact absurd resolves unresolved
  have whole := alone_answers process file (some kind) member.key
  rw [found] at whole
  rw [given]
  obtain ⟨form, key⟩ := member
  cases form with
  | fn =>
      obtain rfl := List.mem_singleton.mp taken
      exact decide_eq_true whole
  | address =>
      rcases List.mem_cons.mp taken with rfl | rest
      · exact decide_eq_true whole
      · obtain rfl := List.mem_singleton.mp rest
        exact decide_eq_true whole
  | virtualFn =>
      obtain rfl := List.mem_singleton.mp taken
      exact Bool.and_eq_true _ _ ▸ ⟨decide_eq_true whole.1, decide_eq_true whole.2⟩
  | offset => exact absurd rfl other

theorem bindAll_exact (look : List GameDataSection → String → GameDataLocation)
    (list : List Member) (bindings : Bindings) :
    bindAll look list bindings =
      ⟨bindings.held ++ list.map fun member => boundOf member (look member.kind.sections member.key),
        bindings.failures ++ (list.filter fun member =>
          !(look member.kind.sections member.key).found).map fun member =>
            lineOf member.key (look member.kind.sections member.key).reason⟩ := by
  induction list generalizing bindings with
  | nil => simp [bindAll]
  | cons member rest ih =>
      rw [bindAll, ih, bindMember]
      cases found : (look member.kind.sections member.key).found with
      | true => simp [found, boundOf]
      | false => simp [found, boundOf]

/-- A plugin's members are each bound once and in order. A function, address or virtual member is
usable exactly where its key resolves in a section it takes, an offset only there; and the binding
succeeds exactly where every member's key does. -/
theorem members_bound :
    (bind (createTable process (.ok file)).lookup).1.held.map BoundMember.member = members ∧
      (∀ held ∈ (bind (createTable process (.ok file)).lookup).1.held,
        (held.usable = true → Resolves process file held.member) ∧
          (held.member.kind ≠ .offset → Resolves process file held.member →
            held.usable = true)) ∧
      ((bind (createTable process (.ok file)).lookup).2 = .ok () ↔
        ∀ member ∈ members, Resolves process file member) := by
  have same : (createTable process (.ok file)).lookup = locationAlone process file := by
    funext sections key
    exact lookup_alone process file sections key
  rw [same]
  dsimp only [bind]
  rw [bindAll_exact]
  refine ⟨?_, ?_, ?_⟩
  · rw [List.nil_append, List.map_map]
    have kept : BoundMember.member ∘ (fun member => boundOf member
        (locationAlone process file member.kind.sections member.key)) = id := by
      funext member
      obtain ⟨kind, key⟩ := member
      cases kind <;> rfl
    rw [kept, List.map_id]
  · intro held inside
    rw [List.nil_append] at inside
    obtain ⟨member, _, rfl⟩ := List.mem_map.mp inside
    have kept : (boundOf member
        (locationAlone process file member.kind.sections member.key)).member = member := by
      obtain ⟨kind, key⟩ := member
      cases kind <;> rfl
    rw [kept]
    exact ⟨usable_resolves process file member, resolves_usable process file member⟩
  · have complete : ((members.filter fun member =>
        !(locationAlone process file member.kind.sections member.key).found).map fun member =>
          lineOf member.key (locationAlone process file member.kind.sections member.key).reason) =
        [] ↔ ∀ member ∈ members, Resolves process file member := by
      rw [List.map_eq_nil_iff, List.filter_eq_nil_iff]
      refine forall₂_congr fun member _ => ?_
      rw [← found_resolves]
      simp
    rw [← complete]
    simp only [List.nil_append]
    split
    · next missing => exact ⟨nofun, fun none => absurd none missing⟩
    · next missing => exact ⟨fun _ => not_not.mp missing, fun _ => rfl⟩

/-- The key resolves from its one section and leaves this in the record. -/
def Settles (key : String) (recorded : Recorded) : Prop :=
  ∃ kind bound, holders file key = [kind] ∧
    alone process file (some kind) key = .ok (bound, recorded)

theorem entry_settles {key : String} {entry : GameDataEntry} {notes : List Recorded}
    (found : entryAlone process file key = some (entry, notes)) (bound : entry.reason = "") :
    ∃ recorded, notes = [recorded] ∧ Settles process file key recorded := by
  rw [entryAlone] at found
  cases held : holders file key with
  | nil =>
      rw [held] at found
      cases found
  | cons kind others =>
      rw [held] at found
      cases others with
      | nil =>
          have answers := alone_answers process file (some kind) key
          dsimp only at found
          cases given : alone process file (some kind) key with
          | error error =>
              rw [given] at found answers
              cases found
              exact absurd bound answers
          | ok result =>
              obtain ⟨place, recorded⟩ := result
              rw [given] at found
              cases found
              exact ⟨recorded, rfl, kind, place, held, given⟩
      | cons second rest =>
          cases found
          have both : s!"in both '{kind.name}' and '{second.name}'" ≠ "" := by simp [toString]
          exact absurd bound both

theorem settles_entry {key : String} {recorded : Recorded}
    (settles : Settles process file key recorded) :
    ∃ entry, entryAlone process file key = some (entry, [recorded]) ∧ entry.reason = "" := by
  obtain ⟨kind, bound, held, given⟩ := settles
  rw [entryAlone, held]
  dsimp only
  rw [given]
  exact ⟨_, rfl, rfl⟩

theorem absent_entry {key : String} (absent : entryAlone process file key = none) :
    holders file key = [] := by
  rw [entryAlone] at absent
  cases held : holders file key with
  | nil => rfl
  | cons kind others =>
      rw [held] at absent
      cases others with
      | nil =>
          dsimp only at absent
          cases given : alone process file (some kind) key with
          | error error =>
              rw [given] at absent
              cases absent
          | ok result =>
              rw [given] at absent
              cases absent
      | cons second rest => cases absent

theorem unbound_listed : (resolveAll process file (create file)).failures = [] ↔
    ∀ key, holders file key = [] ∨ ∃ recorded, Settles process file key recorded := by
  have found (key : String) := (resolved_alone process file key).1
  rw [List.eq_nil_iff_forall_not_mem]
  constructor
  · intro silent key
    cases alone : entryAlone process file key with
    | none => exact .inl (absent_entry process file alone)
    | some both =>
        obtain ⟨entry, notes⟩ := both
        by_cases bound : entry.reason = ""
        · obtain ⟨recorded, _, settles⟩ := entry_settles process file alone bound
          exact .inr ⟨recorded, settles⟩
        · have listed := (failures_listed process file (lineOf key entry.reason)).mpr
            ⟨key, entry, by rw [found, alone]; rfl, bound, rfl⟩
          exact absurd listed (silent _)
  · intro complete line listed
    obtain ⟨key, entry, here, unbound, _⟩ := (failures_listed process file line).mp listed
    rw [found] at here
    rcases complete key with absent | ⟨recorded, settles⟩
    · rw [entryAlone, absent] at here
      cases here
    · obtain ⟨bound, alone, settled⟩ := settles_entry process file settles
      rw [alone] at here
      cases here
      exact unbound settled

end Lookup

end VoltMod.GameData
