import Mathlib.Data.List.Nodup
import VoltMod.Transition

/-!
App/Plugin.cpp: one plugin module from Attach to Detach, a member at a time. The host may raise an
event between any two steps, since what the plugin does as it is made, loads and goes may cause
one. Refusing and throwing are one outcome: both end in Shutdown and in a false Attach.
-/

namespace VoltMod.PluginModule
open Transition

inductive HostEvent where
  | frame | serverStartup | clientConnecting | clientConnected | clientDisconnected
  | clientFullyConnected | clientSettingsChanged | consoleCommand | checkTransmit
  | buildGameSessionManifest
  deriving DecidableEq, Repr

/-- What SubscribeHostEvents subscribes, in its order. -/
def hostEvents : List HostEvent :=
  [.frame, .serverStartup, .clientConnecting, .clientConnected, .clientDisconnected,
    .clientFullyConnected, .clientSettingsChanged, .consoleCommand, .checkTransmit,
    .buildGameSessionManifest]

/-- What the module is about to do; `idle` between two calls of the host. -/
inductive Phase where
  | idle
  | checkingSchema | openingServices | makingLanguages | makingRuntime | makingPlugin
  | readingReport | subscribing (rest : List HostEvent) | loading
  | stoppingCommands | destroyingPlugin | clearingEvents | destroyingRuntime
  | droppingLanguages | droppingServices
  deriving DecidableEq, Repr

/-- `commands` says that commands of the plugin are registered, which run its code; `kept` are the
tokens in `_hostEvents`, the newest last, and `listeners` the host's entries for this module.
`loaded` is what the last Attach answered, until the Detach. -/
structure Module where
  phase : Phase
  host : Bool
  services : Bool
  languages : Bool
  runtime : Bool
  plugin : Bool
  commands : Bool
  kept : List Nat
  listeners : List (Nat × HostEvent)
  nextToken : Nat
  loaded : Bool
  faulted : Bool
  deriving DecidableEq, Repr

def fresh : Module where
  phase := .idle
  host := false
  services := false
  languages := false
  runtime := false
  plugin := false
  commands := false
  kept := []
  listeners := []
  nextToken := 1
  loaded := false
  faulted := false

def attach (module : Module) : Module :=
  { module with host := true, phase := .checkingSchema }

/-- Refuse, and Attach's handlers of exceptions, begin with Shutdown as Detach does. -/
def shutdown (module : Module) : Module := { module with phase := .stoppingCommands }

def subscribe (module : Module) (event : HostEvent) (rest : List HostEvent) : Module :=
  { module with
    phase := .subscribing rest
    kept := module.kept ++ [module.nextToken]
    listeners := module.listeners ++ [(module.nextToken, event)]
    nextToken := module.nextToken + 1 }

/-- Subscriptions::Clear drops the newest first. -/
def unsubscribe (module : Module) (token : Nat) : Module :=
  { module with
    kept := module.kept.dropLast
    listeners := module.listeners.filter fun listener => listener.1 != token }

def attachStep (module : Module) : Option Module :=
  match module.phase with
  | .checkingSchema => some { module with phase := .openingServices }
  | .openingServices => some { module with services := true, phase := .makingLanguages }
  | .makingLanguages => some { module with languages := true, phase := .makingRuntime }
  | .makingRuntime => some { module with runtime := true, phase := .makingPlugin }
  | .makingPlugin => some { module with plugin := true, phase := .readingReport }
  | .readingReport => some { module with phase := .subscribing hostEvents }
  | .subscribing [] => some { module with phase := .loading }
  | .subscribing (event :: rest) => some (subscribe module event rest)
  | .loading => some { module with phase := .idle, loaded := true }
  | _ => none

def shutdownStep (module : Module) : Option Module :=
  match module.phase with
  | .stoppingCommands =>
      -- RemoveAll is the runtime's, and only asked of one there is.
      some { module with
        commands := module.commands && !module.runtime, phase := .destroyingPlugin }
  | .destroyingPlugin => some { module with plugin := false, phase := .clearingEvents }
  | .clearingEvents =>
      match module.kept.getLast? with
      | some token => some (unsubscribe module token)
      | none => some { module with phase := .destroyingRuntime }
  | .destroyingRuntime => some { module with runtime := false, phase := .droppingLanguages }
  | .droppingLanguages => some { module with languages := false, phase := .droppingServices }
  | .droppingServices =>
      some { module with services := false, host := false, loaded := false, phase := .idle }
  | _ => none

/-- One step of the call under way, which goes well or not; nothing in Shutdown fails. -/
def advance (module : Module) (well : Bool) : Option Module :=
  match attachStep module with
  -- What a step that threw had half made is gone with it, as the member is set last.
  | some next => some (if well then next else shutdown module)
  | none => shutdownStep module

/-- Every event's member uses the runtime, OnFrame the host too; a console command may run one of
the plugin's commands. -/
def serves (module : Module) (event : HostEvent) : Bool :=
  module.runtime && (event != .frame || module.host) &&
    (event != .consoleCommand || !module.commands || module.plugin)

def raise (module : Module) (event : HostEvent) : Module :=
  if (module.listeners.map Prod.snd).contains event && !serves module event then
    { module with faulted := true }
  else module

/-- Where the plugin's own code may register a command: while it is made and while it lives, but
not once it is being shut down. -/
def registers (module : Module) : Bool :=
  match module.phase with
  | .makingPlugin | .readingReport | .subscribing _ | .loading => module.runtime
  | .idle => module.plugin
  | _ => false

inductive Label where
  | attach
  | advance (well : Bool)
  | raise (event : HostEvent)
  | register
  | detach
  deriving DecidableEq, Repr

def step (module : Module) : Label → Option Module
  | .attach => if module.phase = .idle ∧ module.host = false then some (attach module) else none
  | .advance well => advance module well
  | .raise event => some (raise module event)
  | .register => if registers module then some { module with commands := true } else none
  | .detach => if module.phase = .idle then some (shutdown module) else none

def advances : Label → Bool
  | .advance _ => true
  | _ => false

/-- The events listened to, in the order they were subscribed. -/
def listened (module : Module) : List HostEvent := module.listeners.map Prod.snd

structure Detached (module : Module) : Prop where
  host : module.host = false
  services : module.services = false
  languages : module.languages = false
  runtime : module.runtime = false
  plugin : module.plugin = false
  commands : module.commands = false
  deaf : module.listeners = []

structure Attached (module : Module) : Prop where
  host : module.host = true
  services : module.services = true
  languages : module.languages = true
  runtime : module.runtime = true
  plugin : module.plugin = true
  once : listened module = hostEvents

/-- Nothing stands without what it was built on, and nothing listens without a runtime. -/
structure Founded (module : Module) : Prop where
  services : module.services = true → module.host = true
  languages : module.languages = true → module.services = true
  runtime : module.runtime = true → module.languages = true
  plugin : module.plugin = true → module.runtime = true
  heard : module.listeners ≠ [] → module.runtime = true

/-- What holds where the module stands in its calls. -/
def Stands (module : Module) : Prop :=
  match module.phase with
  | .idle => if module.loaded then Attached module else Detached module
  | .checkingSchema | .openingServices =>
      module.host = true ∧ module.services = false ∧ module.languages = false ∧
        module.runtime = false ∧ module.plugin = false ∧ module.commands = false ∧
          module.listeners = []
  | .makingLanguages =>
      module.host = true ∧ module.services = true ∧ module.languages = false ∧
        module.runtime = false ∧ module.plugin = false ∧ module.commands = false ∧
          module.listeners = []
  | .makingRuntime =>
      module.host = true ∧ module.services = true ∧ module.languages = true ∧
        module.runtime = false ∧ module.plugin = false ∧ module.commands = false ∧
          module.listeners = []
  | .makingPlugin =>
      module.host = true ∧ module.services = true ∧ module.languages = true ∧
        module.runtime = true ∧ module.plugin = false ∧ module.listeners = []
  | .readingReport =>
      module.host = true ∧ module.services = true ∧ module.languages = true ∧
        module.runtime = true ∧ module.plugin = true ∧ module.listeners = []
  | .subscribing rest =>
      module.host = true ∧ module.services = true ∧ module.languages = true ∧
        module.runtime = true ∧ module.plugin = true ∧ listened module ++ rest = hostEvents
  | .loading => Attached module
  | .stoppingCommands =>
      (module.commands = true → module.runtime = true) ∧
        (module.listeners ≠ [] → module.plugin = true)
  | .destroyingPlugin => module.commands = false
  | .clearingEvents => module.commands = false ∧ module.plugin = false
  | .destroyingRuntime =>
      module.commands = false ∧ module.plugin = false ∧ module.listeners = []
  | .droppingLanguages =>
      module.commands = false ∧ module.plugin = false ∧ module.listeners = [] ∧
        module.runtime = false
  | .droppingServices =>
      module.commands = false ∧ module.plugin = false ∧ module.listeners = [] ∧
        module.runtime = false ∧ module.languages = false

structure Sound (module : Module) : Prop where
  stands : Stands module
  founded : Founded module
  kept : module.kept = module.listeners.map Prod.fst
  distinct : module.kept.Nodup
  early : ∀ token ∈ module.kept, token < module.nextToken
  few : module.listeners.length ≤ hostEvents.length
  safe : module.faulted = false

section Steps
variable {module next : Module}

theorem fresh_sound : Sound fresh where
  stands := ⟨rfl, rfl, rfl, rfl, rfl, rfl, rfl⟩
  founded := ⟨nofun, nofun, nofun, nofun, fun some => absurd rfl some⟩
  kept := rfl
  distinct := List.nodup_nil
  early := nofun
  few := Nat.zero_le _
  safe := rfl

theorem attached_founded (attached : Attached module) : Founded module where
  services _ := attached.host
  languages _ := attached.services
  runtime _ := attached.languages
  plugin _ := attached.runtime
  heard _ := attached.runtime

/-- Where something listens, a registered command has the plugin it runs. -/
theorem commands_live (sound : Sound module) (heard : module.listeners ≠ [])
    (commands : module.commands = true) : module.plugin = true := by
  have stands := sound.stands
  rw [Stands] at stands
  cases phase : module.phase with
  | idle =>
      simp only [phase] at stands
      split at stands
      · exact stands.plugin
      · exact absurd stands.deaf heard
  | subscribing rest =>
      simp only [phase] at stands
      exact stands.2.2.2.2.1
  | loading =>
      simp only [phase] at stands
      exact stands.plugin
  | stoppingCommands =>
      simp only [phase] at stands
      exact stands.2 heard
  | readingReport =>
      simp only [phase] at stands
      exact stands.2.2.2.2.1
  | checkingSchema | openingServices | makingLanguages | makingRuntime | makingPlugin
  | destroyingPlugin | clearingEvents | destroyingRuntime | droppingLanguages
  | droppingServices =>
      simp only [phase] at stands
      simp_all

theorem serves_heard (sound : Sound module) {event : HostEvent}
    (heard : event ∈ listened module) : serves module event = true := by
  have some : module.listeners ≠ [] := by
    intro none
    rw [listened, none] at heard
    cases heard
  have runtime := sound.founded.heard some
  have host := sound.founded.services (sound.founded.languages (sound.founded.runtime runtime))
  rw [serves, runtime, host]
  cases commands : module.commands with
  | false => simp
  | true => simp [commands_live sound some commands]

/-- No event the host can raise finds something gone. -/
theorem raise_sound (sound : Sound module) (event : HostEvent) : raise module event = module := by
  rw [raise, if_neg]
  intro fault
  rw [Bool.and_eq_true, List.contains_iff_mem] at fault
  rw [serves_heard sound fault.1] at fault
  cases fault.2

theorem shutdown_sound (sound : Sound module)
    (commands : module.commands = true → module.runtime = true)
    (heard : module.listeners ≠ [] → module.plugin = true) : Sound (shutdown module) where
  stands := ⟨commands, heard⟩
  founded := ⟨sound.founded.services, sound.founded.languages, sound.founded.runtime,
    sound.founded.plugin, sound.founded.heard⟩
  kept := sound.kept
  distinct := sound.distinct
  early := sound.early
  few := sound.few
  safe := sound.safe

theorem shutdown_bare (sound : Sound module) (commands : module.commands = false)
    (deaf : module.listeners = []) : Sound (shutdown module) :=
  shutdown_sound sound (by simp [commands]) (by simp [deaf])

theorem idle_shutdown (sound : Sound module) (idle : module.phase = .idle) :
    Sound (shutdown module) := by
  have stands := sound.stands
  rw [Stands, idle] at stands
  simp only at stands
  split at stands
  · exact shutdown_sound sound (fun _ => stands.runtime) fun _ => stands.plugin
  · exact shutdown_bare sound stands.commands stands.deaf

theorem subscribe_sound (sound : Sound module) {event : HostEvent} {rest : List HostEvent}
    (phase : module.phase = .subscribing (event :: rest)) :
    Sound (subscribe module event rest) := by
  have stands := sound.stands
  simp only [Stands, phase] at stands
  obtain ⟨host, services, languages, runtime, plugin, order⟩ := stands
  have fresh : module.nextToken ∉ module.kept := fun old => by
    have early := sound.early _ old
    omega
  constructor
  · refine ⟨host, services, languages, runtime, plugin, ?_⟩
    simpa [listened, subscribe] using order
  · exact ⟨fun _ => host, fun _ => services, fun _ => languages, fun _ => runtime, fun _ => runtime⟩
  · simp [subscribe, sound.kept]
  · refine List.nodup_append.mpr ⟨sound.distinct, List.nodup_singleton _, ?_⟩
    rintro token inside other last rfl
    exact fresh (List.mem_singleton.mp last ▸ inside)
  · intro token inside
    rcases List.mem_append.mp inside with old | last
    · exact Nat.lt_succ_of_lt (sound.early token old)
    · rw [List.mem_singleton.mp last]
      exact Nat.lt_succ_self _
  · have length := congrArg List.length order
    simp only [listened, List.length_append, List.length_map, List.length_cons] at length
    simp only [subscribe, List.length_append, List.length_singleton]
    omega
  · exact sound.safe

theorem filter_last {listeners : List (Nat × HostEvent)} {last : Nat × HostEvent}
    (distinct : ((listeners ++ [last]).map Prod.fst).Nodup) :
    (listeners ++ [last]).filter (fun listener => listener.1 != last.1) = listeners := by
  rw [List.map_append, List.nodup_append] at distinct
  have others : ∀ listener ∈ listeners, (listener.1 != last.1) = true := by
    intro listener inside
    rw [bne_iff_ne]
    exact distinct.2.2 _ (List.mem_map_of_mem inside) _ (by simp)
  rw [List.filter_append, List.filter_eq_self.mpr others]
  simp

theorem unsubscribe_last (sound : Sound module) {token : Nat}
    (newest : module.kept.getLast? = some token) : ∃ earlier last,
      module.listeners = earlier ++ [last] ∧
        unsubscribe module token = { module with
          kept := earlier.map Prod.fst, listeners := earlier } := by
  have kept := sound.kept
  rcases List.eq_nil_or_concat module.listeners with none | ⟨earlier, last, split⟩
  · rw [kept, none] at newest
    cases newest
  · rw [List.concat_eq_append] at split
    have distinct := sound.distinct
    rw [kept, split] at distinct
    rw [kept, split, List.map_append, List.map_singleton, List.getLast?_concat] at newest
    cases newest
    refine ⟨earlier, last, split, ?_⟩
    rw [unsubscribe, kept, split, filter_last distinct, List.map_append, List.map_singleton,
      List.dropLast_concat]

/-- A step that leaves the subscriptions alone. -/
theorem Sound.rebuilt (sound : Sound module) (kept : next.kept = module.kept)
    (listeners : next.listeners = module.listeners) (token : next.nextToken = module.nextToken)
    (fault : next.faulted = module.faulted) (stands : Stands next) (founded : Founded next) :
    Sound next where
  stands := stands
  founded := founded
  kept := by rw [kept, listeners, sound.kept]
  distinct := kept ▸ sound.distinct
  early := by rw [kept, token]; exact sound.early
  few := listeners ▸ sound.few
  safe := fault.trans sound.safe

theorem attachStep_sound (sound : Sound module) (taken : attachStep module = some next) :
    Sound next ∧ Sound (shutdown module) := by
  have stands := sound.stands
  rw [Stands] at stands
  -- Each phase tells what is built by now, which is what Shutdown then takes down.
  cases phase : module.phase with
  | checkingSchema =>
      simp only [attachStep, phase, Option.some.injEq] at taken stands
      subst taken
      obtain ⟨host, services, languages, runtime, plugin, commands, deaf⟩ := stands
      refine ⟨sound.rebuilt rfl rfl rfl rfl ?_ ?_, shutdown_bare sound commands deaf⟩
      · exact ⟨host, services, languages, runtime, plugin, commands, deaf⟩
      · exact ⟨by simp [services], by simp [languages], by simp [runtime], by simp [plugin],
          by simp [deaf]⟩
  | openingServices =>
      simp only [attachStep, phase, Option.some.injEq] at taken stands
      subst taken
      obtain ⟨host, services, languages, runtime, plugin, commands, deaf⟩ := stands
      refine ⟨sound.rebuilt rfl rfl rfl rfl ?_ ?_, shutdown_bare sound commands deaf⟩
      · exact ⟨host, rfl, languages, runtime, plugin, commands, deaf⟩
      · exact ⟨fun _ => host, by simp [languages], by simp [runtime], by simp [plugin],
          by simp [deaf]⟩
  | makingLanguages =>
      simp only [attachStep, phase, Option.some.injEq] at taken stands
      subst taken
      obtain ⟨host, services, languages, runtime, plugin, commands, deaf⟩ := stands
      refine ⟨sound.rebuilt rfl rfl rfl rfl ?_ ?_, shutdown_bare sound commands deaf⟩
      · exact ⟨host, services, rfl, runtime, plugin, commands, deaf⟩
      · exact ⟨fun _ => host, fun _ => services, by simp [runtime], by simp [plugin],
          by simp [deaf]⟩
  | makingRuntime =>
      simp only [attachStep, phase, Option.some.injEq] at taken stands
      subst taken
      obtain ⟨host, services, languages, runtime, plugin, commands, deaf⟩ := stands
      refine ⟨sound.rebuilt rfl rfl rfl rfl ?_ ?_, shutdown_bare sound commands deaf⟩
      · exact ⟨host, services, languages, rfl, plugin, deaf⟩
      · exact ⟨fun _ => host, fun _ => services, fun _ => languages, by simp [plugin],
          by simp [deaf]⟩
  | makingPlugin =>
      simp only [attachStep, phase, Option.some.injEq] at taken stands
      subst taken
      obtain ⟨host, services, languages, runtime, plugin, deaf⟩ := stands
      refine ⟨sound.rebuilt rfl rfl rfl rfl ?_ ?_, shutdown_sound sound ?_ ?_⟩
      · exact ⟨host, services, languages, runtime, rfl, deaf⟩
      · exact ⟨fun _ => host, fun _ => services, fun _ => languages, fun _ => runtime,
          by simp [deaf]⟩
      · exact fun _ => runtime
      · simp [deaf]
  | readingReport =>
      simp only [attachStep, phase, Option.some.injEq] at taken stands
      subst taken
      obtain ⟨host, services, languages, runtime, plugin, deaf⟩ := stands
      refine ⟨sound.rebuilt rfl rfl rfl rfl ?_ ?_, shutdown_sound sound ?_ ?_⟩
      · exact ⟨host, services, languages, runtime, plugin, by simp [listened, deaf]⟩
      · exact ⟨fun _ => host, fun _ => services, fun _ => languages, fun _ => runtime,
          fun _ => runtime⟩
      · exact fun _ => runtime
      · exact fun _ => plugin
  | subscribing rest =>
      simp only [phase] at stands
      have gone : Sound (shutdown module) :=
        shutdown_sound sound (fun _ => stands.2.2.2.1) fun _ => stands.2.2.2.2.1
      cases rest with
      | nil =>
          simp only [attachStep, phase, Option.some.injEq] at taken
          subst taken
          obtain ⟨host, services, languages, runtime, plugin, order⟩ := stands
          have attached : Attached { module with phase := .loading } :=
            ⟨host, services, languages, runtime, plugin, by simpa [listened] using order⟩
          exact ⟨sound.rebuilt rfl rfl rfl rfl attached (attached_founded attached), gone⟩
      | cons event rest =>
          simp only [attachStep, phase, Option.some.injEq] at taken
          subst taken
          exact ⟨subscribe_sound sound phase, gone⟩
  | loading =>
      simp only [attachStep, phase, Option.some.injEq] at taken stands
      subst taken
      have attached : Attached { module with phase := .idle, loaded := true } :=
        ⟨stands.host, stands.services, stands.languages, stands.runtime, stands.plugin,
          stands.once⟩
      exact ⟨sound.rebuilt rfl rfl rfl rfl attached (attached_founded attached),
        shutdown_sound sound (fun _ => stands.runtime) fun _ => stands.plugin⟩
  | idle | stoppingCommands | destroyingPlugin | clearingEvents | destroyingRuntime
  | droppingLanguages | droppingServices => simp [attachStep, phase] at taken

theorem unsubscribe_sound (sound : Sound module) (phase : module.phase = .clearingEvents)
    {token : Nat} (newest : module.kept.getLast? = some token) :
    Sound (unsubscribe module token) := by
  have stands := sound.stands
  simp only [Stands, phase] at stands
  obtain ⟨earlier, last, split, same⟩ := unsubscribe_last sound newest
  have kept : module.kept = earlier.map Prod.fst ++ [last.1] := by
    rw [sound.kept, split, List.map_append, List.map_singleton]
  have heard : module.listeners ≠ [] := by simp [split]
  rw [same]
  constructor
  · simpa only [Stands, phase] using stands
  · exact ⟨sound.founded.services, sound.founded.languages, sound.founded.runtime,
      sound.founded.plugin, fun _ => sound.founded.heard heard⟩
  · rfl
  · have distinct := sound.distinct
    rw [kept] at distinct
    exact (List.nodup_append.mp distinct).1
  · intro other inside
    exact sound.early other (kept ▸ List.mem_append_left _ inside)
  · have few := sound.few
    rw [split, List.length_append] at few
    exact Nat.le_of_add_right_le few
  · exact sound.safe

theorem shutdownStep_sound (sound : Sound module) (taken : shutdownStep module = some next) :
    Sound next := by
  have stands := sound.stands
  have founded := sound.founded
  rw [Stands] at stands
  cases phase : module.phase with
  | stoppingCommands =>
      simp only [shutdownStep, phase, Option.some.injEq] at taken stands
      subst taken
      refine sound.rebuilt rfl rfl rfl rfl ?_ ?_
      · -- Commands are only there with a runtime, which then removes them.
        cases commands : module.commands with
        | false => simp [Stands]
        | true => simp [Stands, stands.1 commands]
      · exact ⟨founded.services, founded.languages, founded.runtime, founded.plugin, founded.heard⟩
  | destroyingPlugin =>
      simp only [shutdownStep, phase, Option.some.injEq] at taken stands
      subst taken
      exact sound.rebuilt rfl rfl rfl rfl ⟨stands, rfl⟩
        ⟨founded.services, founded.languages, founded.runtime, by simp, founded.heard⟩
  | clearingEvents =>
      cases newest : module.kept.getLast? with
      | some token =>
          simp only [shutdownStep, phase, newest, Option.some.injEq] at taken
          subst taken
          exact unsubscribe_sound sound phase newest
      | none =>
          simp only [shutdownStep, phase, newest, Option.some.injEq] at taken stands
          subst taken
          have deaf : module.listeners = [] := by
            rw [List.getLast?_eq_none_iff, sound.kept, List.map_eq_nil_iff] at newest
            exact newest
          exact sound.rebuilt rfl rfl rfl rfl ⟨stands.1, stands.2, deaf⟩
            ⟨founded.services, founded.languages, founded.runtime, founded.plugin, founded.heard⟩
  | destroyingRuntime =>
      simp only [shutdownStep, phase, Option.some.injEq] at taken stands
      subst taken
      obtain ⟨commands, plugin, deaf⟩ := stands
      exact sound.rebuilt rfl rfl rfl rfl ⟨commands, plugin, deaf, rfl⟩
        ⟨founded.services, founded.languages, by simp, by simp [plugin], by simp [deaf]⟩
  | droppingLanguages =>
      simp only [shutdownStep, phase, Option.some.injEq] at taken stands
      subst taken
      obtain ⟨commands, plugin, deaf, runtime⟩ := stands
      exact sound.rebuilt rfl rfl rfl rfl ⟨commands, plugin, deaf, runtime, rfl⟩
        ⟨founded.services, by simp, by simp [runtime], by simp [plugin], by simp [deaf]⟩
  | droppingServices =>
      simp only [shutdownStep, phase, Option.some.injEq] at taken stands
      subst taken
      obtain ⟨commands, plugin, deaf, runtime, languages⟩ := stands
      exact sound.rebuilt rfl rfl rfl rfl ⟨rfl, rfl, languages, runtime, plugin, commands, deaf⟩
        ⟨by simp, by simp [languages], by simp [runtime], by simp [plugin], by simp [deaf]⟩
  | idle | checkingSchema | openingServices | makingLanguages | makingRuntime | makingPlugin
  | readingReport | subscribing rest | loading => simp [shutdownStep, phase] at taken

theorem advance_sound (sound : Sound module) {well : Bool}
    (taken : advance module well = some next) : Sound next := by
  rw [advance] at taken
  cases attached : attachStep module with
  | some target =>
      obtain ⟨gone, refused⟩ := attachStep_sound sound attached
      simp only [attached, Option.some.injEq] at taken
      subst taken
      cases well with
      | true => exact gone
      | false => exact refused
  | none =>
      simp only [attached] at taken
      exact shutdownStep_sound sound taken

theorem attach_sound (sound : Sound module) (idle : module.phase = .idle)
    (unhosted : module.host = false) : Sound (attach module) := by
  have stands := sound.stands
  rw [Stands, idle] at stands
  simp only at stands
  split at stands
  · -- A loaded module has its host, and the host attaches nothing twice.
    rw [stands.host] at unhosted
    cases unhosted
  · obtain ⟨-, services, languages, runtime, plugin, commands, deaf⟩ := stands
    exact sound.rebuilt rfl rfl rfl rfl
      ⟨rfl, services, languages, runtime, plugin, commands, deaf⟩
      ⟨fun _ => rfl, by simp [attach, languages], by simp [attach, runtime],
        by simp [attach, plugin], by simp [attach, deaf]⟩

theorem register_sound (sound : Sound module) (free : registers module = true) :
    Sound { module with commands := true } := by
  have stands := sound.stands
  have founded := sound.founded
  refine sound.rebuilt rfl rfl rfl rfl ?_
    ⟨founded.services, founded.languages, founded.runtime, founded.plugin, founded.heard⟩
  rw [Stands] at stands ⊢
  rw [registers] at free
  cases phase : module.phase with
  | idle =>
      simp only [phase] at stands free ⊢
      split at stands
      · rename_i loaded
        rw [if_pos loaded]
        exact ⟨stands.host, stands.services, stands.languages, stands.runtime, stands.plugin,
          stands.once⟩
      · rw [stands.plugin] at free
        cases free
  | makingPlugin | readingReport | subscribing rest =>
      simp only [phase] at stands ⊢
      exact stands
  | loading =>
      simp only [phase] at stands ⊢
      exact ⟨stands.host, stands.services, stands.languages, stands.runtime, stands.plugin,
        stands.once⟩
  | checkingSchema | openingServices | makingLanguages | makingRuntime | stoppingCommands
  | destroyingPlugin | clearingEvents | destroyingRuntime | droppingLanguages
  | droppingServices => simp [phase] at free

theorem step_sound : Preserves step Sound := by
  intro before label after sound taken
  cases label with
  | attach =>
      simp only [step, Option.ite_none_right_eq_some, Option.some.injEq] at taken
      obtain ⟨⟨idle, unhosted⟩, rfl⟩ := taken
      exact attach_sound sound idle unhosted
  | advance well => exact advance_sound sound taken
  | raise event =>
      cases taken
      rw [raise_sound sound]
      exact sound
  | register =>
      simp only [step, Option.ite_none_right_eq_some, Option.some.injEq] at taken
      obtain ⟨free, rfl⟩ := taken
      exact register_sound sound free
  | detach =>
      simp only [step, Option.ite_none_right_eq_some, Option.some.injEq] at taken
      obtain ⟨idle, rfl⟩ := taken
      exact idle_shutdown sound idle

/-- How many steps the call under way has left at most. -/
def left (module : Module) : Nat :=
  match module.phase with
  | .idle => 0
  | .checkingSchema => 34
  | .openingServices => 33
  | .makingLanguages => 32
  | .makingRuntime => 31
  | .makingPlugin => 30
  | .readingReport => 29
  | .subscribing rest => 18 + rest.length
  | .loading => 17
  | .stoppingCommands => 6 + module.kept.length
  | .destroyingPlugin => 5 + module.kept.length
  | .clearingEvents => 4 + module.kept.length
  | .destroyingRuntime => 3
  | .droppingLanguages => 2
  | .droppingServices => 1

theorem kept_few (sound : Sound module) : module.kept.length ≤ 10 := by
  rw [sound.kept, List.length_map]
  exact sound.few

theorem attachStep_left (taken : attachStep module = some next) :
    left next < left module ∧ 17 ≤ left module := by
  cases phase : module.phase with
  | subscribing rest =>
      cases rest with
      | nil =>
          simp only [attachStep, phase, Option.some.injEq] at taken
          subst taken
          simp [left, phase]
      | cons event rest =>
          simp only [attachStep, phase, Option.some.injEq] at taken
          subst taken
          simp only [left, subscribe, phase, List.length_cons]
          omega
  | checkingSchema | openingServices | makingLanguages | makingRuntime | makingPlugin
  | readingReport | loading =>
      simp only [attachStep, phase, Option.some.injEq] at taken
      subst taken
      simp [left, phase, hostEvents]
  | idle | stoppingCommands | destroyingPlugin | clearingEvents | destroyingRuntime
  | droppingLanguages | droppingServices => simp [attachStep, phase] at taken

theorem shutdownStep_left (taken : shutdownStep module = some next) :
    left next < left module := by
  rw [shutdownStep] at taken
  cases phase : module.phase with
  | clearingEvents =>
      cases newest : module.kept.getLast? with
      | some token =>
          simp only [phase, newest, Option.some.injEq] at taken
          subst taken
          have some : module.kept ≠ [] := by
            intro none
            rw [none] at newest
            cases newest
          have length := List.length_pos_iff.mpr some
          simp only [left, unsubscribe, phase, List.length_dropLast]
          omega
      | none =>
          simp only [phase, newest, Option.some.injEq] at taken
          subst taken
          simp only [left, phase]
          omega
  | stoppingCommands | destroyingPlugin | destroyingRuntime | droppingLanguages
  | droppingServices =>
      simp only [phase, Option.some.injEq] at taken
      subst taken
      simp [left, phase]
  | idle | checkingSchema | openingServices | makingLanguages | makingRuntime | makingPlugin
  | readingReport | subscribing rest | loading => simp [phase] at taken

theorem advance_left (sound : Sound module) {well : Bool}
    (taken : advance module well = some next) : left next < left module := by
  rw [advance] at taken
  cases attached : attachStep module with
  | some target =>
      simp only [attached, Option.some.injEq] at taken
      subst taken
      obtain ⟨lower, room⟩ := attachStep_left attached
      cases well with
      | true => exact lower
      | false =>
          -- Shutdown from the last step of Attach is the longest way left.
          have few := kept_few sound
          have begun : left (shutdown module) = 6 + module.kept.length := rfl
          simp only [Bool.false_eq_true, if_false]
          omega
  | none =>
      simp only [attached] at taken
      exact shutdownStep_left taken

theorem left_few (sound : Sound module) : left module ≤ 34 := by
  have few := kept_few sound
  have stands := sound.stands
  rw [Stands] at stands
  cases phase : module.phase with
  | subscribing rest =>
      simp only [phase] at stands
      have length := congrArg List.length stands.2.2.2.2.2
      rw [List.length_append, hostEvents] at length
      simp only [List.length_cons, List.length_nil] at length
      simp only [left, phase]
      omega
  | idle | checkingSchema | openingServices | makingLanguages | makingRuntime | makingPlugin
  | readingReport | loading | stoppingCommands | destroyingPlugin | clearingEvents
  | destroyingRuntime | droppingLanguages | droppingServices =>
      simp only [left, phase]
      omega

theorem advance_enabled (busy : module.phase ≠ .idle) (well : Bool) :
    ∃ next, advance module well = some next := by
  cases phase : module.phase with
  | idle => exact absurd phase busy
  | subscribing rest =>
      cases rest with
      | nil => simp [advance, attachStep, phase]
      | cons event rest => simp [advance, attachStep, phase]
  | clearingEvents =>
      cases newest : module.kept.getLast? with
      | some token => simp [advance, attachStep, shutdownStep, phase, newest]
      | none => simp [advance, attachStep, shutdownStep, phase, newest]
  | checkingSchema | openingServices | makingLanguages | makingRuntime | makingPlugin
  | readingReport | loading | stoppingCommands | destroyingPlugin | destroyingRuntime
  | droppingLanguages | droppingServices => simp [advance, attachStep, shutdownStep, phase]

end Steps

theorem run_sound {labels : List Label} {module : Module}
    (ran : run step fresh labels = some module) : Sound module :=
  run_preserves step_sound fresh_sound ran

/-- The host attaches and detaches only between its calls. -/
theorem advances_few {before after : Module} {labels : List Label} (sound : Sound before)
    (attaches : Label.attach ∉ labels) (detaches : Label.detach ∉ labels)
    (ran : run step before labels = some after) :
    labels.countP advances + left after ≤ left before := by
  induction labels generalizing before with
  | nil =>
      cases ran
      simp
  | cons label rest ih =>
      obtain ⟨next, taken, tail⟩ := (run_cons_iff ..).mp ran
      have bound := ih (step_sound before label next sound taken)
        (fun inside => attaches (List.mem_cons_of_mem _ inside))
        (fun inside => detaches (List.mem_cons_of_mem _ inside)) tail
      rw [List.countP_cons]
      cases label with
      | attach => exact absurd List.mem_cons_self attaches
      | detach => exact absurd List.mem_cons_self detaches
      | advance well =>
          have lower := advance_left sound taken
          simp only [advances, if_true]
          omega
      | raise event =>
          -- An event that finds everything in its place moves nothing.
          cases taken
          rw [raise_sound sound] at bound
          exact bound
      | register =>
          simp only [step, Option.ite_none_right_eq_some, Option.some.injEq] at taken
          obtain ⟨-, rfl⟩ := taken
          exact bound

/-- A plugin that registered a command as it was made, once it is loaded. -/
def loadedPlugin : Module where
  phase := .idle
  host := true
  services := true
  languages := true
  runtime := true
  plugin := true
  commands := true
  kept := [1, 2, 3, 4, 5, 6, 7, 8, 9, 10]
  listeners := [1, 2, 3, 4, 5, 6, 7, 8, 9, 10].zip hostEvents
  nextToken := 11
  loaded := true
  faulted := false

end VoltMod.PluginModule
