import VoltMod.SharedStateRuns

/-! Host/Plugins/PluginLoader.cpp over the host's registries. What a plugin's Load, the replay
of what it missed, and its last events with its Unload do is its own calls, and dispatches to
it alone; they end outside every dispatch. `attempts` is history: each LoadOne with what it
met and what it left. -/
namespace VoltMod.PluginHost
open PluginDependencies
open PluginLoader (World PluginContext PluginRegistry Loader PendingAction validateDescriptor
  findLoaded installedAs reloadGroup going)
open SharedState (Shared Context Request)
open Transition

variable {Address Call Implementation Time : Type}

/-- A new view is given the place of no live one. -/
structure Surroundings (Address Call Implementation : Type) extends World where
  place : List Address → Address
  free : ∀ live, place live ∉ live
  loads : String → List (Request Call Implementation)
  replays : String → List (SharedState.Label Address Call Implementation)
  departs : String → List (SharedState.Label Address Call Implementation)

structure Tables (Address Call Implementation Time : Type) where
  shared : Shared Address Call Implementation Time
  mounted : Std.TreeSet String
  loaded : List PluginManifest
  refused : Std.TreeMap String String

structure Host (Address Call Implementation Time : Type)
    extends Tables Address Call Implementation Time where
  pending : List PendingAction
  running : List PendingAction
  started : Bool
  attempts : List (Tables Address Call Implementation Time ×
    Tables Address Call Implementation Time × Status)

def start (addons : Bool) : Host Address Call Implementation Time :=
  ⟨⟨SharedState.start addons, ∅, [], ∅⟩, [], [], false, []⟩

/-- What the loader is without what plugins have taken. -/
def loader (host : Host Address Call Implementation Time) : Loader where
  registry := ⟨host.shared.plugins.map Context.toPluginContext, host.shared.nextOrder⟩
  mounted := host.mounted
  loaded := host.loaded
  pending := host.pending
  running := host.running
  refused := host.refused

def refuse (name reason : String) (host : Host Address Call Implementation Time) :
    Host Address Call Implementation Time :=
  { host with refused := host.refused.insert name reason }

def refuseWanted (wanted : String → Bool) : List RefusedPlugin →
    Host Address Call Implementation Time → Host Address Call Implementation Time
  | [], host => host
  | refused :: rest, host => refuseWanted wanted rest
      (if wanted refused.name then refuse refused.name refused.reason.detail host else host)

section Loading
variable [DecidableEq Address]

/-- What a view's plugin does, and what is dispatched to it alone. -/
def own (address : Address) (order : Nat) : SharedState.Label Address Call Implementation → Bool
  | .request owner _ => owner = address
  | .dispatch _ only => only = some order
  | .iterate | .returnCall _ | .endWalk => true
  | _ => false

/-- A course that cannot be taken, or does not end outside every dispatch, is none. -/
def play (address : Address) (order : Nat)
    (labels : List (SharedState.Label Address Call Implementation))
    (shared : Shared Address Call Implementation Time) : Shared Address Call Implementation Time :=
  match run SharedState.step shared labels with
  | none => shared
  | some after => if labels.all (own address order) ∧ after.running = [] then after else shared

def setMinLogLevel (address : Address) (level : LogLevel)
    (shared : Shared Address Call Implementation Time) : Shared Address Call Implementation Time :=
  { shared with plugins := shared.plugins.map fun plugin =>
      if plugin.address = address then { plugin with minLevel := level } else plugin }

def loadOne (world : Surroundings Address Call Implementation) (manifest : PluginManifest)
    (tables : Tables Address Call Implementation Time) :
    Tables Address Call Implementation Time × Status :=
  let name := manifest.name
  match (world.library name).entry with
  | .error failed => (tables, .error failed)
  | .ok descriptor =>
      match validateDescriptor descriptor world.hostVersion with
      | .error failed => (tables, .error failed)
      | .ok () =>
          let address := world.place (tables.shared.plugins.map Context.address)
          let order := tables.shared.nextOrder
          match SharedState.addPlugin address name manifest.logTag manifest.version
              tables.shared with
          | none => (tables, .error (.failed "the host already holds a view under that name"))
          | some added =>
              let view := setMinLogLevel address manifest.logLevel added
              let mounted :=
                if world.serverAssets name then tables.mounted.insert name else tables.mounted
              let loading := play address order ((world.loads name).map (.request address)) view
              match (world.library name).refusal with
              | some failure =>
                  ({ tables with shared := (SharedState.removePlugin name loading).2
                                 mounted := mounted.erase name },
                    .error (.failed (if failure = "" then "its Load returned false" else failure)))
              | none =>
                  -- After Load, so a replayed player meets a plugin whose handlers are all in.
                  ({ shared := play address order (world.replays name) loading
                     mounted
                     loaded := tables.loaded ++ [manifest]
                     refused := tables.refused.erase name }, .ok ())

def loadOrRefuse (world : Surroundings Address Call Implementation) (manifest : PluginManifest)
    (host : Host Address Call Implementation Time) : Host Address Call Implementation Time :=
  let (after, loaded) := loadOne world manifest host.toTables
  let tried := { host with
    toTables := after
    attempts := host.attempts ++ [(host.toTables, after, loaded)] }
  match loaded with
  | .ok () => tried
  | .error failed => refuse manifest.name failed.detail tried

def loadPlanned (world : Surroundings Address Call Implementation) (wanted : String → Bool) :
    List String → Host Address Call Implementation Time → Host Address Call Implementation Time
  | [], host => host
  | name :: rest, host => loadPlanned world wanted rest <|
      if !wanted name || (findLoaded (loader host) name).isSome then host else
        match installedAs world.toWorld name with
        | some manifest => loadOrRefuse world manifest host
        | none => host

def loadGroup (world : Surroundings Address Call Implementation) (wanted : String → Bool)
    (host : Host Address Call Implementation Time) : Host Address Call Implementation Time :=
  let list := resolve world.installed.plugins
  loadPlanned world wanted list.toLoad
    (refuseWanted wanted list.refused (refuseWanted wanted world.installed.refused host))

def unloadOne (world : Surroundings Address Call Implementation) (name : String)
    (host : Host Address Call Implementation Time) : Host Address Call Implementation Time :=
  match findLoaded (loader host) name with
  | none => host
  | some _ =>
      let left :=
        match SharedState.findPlugin name host.shared with
        | none => host.shared
        | some view => play view.address view.order (world.departs name) host.shared
      { host with
        shared := (SharedState.removePlugin name left).2
        mounted := host.mounted.erase name
        loaded := host.loaded.eraseP fun plugin => plugin.name == name }

def unloadEach (world : Surroundings Address Call Implementation) :
    List String → Host Address Call Implementation Time → Host Address Call Implementation Time
  | [], host => host
  | name :: rest, host => unloadEach world rest (unloadOne world name host)

/-- UnloadAll's loop; every turn unloads one, so the loaded plugins are turns enough. -/
def unloadLast (world : Surroundings Address Call Implementation) :
    Nat → Host Address Call Implementation Time → Host Address Call Implementation Time
  | 0, host => host
  | turns + 1, host =>
      match host.loaded.getLast? with
      | none => host
      | some plugin => unloadLast world turns (unloadOne world plugin.name host)

def unloadAll (world : Surroundings Address Call Implementation)
    (host : Host Address Call Implementation Time) : Host Address Call Implementation Time :=
  unloadLast world host.loaded.length { host with pending := [] }

def runLoad (world : Surroundings Address Call Implementation) (name : String)
    (host : Host Address Call Implementation Time) : Host Address Call Implementation Time :=
  if (findLoaded (loader host) name).isSome then host else
  match world.installed.refused.find? fun broken => broken.name == name with
  | some broken => refuse name broken.reason.detail host
  | none =>
      match installedAs world.toWorld name with
      | none => host
      | some found =>
          match found.dependencies.find? fun dependency =>
              (findLoaded (loader host) dependency).isNone with
          | some dependency =>
              refuse name s!"it requires '{dependency}', which is not loaded." host
          | none => loadOrRefuse world found host

def runUnload (world : Surroundings Address Call Implementation) (name : String)
    (host : Host Address Call Implementation Time) : Host Address Call Implementation Time :=
  if (findLoaded (loader host) name).isNone then host else
  if requiredDependents name host.loaded = [] then unloadOne world name host else host

def runReload (world : Surroundings Address Call Implementation) (name : String)
    (host : Host Address Call Implementation Time) : Host Address Call Implementation Time :=
  if (findLoaded (loader host) name).isNone then host else
  let group := reloadGroup name (loader host)
  loadGroup world group.contains (unloadEach world (going group (loader host)) host)

def runAction (world : Surroundings Address Call Implementation) (action : PendingAction)
    (host : Host Address Call Implementation Time) : Host Address Call Implementation Time :=
  match action.kind with
  | .load => runLoad world action.name host
  | .unload => runUnload world action.name host
  | .reload => runReload world action.name host

/-- What happens in the registries without the loader. -/
def unhosted : SharedState.Label Address Call Implementation → Bool
  | .addPlugin .. | .removePlugin _ => false
  | _ => true

inductive Event (Address Call Implementation : Type) where
  | loadAll (world : Surroundings Address Call Implementation)
  | unloadAll (world : Surroundings Address Call Implementation)
  | defer (action : PendingAction)
  | runPending
  | act (world : Surroundings Address Call Implementation)
  | registry (label : SharedState.Label Address Call Implementation)

/-- The host loads all its plugins once, before the first frame; actions come at the start of
a frame, outside every dispatch. -/
def step (host : Host Address Call Implementation Time) :
    Event Address Call Implementation → Option (Host Address Call Implementation Time)
  | .loadAll world =>
      if host.started || host.shared.running ≠ [] then none
      else some { loadGroup world (fun _ => true) host with started := true }
  | .unloadAll world => if host.shared.running = [] then some (unloadAll world host) else none
  | .defer action => some { host with pending := host.pending ++ [action] }
  | .runPending =>
      if host.started && host.running = [] then
        some { host with pending := [], running := host.pending }
      else none
  | .act world =>
      match host.running with
      | [] => none
      | action :: rest =>
          if host.shared.running = [] then
            some (runAction world action { host with running := rest })
          else none
  | .registry label =>
      if unhosted label then
        (SharedState.step host.shared label).map fun shared => { host with shared }
      else none

end Loading

end VoltMod.PluginHost
