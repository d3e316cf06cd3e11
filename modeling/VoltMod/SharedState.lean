import VoltMod.CallbackListOwners
import VoltMod.CommandNames
import VoltMod.DownloadQueue
import VoltMod.PluginLoader
import VoltMod.PublishedInterfaces

/-! Host/Plugins/PluginContext.cpp and PluginRegistry.cpp: the host's registries, each plugin's
view of them and the record of what it took. An owner is told by the address of its view,
which a later view may have again once the view is gone. `running` is the dispatches under
way, innermost first; a callback runs when the innermost has called one, and plugins and the
host call in only then or outside every dispatch. The host's Workshop/WorkshopDownloads.cpp
is there as far as plugins hold addons with it: whether its hooks can be installed is what a
call meets. Clients, languages and log lines are left out. -/
namespace VoltMod.SharedState
open CallbackList (Callbacks)
open PluginLoader (PluginContext)
open PublishedInterfaces (Service)

inductive Event where
  | frame | serverStartup | clientConnecting | clientConnected | clientDisconnected
  | clientFullyConnected | clientSettingsChanged | consoleCommand | checkTransmit
  | buildGameSessionManifest | playerCommand | playerCommandDone | buttonPress
  deriving DecidableEq, Repr

structure Subscribed where
  token : Nat
  event : Event
  deriving DecidableEq, Repr

/-- A plugin's view: `subscriptions` in the order the plugin took them, one of `addons`
for each Add. -/
structure Context (Address : Type) extends PluginContext where
  address : Address
  subscriptions : List Subscribed
  addons : List Nat

structure Downloads (Time : Type) where
  hooked : Bool
  queue : DownloadQueue.Queue Time

structure Shared (Address Call Implementation Time : Type) where
  events : Event → Callbacks Call
  services : List (Service Address Implementation)
  commands : List (CommandNames.Entry Address)
  downloads : Option (Downloads Time)
  nextToken : Nat
  nextOrder : Nat
  plugins : List (Context Address)
  running : List Event

/-- What a plugin had not released when it was removed. -/
structure LeakReport where
  subscriptions : List Event
  services : List String
  addons : List Nat
  deriving DecidableEq, Repr

variable {Address Call Implementation Time : Type}

/-- With or without a host that downloads addons. -/
def start (addons : Bool) : Shared Address Call Implementation Time where
  events _ := CallbackList.empty
  services := []
  commands := []
  downloads := if addons then some ⟨false, DownloadQueue.empty⟩ else none
  nextToken := 1
  nextOrder := 1
  plugins := []
  running := []

def Downloads.add (id : Nat) (installs : Bool) (downloads : Downloads Time) :
    Bool × Downloads Time :=
  if id = 0 then (false, downloads)
  else if downloads.hooked || installs then
    let (added, queue) := DownloadQueue.add id downloads.queue
    (added, ⟨true, queue⟩)
  else (false, downloads)

-- With the last addon the hooks and the clients' progress go.
def Downloads.remove (id : Nat) (downloads : Downloads Time) : Downloads Time :=
  let queue := DownloadQueue.remove id downloads.queue
  if queue.required = [] then ⟨false, DownloadQueue.clearProgress queue⟩
  else { downloads with queue }

def setEvent (event : Event) (list : Callbacks Call)
    (shared : Shared Address Call Implementation Time) :
    Shared Address Call Implementation Time :=
  { shared with events := Function.update shared.events event list }

/-- Code of the host and of plugins runs outside every dispatch or in the innermost call. -/
def calling (shared : Shared Address Call Implementation Time) : Bool :=
  match shared.running with
  | [] => true
  | event :: _ => CallbackList.calling (shared.events event)

def findPlugin (name : String) (shared : Shared Address Call Implementation Time) :
    Option (Context Address) :=
  shared.plugins.find? fun plugin => plugin.name = name

def withdraw (id : Nat) (shared : Shared Address Call Implementation Time) :
    Shared Address Call Implementation Time :=
  { shared with downloads := shared.downloads.map (Downloads.remove id) }

section Owners
variable [DecidableEq Address]

def setPlugin (plugin : Context Address) (shared : Shared Address Call Implementation Time) :
    Shared Address Call Implementation Time :=
  { shared with plugins := shared.plugins.map fun held =>
      if held.address = plugin.address then plugin else held }

def subscribe (plugin : Context Address) (event : Event) (callback : Option Call)
    (shared : Shared Address Call Implementation Time) :
    Nat × Shared Address Call Implementation Time :=
  match callback with
  | none => (0, shared)
  | some call =>
      let token := shared.nextToken
      let list := CallbackList.add token plugin.order call (shared.events event)
      let shared := setEvent event { list with issued := (shared.events event).issued ++ [token] }
        { shared with nextToken := token + 1 }
      (token, setPlugin { plugin with subscriptions := plugin.subscriptions ++ [⟨token, event⟩] }
        shared)

/-- A token this plugin never took is ignored. -/
def unsubscribe (plugin : Context Address) (token : Nat)
    (shared : Shared Address Call Implementation Time) : Shared Address Call Implementation Time :=
  match plugin.subscriptions.find? fun held => held.token = token with
  | none => shared
  | some held =>
      let list := (CallbackList.remove held.token (shared.events held.event)).2
      setPlugin { plugin with
        subscriptions := plugin.subscriptions.eraseP fun held => held.token = token }
        (setEvent held.event list shared)

def publish (plugin : Context Address) (name : String) (implementation : Option Implementation)
    (shared : Shared Address Call Implementation Time) : Shared Address Call Implementation Time :=
  { shared with
    services := PublishedInterfaces.publish plugin.address name implementation shared.services }

def unpublish (plugin : Context Address) (name : String)
    (shared : Shared Address Call Implementation Time) : Shared Address Call Implementation Time :=
  { shared with services := PublishedInterfaces.unpublish plugin.address name shared.services }

def registerCommand (plugin : Context Address) (name : CommandNames.Name)
    (shared : Shared Address Call Implementation Time) :
    Bool × Shared Address Call Implementation Time :=
  let (accepted, commands) :=
    CommandNames.register plugin.address plugin.name name shared.commands
  (accepted, { shared with commands })

def add (plugin : Context Address) (id : Nat) (installs : Bool)
    (shared : Shared Address Call Implementation Time) :
    Bool × Shared Address Call Implementation Time :=
  match shared.downloads with
  | none => (false, shared)
  | some downloads =>
      let (added, after) := downloads.add id installs
      let shared := { shared with downloads := some after }
      if added then (true, setPlugin { plugin with addons := plugin.addons ++ [id] } shared)
      else (false, shared)

def remove (plugin : Context Address) (id : Nat)
    (shared : Shared Address Call Implementation Time) : Shared Address Call Implementation Time :=
  if id ∈ plugin.addons then
    withdraw id (setPlugin { plugin with addons := plugin.addons.erase id } shared)
  else shared

def removeSubscribed (events : Event → Callbacks Call) (held : Subscribed) :
    Event → Callbacks Call :=
  Function.update events held.event (CallbackList.remove held.token (events held.event)).2

def removeAll (plugin : Context Address) (shared : Shared Address Call Implementation Time) :
    LeakReport × Shared Address Call Implementation Time :=
  -- Subscriptions first, so the plugin on its way out is not told about its own withdrawals.
  let shared := { shared with events := plugin.subscriptions.foldl removeSubscribed shared.events }
  let (names, services) := PublishedInterfaces.removeAll plugin.address shared.services
  let shared := plugin.addons.foldl (fun shared id => withdraw id shared) { shared with services }
  let shared := { shared with commands := CommandNames.removeAll plugin.address shared.commands }
  (⟨plugin.subscriptions.map Subscribed.event, names, plugin.addons⟩,
    setPlugin { plugin with subscriptions := [], addons := [] } shared)

/-- The new view stands at `address`, where no live one does. -/
def addPlugin (address : Address) (name logTag version : String)
    (shared : Shared Address Call Implementation Time) :
    Option (Shared Address Call Implementation Time) :=
  if name = "" ∨ (findPlugin name shared).isSome then none
  else some { shared with
    plugins := shared.plugins ++ [⟨⟨name, if logTag = "" then name else logTag, version, .info,
      shared.nextOrder⟩, address, [], []⟩]
    nextOrder := shared.nextOrder + 1 }

def removePlugin (name : String) (shared : Shared Address Call Implementation Time) :
    LeakReport × Shared Address Call Implementation Time :=
  match findPlugin name shared with
  | none => (⟨[], [], []⟩, shared)
  | some plugin =>
      let (leaks, shared) := removeAll plugin shared
      (leaks, { shared with plugins := shared.plugins.eraseP fun held => held.name = name })

inductive Request (Call Implementation : Type) where
  | subscribe (event : Event) (callback : Option Call)
  | unsubscribe (token : Nat)
  | publish (name : String) (implementation : Option Implementation)
  | unpublish (name : String)
  | registerCommand (name : CommandNames.Name)
  | add (id : Nat) (installs : Bool)
  | remove (id : Nat)

def perform (plugin : Context Address) (shared : Shared Address Call Implementation Time) :
    Request Call Implementation → Shared Address Call Implementation Time
  | .subscribe event callback => (subscribe plugin event callback shared).2
  | .unsubscribe token => unsubscribe plugin token shared
  | .publish name implementation => publish plugin name implementation shared
  | .unpublish name => unpublish plugin name shared
  | .registerCommand name => (registerCommand plugin name shared).2
  | .add id installs => (add plugin id installs shared).2
  | .remove id => remove plugin id shared

inductive Label (Address Call Implementation : Type) where
  | addPlugin (address : Address) (name logTag version : String)
  | removePlugin (name : String)
  | request (address : Address) (request : Request Call Implementation)
  | registerHostCommand (name : CommandNames.Name)
  -- `only` is the load position that DispatchTo asks for.
  | dispatch (event : Event) (only : Option Nat)
  | iterate
  | returnCall (claims : Bool)
  | endWalk

def step (shared : Shared Address Call Implementation Time) :
    Label Address Call Implementation → Option (Shared Address Call Implementation Time)
  | .addPlugin address name logTag version =>
      if calling shared && shared.plugins.all fun plugin => plugin.address ≠ address then
        some ((addPlugin address name logTag version shared).getD shared)
      else none
  | .removePlugin name => if calling shared then some (removePlugin name shared).2 else none
  | .request address request =>
      match shared.plugins.find? fun plugin => plugin.address = address with
      | none => none
      | some plugin => if calling shared then some (perform plugin shared request) else none
  | .registerHostCommand name =>
      if calling shared then
        some { shared with commands := CommandNames.reserve name shared.commands }
      else none
  | .dispatch event only =>
      if calling shared then
        some { setEvent event (CallbackList.beginWalk only (shared.events event)) shared with
          running := event :: shared.running }
      else none
  | .iterate =>
      match shared.running with
      | [] => none
      | event :: _ =>
          (CallbackList.iterate (shared.events event)).map fun list => setEvent event list shared
  | .returnCall claims =>
      match shared.running with
      | [] => none
      | event :: _ =>
          (CallbackList.returnCall claims (shared.events event)).map fun list =>
            setEvent event list shared
  | .endWalk =>
      match shared.running with
      | [] => none
      | event :: outer =>
          (CallbackList.endWalk (shared.events event)).map fun list =>
            { setEvent event list shared with running := outer }

end Owners

end VoltMod.SharedState
