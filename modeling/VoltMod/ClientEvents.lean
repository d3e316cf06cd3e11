import Mathlib.Data.List.Basic
import Mathlib.Data.Fintype.Basic
import Mathlib.Logic.Function.Basic
import VoltMod.Transition

/-! The client events of Host/Plugins/PluginRegistry.cpp and PluginContext.cpp, as
EngineHooks.cpp and PluginLoader.cpp raise them: who the host lists as connected, and
what every plugin has been told. A callback may kick a player, which raises that slot's
disconnect before the callback returns, so a dispatch waits with the plugins it has
still to tell. Loads and unloads are deferred to the frame and never meet a dispatch;
every plugin keeps one callback an event from before its load ends until after it is
unloaded. Languages, downloads and the remaining events are left out. -/
namespace VoltMod.ClientEvents
open Transition

abbrev maxPlayers : Nat := 64

abbrev Slot := Fin maxPlayers

variable {Player : Type}

/-- `player` is the steam id, the name and the address. -/
structure ConnectedClient (Player : Type) where
  player : Player
  fullyConnected : Bool

inductive Told (Player : Type) where
  | serverStartup (map : String)
  | connected (slot : Slot) (player : Player)
  | disconnected (slot : Slot)
  | fullyConnected (slot : Slot)

/-- The outermost event under way, one plugin's callback running; `later` are the
plugins its dispatch has still to tell, `rest` the slots its loop has still to visit. -/
inductive Outer (Player : Type) where
  | idle
  | connecting (slot : Slot) (player : Player) (later : List Nat)
  | fullyConnecting (slot : Slot) (later : List Nat)
  | disconnecting (slot : Slot) (later : List Nat)
  | starting (map : String) (later : List Nat)
  | sweeping (slot : Slot) (later : List Nat) (rest : List Slot)
  | replayingStartup (plugin : Nat)
  | replayingConnected (plugin : Nat) (slot : Slot) (rest : List Slot)
  | replayingFully (plugin : Nat) (rest : List Slot)
  | leaving (plugin : Nat) (rest : List Slot)

/-- Plugins go by their load position. `kicks` are the disconnects raised from within
callbacks, innermost first; `told` is history, newest first. -/
structure Host (Player : Type) where
  plugins : List Nat
  nextOrder : Nat
  currentMap : String
  clients : Slot → Option (ConnectedClient Player)
  outer : Outer Player
  kicks : List (Slot × List Nat)
  told : List (Nat × Told Player)

def start : Host Player := ⟨[], 0, "", fun _ => none, .idle, [], []⟩

def tell (plugin : Nat) (event : Told Player) (host : Host Player) : Host Player :=
  { host with told := (plugin, event) :: host.told }

def isConnected (host : Host Player) (slot : Slot) : Bool := (host.clients slot).isSome

def setClient (slot : Slot) (client : Option (ConnectedClient Player)) (host : Host Player) :
    Host Player :=
  { host with clients := Function.update host.clients slot client }

def idle (host : Host Player) : Host Player := { host with outer := .idle }

/-- A dispatch from the next plugin on. -/
def dispatch (event : Told Player) (waiting : List Nat → Outer Player)
    (finish : Host Player → Host Player) (plugins : List Nat) (host : Host Player) : Host Player :=
  match plugins with
  | [] => finish host
  | plugin :: later => tell plugin event { host with outer := waiting later }

def tellConnected (slot : Slot) (player : Player) : List Nat → Host Player → Host Player :=
  dispatch (.connected slot player) (.connecting slot player) idle

def raiseClientConnected (slot : Slot) (player : Player) (host : Host Player) : Host Player :=
  tellConnected slot player host.plugins (setClient slot (some ⟨player, false⟩) host)

def tellDisconnected (slot : Slot) : List Nat → Host Player → Host Player :=
  dispatch (.disconnected slot) (.disconnecting slot) fun host => idle (setClient slot none host)

def raiseClientDisconnected (slot : Slot) (host : Host Player) : Host Player :=
  tellDisconnected slot host.plugins host

def tellFullyConnected (slot : Slot) : List Nat → Host Player → Host Player :=
  dispatch (.fullyConnected slot) (.fullyConnecting slot) idle

def raiseClientFullyConnected (slot : Slot) (host : Host Player) : Host Player :=
  -- A slot the host does not list is told of all the same, but there is no flag to set.
  let marked := match host.clients slot with
    | some client => setClient slot (some { client with fullyConnected := true }) host
    | none => host
  tellFullyConnected slot host.plugins marked

/-- DisconnectEveryone, over the slots left to look at. -/
def disconnectEveryone : List Slot → Host Player → Host Player
  | [], host => idle host
  | slot :: rest, host =>
      if isConnected host slot then
        dispatch (.disconnected slot) (fun later => .sweeping slot later rest)
          (fun host => disconnectEveryone rest (setClient slot none host)) host.plugins host
      else disconnectEveryone rest host

def slots : List Slot := List.finRange maxPlayers

def tellStartup (map : String) : List Nat → Host Player → Host Player :=
  dispatch (.serverStartup map) (.starting map) (disconnectEveryone slots)

def raiseServerStartup (map : String) (host : Host Player) : Host Player :=
  tellStartup map host.plugins { host with currentMap := map }

/-- The loop of ReplayMissedEvents; each slot is checked when its turn comes. -/
def replayClients (plugin : Nat) : List Slot → Host Player → Host Player
  | [], host => idle host
  | slot :: rest, host =>
      match host.clients slot with
      | none => replayClients plugin rest host
      | some client =>
          tell plugin (.connected slot client.player)
            { host with outer := .replayingConnected plugin slot rest }

/-- The second check of a slot, once its Connected callback has returned. -/
def replayFully (plugin : Nat) (slot : Slot) (rest : List Slot) (host : Host Player) :
    Host Player :=
  if (host.clients slot).any ConnectedClient.fullyConnected then
    tell plugin (.fullyConnected slot) { host with outer := .replayingFully plugin rest }
  else replayClients plugin rest host

def replayMissedEvents (plugin : Nat) (host : Host Player) : Host Player :=
  if host.currentMap = "" then idle host
  else tell plugin (.serverStartup host.currentMap) { host with outer := .replayingStartup plugin }

/-- AddPlugin, then the replay after the plugin's own Load. -/
def load (host : Host Player) : Host Player :=
  replayMissedEvents host.nextOrder
    { host with plugins := host.plugins ++ [host.nextOrder], nextOrder := host.nextOrder + 1 }

def removePlugin (plugin : Nat) (host : Host Player) : Host Player :=
  { idle host with plugins := host.plugins.filter (· ≠ plugin) }

/-- DisconnectClients, and the unload it comes before. -/
def disconnectClients (plugin : Nat) : List Slot → Host Player → Host Player
  | [], host => removePlugin plugin host
  | slot :: rest, host =>
      if isConnected host slot then
        tell plugin (.disconnected slot) { host with outer := .leaving plugin rest }
      else disconnectClients plugin rest host

def unload (plugin : Nat) (midMap : Bool) (host : Host Player) : Host Player :=
  if plugin ∈ host.plugins then
    if midMap then disconnectClients plugin slots host else removePlugin plugin host
  else host

/-- A disconnect raised while a callback runs. -/
def tellKicked (slot : Slot) (plugins : List Nat) (outer : List (Slot × List Nat))
    (host : Host Player) : Host Player :=
  match plugins with
  | [] => setClient slot none { host with kicks := outer }
  | plugin :: later => tell plugin (.disconnected slot) { host with kicks := (slot, later) :: outer }

/-- The outermost event goes on once the callback it waits for has returned. -/
def resume (host : Host Player) : Option (Host Player) :=
  match host.outer with
  | .idle => none
  | .connecting slot player later => some (tellConnected slot player later host)
  | .fullyConnecting slot later => some (tellFullyConnected slot later host)
  | .disconnecting slot later => some (tellDisconnected slot later host)
  | .starting map later => some (tellStartup map later host)
  | .sweeping slot later rest =>
      some (dispatch (.disconnected slot) (fun later => .sweeping slot later rest)
        (fun host => disconnectEveryone rest (setClient slot none host)) later host)
  | .replayingStartup plugin => some (replayClients plugin slots host)
  | .replayingConnected plugin slot rest => some (replayFully plugin slot rest host)
  | .replayingFully plugin rest => some (replayClients plugin rest host)
  | .leaving plugin rest => some (disconnectClients plugin rest host)

inductive Label (Player : Type) where
  | serverStartup (map : String)
  | clientConnected (slot : Slot) (player : Player)
  | clientPutInServer (slot : Slot) (player : Player)
  | clientDisconnect (slot : Slot)
  | clientFullyConnect (slot : Slot)
  | load
  | unload (plugin : Nat) (midMap : Bool)
  | kick (slot : Slot)
  | returns

/-- What the engine and the frame raise from outside any callback. -/
def raise (host : Host Player) : Label Player → Option (Host Player)
  | .serverStartup map => some (raiseServerStartup map host)
  | .clientConnected slot player => some (raiseClientConnected slot player host)
  | .clientPutInServer slot player =>
      some (if isConnected host slot then host else raiseClientConnected slot player host)
  | .clientDisconnect slot => some (raiseClientDisconnected slot host)
  | .clientFullyConnect slot => some (raiseClientFullyConnected slot host)
  | .load => some (load host)
  | .unload plugin midMap => some (unload plugin midMap host)
  | .kick _ | .returns => none

/-- While a callback runs it may kick, or return to what called it. -/
def step (host : Host Player) (label : Label Player) : Option (Host Player) :=
  match host.outer, label with
  -- Outside every callback the engine and the frame raise; inside one only a kick or the
  -- return is possible.
  | .idle, label => raise host label
  | _, .kick slot => some (tellKicked slot host.plugins host.kicks host)
  | _, .returns =>
      match host.kicks with
      -- The innermost disconnect goes on first.
      | (slot, later) :: outer => some (tellKicked slot later outer host)
      | [] => resume host
  | _, _ => none

/-- Whether the last of Connected and Disconnected the plugin was told of the slot is Connected. -/
def present (plugin : Nat) (slot : Slot) : List (Nat × Told Player) → Bool
  | [] => false
  | (whom, .connected which _) :: older =>
      if whom = plugin ∧ which = slot then true else present plugin slot older
  | (whom, .disconnected which) :: older =>
      if whom = plugin ∧ which = slot then false else present plugin slot older
  | _ :: older => present plugin slot older

/-- Between events every plugin's picture is the host's, and nobody is told of a player
being in who is not there. -/
structure Agreed (host : Host Player) : Prop where
  connected : host.outer = .idle → ∀ plugin ∈ host.plugins, ∀ slot,
    present plugin slot host.told = true ↔ (host.clients slot).isSome
  fullyConnected : ∀ newer plugin slot older,
    host.told = newer ++ (plugin, .fullyConnected slot) :: older →
      present plugin slot older = true

/-- Nobody still to be told of a player by the event under way finds them gone, nobody is
told that an empty slot is in, and no player is missed by a load before the first map. -/
def InTime (host : Host Player) : Label Player → Prop
  | .kick slot =>
      (∀ player later, host.outer = .connecting slot player later → later = []) ∧
        ∀ later, host.outer = .fullyConnecting slot later → later = []
  | .clientFullyConnect slot => isConnected host slot = true ∨ host.plugins = []
  | .load => host.currentMap ≠ "" ∨ ∀ slot, host.clients slot = none
  | _ => True

end VoltMod.ClientEvents
