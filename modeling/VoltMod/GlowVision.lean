import VoltMod.Visibility

/-! Hooks/GlowVision.cpp: a viewer's glows and their clones over the transmit filter, with
slot changes, the engine's own entities and passes between them. `passes` is history: what
each pass met and left set. Where the clones stand and what they follow is left out. -/
namespace VoltMod.Hooks
open Transition

structure Color where
  r : UInt8
  g : UInt8
  b : UInt8
  a : UInt8
  deriving DecidableEq, Repr

/-- The veto itself comes with each refresh. -/
structure GlowConfig where
  terroristColor : Color
  ctColor : Color

def defaultConfig : GlowConfig := ⟨⟨255, 128, 0, 255⟩, ⟨0, 160, 255, 255⟩⟩

inductive KeyValue where
  | text (value : String)
  | number (value : Int)
  | color (value : Color)

structure GlowPair where
  relay : EntityRef
  glow : EntityRef
  team : Team
  model : String

def noPair : GlowPair := ⟨unset, unset, .none, ""⟩

def active (pair : GlowPair) : Bool := isSet pair.relay

structure GlowVision where
  audience : Audience
  config : GlowConfig
  pairs : Nat → GlowPair

/-- What Refresh asks the game and its filter, and what its spawns come to; a new entity takes
the name of no live one. -/
structure Moment extends Game where
  filter : Nat → Bool
  spawn : Nat → String → List (String × KeyValue) → List EntityRef → Option Spawned
  fresh : ∀ slot name values live made, spawn slot name values live = some made → made.ref ∉ live

structure Scene where
  visibility : Visibility
  entities : List Entity

section Clones

def propSpawnFlags : Int := 256

def glowRangeUnits : Int := 5000

def glowTeamAny : Int := -1

def glowStateAlwaysOn : Int := 3

def glowRenderAmt : Int := 1

def renderNone : Int := 2

def relayKeyValues (model : String) : List (String × KeyValue) :=
  [("model", .text model), ("spawnflags", .number propSpawnFlags),
    ("rendermode", .number renderNone)]

def glowKeyValues (config : GlowConfig) (model : String) (team : Team) :
    List (String × KeyValue) :=
  [("model", .text model), ("spawnflags", .number propSpawnFlags),
    ("glowcolor", .color (if team = .t then config.terroristColor else config.ctColor)),
    ("glowrange", .number glowRangeUnits), ("glowteam", .number glowTeamAny),
    ("glowstate", .number glowStateAlwaysOn), ("renderamt", .number glowRenderAmt)]

def cloneOf (audience : Audience) (made : Spawned) : Entity :=
  ⟨made.ref, made.index, some audience, false⟩

def spawnClone (moment : Moment) (slot : Nat) (values : List (String × KeyValue))
    (entities : List Entity) : Option Spawned :=
  moment.spawn slot "prop_dynamic" values (entities.map Entity.ref)

def destroyPair (pair : GlowPair) (scene : Scene) : GlowPair × Scene :=
  if !active pair then (pair, scene) else
  (noPair,
    ⟨showToEveryone pair.glow (showToEveryone pair.relay scene.visibility),
      remove pair.relay (remove pair.glow scene.entities)⟩)

def showToViewers (audience : Audience) (entity : EntityRef) (visibility : Visibility) :
    Visibility :=
  if 0 ≤ audience.viewerSlot then showOnlyTo entity audience.viewerSlot visibility
  else showOnlyToTeam entity audience.viewerTeam visibility

def createPair (moment : Moment) (audience : Audience) (config : GlowConfig) (slot : Nat)
    (pair : GlowPair) (scene : Scene) : GlowPair × Scene :=
  match pawn moment.toGame slot scene.entities with
  | none => (pair, scene)
  | some body =>
      let fields := fieldsOf moment.toGame (some body)
      if fields.model = "" then (pair, scene) else
      match spawnClone moment slot (relayKeyValues fields.model) scene.entities with
      | none => (pair, scene)
      | some relay =>
          let related := scene.entities ++ [cloneOf audience relay]
          match spawnClone moment slot (glowKeyValues config fields.model fields.team) related with
          | none => (pair, { scene with entities := remove relay.ref related })
          | some glow =>
              (⟨relay.ref, glow.ref, fields.team, fields.model⟩,
                ⟨showToViewers audience glow.ref (showToViewers audience relay.ref scene.visibility),
                  related ++ [cloneOf audience glow]⟩)

/-- Hidden pawns never reach the viewer, so a clone would follow nothing. -/
def desired (moment : Moment) (audience : Audience) (slot : Nat) (scene : Scene) : Bool :=
  let body := pawn moment.toGame slot scene.entities
  let fields := fieldsOf moment.toGame body
  (slot : Int) ≠ audience.viewerSlot && body.isSome && fields.alive && isPlaying fields.team &&
    !isPawnHidden slot scene.visibility && moment.filter slot

def stale (moment : Moment) (audience : Audience) (slot : Nat) (pair : GlowPair)
    (scene : Scene) : Bool :=
  let fields := fieldsOf moment.toGame (pawn moment.toGame slot scene.entities)
  !desired moment audience slot scene || fields.team ≠ pair.team ||
    (get pair.relay scene.entities).isNone || (get pair.glow scene.entities).isNone ||
    fields.model ≠ pair.model

def refreshSlot (moment : Moment) (audience : Audience) (config : GlowConfig) (slot : Nat)
    (pair : GlowPair) (scene : Scene) : GlowPair × Scene :=
  let wanted := desired moment audience slot scene
  let kept :=
    if active pair && stale moment audience slot pair scene then destroyPair pair scene
    else (pair, scene)
  if !active kept.1 && wanted then createPair moment audience config slot kept.1 kept.2 else kept

/-- A visit to each slot's pair. -/
def eachPair (visit : Nat → GlowPair → Scene → GlowPair × Scene) :
    List Nat → (Nat → GlowPair) × Scene → (Nat → GlowPair) × Scene
  | [], all => all
  | slot :: rest, (pairs, scene) =>
      let (pair, after) := visit slot (pairs slot) scene
      eachPair visit rest (Function.update pairs slot pair, after)

def refresh (moment : Moment) (glow : GlowVision) (scene : Scene) : GlowVision × Scene :=
  let (pairs, after) := eachPair (refreshSlot moment glow.audience glow.config)
    (List.range maxPlayers) (glow.pairs, scene)
  ({ glow with pairs }, after)

def destroy (glow : GlowVision) (scene : Scene) : GlowVision × Scene :=
  let (pairs, after) := eachPair (fun _ => destroyPair) (List.range maxPlayers) (glow.pairs, scene)
  ({ glow with pairs }, after)

end Clones

section Runs

/-- What a pass met, and the infos it left. -/
structure Pass where
  game : Game
  entities : List Entity
  infos : List (Option CheckTransmitInfo)

structure Server extends Scene where
  bound : Bool
  glows : Nat → Option GlowVision
  next : Nat
  passes : List Pass

def start (bound : Bool) : Server :=
  ⟨⟨⟨fun _ => unhidden, []⟩, []⟩, bound, fun _ => none, 0, []⟩

/-- A call on an entity no glow has made. -/
inductive Call where
  | showOnlyTo (slot : Int)
  | showOnlyToTeam (team : Team)
  | hideFromTeam (team : Team)
  | showToEveryone

def call (entity : EntityRef) (visibility : Visibility) : Call → Visibility
  | .showOnlyTo slot => showOnlyTo entity slot visibility
  | .showOnlyToTeam team => showOnlyToTeam entity team visibility
  | .hideFromTeam team => hideFromTeam entity team visibility
  | .showToEveryone => showToEveryone entity visibility

inductive Event where
  | createGlow (viewerSlot : Int) (config : GlowConfig)
  | createTeamGlow (viewerTeam : Team) (config : GlowConfig)
  | refresh (glow : Nat) (moment : Moment)
  | destroy (glow : Nat)
  | release (glow : Nat)
  | slotChanged (slot : Int)
  | setPawnHidden (slot : Int) (hidden : Bool)
  | setControllerHidden (slot : Int) (hidden : Bool)
  | call (entity : EntityRef) (call : Call)
  | engineSpawn (ref : EntityRef) (index : Nat)
  | engineDelete (ref : EntityRef)
  | checkTransmit (game : Game) (infoList : Option (List (Option CheckTransmitInfo)))

def isClone (ref : EntityRef) (entities : List Entity) : Bool :=
  entities.any fun entity => entity.ref = ref && entity.made.isSome

/-- The slot's glow viewers have lost their player. -/
def handOver (slot : Int) (entities : List Entity) : List Entity :=
  if isValidSlot slot then
    entities.map fun entity =>
      if entity.made.any fun audience => audience.viewerSlot = slot then
        { entity with handed := true }
      else entity
  else entities

def createGlow (audience : Audience) (config : GlowConfig) (server : Server) : Server :=
  { server with
    glows := Function.update server.glows server.next (some ⟨audience, config, fun _ => noPair⟩)
    next := server.next + 1 }

def setGlow (glow : Nat) (vision : Option GlowVision) (scene : Scene) (server : Server) : Server :=
  { server with
    toScene := scene
    glows := Function.update server.glows glow vision }

def step (server : Server) : Event → Option Server
  | .createGlow viewerSlot config => some (createGlow ⟨viewerSlot, .none⟩ config server)
  | .createTeamGlow viewerTeam config => some (createGlow ⟨-1, viewerTeam⟩ config server)
  | .refresh glow moment => (server.glows glow).map fun vision =>
      let (after, scene) := refresh moment vision server.toScene
      setGlow glow (some after) scene server
  | .destroy glow => (server.glows glow).map fun vision =>
      let (after, scene) := destroy vision server.toScene
      setGlow glow (some after) scene server
  | .release glow => (server.glows glow).map fun vision =>
      setGlow glow none (destroy vision server.toScene).2 server
  | .slotChanged slot => some { server with
      visibility := slotChanged slot server.visibility
      entities := handOver slot server.entities }
  | .setPawnHidden slot hidden =>
      some { server with visibility := setPawnHidden slot hidden server.visibility }
  | .setControllerHidden slot hidden =>
      some { server with visibility := setControllerHidden slot hidden server.visibility }
  | .call entity request =>
      if isClone entity server.entities then none
      else some { server with visibility := call entity server.visibility request }
  | .engineSpawn ref index =>
      if server.entities.any fun entity => entity.ref = ref then none
      else some { server with entities := server.entities ++ [⟨ref, index, none, false⟩] }
  | .engineDelete ref => some { server with entities := remove ref server.entities }
  | .checkTransmit game infoList =>
      let (visibility, after) :=
        onCheckTransmit server.bound game server.entities infoList server.visibility
      some { server with
        visibility
        passes := server.passes ++ [⟨game, server.entities, after.getD []⟩] }

/-- No pass has left a clone's bit set for anyone its glow is not for. -/
def Private (server : Server) : Prop :=
  ∀ pass ∈ server.passes, ∀ clone ∈ pass.entities, ∀ audience, clone.made = some audience →
    ∀ info, some info ∈ pass.infos → ∀ bits, info.transmitEntity = some bits →
      includes audience (recipientOf info) (teamNum pass.game (recipientOf info)) = false →
        clone.index ∉ bits

def valid (audience : Audience) : Bool :=
  if 0 ≤ audience.viewerSlot then isValidSlot audience.viewerSlot
  else isPlaying audience.viewerTeam

/-- A pass meets no clone whose viewer's slot has changed hands since it was made, nor one for
no slot and no playing team. -/
def Held (server : Server) : Event → Prop
  | .checkTransmit .. => ∀ clone ∈ server.entities, ∀ audience, clone.made = some audience →
      valid audience = true ∧ clone.handed = false
  | _ => True

end Runs

end VoltMod.Hooks
