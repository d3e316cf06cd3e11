import Mathlib.Logic.Function.Basic
import VoltMod.Transition

/-! Hooks/Visibility.cpp and Hooks/GlowVision.cpp over the engine's entities. A removed entity
is gone at once. What the game shows of players and pawns and the bits the engine has set come
with each event. -/
namespace VoltMod.Hooks
open Transition

inductive Team where
  | none | spectator | t | ct
  deriving DecidableEq, Repr

def isPlaying (team : Team) : Bool := team = .t || team = .ct

/-- A handle; a dead entity's may come to name a new one. -/
structure EntityRef where
  handle : UInt32
  deriving DecidableEq, Repr

def unset : EntityRef := ⟨0xFFFFFFFF⟩

def isSet (ref : EntityRef) : Bool := ref.handle ≠ unset.handle

def maxPlayers : Nat := 64

def isValidSlot (slot : Int) : Bool := decide (0 ≤ slot) && decide (slot < maxPlayers)

/-- Whom a glow is for: the viewer's slot, the team when there is none. -/
structure Audience where
  viewerSlot : Int
  viewerTeam : Team
  deriving DecidableEq, Repr

def includes (audience : Audience) (recipient : Int) (team : Team) : Bool :=
  if 0 ≤ audience.viewerSlot then audience.viewerSlot = recipient else audience.viewerTeam = team

/-- A live entity. `made` and `handed` are history: the glow it was cloned for, and whether the
viewer's slot has changed hands since. -/
structure Entity where
  ref : EntityRef
  index : Nat
  made : Option Audience
  handed : Bool
  deriving DecidableEq, Repr

/-- What a spawn returns; index 0 is the world. -/
structure Spawned where
  ref : EntityRef
  index : Nat
  named : isSet ref = true
  placed : 0 < index

def get (ref : EntityRef) (entities : List Entity) : Option Entity :=
  if isSet ref then entities.find? fun entity => entity.ref = ref else none

def indexOf : Option Entity → Int
  | none => -1
  | some entity => entity.index

def remove (ref : EntityRef) (entities : List Entity) : List Entity :=
  match get ref entities with
  | none => entities
  | some _ => entities.filter fun entity => entity.ref ≠ ref

section Game

structure PawnFields where
  alive : Bool
  team : Team
  model : String
  weapons : List EntityRef
  wearables : List EntityRef
  observerTarget : EntityRef

structure ControllerFields where
  index : Nat
  team : Team
  playerPawn : EntityRef
  pawn : EntityRef

structure Game where
  controllers : Int → Option ControllerFields
  pawns : EntityRef → PawnFields

/-- A field of no entity reads as zero. -/
def noPawn : PawnFields := ⟨false, .none, "", [], [], unset⟩

def noController : ControllerFields := ⟨0, .none, unset, unset⟩

def controller (game : Game) (slot : Int) : Option ControllerFields :=
  if isValidSlot slot then game.controllers slot else none

def fieldsOf (game : Game) : Option Entity → PawnFields
  | none => noPawn
  | some pawn => game.pawns pawn.ref

def pawn (game : Game) (slot : Int) (entities : List Entity) : Option Entity :=
  get ((controller game slot).getD noController).playerPawn entities

def teamNum (game : Game) (slot : Int) : Team := ((controller game slot).getD noController).team

def inputPawn (game : Game) (slot : Int) (entities : List Entity) : Option Entity :=
  get ((controller game slot).getD noController).pawn entities

end Game

section Filter

structure SlotState where
  pawnHidden : Bool
  controllerHidden : Bool

def SlotState.any (state : SlotState) : Bool := state.pawnHidden || state.controllerHidden

structure PrivateEntity where
  entity : EntityRef
  viewer : Int
  shownTo : Team
  hiddenFrom : Team
  index : Int
  deriving DecidableEq, Repr

structure Visibility where
  state : Int → SlotState
  privateEntities : List PrivateEntity

def unhidden : SlotState := ⟨false, false⟩

def slotChanged (slot : Int) (visibility : Visibility) : Visibility :=
  if isValidSlot slot then
    { visibility with
      state := Function.update visibility.state slot unhidden
      privateEntities := visibility.privateEntities.filter fun entry => entry.viewer ≠ slot }
  else visibility

def setPawnHidden (slot : Int) (hidden : Bool) (visibility : Visibility) : Visibility :=
  if isValidSlot slot then
    { visibility with
      state := Function.update visibility.state slot
        { visibility.state slot with pawnHidden := hidden } }
  else visibility

def setControllerHidden (slot : Int) (hidden : Bool) (visibility : Visibility) : Visibility :=
  if isValidSlot slot then
    { visibility with
      state := Function.update visibility.state slot
        { visibility.state slot with controllerHidden := hidden } }
  else visibility

def isPawnHidden (slot : Int) (visibility : Visibility) : Bool :=
  isValidSlot slot && (visibility.state slot).pawnHidden

/-- The first entry of the entity is replaced. -/
def replaced (entry : PrivateEntity) : List PrivateEntity → List PrivateEntity
  | [] => [entry]
  | first :: rest =>
      if first.entity = entry.entity then entry :: rest else first :: replaced entry rest

def setPrivate (entry : PrivateEntity) (visibility : Visibility) : Visibility :=
  { visibility with privateEntities := replaced entry visibility.privateEntities }

def showOnlyTo (entity : EntityRef) (slot : Int) (visibility : Visibility) : Visibility :=
  if isSet entity && isValidSlot slot then
    setPrivate ⟨entity, slot, .none, .none, -1⟩ visibility
  else visibility

def showOnlyToTeam (entity : EntityRef) (team : Team) (visibility : Visibility) : Visibility :=
  if isSet entity && isPlaying team then
    setPrivate ⟨entity, -1, team, .none, -1⟩ visibility
  else visibility

def hideFromTeam (entity : EntityRef) (team : Team) (visibility : Visibility) : Visibility :=
  if isSet entity && isPlaying team then
    setPrivate ⟨entity, -1, .none, team, -1⟩ visibility
  else visibility

def showToEveryone (entity : EntityRef) (visibility : Visibility) : Visibility :=
  { visibility with
    privateEntities := visibility.privateEntities.filter fun entry => entry.entity ≠ entity }

def hiddenFor (entry : PrivateEntity) (recipient : Int) (recipientTeam : Team) : Bool :=
  if 0 ≤ entry.viewer then entry.viewer ≠ recipient
  else if entry.shownTo ≠ .none then entry.shownTo ≠ recipientTeam
  else entry.hiddenFrom = recipientTeam

end Filter

section Pass

def maxIndicesPerPlayer : Nat := 24

/-- `transmitEntity` are the bits that are set. -/
structure CheckTransmitInfo where
  recipientSlot : UInt8
  transmitEntity : Option (List Nat)

def recipientOf (info : CheckTransmitInfo) : Int := info.recipientSlot.toNat

def clear (index : Int) (bits : List Nat) : List Nat := bits.filter fun bit => (bit : Int) ≠ index

structure HiddenPlayer where
  slot : Int
  controllerIndex : Int
  pawn : Option EntityRef
  pawnIndices : List Int

def addIndex (player : HiddenPlayer) (index : Int) : HiddenPlayer :=
  if 0 < index ∧ player.pawnIndices.length < maxIndicesPerPlayer then
    { player with pawnIndices := player.pawnIndices ++ [index] }
  else player

def addHandleVector (entities : List Entity) (player : HiddenPlayer)
    (handles : List EntityRef) : HiddenPlayer :=
  (handles.take maxIndicesPerPlayer).foldl
    (fun player handle => addIndex player (indexOf (get handle entities))) player

def observerTarget (game : Game) (recipientSlot : Int) (entities : List Entity) :
    Option EntityRef :=
  (get (fieldsOf game (inputPawn game recipientSlot entities)).observerTarget entities).map
    Entity.ref

def collectHiddenPlayer (game : Game) (entities : List Entity) (slot : Int) (state : SlotState) :
    HiddenPlayer :=
  match controller game slot with
  | none => ⟨slot, -1, none, []⟩
  | some found =>
      let player : HiddenPlayer :=
        ⟨slot, if state.controllerHidden then found.index else -1, none, []⟩
      if !state.pawnHidden then player else
      match pawn game slot entities with
      | none => player
      | some body =>
          let fields := fieldsOf game (some body)
          addHandleVector entities
            (addHandleVector entities
              (addIndex { player with pawn := some body.ref } body.index) fields.weapons)
            fields.wearables

def slots : List Int := (List.range maxPlayers).map Int.ofNat

def clearHidden (recipient : Int) (observed : Option EntityRef) (bits : List Nat)
    (player : HiddenPlayer) : List Nat :=
  if player.slot = recipient then bits else
  let bodiless :=
    if observed ≠ player.pawn then
      player.pawnIndices.foldl (fun bits index => clear index bits) bits
    else bits
  if 0 < player.controllerIndex then clear player.controllerIndex bodiless else bodiless

def clearPrivate (recipient : Int) (recipientTeam : Team) (bits : List Nat)
    (entry : PrivateEntity) : List Nat :=
  if hiddenFor entry recipient recipientTeam then clear entry.index bits else bits

def filterInfo (game : Game) (entities : List Entity) (hidden : List HiddenPlayer)
    (privateEntities : List PrivateEntity) (info : CheckTransmitInfo) : CheckTransmitInfo :=
  match info.transmitEntity with
  | none => info
  | some bits =>
      let recipient := recipientOf info
      let observed := if hidden = [] then none else observerTarget game recipient entities
      let visible := hidden.foldl (clearHidden recipient observed) bits
      { info with
        transmitEntity := some
          (privateEntities.foldl (clearPrivate recipient (teamNum game recipient)) visible) }

/-- Even unbound the entries whose entity is gone are dropped. -/
def resolveEntries (entities : List Entity) (privateEntities : List PrivateEntity) :
    List PrivateEntity :=
  (privateEntities.map fun entry => { entry with index := indexOf (get entry.entity entities) }).filter
    fun entry => 0 < entry.index

/-- `bound` is whether the recipient's slot can be read off an info. -/
def onCheckTransmit (bound : Bool) (game : Game) (entities : List Entity)
    (infoList : Option (List (Option CheckTransmitInfo))) (visibility : Visibility) :
    Visibility × Option (List (Option CheckTransmitInfo)) :=
  let resolved := { visibility with
    privateEntities := resolveEntries entities visibility.privateEntities }
  match infoList with
  | none => (resolved, none)
  | some infos =>
      let shown := slots.filter fun slot => (resolved.state slot).any
      if !bound || (resolved.privateEntities.isEmpty && shown.isEmpty) then
        (resolved, some infos)
      else
        let hidden := shown.map fun slot =>
          collectHiddenPlayer game entities slot (resolved.state slot)
        (resolved, some (infos.map (Option.map
          (filterInfo game entities hidden resolved.privateEntities))))

end Pass

end VoltMod.Hooks
