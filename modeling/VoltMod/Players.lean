import VoltMod.MigrationText

/-! Players/Policy.cpp: the one gate a caller's permission and a target's immunity pass, over the
lookups of Players/PlayerManager.cpp. What a plugin installs is asked by Steam id. -/
namespace VoltMod.Players
open MigrationText (Text)

structure PlayerRef where
  slot : Int
  steamId : Int
  deriving DecidableEq, Repr

structure Player where
  slot : Int
  steamId : Int
  connectName : Text
  deriving DecidableEq, Repr

/-- Bots connect without a Steam id. -/
def Player.isBot (player : Player) : Bool := player.steamId = 0

def Player.ref (player : Player) : PlayerRef := ⟨player.slot, player.steamId⟩

/-- Every connected player, in slot order; a slot holds one. -/
structure Roster where
  all : List Player
  ordered : all.Pairwise fun earlier later => earlier.slot < later.slot

def Roster.get (roster : Roster) (slot : Int) : Option Player :=
  roster.all.find? fun player => player.slot = slot

def Roster.getRef (roster : Roster) (ref : PlayerRef) : Option Player :=
  (roster.get ref.slot).filter fun player => player.steamId = ref.steamId

structure Policy where
  hasPermission : Option (Int → String → Bool)
  canTarget : Option (Int → Int → Bool)
  missingPermissionWarned : Bool

structure Authorized where
  caller : Player
  target : Option Player
  deriving DecidableEq, Repr

/-- With the policy as the check leaves it: a missing `hasPermission` is logged once. -/
def checkPermission (policy : Policy) (caller : Player) (permission : String) : Status × Policy :=
  if permission = "" then (.ok (), policy)
  else
    match policy.hasPermission with
    | none =>
        (.error (.denied "cmd.noPermission"), { policy with missingPermissionWarned := true })
    | some hasPermission =>
        if hasPermission caller.steamId permission then (.ok (), policy)
        else (.error (.denied "cmd.noPermission"), policy)

def checkImmunity (policy : Policy) (caller : Player) (targetSteamId : Int) : Status :=
  if targetSteamId = caller.steamId then .ok ()
  else
    match policy.canTarget with
    | none => .ok ()
    | some canTarget =>
        if canTarget caller.steamId targetSteamId then .ok () else .error (.immune "target.immune")

/-- A target that was asked for and is not connected is an error, no target is none. -/
def findTarget (roster : Roster) : Option PlayerRef → Result (Option Player)
  | none => .ok none
  | some target =>
      match roster.getRef target with
      | some player => .ok (some player)
      | none => .error ⟨.notFound, "target is not connected", "target.noMatch", ""⟩

def authorize (roster : Roster) (policy : Policy) (caller : PlayerRef) (target : Option PlayerRef)
    (permission : String) : Result Authorized × Policy :=
  match roster.getRef caller with
  | none => (.error (.notFound "caller is not connected"), policy)
  | some callerPlayer =>
      match findTarget roster target with
      | .error missing => (.error missing, policy)
      | .ok targetPlayer =>
          match checkPermission policy callerPlayer permission with
          | (.error refused, policy) => (.error refused, policy)
          | (.ok (), policy) =>
              match targetPlayer.elim (.ok ()) fun player =>
                checkImmunity policy callerPlayer player.steamId with
              | .error refused => (.error refused, policy)
              | .ok () => (.ok ⟨callerPlayer, targetPlayer⟩, policy)

/-- What a plugin installed says no to; nobody is kept from themselves. -/
def Forbids (policy : Policy) (caller target : Player) : Prop :=
  target.steamId ≠ caller.steamId ∧
    ∃ canTarget, policy.canTarget = some canTarget ∧
      canTarget caller.steamId target.steamId = false

variable {roster : Roster} {policy : Policy} {caller target player : Player}

theorem get_of_mem (member : player ∈ roster.all) : roster.get player.slot = some player := by
  obtain ⟨all, ordered⟩ := roster
  simp only [Roster.get] at member ⊢
  induction ordered with
  | nil => cases member
  | @cons first rest before _ ih =>
      rw [List.find?_cons]
      rcases List.mem_cons.mp member with rfl | later
      · simp
      · have apart : first.slot ≠ player.slot := Int.ne_of_lt (before player later)
        simpa [apart] using ih later

theorem getRef_of_mem (member : player ∈ roster.all) : roster.getRef player.ref = some player := by
  rw [Roster.getRef, Player.ref, get_of_mem member]
  simp

theorem checkImmunity_ok_iff : checkImmunity policy caller target.steamId = .ok () ↔
    ¬Forbids policy caller target := by
  unfold checkImmunity Forbids
  split
  · next same => exact iff_of_true rfl fun forbids => forbids.1 same
  · next different =>
      cases policy.canTarget with
      | none => simp
      | some canTarget =>
          cases verdict : canTarget caller.steamId target.steamId with
          | true => simp [verdict]
          | false => simp [verdict, different]

/-- Between connected players, with no permission asked for, the gate is the immunity check. -/
theorem authorize_connected (known : caller ∈ roster.all) (connected : target ∈ roster.all) :
    (authorize roster policy caller.ref (some target.ref) "").1.isOk ↔
      ¬Forbids policy caller target := by
  rw [← checkImmunity_ok_iff]
  simp only [authorize, getRef_of_mem known, findTarget, getRef_of_mem connected,
    checkPermission, if_true, Option.elim]
  cases checkImmunity policy caller target.steamId with
  | ok _ => simp [Except.isOk, Except.toBool]
  | error refused => simp [Except.isOk, Except.toBool]

end VoltMod.Players
