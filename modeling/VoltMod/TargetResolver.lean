import VoltMod.Players
import VoltMod.Targeting

/-! Commands/TargetResolver.cpp, and the binding of Commands/ArgBinding.cpp that may fall back to
an offline id. What the engine knows of a slot's controller and pawn is a parameter. -/
namespace VoltMod.TargetResolver
open MigrationText (Text)
open SteamIds Targeting Players

structure Entities where
  /-- Empty for a moment around connect, none before there is a controller. -/
  playerName : Int → Option Text
  teamNum : Int → Team
  isAlive : Int → Bool

structure Server where
  roster : Roster
  policy : Policy
  entities : Entities
  randomIndex : Nat → Nat

structure PlayerOrSteamId where
  online : Option Player
  steamId : Int
  deriving DecidableEq, Repr

/-- The reply key and its tokens, in the tokens' order. -/
structure ArgError where
  key : String
  vars : List (String × Text)
  deriving DecidableEq, Repr

def name (entities : Entities) (player : Player) : Text :=
  match entities.playerName player.slot with
  | some live => if live ≠ [] then live else player.connectName
  | none => player.connectName

/-- The console may target anyone. -/
def targetable (server : Server) (caller : Option Player) (player : Player) : Bool :=
  caller.elim true fun caller =>
    (authorize server.roster server.policy caller.ref (some player.ref) "").1.isOk

def view (server : Server) (caller : Option Player) (player : Player) : PlayerView where
  slot := player.slot
  steamId := player.steamId
  name := name server.entities player
  team := server.entities.teamNum player.slot
  alive := server.entities.isAlive player.slot
  bot := player.isBot
  targetable := targetable server caller player

def resolve (server : Server) (token : Text) (caller : Option Player) (rules : TargetRules) :
    Except TargetFailure (List Player) :=
  if token = [] then .error { error := .noMatch }
  else
    match filterPlayers (server.roster.all.map (view server caller)) (parseTargetToken token) rules
        (caller.elim (-1) Player.slot) (some server.randomIndex) with
    | .error failure => .error failure
    | .ok slots => .ok (slots.filterMap server.roster.get)

def targetKey (failure : TargetFailure) (token : Text) : ArgError :=
  match failure.error with
  | .immune => ⟨"target.immune", [("token", token)]⟩
  | .ambiguous | .multiNotAllowed =>
      ⟨"target.ambiguous", [("count", (toString failure.count).toList), ("token", token)]⟩
  | .deadNotAllowed => ⟨"target.dead", [("token", token)]⟩
  | .botNotAllowed => ⟨"target.bot", [("token", token)]⟩
  | .noMatch => ⟨"target.noMatch", [("token", token)]⟩

/-- `none` is the front of an empty answer, which the source reads without looking. -/
def bindPlayerOrSteamId (server : Server) (token : Text) (caller : Option Player) :
    Option (Except ArgError PlayerOrSteamId) :=
  match resolve server token caller {} with
  | .ok [] => none
  | .ok (player :: _) => some (.ok ⟨some player, player.steamId⟩)
  | .error failure =>
      if failure.error = .noMatch ∧ isNumeric token then
        match parseInt64 token with
        | some steamId => some (.ok ⟨none, steamId⟩)
        | none => some (.error (targetKey failure token))
      else some (.error (targetKey failure token))

variable {server : Server} {token : Text} {caller target : Player}

/-- A resolved token names somebody, and nobody the policy forbids the caller. -/
theorem resolve_ok (known : caller ∈ server.roster.all) {rules : TargetRules}
    {players : List Player} (resolved : resolve server token (some caller) rules = .ok players) :
    players ≠ [] ∧
      ∀ player ∈ players, player ∈ server.roster.all ∧ ¬Forbids server.policy caller player := by
  unfold resolve at resolved
  split at resolved
  · cases resolved
  · split at resolved
    · cases resolved
    · next slots filtered =>
        cases resolved
        obtain ⟨somebody, answer⟩ := filterPlayers_ok filtered
        have each : ∀ slot ∈ slots, ∃ player ∈ server.roster.all,
            server.roster.get slot = some player ∧ ¬Forbids server.policy caller player := by
          intro slot member
          obtain ⟨p, inside, rfl, targetable⟩ := answer slot member
          obtain ⟨player, connected, rfl⟩ := List.mem_map.mp inside
          exact ⟨player, connected, get_of_mem connected,
            (authorize_connected known connected).mp targetable⟩
        constructor
        · obtain ⟨slot, rest, rfl⟩ := List.exists_cons_of_ne_nil somebody
          obtain ⟨player, _, found, _⟩ := each slot List.mem_cons_self
          simp [found]
        · intro player member
          obtain ⟨slot, inside, found⟩ := List.mem_filterMap.mp member
          obtain ⟨other, connected, same, allowed⟩ := each slot inside
          cases found.symm.trans same
          exact ⟨connected, allowed⟩

theorem resolve_noMatch (spoken : token ≠ []) (caller : Option Player) (rules : TargetRules) :
    (∃ failure, resolve server token caller rules = .error failure ∧ failure.error = .noMatch) ↔
      collect (parseTargetToken token) (caller.elim (-1) Player.slot)
        (server.roster.all.map (view server caller)) = [] := by
  rw [← filterPlayers_noMatch rules (some server.randomIndex), resolve, if_neg spoken]
  split
  · next failure filtered => simp [filtered]
  · next slots filtered => simp [filtered]

/-- An offline answer is a number nobody online answers to. -/
theorem bind_offline_iff (caller : Option Player) (steamId : Int) :
    bindPlayerOrSteamId server token caller = some (.ok ⟨none, steamId⟩) ↔
      isNumeric token ∧ parseInt64 token = some steamId ∧
        collect (parseTargetToken token) (caller.elim (-1) Player.slot)
          (server.roster.all.map (view server caller)) = [] := by
  rw [bindPlayerOrSteamId]
  constructor
  · intro bound
    split at bound
    · cases bound
    · cases bound
    · next failure failed =>
        split at bound
        · next fallsBack =>
            have nobody := (resolve_noMatch (numeric_spoken fallsBack.2) caller {}).mp
              ⟨failure, failed, fallsBack.1⟩
            split at bound
            · next other parsed =>
                cases bound
                exact ⟨fallsBack.2, parsed, nobody⟩
            · cases bound
        · cases bound
  · rintro ⟨numeric, parsed, nobody⟩
    obtain ⟨failure, failed, noMatch⟩ :=
      (resolve_noMatch (numeric_spoken numeric) caller {}).mpr nobody
    simp [failed, noMatch, numeric, parsed]

/-- A number that is a connected player's id is offline only where it is no Steam id. -/
theorem nobody_online_iff (numeric : isNumeric token) (caller : Option Player)
    (connected : target ∈ server.roster.all)
    (spelled : parseInt64 token = some target.steamId) :
    collect (parseTargetToken token) (caller.elim (-1) Player.slot)
        (server.roster.all.map (view server caller)) = [] ↔
      isValid target.steamId = false ∧
        ∀ player ∈ server.roster.all,
          ¬toLower token <:+: toLower (name server.entities player) := by
  rw [numeric_query numeric spelled]
  cases valid : isValid target.steamId with
  | true =>
      rw [if_pos rfl, collect_steamId rfl]
      refine iff_of_false (fun nobody => ?_) nofun
      exact nobody (view server caller target) (List.mem_map_of_mem connected) rfl
  | false =>
      rw [if_neg Bool.false_ne_true, collect_name rfl, List.forall_mem_map]
      exact ⟨fun nobody => ⟨rfl, nobody⟩, And.right⟩

/-- Immunity is never got round by a token, but where a player's id is no Steam id the token that
spells it in digits binds it offline unless somebody's name has those digits. -/
theorem immunity_kept (known : caller ∈ server.roster.all) (token : Text) :
    (∀ target ∈ server.roster.all, target.isBot = false → Forbids server.policy caller target →
      (bindPlayerOrSteamId server token (some caller) = some (.ok ⟨none, target.steamId⟩) ↔
        isNumeric token ∧ parseInt64 token = some target.steamId ∧
          isValid target.steamId = false ∧
          ∀ player ∈ server.roster.all,
            ¬toLower token <:+: toLower (name server.entities player))) ∧
      ∀ rules players, resolve server token (some caller) rules = .ok players →
        players ≠ [] ∧
          ∀ player ∈ players, player ∈ server.roster.all ∧
            ¬Forbids server.policy caller player := by
  refine ⟨fun target connected _ _ => ?_, fun rules players => resolve_ok known⟩
  rw [bind_offline_iff]
  refine and_congr_right fun numeric => and_congr_right fun spelled => ?_
  exact nobody_online_iff numeric (some caller) connected spelled

/-- An admin and a player nobody may act on, whose id is the given one. -/
def duel (steamId : Int) : Server where
  roster := ⟨[⟨0, 76561197960287930, "Alice".toList⟩, ⟨1, steamId, "Bob".toList⟩], by simp⟩
  policy := ⟨none, some fun _ _ => false, false⟩
  entities := ⟨fun _ => none, fun _ => .ct, fun _ => true⟩
  randomIndex := fun _ => 0

theorem immunity_kept_valid :
    bindPlayerOrSteamId (duel 76561197960287931) "76561197960287931".toList
      (some ⟨0, 76561197960287930, "Alice".toList⟩) ≠ some (.ok ⟨none, 76561197960287931⟩) := by
  have known : (⟨0, 76561197960287930, "Alice".toList⟩ : Player) ∈
      (duel 76561197960287931).roster.all := List.mem_cons_self
  intro offline
  have invalid := ((immunity_kept known "76561197960287931".toList).1
    ⟨1, 76561197960287931, "Bob".toList⟩ (by simp [duel]) (by decide)
    ⟨by decide, _, rfl, rfl⟩).mp offline
  exact absurd invalid.2.2.1 (by decide)

theorem short_id_offline :
    ∃ caller ∈ (duel 12345).roster.all, ∃ target ∈ (duel 12345).roster.all,
      target.isBot = false ∧ Forbids (duel 12345).policy caller target ∧
        bindPlayerOrSteamId (duel 12345) "12345".toList (some caller) =
          some (.ok ⟨none, target.steamId⟩) := by
  refine ⟨⟨0, 76561197960287930, "Alice".toList⟩, List.mem_cons_self,
    ⟨1, 12345, "Bob".toList⟩, by simp [duel], rfl, ⟨by decide, _, rfl, rfl⟩, ?_⟩
  decide

end VoltMod.TargetResolver
