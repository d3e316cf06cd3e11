import VoltMod.Targeting

/-! Commands/Targeting.cpp: who a target query selects, stage by stage. A player is selected by
what they pass, not by how the candidates were collected, and the error names the stage that
left nobody. -/
namespace VoltMod.TargetSelection
open MigrationText (Text)
open Targeting

/-- How well a name answers to a needle, the best first. -/
inductive Tier where
  | exact | front | part
  deriving DecidableEq, Repr

def Tier.all : List Tier := [.exact, .front, .part]

def Tier.reaches (needle : Text) (p : PlayerView) : Tier → Bool
  | .exact => toLower p.name = needle
  | .front => needle.isPrefixOf (toLower p.name)
  | .part => needle <:+: toLower p.name

/-- The best tier that any player reaches. -/
def bestTier (needle : Text) (players : List PlayerView) : Option Tier :=
  Tier.all.find? fun tier => players.any (tier.reaches needle ·)

def answers (query : TargetQuery) (callerSlot : Int) (players : List PlayerView)
    (p : PlayerView) : Bool :=
  match query.kind with
  | .all | .random => true
  | .me => p.slot = callerSlot
  | .notMe => p.slot ≠ callerSlot
  | .team | .randomTeam => p.team = query.team
  | .dead => !p.alive
  | .alive => p.alive
  | .bots => p.bot
  | .humans => !p.bot
  | .slot => p.slot = query.slot
  | .steamId => p.steamId = query.steamId
  | .name => (bestTier query.needle players).any (·.reaches query.needle p)

inductive Stage where
  | matching | botRule | deadRule | immunity
  deriving DecidableEq, Repr

def Stage.error : Stage → TargetError
  | .matching => .noMatch
  | .botRule => .botNotAllowed
  | .deadRule => .deadNotAllowed
  | .immunity => .immune

def Stage.rank : Stage → Nat
  | .matching => 0
  | .botRule => 1
  | .deadRule => 2
  | .immunity => 3

/-- The stages up to one, itself included. -/
def Stage.upTo : Stage → List Stage
  | .matching => [.matching]
  | .botRule => [.matching, .botRule]
  | .deadRule => [.matching, .botRule, .deadRule]
  | .immunity => [.matching, .botRule, .deadRule, .immunity]

section Selection
variable (query : TargetQuery) (rules : TargetRules) (callerSlot : Int)
  (players : List PlayerView)

def passes (p : PlayerView) : Stage → Bool
  | .matching => answers query callerSlot players p
  | .botRule => rules.allowBots || !p.bot
  | .deadRule => rules.allowDead || p.alive
  | .immunity => p.targetable

/-- Who is left behind a stage, in roster order. -/
def left (stage : Stage) : List PlayerView :=
  players.filter fun p => stage.upTo.all (passes query rules callerSlot players p)

/-- The stage at which the set became empty. -/
def EmptiedAt (stage : Stage) : Prop :=
  left query rules callerSlot players stage = [] ∧
    ∀ earlier : Stage, earlier.rank < stage.rank →
      left query rules callerSlot players earlier ≠ []

end Selection

section Stages
variable {query : TargetQuery} {rules : TargetRules} {callerSlot : Int}
  {players candidates : List PlayerView}

theorem tier_name (needle : Text) (players : List PlayerView) (tiers : List Tier) :
    tier players (tiers.map fun level p => level.reaches needle p) =
      players.filter fun p =>
        (tiers.find? fun level => players.any (level.reaches needle ·)).any (·.reaches needle p) := by
  induction tiers with
  | nil => simp [tier]
  | cons level rest ih =>
      rw [List.map_cons, tier]
      cases somebody : players.any (level.reaches needle ·) with
      | false =>
          have nobody : players.filter (fun p => level.reaches needle p) = [] := by
            rw [List.filter_eq_nil_iff]
            simpa using somebody
          rw [if_pos nobody, ih, List.find?_cons_of_neg (by simp [somebody])]
      | true =>
          have reached : players.filter (fun p => level.reaches needle p) ≠ [] := by
            rw [Ne, List.filter_eq_nil_iff]
            simpa using somebody
          rw [if_neg reached, List.find?_cons, somebody]
          rfl

theorem tier_single (players : List PlayerView) (test : PlayerView → Bool) :
    tier players [test] = players.filter test := by
  rw [tier]
  split
  · next nobody => rw [nobody, tier]
  · rfl

theorem collect_answers (query : TargetQuery) (callerSlot : Int) (players : List PlayerView) :
    collect query callerSlot players = players.filter (answers query callerSlot players) := by
  obtain ⟨kind, team, slot, steamId, needle⟩ := query
  cases kind with
  | name => exact tier_name needle players Tier.all
  | _ => exact tier_single players _

theorem left_matching : left query rules callerSlot players .matching =
    collect query callerSlot players := by
  rw [collect_answers]
  exact List.filter_congr fun p _ => by simp [Stage.upTo, passes]

theorem left_next {before after : Stage} (next : after.upTo = before.upTo ++ [after]) :
    left query rules callerSlot players after =
      (left query rules callerSlot players before).filter fun p =>
        passes query rules callerSlot players p after := by
  rw [left, left, List.filter_filter, next]
  exact List.filter_congr fun p _ => by
    rw [List.all_append, Bool.and_comm, List.all_cons, List.all_nil, Bool.and_true]

theorem left_botRule : left query rules callerSlot players .botRule =
    (left query rules callerSlot players .matching).filter fun p => rules.allowBots || !p.bot :=
  left_next rfl

theorem left_deadRule : left query rules callerSlot players .deadRule =
    (left query rules callerSlot players .botRule).filter fun p => rules.allowDead || p.alive :=
  left_next rfl

theorem left_immunity : left query rules callerSlot players .immunity =
    (left query rules callerSlot players .deadRule).filter fun p => p.targetable :=
  left_next rfl

theorem unlessAllowed_filter {allow : Bool} {error : TargetError} {test keeps : PlayerView → Bool}
    (somebody : candidates ≠ []) (opposite : ∀ p, keeps p = (allow || !test p)) :
    unlessAllowed allow error test candidates =
      if candidates.filter keeps = [] then .error { error } else .ok (candidates.filter keeps) := by
  have kept : candidates.filter keeps = candidates.filter fun p => allow || !test p :=
    List.filter_congr fun p _ => opposite p
  rw [kept, unlessAllowed]
  cases allow with
  | true => simp [somebody]
  | false => simp [drop]

theorem permitted_left (somebody : left query rules callerSlot players .matching ≠ []) :
    permitted rules (left query rules callerSlot players .matching) =
      if left query rules callerSlot players .botRule = [] then .error { error := .botNotAllowed }
      else if left query rules callerSlot players .deadRule = [] then
        .error { error := .deadNotAllowed }
      else if left query rules callerSlot players .immunity = [] then .error { error := .immune }
      else .ok (left query rules callerSlot players .immunity) := by
  rw [permitted, unlessAllowed_filter somebody fun p => rfl, ← left_botRule]
  by_cases bots : left query rules callerSlot players .botRule = []
  · rw [if_pos bots, if_pos bots]
    rfl
  · rw [if_neg bots, if_neg bots]
    change (unlessAllowed _ _ _ (left query rules callerSlot players .botRule) >>= _) = _
    rw [unlessAllowed_filter bots fun p => by rw [Bool.not_not], ← left_deadRule]
    by_cases dead : left query rules callerSlot players .deadRule = []
    · rw [if_pos dead, if_pos dead]
      rfl
    · rw [if_neg dead, if_neg dead]
      change drop _ _ (left query rules callerSlot players .deadRule) = _
      have immune : (left query rules callerSlot players .deadRule).filter
          (fun p => !!p.targetable) = left query rules callerSlot players .immunity := by
        rw [left_immunity]
        exact List.filter_congr fun p _ => Bool.not_not _
      rw [drop, immune]

theorem emptied_nobody {stage : Stage}
    (emptied : EmptiedAt query rules callerSlot players stage) :
    left query rules callerSlot players .immunity = [] := by
  have nobody := emptied.1
  cases stage with
  | matching => rw [left_immunity, left_deadRule, left_botRule, nobody]; rfl
  | botRule => rw [left_immunity, left_deadRule, nobody]; rfl
  | deadRule => rw [left_immunity, nobody]; rfl
  | immunity => exact nobody

theorem emptied_once {stage other : Stage} (here : EmptiedAt query rules callerSlot players stage)
    (there : EmptiedAt query rules callerSlot players other) : stage = other := by
  rcases Nat.lt_trichotomy stage.rank other.rank with first | same | second
  · exact absurd here.1 (there.2 stage first)
  · revert same
    cases stage <;> cases other <;> simp [Stage.rank]
  · exact absurd there.1 (here.2 other second)

/-- Either a stage left nobody, which the error names, or the last one left somebody. -/
theorem filterPlayers_stages (players : List PlayerView) (query : TargetQuery)
    (rules : TargetRules) (callerSlot : Int) (randomIndex : Option (Nat → Nat)) :
    (∃ stage, EmptiedAt query rules callerSlot players stage ∧
      filterPlayers players query rules callerSlot randomIndex =
        .error { error := stage.error }) ∨
      left query rules callerSlot players .immunity ≠ [] ∧
        filterPlayers players query rules callerSlot randomIndex =
          (single query rules (pick query randomIndex
            (left query rules callerSlot players .immunity)) >>= fun chosen =>
              .ok (chosen.map PlayerView.slot)) := by
  have collected : collect query callerSlot players =
      left query rules callerSlot players .matching := left_matching.symm
  rw [filterPlayers, collected]
  by_cases matching : left query rules callerSlot players .matching = []
  · refine Or.inl ⟨.matching, ⟨matching, fun earlier before => ?_⟩, if_pos matching⟩
    cases earlier with
    | _ => exact absurd before (by decide)
  · rw [if_neg matching, permitted_left matching]
    by_cases bots : left query rules callerSlot players .botRule = []
    · rw [if_pos bots]
      refine Or.inl ⟨.botRule, ⟨bots, fun earlier before => ?_⟩, rfl⟩
      cases earlier with
      | matching => exact matching
      | _ => exact absurd before (by decide)
    · rw [if_neg bots]
      by_cases dead : left query rules callerSlot players .deadRule = []
      · rw [if_pos dead]
        refine Or.inl ⟨.deadRule, ⟨dead, fun earlier before => ?_⟩, rfl⟩
        cases earlier with
        | matching => exact matching
        | botRule => exact bots
        | _ => exact absurd before (by decide)
      · rw [if_neg dead]
        by_cases immune : left query rules callerSlot players .immunity = []
        · rw [if_pos immune]
          refine Or.inl ⟨.immunity, ⟨immune, fun earlier before => ?_⟩, rfl⟩
          cases earlier with
          | matching => exact matching
          | botRule => exact bots
          | deadRule => exact dead
          | immunity => exact absurd before (by decide)
        · rw [if_neg immune]
          exact Or.inr ⟨immune, rfl⟩

theorem single_few (few : candidates.length ≤ 1 ∨ rules.allowMultiple = true) :
    single query rules candidates = .ok candidates := by
  apply if_neg
  rintro ⟨many, refused⟩
  rcases few with one | allowed
  · omega
  · rw [allowed] at refused
    cases refused

theorem single_many (many : 1 < candidates.length) (refused : rules.allowMultiple = false) :
    single query rules candidates =
      .error { error := if query.kind = .name then .ambiguous else .multiNotAllowed,
               count := candidates.length } :=
  if_pos ⟨many, by rw [refused]; rfl⟩

theorem single_ok_iff {slots : List Int} :
    (single query rules candidates >>= fun chosen => .ok (chosen.map PlayerView.slot)) =
        .ok slots ↔
      (candidates.length ≤ 1 ∨ rules.allowMultiple = true) ∧
        slots = candidates.map PlayerView.slot := by
  by_cases few : candidates.length ≤ 1 ∨ rules.allowMultiple = true
  · rw [single_few few, and_iff_right few]
    constructor
    · rintro ⟨⟩
      rfl
    · rintro rfl
      rfl
  · obtain ⟨many, refused⟩ := not_or.mp few
    rw [single_many (Nat.not_le.mp many) (Bool.not_eq_true _ ▸ refused)]
    exact iff_of_false nofun fun kept => few kept.1

theorem single_error_iff {failure : TargetFailure} :
    (single query rules candidates >>= fun chosen => .ok (chosen.map PlayerView.slot)) =
        .error failure ↔
      1 < candidates.length ∧ rules.allowMultiple = false ∧
        failure = { error := if query.kind = .name then .ambiguous else .multiNotAllowed,
                    count := candidates.length } := by
  by_cases few : candidates.length ≤ 1 ∨ rules.allowMultiple = true
  · rw [single_few few]
    apply iff_of_false nofun
    rintro ⟨many, refused, _⟩
    rcases few with one | allowed
    · omega
    · exact Bool.noConfusion (allowed.symm.trans refused)
  · obtain ⟨many, refused⟩ := not_or.mp few
    rw [Nat.not_le] at many
    rw [Bool.not_eq_true] at refused
    rw [single_many many refused, and_iff_right many, and_iff_right refused]
    constructor
    · rintro ⟨⟩
      rfl
    · rintro rfl
      rfl

/-- A random query is cut to one of the players left, any other to none fewer. -/
theorem pick_left (randomIndex : Option (Nat → Nat)) (somebody : candidates ≠ []) :
    if query.kind = .random ∨ query.kind = .randomTeam then
      ∃ p ∈ candidates, pick query randomIndex candidates = [p]
    else pick query randomIndex candidates = candidates := by
  split
  · next random =>
      obtain ⟨picked, among⟩ := pick_some query randomIndex somebody
      revert picked among
      rw [pick, if_pos random]
      dsimp only
      cases candidates[randomIndex.elim 0 fun random =>
          random candidates.length % candidates.length]? with
      | none => exact fun picked => absurd rfl picked
      | some p => exact fun _ among => ⟨p, among List.mem_cons_self, rfl⟩
  · next settled => rw [pick, if_neg settled]

end Stages

/-- Who is selected and what fails, for every roster, query and random source. -/
theorem filterPlayers_selects (players : List PlayerView) (query : TargetQuery)
    (rules : TargetRules) (callerSlot : Int) (randomIndex : Option (Nat → Nat)) :
    let remaining := left query rules callerSlot players .immunity
    let chosen := pick query randomIndex remaining
    (remaining ≠ [] →
      if query.kind = .random ∨ query.kind = .randomTeam then ∃ p ∈ remaining, chosen = [p]
      else chosen = remaining) ∧
    (∀ slots, filterPlayers players query rules callerSlot randomIndex = .ok slots ↔
      remaining ≠ [] ∧ (chosen.length ≤ 1 ∨ rules.allowMultiple = true) ∧
        slots = chosen.map PlayerView.slot) ∧
    ∀ failure, filterPlayers players query rules callerSlot randomIndex = .error failure ↔
      (∃ stage, EmptiedAt query rules callerSlot players stage ∧
        failure = { error := stage.error }) ∨
      remaining ≠ [] ∧ 1 < chosen.length ∧ rules.allowMultiple = false ∧
        failure = { error := if query.kind = .name then .ambiguous else .multiNotAllowed,
                    count := chosen.length } := by
  intro remaining chosen
  constructor
  · exact pick_left randomIndex
  · rcases filterPlayers_stages players query rules callerSlot randomIndex with
      ⟨stage, emptied, ran⟩ | ⟨somebody, ran⟩
    · have nobody : remaining = [] := emptied_nobody emptied
      rw [ran]
      constructor
      · intro slots
        exact iff_of_false nofun fun chosen => chosen.1 nobody
      · intro failure
        constructor
        · rintro ⟨⟩
          exact Or.inl ⟨stage, emptied, rfl⟩
        · rintro (⟨other, also, rfl⟩ | many)
          · rw [emptied_once emptied also]
          · exact absurd nobody many.1
    · rw [ran]
      constructor
      · intro slots
        rw [single_ok_iff]
        exact (and_iff_right somebody).symm
      · intro failure
        rw [single_error_iff]
        constructor
        · intro many
          exact Or.inr ⟨somebody, many⟩
        · rintro (⟨stage, emptied, _⟩ | ⟨_, many⟩)
          · exact absurd (emptied_nobody emptied) somebody
          · exact many

end VoltMod.TargetSelection
