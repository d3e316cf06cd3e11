import VoltMod.SteamIds
import Mathlib.Algebra.Group.Int.Defs
import Mathlib.Data.List.Infix

/-! Commands/Targeting.cpp: what a target token asks for and which players answer to it.
Everything a player is asked about is in their view, the policy's verdict included. -/
namespace VoltMod.Targeting
open MigrationText (Text digit)
open SteamIds

inductive Team where
  | none | spectator | t | ct
  deriving DecidableEq, Repr

structure TargetRules where
  allowMultiple : Bool := false
  allowDead : Bool := true
  allowBots : Bool := true
  deriving DecidableEq, Repr

inductive TargetError where
  | noMatch | immune | ambiguous | multiNotAllowed | deadNotAllowed | botNotAllowed
  deriving DecidableEq, Repr

structure TargetFailure where
  error : TargetError := .noMatch
  count : Nat := 0
  deriving DecidableEq, Repr

inductive TargetKind where
  | all | me | notMe | team | dead | alive | bots | humans | random | randomTeam
  | slot | steamId | name
  deriving DecidableEq, Repr

structure TargetQuery where
  kind : TargetKind := .name
  team : Team := .none
  slot : Int := -1
  steamId : Int := 0
  needle : Text := []
  deriving DecidableEq, Repr

structure PlayerView where
  slot : Int
  steamId : Int
  name : Text
  team : Team
  alive : Bool
  bot : Bool
  targetable : Bool
  deriving DecidableEq, Repr

def toLower (text : Text) : Text := text.map Char.toLower

def selector (lower : Text) : Option TargetQuery :=
  if lower = "@all".toList ∨ lower = "@*".toList then some { kind := .all }
  else if lower = "@me".toList then some { kind := .me }
  else if lower = "@!me".toList then some { kind := .notMe }
  else if lower = "@t".toList then some { kind := .team, team := .t }
  else if lower = "@ct".toList then some { kind := .team, team := .ct }
  else if lower = "@spec".toList then some { kind := .team, team := .spectator }
  else if lower = "@dead".toList then some { kind := .dead }
  else if lower = "@alive".toList then some { kind := .alive }
  else if lower = "@bot".toList ∨ lower = "@bots".toList then some { kind := .bots }
  else if lower = "@human".toList ∨ lower = "@humans".toList then some { kind := .humans }
  else if lower = "@random".toList then some { kind := .random }
  else if lower = "@randomt".toList then some { kind := .randomTeam, team := .t }
  else if lower = "@randomct".toList then some { kind := .randomTeam, team := .ct }
  else none

/-- A slot past the range of an `int` is no slot. -/
def slotToken (raw : Text) : Option Int :=
  if 1 < raw.length ∧ raw.head? = some '#' then
    (parseInt64 raw.tail).filter fun slot => slot < 2 ^ 31 ∧ 0 ≤ slot
  else none

def steamIdToken (raw : Text) : Option Int :=
  ((if 15 ≤ raw.length then (parseInt64 raw).filter isValid else none).or
    (if "[U:1:".toList.isPrefixOf raw then fromSteamId3 raw else none)).or
    (if "STEAM_".toList.isPrefixOf raw then fromSteamId raw else none)

def parseTargetToken (token : Text) : TargetQuery :=
  match selector (toLower token), slotToken token, steamIdToken token with
  | some query, _, _ => query
  | none, some slot, _ => { kind := .slot, slot }
  | none, none, some steamId => { kind := .steamId, steamId }
  | none, none, none => { kind := .name, needle := toLower token }

/-- What is collected: a name's exact owners, else by its front, else by a part of it. -/
def tests (query : TargetQuery) (callerSlot : Int) : List (PlayerView → Bool) :=
  match query.kind with
  | .all | .random => [fun _ => true]
  | .me => [fun p => p.slot = callerSlot]
  | .notMe => [fun p => p.slot ≠ callerSlot]
  | .team | .randomTeam => [fun p => p.team = query.team]
  | .dead => [fun p => !p.alive]
  | .alive => [fun p => p.alive]
  | .bots => [fun p => p.bot]
  | .humans => [fun p => !p.bot]
  | .slot => [fun p => p.slot = query.slot]
  | .steamId => [fun p => p.steamId = query.steamId]
  | .name =>
      [fun p => toLower p.name = query.needle,
        fun p => query.needle.isPrefixOf (toLower p.name),
        fun p => query.needle <:+: toLower p.name]

/-- Whoever passes the first test that anybody passes. -/
def tier (players : List PlayerView) : List (PlayerView → Bool) → List PlayerView
  | [] => []
  | test :: rest => if players.filter test = [] then tier players rest else players.filter test

def collect (query : TargetQuery) (callerSlot : Int) (players : List PlayerView) :
    List PlayerView :=
  tier players (tests query callerSlot)

/-- What is left of the candidates, an error where it is nobody. -/
def drop (error : TargetError) (test : PlayerView → Bool) (candidates : List PlayerView) :
    Except TargetFailure (List PlayerView) :=
  let kept := candidates.filter fun p => !test p
  if kept = [] then .error { error } else .ok kept

def unlessAllowed (allow : Bool) (error : TargetError) (test : PlayerView → Bool)
    (candidates : List PlayerView) : Except TargetFailure (List PlayerView) :=
  if allow then .ok candidates else drop error test candidates

/-- Immunity is reported only when none remain. -/
def permitted (rules : TargetRules) (candidates : List PlayerView) :
    Except TargetFailure (List PlayerView) :=
  unlessAllowed rules.allowBots .botNotAllowed (fun p => p.bot) candidates >>=
    unlessAllowed rules.allowDead .deadNotAllowed (fun p => !p.alive) >>=
    drop .immune fun p => !p.targetable

def pick (query : TargetQuery) (randomIndex : Option (Nat → Nat)) (candidates : List PlayerView) :
    List PlayerView :=
  if query.kind = .random ∨ query.kind = .randomTeam then
    let index := randomIndex.elim 0 fun random => random candidates.length % candidates.length
    candidates[index]?.toList
  else candidates

def single (query : TargetQuery) (rules : TargetRules) (candidates : List PlayerView) :
    Except TargetFailure (List PlayerView) :=
  if 1 < candidates.length ∧ !rules.allowMultiple then
    let error := if query.kind = .name then TargetError.ambiguous else .multiNotAllowed
    .error { error, count := candidates.length }
  else .ok candidates

def filterPlayers (players : List PlayerView) (query : TargetQuery) (rules : TargetRules)
    (callerSlot : Int) (randomIndex : Option (Nat → Nat)) : Except TargetFailure (List Int) :=
  let candidates := collect query callerSlot players
  if candidates = [] then .error { error := .noMatch }
  else permitted rules candidates >>= fun candidates =>
    single query rules (pick query randomIndex candidates) >>= fun candidates =>
      .ok (candidates.map PlayerView.slot)

section Collect
variable {query : TargetQuery} {players : List PlayerView}

theorem tier_subset (tests : List (PlayerView → Bool)) : tier players tests ⊆ players := by
  induction tests with
  | nil => exact List.nil_subset players
  | cons test rest ih =>
      rw [tier]
      split
      · exact ih
      · exact List.filter_sublist.subset

theorem tier_nil (tests : List (PlayerView → Bool)) :
    tier players tests = [] ↔ ∀ test ∈ tests, ∀ p ∈ players, ¬test p := by
  induction tests with
  | nil => simp [tier]
  | cons test rest ih =>
      rw [tier, List.forall_mem_cons]
      split
      · next nobody =>
          rw [ih]
          exact ⟨fun later => ⟨List.filter_eq_nil_iff.mp nobody, later⟩, And.right⟩
      · next somebody =>
          exact iff_of_false somebody fun passed =>
            somebody (List.filter_eq_nil_iff.mpr passed.1)

theorem collect_steamId (asked : query.kind = .steamId) (callerSlot : Int) :
    collect query callerSlot players = [] ↔ ∀ p ∈ players, p.steamId ≠ query.steamId := by
  simp [collect, tier_nil, tests, asked]

/-- Who owns a name, or has it in front, has it as a part. -/
theorem collect_name (asked : query.kind = .name) (callerSlot : Int) :
    collect query callerSlot players = [] ↔
      ∀ p ∈ players, ¬query.needle <:+: toLower p.name := by
  simp only [collect, tier_nil, tests, asked, List.forall_mem_cons, decide_eq_true_eq,
    List.isPrefixOf_iff_prefix]
  constructor
  · exact fun nobody => nobody.2.2.1
  · intro nobody
    exact ⟨fun p member same => nobody p member (same ▸ List.infix_rfl),
      fun p member front => nobody p member front.isInfix, nobody, nofun⟩

end Collect

section Filter
variable {query : TargetQuery} {rules : TargetRules} {players candidates kept : List PlayerView}

theorem bind_error {Value Next : Type} {first : Except TargetFailure Value}
    {next : Value → Except TargetFailure Next} {failure : TargetFailure}
    (failed : (first >>= next) = .error failure) :
    first = .error failure ∨ ∃ value, next value = .error failure := by
  cases first with
  | error other =>
      cases failed
      exact Or.inl rfl
  | ok value => exact Or.inr ⟨value, failed⟩

theorem drop_ok {error : TargetError} {test : PlayerView → Bool}
    (ran : drop error test candidates = .ok kept) :
    kept ≠ [] ∧ ∀ p ∈ kept, p ∈ candidates ∧ test p = false := by
  simp only [drop] at ran
  split at ran
  · cases ran
  · next somebody =>
      cases ran
      refine ⟨somebody, fun p member => ?_⟩
      obtain ⟨inside, passed⟩ := List.mem_filter.mp member
      exact ⟨inside, by simpa using passed⟩

theorem drop_error {error : TargetError} {test : PlayerView → Bool} {failure : TargetFailure}
    (failed : drop error test candidates = .error failure) : failure.error = error := by
  simp only [drop] at failed
  split at failed
  · cases failed
    rfl
  · cases failed

theorem unlessAllowed_ok {allow : Bool} {error : TargetError} {test : PlayerView → Bool}
    (ran : unlessAllowed allow error test candidates = .ok kept) : kept ⊆ candidates := by
  unfold unlessAllowed at ran
  split at ran
  · cases ran
    exact List.Subset.refl _
  · exact fun p member => ((drop_ok ran).2 p member).1

theorem unlessAllowed_error {allow : Bool} {error : TargetError} {test : PlayerView → Bool}
    {failure : TargetFailure}
    (failed : unlessAllowed allow error test candidates = .error failure) :
    failure.error = error := by
  unfold unlessAllowed at failed
  split at failed
  · cases failed
  · exact drop_error failed

theorem permitted_ok (ran : permitted rules candidates = .ok kept) :
    kept ≠ [] ∧ ∀ p ∈ kept, p ∈ candidates ∧ p.targetable = true := by
  simp only [permitted, bind_ok_iff] at ran
  obtain ⟨living, ⟨humans, first, second⟩, last⟩ := ran
  obtain ⟨somebody, passed⟩ := drop_ok last
  refine ⟨somebody, fun p member => ?_⟩
  obtain ⟨inside, targetable⟩ := passed p member
  exact ⟨unlessAllowed_ok first (unlessAllowed_ok second inside), by simpa using targetable⟩

theorem permitted_error {failure : TargetFailure}
    (failed : permitted rules candidates = .error failure) : failure.error ≠ .noMatch := by
  rcases bind_error failed with early | ⟨living, last⟩
  · rcases bind_error early with first | ⟨humans, second⟩
    · rw [unlessAllowed_error first]
      decide
    · rw [unlessAllowed_error second]
      decide
  · rw [drop_error last]
    decide

/-- A random pick is one of the candidates there are. -/
theorem pick_some (query : TargetQuery) (randomIndex : Option (Nat → Nat)) (somebody : candidates ≠ []) :
    pick query randomIndex candidates ≠ [] ∧ pick query randomIndex candidates ⊆ candidates := by
  have many : 0 < candidates.length := List.length_pos_iff.mpr somebody
  have inside : (randomIndex.elim 0 fun random => random candidates.length % candidates.length) <
      candidates.length := by
    cases randomIndex with
    | none => exact many
    | some random => exact Nat.mod_lt _ many
  unfold pick
  split
  · simp only [List.getElem?_eq_getElem inside, Option.toList_some]
    exact ⟨List.cons_ne_nil _ _, by simp⟩
  · exact ⟨somebody, List.Subset.refl _⟩

theorem single_ok (ran : single query rules candidates = .ok kept) : kept = candidates := by
  simp only [single] at ran
  split at ran
  · cases ran
  · cases ran
    rfl

theorem single_error {failure : TargetFailure}
    (failed : single query rules candidates = .error failure) : failure.error ≠ .noMatch := by
  simp only [single] at failed
  split at failed
  · cases failed
    split
    · exact TargetError.noConfusion
    · exact TargetError.noConfusion
  · cases failed

variable {callerSlot : Int} {randomIndex : Option (Nat → Nat)}

/-- An answer names somebody, and only players who answer to the query and may be acted on. -/
theorem filterPlayers_ok {slots : List Int}
    (ran : filterPlayers players query rules callerSlot randomIndex = .ok slots) :
    slots ≠ [] ∧ ∀ slot ∈ slots, ∃ p ∈ players, p.slot = slot ∧ p.targetable = true := by
  simp only [filterPlayers] at ran
  split at ran
  · cases ran
  · simp only [bind_ok_iff] at ran
    obtain ⟨fewer, first, chosen, second, last⟩ := ran
    cases last
    obtain ⟨somebody, passed⟩ := permitted_ok first
    obtain ⟨picked, among⟩ := pick_some query randomIndex somebody
    rw [← single_ok second] at picked among
    refine ⟨by simpa using picked, fun slot member => ?_⟩
    obtain ⟨p, taken, rfl⟩ := List.mem_map.mp member
    obtain ⟨inside, targetable⟩ := passed p (among taken)
    exact ⟨p, tier_subset _ inside, rfl, targetable⟩

/-- Nobody answers to the query exactly where the failure says so. -/
theorem filterPlayers_noMatch (rules : TargetRules) (randomIndex : Option (Nat → Nat)) :
    (∃ failure, filterPlayers players query rules callerSlot randomIndex = .error failure ∧
      failure.error = .noMatch) ↔ collect query callerSlot players = [] := by
  simp only [filterPlayers]
  split
  · next nobody => exact iff_of_true ⟨_, rfl, rfl⟩ nobody
  · next somebody =>
      refine iff_of_false ?_ somebody
      rintro ⟨failure, failed, noMatch⟩
      rcases bind_error failed with first | ⟨fewer, later⟩
      · exact permitted_error first noMatch
      · rcases bind_error later with second | ⟨chosen, last⟩
        · exact single_error second noMatch
        · cases last

end Filter

section Token
variable {token : Text}

theorem digit_apart {c : Char} (other : Char) (isDigit : digit c) (apart : digit other = false) :
    c ≠ other := by
  rintro rfl
  rw [apart] at isDigit
  cases isDigit

theorem digit_lower {c : Char} (isDigit : digit c) : c.toLower = c := by
  simp only [digit, Bool.and_eq_true, decide_eq_true_eq] at isDigit
  have high : c.val ≤ '9'.val := isDigit.2
  exact dif_neg fun upper => absurd (UInt32.le_trans upper.1 high) (by decide)

theorem selector_none {c : Char} (plain : c ≠ '@') (rest : Text) : selector (c :: rest) = none := by
  simp [selector, plain]

/-- A number is a Steam id where it is a valid one, and a name otherwise. -/
theorem numeric_query (numeric : isNumeric token) {steamId : Int}
    (parsed : parseInt64 token = some steamId) :
    parseTargetToken token =
      if isValid steamId then { kind := .steamId, steamId }
      else { kind := .name, needle := toLower token } := by
  obtain ⟨c, rest, rfl, isDigit⟩ := numeric_cons numeric
  have noSelector : selector (toLower (c :: rest)) = none := by
    rw [toLower, List.map_cons, digit_lower isDigit]
    exact selector_none (digit_apart _ isDigit rfl) _
  have noSlot : slotToken (c :: rest) = none := by
    simp [slotToken, digit_apart '#' isDigit rfl]
  have ids : steamIdToken (c :: rest) =
      if 15 ≤ (c :: rest).length then (some steamId).filter isValid else none := by
    simp [steamIdToken, parsed, (digit_apart '[' isDigit rfl).symm,
      (digit_apart 'S' isDigit rfl).symm]
  rw [parseTargetToken, noSelector, noSlot, ids, Option.filter_some]
  cases valid : isValid steamId with
  | true => rw [if_pos (valid_length numeric parsed valid), if_pos rfl, if_pos rfl]
  | false =>
      rw [if_neg Bool.false_ne_true, ite_self]
      rfl

end Token

end VoltMod.Targeting
