import VoltMod.DownloadQueue
import VoltMod.Durations

/-! Commands/Args.hpp and Commands/ArgBinding.cpp: a handler's parameter list is the description
its tokens are bound by, and the bound values are unpacked into that list again. -/
namespace VoltMod.ArgBinding
open MigrationText (Text)
open DownloadQueue (parseUInt64)
open SteamIds (isNumeric parseInt64)
open Targeting (TargetRules)
open Players (Player)
open TargetResolver
open Durations

inductive ArgKind where
  | target | targets | duration | steamId | playerOrSteamId | int | u64 | word | rest
  deriving DecidableEq, Repr

structure ArgDesc where
  kind : ArgKind
  optional : Bool
  deriving DecidableEq, Repr

/-- What an argument of a kind holds; a duration is in seconds. -/
def Value : ArgKind → Type
  | .target => Player
  | .targets => List Player
  | .duration | .steamId | .int => Int
  | .playerOrSteamId => PlayerOrSteamId
  | .u64 => Nat
  | .word | .rest => Text

/-- The variant over the kinds; `monostate` is an optional argument the caller left out. -/
inductive BoundArg where
  | monostate
  | of (kind : ArgKind) (value : Value kind)

def BoundArg.kind : BoundArg → Option ArgKind
  | .monostate => none
  | .of kind _ => some kind

/-- What the handler's parameter is: an optional one may be missing. -/
def Parameter : ArgDesc → Type
  | ⟨kind, false⟩ => Value kind
  | ⟨kind, true⟩ => Option (Value kind)

def Parameters : List ArgDesc → Type
  | [] => Unit
  | arg :: rest => Parameter arg × Parameters rest

def optionalsTrail (seen : Bool) : List ArgDesc → Bool
  | [] => true
  | arg :: rest =>
      if arg.optional then optionalsTrail true rest
      else if seen then false
      else optionalsTrail seen rest

def restIsLast : List ArgDesc → Bool
  | arg :: next :: rest => if arg.kind = .rest then false else restIsLast (next :: rest)
  | _ => true

/-- A parameter list the builder accepts. -/
structure Signature where
  args : List ArgDesc
  optionals : optionalsTrail false args = true
  rest : restIsLast args = true

/-- `std::get`, which throws where the variant holds another alternative. -/
def get (kind : ArgKind) : BoundArg → Option (Value kind)
  | .monostate => none
  | .of held value => if same : held = kind then some (same ▸ value) else none

def unpackOne (arg : ArgDesc) (bound : BoundArg) : Option (Parameter arg) :=
  match arg with
  | ⟨kind, false⟩ => get kind bound
  | ⟨kind, true⟩ =>
      match bound with
      | .monostate => some (none : Option (Value kind))
      | bound => (get kind bound).map some

/-- One `std::get` for each argument; none where one throws or the values run out. -/
def unpack : (args : List ArgDesc) → List BoundArg → Option (Parameters args)
  | [], _ => some ()
  | _ :: _, [] => none
  | arg :: rest, bound :: more =>
      match unpackOne arg bound, unpack rest more with
      | some first, some others => some (first, others)
      | _, _ => none

def keyed (key : String) (token : Text) : ArgError := ⟨key, [("token", token)]⟩

def bindTarget (server : Server) (token : Text) (caller : Option Player) :
    Option (Except ArgError Player) :=
  match resolve server token caller {} with
  | .ok [] => none
  | .ok (player :: _) => some (.ok player)
  | .error failure => some (.error (targetKey failure token))

def bindTargets (server : Server) (token : Text) (caller : Option Player) :
    Except ArgError (List Player) :=
  match resolve server token caller { allowMultiple := true } with
  | .ok players => .ok players
  | .error failure => .error (targetKey failure token)

def bindSteamId (token : Text) : Except ArgError Int :=
  match parseInt64 token with
  | some steamId => if isNumeric token then .ok steamId else .error (keyed "cmd.badSteamId" token)
  | none => .error (keyed "cmd.badSteamId" token)

def bindInt (token : Text) : Except ArgError Int :=
  match parseInt64 token with
  | some value =>
      if -intMax - 1 ≤ value ∧ value ≤ intMax then .ok value
      else .error (keyed "cmd.badNumber" token)
  | none => .error (keyed "cmd.badNumber" token)

def bindU64 (token : Text) : Except ArgError Nat :=
  match parseUInt64 token with
  | some value => .ok value
  | none => .error (keyed "cmd.badNumber" token)

/-- A token to what its argument holds; a `Rest` takes those behind it too. The outer `none` is as
in `bindPlayerOrSteamId`. -/
def bindToken (server : Server) (caller : Option Player) :
    (kind : ArgKind) → Text → List Text → Option (Except ArgError (Value kind))
  | .target, token, _ => bindTarget server token caller
  | .targets, token, _ => some (bindTargets server token caller)
  | .playerOrSteamId, token, _ => bindPlayerOrSteamId server token caller
  | .duration, token, _ => some (bindDuration token)
  | .steamId, token, _ => some (bindSteamId token)
  | .int, token, _ => some (bindInt token)
  | .u64, token, _ => some (bindU64 token)
  | .word, token, _ => some (.ok token)
  | .rest, token, more => some (.ok ([' '].intercalate (token :: more)))

def bindArgs (server : Server) (caller : Option Player) :
    List ArgDesc → List Text → Option (Except ArgError (List BoundArg))
  | [], _ => some (.ok [])
  | _ :: rest, [] => (bindArgs server caller rest []).map fun bound => bound.map (.monostate :: ·)
  | arg :: rest, token :: more =>
      match bindToken server caller arg.kind token more with
      | none => none
      | some (.error failed) => some (.error failed)
      | some (.ok value) =>
          (bindArgs server caller rest (if arg.kind = .rest then [] else more)).map fun bound =>
            bound.map (.of arg.kind value :: ·)

def requiredArgs (args : List ArgDesc) : Nat := args.countP fun arg => !arg.optional

def hasRest (args : List ArgDesc) : Bool := args.any fun arg => arg.kind = .rest

/-- Every token binds to the argument it stands at. -/
def AllBind (server : Server) (caller : Option Player) (args : List ArgDesc)
    (tokens : List Text) : Prop :=
  ∀ (index : Nat) arg token, args[index]? = some arg → tokens[index]? = some token →
    ∃ value, bindToken server caller arg.kind token (tokens.drop (index + 1)) = some (.ok value)

/-- One value an argument, of the kind it declares; only a missing optional one has none. -/
structure Typed (args : List ArgDesc) (tokens : List Text) (bound : List BoundArg) : Prop where
  length : bound.length = args.length
  each : ∀ (index : Nat) arg value, args[index]? = some arg → bound[index]? = some value →
    value.kind = some arg.kind ∨
      value = .monostate ∧ arg.optional = true ∧ tokens.length ≤ index

section Binding
variable {server : Server} {caller : Option Player} {args rest : List ArgDesc}
  {arg : ArgDesc} {tokens more : List Text} {token : Text} {bound : List BoundArg}

/-- A token that resolves names somebody, whoever asks. -/
theorem resolve_somebody {rules : TargetRules} {players : List Player}
    (resolved : resolve server token caller rules = .ok players) : players ≠ [] := by
  unfold resolve at resolved
  split at resolved
  · cases resolved
  · split at resolved
    · cases resolved
    · next slots filtered =>
        cases resolved
        obtain ⟨somebody, answer⟩ := Targeting.filterPlayers_ok filtered
        obtain ⟨slot, others, rfl⟩ := List.exists_cons_of_ne_nil somebody
        obtain ⟨p, inside, rfl, _⟩ := answer slot List.mem_cons_self
        obtain ⟨player, connected, rfl⟩ := List.mem_map.mp inside
        have found : server.roster.get player.slot = some player := Players.get_of_mem connected
        simp [view, found]

theorem bindToken_some (server : Server) (caller : Option Player) (kind : ArgKind) (token : Text)
    (more : List Text) : bindToken server caller kind token more ≠ none := by
  cases kind with
  | target =>
      simp only [bindToken, bindTarget]
      split
      · next resolved => exact absurd rfl (resolve_somebody resolved)
      · nofun
      · nofun
  | playerOrSteamId =>
      simp only [bindToken, bindPlayerOrSteamId]
      split
      · next resolved => exact absurd rfl (resolve_somebody resolved)
      · nofun
      · split
        · split <;> nofun
        · nofun
  | targets => nofun
  | duration => nofun
  | steamId => nofun
  | int => nofun
  | u64 => nofun
  | word => nofun
  | rest => nofun

theorem rest_alone (last : restIsLast (arg :: rest) = true) (isRest : arg.kind = .rest) :
    rest = [] := by
  cases rest with
  | nil => rfl
  | cons next others =>
      rw [restIsLast, if_pos isRest] at last
      cases last

theorem restIsLast_tail (last : restIsLast (arg :: rest) = true) : restIsLast rest = true := by
  cases rest with
  | nil => rfl
  | cons next others =>
      rw [restIsLast] at last
      split at last
      · cases last
      · exact last

theorem bindArgs_given {value : Value arg.kind}
    (reads : bindToken server caller arg.kind token more = some (.ok value)) :
    bindArgs server caller (arg :: rest) (token :: more) =
      (bindArgs server caller rest (if arg.kind = .rest then [] else more)).map fun bound =>
        bound.map (.of arg.kind value :: ·) := by
  rw [bindArgs, reads]

theorem bindArgs_missing (server : Server) (caller : Option Player) (args : List ArgDesc) :
    bindArgs server caller args [] = some (.ok (args.map fun _ => .monostate)) := by
  induction args with
  | nil => rfl
  | cons arg rest ih =>
      rw [bindArgs, ih]
      rfl

theorem bindArgs_some (server : Server) (caller : Option Player) (args : List ArgDesc)
    (tokens : List Text) : bindArgs server caller args tokens ≠ none := by
  induction args generalizing tokens with
  | nil => nofun
  | cons arg rest ih =>
      cases tokens with
      | nil =>
          rw [bindArgs_missing]
          nofun
      | cons token more =>
          rw [bindArgs]
          split
          · next reads => exact absurd reads (bindToken_some server caller arg.kind token more)
          · nofun
          · rw [Ne, Option.map_eq_none_iff]
            exact ih _

theorem bindArgs_ok_iff (last : restIsLast args = true) :
    (∃ bound, bindArgs server caller args tokens = some (.ok bound)) ↔
      AllBind server caller args tokens := by
  induction args generalizing tokens with
  | nil => exact iff_of_true ⟨[], rfl⟩ (fun _ _ _ there => by simp at there)
  | cons arg rest ih =>
      cases tokens with
      | nil =>
          rw [bindArgs_missing]
          exact iff_of_true ⟨_, rfl⟩ (fun _ _ _ _ there => by simp at there)
      | cons token more =>
          constructor
          · rintro ⟨bound, ran⟩
            rw [bindArgs] at ran
            split at ran
            · cases ran
            · cases ran
            · next value reads =>
                obtain ⟨others, later, joined⟩ := Option.map_eq_some_iff.mp ran
                cases others with
                | error failed => cases joined
                | ok behind =>
                    have each := (ih (restIsLast_tail last)).mp ⟨behind, later⟩
                    intro index other spoken there said
                    cases index with
                    | zero =>
                        cases there
                        cases said
                        exact ⟨value, reads⟩
                    | succ index =>
                        rw [List.getElem?_cons_succ] at there said
                        by_cases isRest : arg.kind = .rest
                        · rw [rest_alone last isRest] at there
                          cases there
                        · rw [if_neg isRest] at each
                          exact each index other spoken there said
          · intro all
            obtain ⟨value, first⟩ := all 0 arg token rfl rfl
            have reads : bindToken server caller arg.kind token more = some (.ok value) := first
            have behind : ∃ bound, bindArgs server caller rest
                (if arg.kind = .rest then [] else more) = some (.ok bound) := by
              split
              · exact ⟨_, bindArgs_missing server caller rest⟩
              · exact (ih (restIsLast_tail last)).mpr fun index other spoken there said =>
                  all (index + 1) other spoken there said
            obtain ⟨bound, later⟩ := behind
            rw [bindArgs_given reads, later]
            exact ⟨_, rfl⟩

theorem optionals_rest (trail : optionalsTrail true args = true) : requiredArgs args = 0 := by
  induction args with
  | nil => rfl
  | cons arg rest ih =>
      rw [optionalsTrail] at trail
      split at trail
      · next optional =>
          rw [requiredArgs, List.countP_cons_of_neg (by simp [optional])]
          exact ih trail
      · cases trail

/-- Where the tokens are enough for an argument and those behind it, they are for those behind. -/
theorem required_next {seen : Bool} (trail : optionalsTrail seen (arg :: rest) = true)
    (enough : requiredArgs (arg :: rest) ≤ more.length + 1) :
    (∃ seen, optionalsTrail seen rest = true) ∧ requiredArgs rest ≤ more.length := by
  rw [optionalsTrail] at trail
  split at trail
  · next optional =>
      have none := optionals_rest trail
      exact ⟨⟨true, trail⟩, by omega⟩
  · next required =>
      split at trail
      · cases trail
      · rw [requiredArgs, List.countP_cons_of_pos (by simp [required])] at enough
        exact ⟨⟨seen, trail⟩, Nat.le_of_succ_le_succ enough⟩

theorem missing_typed (none : requiredArgs args = 0) :
    Typed args [] (args.map fun _ => .monostate) := by
  constructor
  · exact List.length_map _
  · intro index arg value there held
    rw [List.getElem?_map, there] at held
    cases held
    have optional := (List.countP_eq_zero.mp none) arg (List.mem_of_getElem? there)
    exact Or.inr ⟨rfl, by simpa using optional, Nat.zero_le _⟩

theorem bindArgs_typed {seen : Bool} (trail : optionalsTrail seen args = true)
    (last : restIsLast args = true) (enough : requiredArgs args ≤ tokens.length)
    (ran : bindArgs server caller args tokens = some (.ok bound)) : Typed args tokens bound := by
  induction args generalizing tokens bound seen with
  | nil =>
      cases ran
      exact ⟨rfl, fun _ _ _ there => by simp at there⟩
  | cons arg rest ih =>
      cases tokens with
      | nil =>
          rw [bindArgs_missing] at ran
          cases ran
          exact missing_typed (Nat.le_zero.mp enough)
      | cons token more =>
          rw [bindArgs] at ran
          split at ran
          · cases ran
          · cases ran
          · next value reads =>
              obtain ⟨others, later, joined⟩ := Option.map_eq_some_iff.mp ran
              cases others with
              | error failed => cases joined
              | ok behind =>
                  cases joined
                  obtain ⟨⟨seen, trailing⟩, fewer⟩ := required_next trail enough
                  have typed : Typed rest more behind := by
                    by_cases isRest : arg.kind = .rest
                    · -- Nothing is declared behind a Rest.
                      cases rest_alone last isRest
                      cases later
                      exact ⟨rfl, fun _ _ _ there => by simp at there⟩
                    · rw [if_neg isRest] at later
                      exact ih trailing (restIsLast_tail last) fewer later
                  constructor
                  · rw [List.length_cons, List.length_cons, typed.length]
                  · intro index other held there kept
                    cases index with
                    | zero =>
                        cases there
                        cases kept
                        exact Or.inl rfl
                    | succ index =>
                        rcases typed.each index other held there kept with own | missing
                        · exact Or.inl own
                        · exact Or.inr ⟨missing.1, missing.2.1, Nat.succ_le_succ missing.2.2⟩

theorem get_own {kind : ArgKind} {value : BoundArg} (own : value.kind = some kind) :
    (get kind value).isSome = true := by
  cases value with
  | monostate => cases own
  | of held value =>
      cases own
      rw [get, dif_pos rfl]
      rfl

theorem unpackOne_some {value : BoundArg}
    (fits : value.kind = some arg.kind ∨ value = .monostate ∧ arg.optional = true) :
    (unpackOne arg value).isSome = true := by
  obtain ⟨kind, optional⟩ := arg
  rcases fits with own | ⟨rfl, missing⟩
  · cases optional with
    | false => exact get_own own
    | true =>
        cases value with
        | monostate => cases own
        | of held value =>
            change ((get kind (.of held value)).map (some : Value kind → Option (Value kind))).isSome =
              true
            rw [Option.isSome_map]
            exact get_own own
  · cases missing
    rfl

/-- Values that fit their arguments are unpacked without a throw. -/
theorem unpack_some (length : bound.length = args.length)
    (each : ∀ (index : Nat) arg value, args[index]? = some arg → bound[index]? = some value →
      value.kind = some arg.kind ∨ value = .monostate ∧ arg.optional = true) :
    (unpack args bound).isSome = true := by
  induction args generalizing bound with
  | nil => rfl
  | cons arg rest ih =>
      cases bound with
      | nil => cases length
      | cons value more =>
          have first := unpackOne_some (each 0 arg value rfl rfl)
          have others := ih (Nat.succ.inj length) fun index => each (index + 1)
          obtain ⟨head, here⟩ := Option.isSome_iff_exists.mp first
          obtain ⟨tail, there⟩ := Option.isSome_iff_exists.mp others
          rw [unpack, here, there]
          rfl

theorem Typed.unpacks (typed : Typed args tokens bound) : (unpack args bound).isSome = true := by
  apply unpack_some typed.length
  intro index arg value there held
  exact (typed.each index arg value there held).imp_right fun missing => ⟨missing.1, missing.2.1⟩

end Binding

end VoltMod.ArgBinding
