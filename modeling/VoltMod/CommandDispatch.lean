import VoltMod.ArgBinding

/-! Commands/CommandRouter.cpp's Dispatch: authorize, bind and run one command. The translations
and what a handler does are parameters; that a policy warns once is left out. -/
namespace VoltMod.CommandDispatch
open MigrationText (Text)
open Players (Player authorize)
open TargetResolver (Server ArgError)
open ArgBinding

/-- `Translations::Get`: the text of a key in a slot's language, the tokens in their order. -/
abbrev Translations := String → Int → List (String × Text) → Text

inductive Origin where
  | chat | console
  deriving DecidableEq, Repr

/-- What a handler is given; the console has no player and slot -1. -/
structure Caller where
  player : Option Player
  slot : Int

/-- What a handler did: the lines it sent itself, and its answer. -/
structure Answer where
  sent : List Text
  result : Result Text

/-- `invoke` answers `none` where unpacking throws. -/
structure CommandDefinition where
  name : Text
  permissionName : String
  usageKey : String
  args : List ArgDesc
  invoke : Option (Caller → List BoundArg → Option Answer)

/-- The command `CommandBuilder::Run` installs for a handler. -/
def build (name : Text) (permissionName usageKey : String) (signature : Signature)
    (handler : Caller → Parameters signature.args → Answer) : CommandDefinition where
  name := name
  permissionName := permissionName
  usageKey := usageKey
  args := signature.args
  invoke := some fun caller bound => (unpack signature.args bound).map (handler caller)

def kindName : ArgKind → String
  | .target => "target"
  | .targets => "targets"
  | .duration => "duration"
  | .steamId => "steamId"
  | .playerOrSteamId => "playerOrSteamId"
  | .int => "int"
  | .u64 => "u64"
  | .word => "word"
  | .rest => "rest"

def usagePlaceholderKey (kind : ArgKind) : String := "cmd.usage." ++ kindName kind

def usageTokens (translations : Translations) (definition : CommandDefinition) (slot : Int)
    (origin : Origin) : List (String × Text) :=
  let chatPrefix : Text := if origin = .chat then ['!'] else []
  let placeholder := fun arg : ArgDesc =>
    let text := translations (usagePlaceholderKey arg.kind) slot []
    if arg.optional then '[' :: text ++ [']'] else '<' :: text ++ ['>']
  let args := [' '].intercalate (definition.args.map placeholder)
  let line := chatPrefix ++ definition.name ++ if args = [] then [] else ' ' :: args
  [("args", args), ("command", definition.name), ("prefix", chatPrefix), ("usage", line)]

def usage (translations : Translations) (definition : CommandDefinition) (slot : Int)
    (origin : Origin) : Text :=
  if definition.usageKey ≠ "" then translations definition.usageKey slot []
  else translations "cmd.usage" slot (usageTokens translations definition slot origin)

def failureLine (translations : Translations) (error : Error) (slot : Int) : Text :=
  if error.text ≠ "" then error.text.toList
  else if error.key ≠ "" then translations error.key slot []
  else error.detail.toList

/-- An empty line is not said. -/
def reply (line : Text) : List Text := if line = [] then [] else [line]

/-- What the permission gate has against the caller; the console is the server. -/
def refusal (server : Server) (definition : CommandDefinition) : Option Player → Option Error
  | none => none
  | some player =>
      if definition.permissionName = "" then none
      else
        match (authorize server.roster server.policy player.ref none definition.permissionName).1 with
        | .ok _ => none
        | .error error => some error

inductive Outcome where
  /-- The handler was not run. -/
  | refused (said : List Text)
  | ran (bound : List BoundArg) (said : List Text)
  /-- `std::bad_variant_access` on the way to the handler. -/
  | threw (bound : List BoundArg)
  /-- The front of an empty list was read. -/
  | undefined

def answered (translations : Translations) (slot : Int) (answer : Answer) : List Text :=
  answer.sent ++ reply (match answer.result with
    | .ok text => text
    | .error error => failureLine translations error slot)

def dispatch (server : Server) (translations : Translations) (definition : CommandDefinition)
    (caller : Option Player) (tokens : List Text) (origin : Origin) : Outcome :=
  let slot := caller.elim (-1) Player.slot
  match refusal server definition caller with
  | some error => .refused (reply (translations error.key slot []))
  | none =>
      if !hasRest definition.args ∧ definition.args.length < tokens.length then
        .refused (reply (translations "cmd.tooManyArgs" slot
          (usageTokens translations definition slot origin)))
      else if tokens.length < requiredArgs definition.args then
        .refused (reply (usage translations definition slot origin))
      else
        match bindArgs server caller definition.args tokens with
        | none => .undefined
        | some (.error error) => .refused (reply (translations error.key slot error.vars))
        | some (.ok bound) =>
            match definition.invoke with
            | none => .refused []
            | some invoke =>
                match invoke ⟨caller, slot⟩ bound with
                | none => .threw bound
                | some answer => .ran bound (answered translations slot answer)

/-- A player needs the permission the command asks for, if it asks for one. -/
def Authorized (server : Server) (definition : CommandDefinition) (caller : Option Player) : Prop :=
  ∀ player, caller = some player → definition.permissionName ≠ "" →
    (authorize server.roster server.policy player.ref none definition.permissionName).1.isOk = true

/-- Enough tokens, and no more than the arguments take. -/
def Fits (args : List ArgDesc) (tokens : List Text) : Prop :=
  requiredArgs args ≤ tokens.length ∧ (hasRest args = true ∨ tokens.length ≤ args.length)

/-- What it takes to run a command. -/
structure Runnable (server : Server) (definition : CommandDefinition) (caller : Option Player)
    (tokens : List Text) : Prop where
  authorized : Authorized server definition caller
  fits : Fits definition.args tokens
  bind : AllBind server caller definition.args tokens

variable {server : Server} {translations : Translations} {definition : CommandDefinition}
  {caller : Option Player} {tokens : List Text}

theorem refusal_none : refusal server definition caller = none ↔
    Authorized server definition caller := by
  cases caller with
  | none => exact iff_of_true rfl nofun
  | some player =>
      unfold refusal Authorized
      constructor
      · rintro granted _ ⟨⟩ asked
        dsimp only at granted
        rw [if_neg asked] at granted
        split at granted
        · next verdict => rw [verdict]; rfl
        · cases granted
      · intro granted
        dsimp only
        split
        · rfl
        · next asked =>
            have allowed := granted player rfl asked
            split
            · rfl
            · next error verdict =>
                rw [verdict] at allowed
                cases allowed

theorem fits_iff (args : List ArgDesc) (tokens : List Text) : Fits args tokens ↔
    ¬(!hasRest args ∧ args.length < tokens.length) ∧ ¬tokens.length < requiredArgs args := by
  unfold Fits
  cases hasRest args with
  | true => simp
  | false =>
      simp only [Bool.false_eq_true, false_or, Bool.not_false, true_and, Nat.not_lt]
      exact and_comm

theorem usage_key (translations : Translations) (definition : CommandDefinition) (slot : Int)
    (origin : Origin) : ∃ key vars, usage translations definition slot origin =
      translations key slot vars := by
  unfold usage
  split
  · exact ⟨_, _, rfl⟩
  · exact ⟨_, _, rfl⟩

section Built
variable {name : Text} {permissionName usageKey : String} {signature : Signature}
  {handler : Caller → Parameters signature.args → Answer} {origin : Origin}

/-- A command that may run is unpacked without a throw, and its handler run. -/
theorem dispatch_runs
    (runnable : Runnable server (build name permissionName usageKey signature handler) caller
      tokens) :
    ∃ bound parameters, Typed signature.args tokens bound ∧
      unpack signature.args bound = some parameters ∧
      dispatch server translations (build name permissionName usageKey signature handler) caller
          tokens origin =
        .ran bound (answered translations (caller.elim (-1) Player.slot)
          (handler ⟨caller, caller.elim (-1) Player.slot⟩ parameters)) := by
  obtain ⟨bound, binds⟩ := (bindArgs_ok_iff signature.rest).mpr runnable.bind
  have typed := bindArgs_typed signature.optionals signature.rest runnable.fits.1 binds
  obtain ⟨parameters, unpacked⟩ := Option.isSome_iff_exists.mp typed.unpacks
  obtain ⟨fewEnough, enough⟩ := (fits_iff _ _).mp runnable.fits
  have bindsBuilt : bindArgs server caller
      (build name permissionName usageKey signature handler).args tokens = some (.ok bound) := binds
  refine ⟨bound, parameters, typed, unpacked, ?_⟩
  rw [dispatch, refusal_none.mpr runnable.authorized]
  dsimp only
  rw [if_neg fewEnough, if_neg enough, bindsBuilt]
  simp only [build, unpacked, Option.map_some]

/-- A command that may not run is answered with one translated line, or none where it is empty. -/
theorem dispatch_refused
    (unrunnable : ¬Runnable server (build name permissionName usageKey signature handler) caller
      tokens) :
    ∃ key vars,
      dispatch server translations (build name permissionName usageKey signature handler) caller
          tokens origin =
        .refused (reply (translations key (caller.elim (-1) Player.slot) vars)) := by
  rw [dispatch]
  cases refused : refusal server (build name permissionName usageKey signature handler) caller with
  | some error => exact ⟨error.key, [], rfl⟩
  | none =>
      dsimp only
      split
      · exact ⟨"cmd.tooManyArgs", _, rfl⟩
      · next fewEnough =>
          split
          · obtain ⟨key, vars, line⟩ := usage_key translations
                (build name permissionName usageKey signature handler)
                (caller.elim (-1) Player.slot) origin
            exact ⟨key, vars, by rw [line]⟩
          · next enough =>
              have blocked : ¬∃ bound, bindArgs server caller signature.args tokens =
                  some (.ok bound) := fun binds => unrunnable
                ⟨refusal_none.mp refused, (fits_iff _ _).mpr ⟨fewEnough, enough⟩,
                  (bindArgs_ok_iff signature.rest).mp binds⟩
              cases binds : bindArgs server caller signature.args tokens with
              | none => exact absurd binds (bindArgs_some server caller signature.args tokens)
              | some result =>
                  cases result with
                  | ok bound => exact absurd ⟨bound, binds⟩ blocked
                  | error failed =>
                      have bindsBuilt : bindArgs server caller
                          (build name permissionName usageKey signature handler).args tokens =
                            some (.error failed) := binds
                      rw [bindsBuilt]
                      exact ⟨failed.key, failed.vars, rfl⟩

end Built

/-- For every command the builder accepts: the handler runs exactly when the caller is authorized,
the tokens fit and each binds; its arguments are unpacked without a throw; in every other case one
translated line is said, none where it is empty. -/
theorem dispatch_exact (server : Server) (translations : Translations) (name : Text)
    (permissionName usageKey : String) (signature : Signature)
    (handler : Caller → Parameters signature.args → Answer) (caller : Option Player)
    (tokens : List Text) (origin : Origin) :
    let definition := build name permissionName usageKey signature handler
    let slot := caller.elim (-1) Player.slot
    let outcome := dispatch server translations definition caller tokens origin
    ((∃ bound said, outcome = .ran bound said) ↔ Runnable server definition caller tokens) ∧
    (∀ bound said, outcome = .ran bound said →
      Typed signature.args tokens bound ∧
        ∃ parameters, unpack signature.args bound = some parameters ∧
          said = answered translations slot (handler ⟨caller, slot⟩ parameters)) ∧
    (¬Runnable server definition caller tokens →
      ∃ key vars, outcome = .refused (reply (translations key slot vars))) := by
  intro definition slot outcome
  have only : (∃ bound said, outcome = .ran bound said) →
      Runnable server definition caller tokens := by
    rintro ⟨bound, said, ran⟩
    by_contra unrunnable
    obtain ⟨key, vars, refused⟩ := dispatch_refused unrunnable
    cases ran.symm.trans refused
  constructor
  · constructor
    · exact only
    · intro runnable
      obtain ⟨bound, parameters, _, _, ran⟩ := dispatch_runs runnable
      exact ⟨bound, _, ran⟩
  · constructor
    · intro bound said ran
      obtain ⟨held, parameters, typed, unpacked, also⟩ := dispatch_runs (only ⟨bound, said, ran⟩)
      cases ran.symm.trans also
      exact ⟨typed, parameters, unpacked, rfl⟩
    · exact dispatch_refused

end VoltMod.CommandDispatch
