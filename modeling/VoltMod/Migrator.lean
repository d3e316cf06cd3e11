import Mathlib.Data.List.Basic
import VoltMod.MigrationText
import VoltMod.TransactionStore
import VoltMod.Transition

/-! Database/Migrator.cpp: a run of the migrations, statement by statement, against a
store with transactions. What the engine makes of a statement is a parameter; a fault at
any statement, a file that cannot be read and a commit whose answer is lost are inputs.
A missing history table counts as an empty one: its DDL comes before every read. Only
one run at a time meets PostgreSQL or MariaDB here, so their session locks are plain
statements. A rollback ends the transaction even when the statement for it fails.
`applied_at`, which nothing reads, and the log lines are left out. -/
namespace VoltMod.Migrator
open MigrationText TransactionStore

/-- What the folder holds: the names of its files and whether they are regular ones. -/
structure Entry where
  name : Text
  regular : Bool
  deriving DecidableEq, Repr

structure Migration where
  version : Int
  name : Text
  deriving DecidableEq, Repr

def sqlSuffix : Text := ".sql".toList

def versioned (entries : List Entry) : List Migration :=
  entries.filterMap fun entry =>
    if entry.regular && sqlSuffix.isSuffixOf entry.name then
      (parseMigrationVersion entry.name).map fun version => ⟨version, entry.name⟩
    else none

/-- What a run makes of the folder. The iteration may come in any order, and the sort
leaves files of one version in any order. -/
structure Listing (entries : List Entry) where
  migrations : List Migration
  lists : migrations.Perm (versioned entries)
  ascending : migrations.Pairwise fun earlier later => earlier.version ≤ later.version

def asciiLetter (c : Char) : Bool := ('A' ≤ c && c ≤ 'Z') || ('a' ≤ c && c ≤ 'z')

def isValidTableName (name : Text) : Bool :=
  match name with
  | [] => false
  | first :: _ =>
      (asciiLetter first || first == '_') &&
        name.all fun c => asciiLetter c || digit c || c == '_'

/-- A row of the history table, its version the primary key. -/
structure Row where
  version : Int
  name : Text
  deriving DecidableEq, Repr

def Migration.row (migration : Migration) : Row := ⟨migration.version, migration.name⟩

structure Data (Schema : Type) where
  schema : Schema
  history : List Row

/-- The database around a folder. `exec` is what a statement does to the schema, `none`
an error; `ddl` says which statements MariaDB commits at once. -/
structure World (Schema : Type) where
  driver : Driver
  exec : Text → Schema → Option Schema
  ddl : Text → Bool
  files : Migration → Text
  table : Text

structure MigrationResult where
  success : Bool
  applied : Nat
  currentVersion : Int
  deriving DecidableEq, Repr

def failure : MigrationResult := ⟨false, 0, 0⟩

/-- `applying` has those statements left, and the history row after them. -/
inductive Phase where
  | createHistory
  | lock
  | readVersion
  | selecting
  | beginning (migration : Migration) (statements : List Text)
  | applying (migration : Migration) (statements : List Text)
  | committing (migration : Migration)
  | rollingBack
  | unlock
  | finished
  deriving DecidableEq, Repr

structure Runner where
  phase : Phase
  migrations : List Migration
  current : Int
  result : MigrationResult
  deriving DecidableEq, Repr

/-- What becomes of the statement a run is at. -/
inductive Answer where
  | succeeds
  | fails
  | lost
  deriving DecidableEq, Repr

variable {Schema : Type}

/-- RunMigrations up to the database worker; `none` is a missing folder. -/
def start (world : World Schema) (folder : Option (List Migration)) : Runner :=
  if isValidTableName world.table then
    match folder with
    | none => ⟨.finished, [], 0, { failure with success := true }⟩
    | some migrations => ⟨.createHistory, migrations, 0, failure⟩
  else ⟨.finished, [], 0, failure⟩

/-- `MAX(version)`, 0 for the null of an empty table. -/
def maxVersion (history : List Row) : Int := (history.map Row.version).max?.getD 0

def nextPending (current : Int) : List Migration → Option (Migration × List Migration)
  | [] => none
  | migration :: rest =>
      -- Files at or below the recorded version are passed over without being read.
      if migration.version ≤ current then nextPending current rest else some (migration, rest)

/-- An exception outside any migration leaves the job. -/
def abandon (runner : Runner) : Runner := { runner with phase := .finished, result := failure }

/-- After the loop: SQLite has no lock to give back. -/
def leave (driver : Driver) (runner : Runner) : Runner :=
  { runner with phase := if driver = .sqlite then .finished else .unlock }

def breakOff (driver : Driver) (runner : Runner) : Runner :=
  leave driver { runner with result := { runner.result with success := false } }

def statementsOf (world : World Schema) (migration : Migration) : Except Error (List Text) :=
  (resolveDialect (world.files migration) world.driver).map splitStatements

/-- The loop up to the next file's transaction. -/
def select (world : World Schema) (answer : Answer) (runner : Runner) : Runner :=
  match nextPending runner.current runner.migrations with
  | none => leave world.driver runner
  | some (migration, rest) =>
      if answer = .succeeds then
        match statementsOf world migration with
        | .error _ => breakOff world.driver runner
        | .ok statements =>
            { runner with phase := .beginning migration statements, migrations := rest }
      else breakOff world.driver runner

variable {Owner : Type} [DecidableEq Owner]

def rollBack (runner : Runner) : Runner := { runner with phase := .rollingBack }

/-- One statement of the file. MariaDB commits what came before a DDL statement, and the
statement by itself. -/
def execute (world : World Schema) (owner : Owner) (answer : Answer) (migration : Migration)
    (statement : Text) (rest : List Text) (runner : Runner) (store : Store Owner (Data Schema)) :
    Option (Runner × Store Owner (Data Schema)) :=
  if answer = .succeeds then
    -- The implicit commit comes before the statement and stays when the statement fails.
    let before :=
      if world.driver = .mariaDb && world.ddl statement then commit owner store else store
    let data := seen owner before
    match world.exec statement data.schema with
    | none => some (rollBack runner, before)
    | some schema =>
        (write owner { data with schema := schema } before).map fun after =>
          ({ runner with phase := .applying migration rest }, after)
  else some (rollBack runner, store)

/-- The insert into the history table, refused when the version is there. -/
def record (owner : Owner) (answer : Answer) (migration : Migration) (runner : Runner)
    (store : Store Owner (Data Schema)) : Option (Runner × Store Owner (Data Schema)) :=
  let data := seen owner store
  if answer = .succeeds ∧ migration.version ∉ data.history.map Row.version then
    (write owner { data with history := data.history ++ [migration.row] } store).map fun after =>
      ({ runner with phase := .committing migration }, after)
  else some (rollBack runner, store)

def committed (migration : Migration) (runner : Runner) : Runner :=
  { runner with
    phase := .selecting
    result :=
      { runner.result with
        applied := runner.result.applied + 1
        currentVersion := migration.version } }

/-- The next statement of a run; `none` while it waits for another's transaction. -/
def advance (world : World Schema) (owner : Owner) (answer : Answer) (runner : Runner)
    (store : Store Owner (Data Schema)) : Option (Runner × Store Owner (Data Schema)) :=
  match runner.phase with
  | .createHistory =>
      if answer = .succeeds then
        let next := if world.driver = .sqlite then .readVersion else .lock
        some ({ runner with phase := next }, store)
      else some (abandon runner, store)
  | .lock =>
      if answer = .succeeds then some ({ runner with phase := .readVersion }, store)
      else some (abandon runner, store)
  | .readVersion =>
      if answer = .succeeds then
        let current := maxVersion (seen owner store).history
        some ({ runner with
          phase := .selecting, current := current, result := ⟨true, 0, current⟩ }, store)
      else some (abandon runner, store)
  | .selecting => some (select world answer runner, store)
  | .beginning migration statements =>
      if answer = .succeeds then
        (begin owner store).map fun after =>
          ({ runner with phase := .applying migration statements }, after)
      else some (breakOff world.driver runner, store)
  | .applying migration (statement :: rest) =>
      execute world owner answer migration statement rest runner store
  | .applying migration [] => record owner answer migration runner store
  | .committing migration =>
      match answer with
      | .succeeds => some (committed migration runner, commit owner store)
      | .fails => some (rollBack runner, store)
      -- The commit went through and its answer did not: the run takes it for a failure.
      | .lost => some (rollBack runner, commit owner store)
  | .rollingBack => some (breakOff world.driver runner, rollback owner store)
  | .unlock =>
      if answer = .succeeds then some ({ runner with phase := .finished }, store)
      else some (abandon runner, store)
  | .finished => none

/-- One runner after another on one database. -/
structure Solo (Schema : Type) where
  runner : Runner
  store : Store Unit (Data Schema)

inductive Action (entries : List Entry) where
  | run (listing : Listing entries)
  | answer (answer : Answer)

def solo (world : World Schema) {entries : List Entry} (state : Solo Schema) :
    Action entries → Option (Solo Schema)
  | .run listing =>
      if state.runner.phase = .finished then
        some { state with runner := start world (some listing.migrations) }
      else none
  | .answer answer =>
      (advance world () answer state.runner state.store).map fun next => ⟨next.1, next.2⟩

/-- No run yet. -/
def untouched (data : Data Schema) : Solo Schema :=
  ⟨⟨.finished, [], 0, failure⟩, ⟨data, none⟩⟩

/-- Two runners on one database, their statements in any order. -/
structure Pair (Schema : Type) where
  runners : Bool → Runner
  store : Store Bool (Data Schema)

def pair (world : World Schema) (state : Pair Schema) (who : Bool) : Option (Pair Schema) :=
  (advance world who .succeeds (state.runners who) state.store).map fun next =>
    ⟨Function.update state.runners who next.1, next.2⟩

/-- What the statements of a file make of the schema, one after another. -/
def execAll (world : World Schema) : List Text → Schema → Option Schema
  | [], schema => some schema
  | statement :: rest, schema => (world.exec statement schema).bind (execAll world rest)

/-- What applying a migration is for: all its statements, and its row. -/
def applyMigration (world : World Schema) (migration : Migration) (data : Data Schema) :
    Option (Data Schema) :=
  match statementsOf world migration with
  | .error _ => none
  | .ok statements =>
      (execAll world statements data.schema).map fun schema =>
        ⟨schema, data.history ++ [migration.row]⟩

def applyAll (world : World Schema) : List Migration → Data Schema → Option (Data Schema)
  | [], data => some data
  | migration :: rest, data => (applyMigration world migration data).bind (applyAll world rest)

end VoltMod.Migrator
