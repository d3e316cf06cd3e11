import Mathlib.Data.List.Sort
import Mathlib.Data.Int.Order.Basic
import VoltMod.Migrator

/-! What one statement of a run leaves behind, whatever becomes of it: the database holds
some of the first pending files, each once and in order, and the run knows which are
left. Where no statement fails, every file is reached. -/
namespace VoltMod.Migrator
open MigrationText TransactionStore Transition

variable {Schema : Type} {Owner : Type}

def pending (current : Int) (migrations : List Migration) : List Migration :=
  migrations.filter fun migration => decide (current < migration.version)

theorem nextPending_cases (current : Int) (migrations : List Migration) :
    (nextPending current migrations = none ∧ pending current migrations = []) ∨
    ∃ migration rest, nextPending current migrations = some (migration, rest) ∧
      pending current migrations = migration :: pending current rest := by
  induction migrations with
  | nil => exact .inl ⟨rfl, rfl⟩
  | cons first rest ih =>
      by_cases old : first.version ≤ current
      · have skipped : pending current (first :: rest) = pending current rest := by
          simp [pending, Int.not_lt.mpr old]
        simpa only [nextPending, if_pos old, skipped] using ih
      · have kept : pending current (first :: rest) = first :: pending current rest := by
          simp [pending, Int.not_le.mp old]
        exact .inr ⟨first, rest, by simp only [nextPending, if_neg old], kept⟩

theorem le_maxVersion {history : List Row} {row : Row} (stored : row ∈ history) :
    row.version ≤ maxVersion history := by
  have member : row.version ∈ history.map Row.version := List.mem_map_of_mem stored
  obtain ⟨top, found⟩ := Option.isSome_iff_exists.mp (List.isSome_max?_of_mem member)
  have bound := (List.max?_eq_some_iff.mp found).2 row.version member
  simpa only [maxVersion, found, Option.getD_some] using bound

theorem maxVersion_stored (history : List Row) (nonempty : history ≠ []) :
    ∃ row ∈ history, row.version = maxVersion history := by
  have versions : history.map Row.version ≠ [] := by simpa using nonempty
  obtain ⟨top, found⟩ := Option.isSome_iff_exists.mp (List.isSome_max?_of_ne_nil versions)
  obtain ⟨row, stored, same⟩ := List.mem_map.mp (List.max?_mem found)
  exact ⟨row, stored, by simp only [maxVersion, found, Option.getD_some, same]⟩

/-- Positive versions, each only once, in order. -/
structure Ascending (migrations : List Migration) : Prop where
  positive : ∀ migration ∈ migrations, 0 < migration.version
  increasing : migrations.Pairwise fun earlier later => earlier.version < later.version

/-- A history of the earlier files makes the later ones pending. -/
theorem pending_later {past rest : List Migration} (ascending : Ascending (past ++ rest)) :
    pending (maxVersion (past.map Migration.row)) (past ++ rest) = rest := by
  obtain ⟨_, _, apart⟩ := List.pairwise_append.mp ascending.increasing
  have old : ∀ migration ∈ past, migration.version ≤ maxVersion (past.map Migration.row) :=
    fun migration member => le_maxVersion (List.mem_map_of_mem member)
  have new : ∀ migration ∈ rest, maxVersion (past.map Migration.row) < migration.version := by
    intro migration member
    by_cases empty : past = []
    · subst empty
      exact ascending.positive migration (List.mem_append_right _ member)
    · obtain ⟨row, stored, top⟩ := maxVersion_stored (past.map Migration.row) (by simpa using empty)
      obtain ⟨earlier, inside, rfl⟩ := List.mem_map.mp stored
      exact top ▸ apart earlier inside migration member
  rw [pending, List.filter_append, List.filter_eq_nil_iff.mpr, List.filter_eq_self.mpr,
    List.nil_append]
  · exact fun migration member => decide_eq_true (new migration member)
  · intro migration member
    simpa using old migration member

theorem unrecorded {past rest : List Migration} {migration : Migration}
    (ascending : Ascending (past ++ migration :: rest)) :
    migration.version ∉ (past.map Migration.row).map Row.version := by
  obtain ⟨_, _, apart⟩ := List.pairwise_append.mp ascending.increasing
  intro member
  obtain ⟨row, stored, same⟩ := List.mem_map.mp member
  obtain ⟨earlier, inside, rfl⟩ := List.mem_map.mp stored
  exact absurd same (ne_of_lt (apart earlier inside migration (List.mem_cons_self ..)))

theorem applyAll_append (world : World Schema) (first second : List Migration)
    (data : Data Schema) :
    applyAll world (first ++ second) data =
      (applyAll world first data).bind (applyAll world second) := by
  induction first generalizing data with
  | nil => rfl
  | cons migration rest ih =>
      simp only [List.cons_append, applyAll]
      cases applyMigration world migration data with
      | none => rfl
      | some next => exact ih next

/-- PostgreSQL and SQLite take DDL back with the transaction. -/
def Transactional (world : World Schema) : Prop := world.driver ≠ .mariaDb

/-- What of the files to apply is in the database: some of the first, each once and in
order. The schema is theirs where a transaction takes everything back. -/
def Grown (world : World Schema) (base : Data Schema) (toApply rest : List Migration)
    (data : Data Schema) : Prop :=
  ∃ done, toApply = done ++ rest ∧ data.history = base.history ++ done.map Migration.row ∧
    (Transactional world → applyAll world done base = some data)

def Runner.pending (runner : Runner) : List Migration :=
  Migrator.pending runner.current runner.migrations

/-- In the middle of a file: the statements left take its working copy where the whole
file takes what is committed. MariaDB may have no transaction any more. -/
def Applying (world : World Schema) (owner : Owner) (migration : Migration) (left : List Text)
    (store : Store Owner (Data Schema)) : Prop :=
  (∃ working, store.writing = some (owner, working) ∧
      working.history = store.committed.history ∧
      (Transactional world → ∃ statements, statementsOf world migration = .ok statements ∧
        execAll world left working.schema = execAll world statements store.committed.schema)) ∨
    (¬Transactional world ∧ store.writing = none)

/-- Before the commit: the working copy is what applying the file makes of the rest. -/
def Recorded (world : World Schema) (owner : Owner) (migration : Migration)
    (rest later : List Migration) (store : Store Owner (Data Schema)) : Prop :=
  (∃ working, store.writing = some (owner, working) ∧ rest = migration :: later ∧
      working.history = store.committed.history ++ [migration.row] ∧
      (Transactional world → applyMigration world migration store.committed = some working)) ∨
    (¬Transactional world ∧ store.writing = none ∧ rest = later)

/-- `rest` is what the database has not got yet; what the run makes of it depends on
where it is. -/
def InPhase (world : World Schema) (all rest : List Migration) (owner : Owner) (runner : Runner)
    (store : Store Owner (Data Schema)) : Prop :=
  match runner.phase with
  | .createHistory | .lock | .readVersion => store.writing = none ∧ runner.migrations = all
  | .selecting =>
      store.writing = none ∧ runner.result.success = true ∧ rest = runner.pending
  | .beginning migration statements =>
      store.writing = none ∧ runner.result.success = true ∧ rest = migration :: runner.pending ∧
        statementsOf world migration = .ok statements
  | .applying migration left =>
      runner.result.success = true ∧ rest = migration :: runner.pending ∧
        Applying world owner migration left store
  | .committing migration =>
      runner.result.success = true ∧ Recorded world owner migration rest runner.pending store
  | .rollingBack => store.writing = none ∨ ∃ working, store.writing = some (owner, working)
  | .unlock | .finished =>
      store.writing = none ∧ (runner.result.success = true → rest = [])

def Place (world : World Schema) (base : Data Schema) (all toApply : List Migration)
    (owner : Owner) (runner : Runner) (store : Store Owner (Data Schema)) : Prop :=
  ∃ rest, Grown world base toApply rest store.committed ∧
    InPhase world all rest owner runner store

/-- The database starts from a history of the first files. -/
structure Known (base : Data Schema) (all toApply : List Migration) : Prop where
  ascending : Ascending all
  past : ∃ past, all = past ++ toApply ∧ base.history = past.map Migration.row

theorem grown_history {world : World Schema} {base data : Data Schema}
    {all toApply rest : List Migration} (known : Known base all toApply)
    (grown : Grown world base toApply rest data) :
    ∃ past, all = past ++ rest ∧ data.history = past.map Migration.row := by
  obtain ⟨past, split, recorded⟩ := known.past
  obtain ⟨done, parted, history, _⟩ := grown
  refine ⟨past ++ done, ?_, ?_⟩
  · rw [split, parted, List.append_assoc]
  · rw [history, recorded, List.map_append]

/-- One more file is in. -/
theorem grown_next {world : World Schema} {base data after : Data Schema}
    {toApply rest : List Migration} {migration : Migration}
    (grown : Grown world base toApply (migration :: rest) data)
    (history : after.history = data.history ++ [migration.row])
    (applied : Transactional world → applyMigration world migration data = some after) :
    Grown world base toApply rest after := by
  obtain ⟨done, parted, recorded, reached⟩ := grown
  refine ⟨done ++ [migration], ?_, ?_, fun atomic => ?_⟩
  · rw [parted, List.append_assoc, List.singleton_append]
  · rw [history, recorded, List.map_append, List.append_assoc]
    rfl
  · rw [applyAll_append, reached atomic]
    show (applyMigration world migration data).bind (applyAll world []) = some after
    rw [applied atomic]
    rfl

/-- A commit by DDL keeps what the history says. -/
theorem grown_same {world : World Schema} {base data after : Data Schema}
    {toApply rest : List Migration} (grown : Grown world base toApply rest data)
    (history : after.history = data.history) (loose : ¬Transactional world) :
    Grown world base toApply rest after := by
  obtain ⟨done, parted, recorded, _⟩ := grown
  exact ⟨done, parted, history.trans recorded, fun atomic => absurd atomic loose⟩

theorem leave_place {world : World Schema} {all rest : List Migration} {owner : Owner}
    {runner : Runner} {store : Store Owner (Data Schema)} (idle : store.writing = none)
    (settled : runner.result.success = true → rest = []) :
    InPhase world all rest owner (leave world.driver runner) store := by
  unfold leave
  by_cases lockless : world.driver = .sqlite
  · simp only [InPhase, lockless, if_true]
    exact ⟨idle, settled⟩
  · simp only [InPhase, lockless, if_false]
    exact ⟨idle, settled⟩

theorem breakOff_place {world : World Schema} {all rest : List Migration} {owner : Owner}
    {runner : Runner} {store : Store Owner (Data Schema)} (idle : store.writing = none) :
    InPhase world all rest owner (breakOff world.driver runner) store :=
  leave_place idle (by simp)

theorem select_place {world : World Schema} {all rest : List Migration} {owner : Owner}
    {runner : Runner} {store : Store Owner (Data Schema)} (answer : Answer)
    (idle : store.writing = none) (well : runner.result.success = true)
    (ahead : rest = runner.pending) :
    InPhase world all rest owner (select world answer runner) store := by
  unfold select
  rcases nextPending_cases runner.current runner.migrations with
    ⟨none_left, empty⟩ | ⟨migration, later, found, parted⟩
  · rw [none_left]
    exact leave_place idle fun _ => ahead.trans empty
  · rw [found]
    dsimp only
    split
    · split
      · exact breakOff_place idle
      · next statements split_up =>
          exact ⟨idle, well, ahead.trans parted, split_up⟩
    · exact breakOff_place idle

variable [DecidableEq Owner]

theorem execute_place {world : World Schema} {base : Data Schema} {all toApply rest : List Migration}
    {owner : Owner} {answer : Answer} {migration : Migration} {statement : Text}
    {left : List Text} {runner after : Runner} {store next : Store Owner (Data Schema)}
    (grown : Grown world base toApply rest store.committed)
    (well : runner.result.success = true) (ahead : rest = migration :: runner.pending)
    (applying : Applying world owner migration (statement :: left) store)
    (moved : execute world owner answer migration statement left runner store =
      some (after, next)) : Place world base all toApply owner after next := by
  unfold execute at moved
  split at moved
  · dsimp only at moved
    rcases applying with ⟨working, own, history, prepared⟩ | ⟨loose, idle⟩
    -- A DDL statement on MariaDB ends the transaction, so its effect is committed outside it.
    · by_cases atOnce : (world.driver = .mariaDb && world.ddl statement) = true
      · have loose : ¬Transactional world := fun atomic => atomic (by simp_all)
        rw [if_pos atOnce, commit_own own] at moved
        have kept := grown_same grown history loose
        split at moved
        · cases moved
          exact ⟨rest, kept, .inl rfl⟩
        · next schema ran =>
            cases moved
            exact ⟨rest, grown_same kept rfl loose, well, ahead, .inr ⟨loose, rfl⟩⟩
      · rw [if_neg atOnce, seen_own own] at moved
        split at moved
        · cases moved
          exact ⟨rest, grown, .inr ⟨working, own⟩⟩
        · next schema ran =>
            rw [write_own own] at moved
            cases moved
            refine ⟨rest, grown, well, ahead, .inl ⟨_, rfl, history, fun atomic => ?_⟩⟩
            obtain ⟨statements, split_up, same⟩ := prepared atomic
            refine ⟨statements, split_up, ?_⟩
            rw [← same, execAll, ran]
            rfl
    · rw [commit_idle idle, ite_self, seen_idle idle] at moved
      split at moved
      · cases moved
        exact ⟨rest, grown, .inl idle⟩
      · rw [write_idle idle] at moved
        cases moved
        exact ⟨rest, grown_same grown rfl loose, well, ahead, .inr ⟨loose, rfl⟩⟩
  · cases moved
    refine ⟨rest, grown, ?_⟩
    rcases applying with ⟨working, own, _, _⟩ | ⟨_, idle⟩
    · exact .inr ⟨working, own⟩
    · exact .inl idle

theorem record_place {world : World Schema} {base : Data Schema} {all toApply rest : List Migration}
    {owner : Owner} {answer : Answer} {migration : Migration} {runner after : Runner}
    {store next : Store Owner (Data Schema)}
    (grown : Grown world base toApply rest store.committed)
    (well : runner.result.success = true) (ahead : rest = migration :: runner.pending)
    (applying : Applying world owner migration [] store)
    (moved : record owner answer migration runner store = some (after, next)) :
    Place world base all toApply owner after next := by
  unfold record at moved
  dsimp only at moved
  rcases applying with ⟨working, own, history, prepared⟩ | ⟨loose, idle⟩
  · rw [seen_own own] at moved
    split at moved
    · rw [write_own own] at moved
      cases moved
      refine ⟨rest, grown, well, .inl ⟨_, rfl, ahead, congrArg (· ++ _) history, fun atomic => ?_⟩⟩
      obtain ⟨statements, split_up, same⟩ := prepared atomic
      simp only [execAll] at same
      simp only [applyMigration, split_up, ← same, history, Option.map_some]
    · cases moved
      exact ⟨rest, grown, .inr ⟨working, own⟩⟩
  · rw [seen_idle idle] at moved
    split at moved
    · rw [write_idle idle] at moved
      cases moved
      have more : Grown world base toApply runner.pending { store.committed with
          history := store.committed.history ++ [migration.row] } :=
        grown_next (ahead ▸ grown) rfl fun atomic => absurd atomic loose
      exact ⟨runner.pending, more, well, .inr ⟨loose, rfl, rfl⟩⟩
    · cases moved
      exact ⟨rest, grown, .inl idle⟩

theorem commit_place {world : World Schema} {base : Data Schema} {toApply rest later : List Migration}
    {owner : Owner} {migration : Migration} {store : Store Owner (Data Schema)}
    (grown : Grown world base toApply rest store.committed)
    (recorded : Recorded world owner migration rest later store) :
    Grown world base toApply later (commit owner store).committed ∧
      (commit owner store).writing = none := by
  rcases recorded with ⟨working, own, ahead, history, applied⟩ | ⟨_, idle, same⟩
  · rw [commit_own own]
    exact ⟨grown_next (ahead ▸ grown) history applied, rfl⟩
  · rw [commit_idle idle]
    exact ⟨same ▸ grown, idle⟩

/-- The step law: one statement, whatever becomes of it, keeps the database at a prefix. -/
theorem advance_place {world : World Schema} {base : Data Schema} {all toApply : List Migration}
    {owner : Owner} {answer : Answer} {runner after : Runner}
    {store next : Store Owner (Data Schema)} (known : Known base all toApply)
    (place : Place world base all toApply owner runner store)
    (moved : advance world owner answer runner store = some (after, next)) :
    Place world base all toApply owner after next := by
  obtain ⟨rest, grown, inPhase⟩ := place
  obtain ⟨phase, migrations, current, result⟩ := runner
  have failed {store : Store Owner (Data Schema)}
      (grown : Grown world base toApply rest store.committed) (idle : store.writing = none) :
      Place world base all toApply owner (abandon ⟨phase, migrations, current, result⟩) store :=
    ⟨rest, grown, idle, by simp [abandon, failure]⟩
  cases phase with
  | createHistory =>
      simp only [advance] at moved
      split at moved
      · cases moved
        refine ⟨rest, grown, ?_⟩
        by_cases lockless : world.driver = .sqlite
        · simpa only [InPhase, lockless, if_true] using inPhase
        · simpa only [InPhase, lockless, if_false] using inPhase
      · cases moved
        exact failed grown inPhase.1
  | lock =>
      simp only [advance] at moved
      split at moved
      · cases moved
        exact ⟨rest, grown, inPhase⟩
      · cases moved
        exact failed grown inPhase.1
  | readVersion =>
      simp only [advance] at moved
      split at moved
      · cases moved
        obtain ⟨idle, same⟩ := inPhase
        obtain ⟨past, split_up, history⟩ := grown_history known grown
        refine ⟨rest, grown, idle, rfl, ?_⟩
        have listed : migrations = past ++ rest := Eq.trans same split_up
        -- The version read is that of the last file in, so what is pending is what is left.
        show rest = pending (maxVersion (seen owner store).history) migrations
        rw [seen_idle idle, history, listed, pending_later (split_up ▸ known.ascending)]
      · cases moved
        exact failed grown inPhase.1
  | selecting =>
      cases moved
      exact ⟨rest, grown, select_place answer inPhase.1 inPhase.2.1 inPhase.2.2⟩
  | beginning migration statements =>
      obtain ⟨idle, well, ahead, split_up⟩ := inPhase
      simp only [advance] at moved
      split at moved
      · rw [begin_idle idle] at moved
        cases moved
        exact ⟨rest, grown, well, ahead, .inl ⟨_, rfl, rfl, fun _ => ⟨statements, split_up, rfl⟩⟩⟩
      · cases moved
        exact ⟨rest, grown, breakOff_place idle⟩
  | applying migration left =>
      obtain ⟨well, ahead, applying⟩ := inPhase
      cases left with
      | nil => exact record_place grown well ahead applying moved
      | cons statement left => exact execute_place grown well ahead applying moved
  | committing migration =>
      obtain ⟨well, recorded⟩ := inPhase
      obtain ⟨more, idle⟩ := commit_place grown recorded
      cases answer with
      | succeeds =>
          cases moved
          exact ⟨_, more, idle, well, rfl⟩
      -- The transaction is still open and the rollback to come ends it.
      | fails =>
          cases moved
          refine ⟨rest, grown, ?_⟩
          rcases recorded with ⟨working, own, _⟩ | ⟨_, free, _⟩
          · exact .inr ⟨working, own⟩
          · exact .inl free
      | lost =>
          cases moved
          exact ⟨_, more, .inl idle⟩
  | rollingBack =>
      cases moved
      rcases inPhase with idle | ⟨working, own⟩
      · rw [rollback_idle idle]
        exact ⟨rest, grown, breakOff_place idle⟩
      · rw [rollback_own own]
        exact ⟨rest, grown, breakOff_place rfl⟩
  | unlock =>
      simp only [advance] at moved
      split at moved
      · cases moved
        exact ⟨rest, grown, inPhase⟩
      · cases moved
        exact failed grown inPhase.1
  | finished => cases moved

theorem grown_rest {world : World Schema} {base data final : Data Schema}
    {toApply rest : List Migration} (atomic : Transactional world)
    (grown : Grown world base toApply rest data) :
    applyAll world rest data = some final ↔ applyAll world toApply base = some final := by
  obtain ⟨done, rfl, _, reached⟩ := grown
  rw [applyAll_append, reached atomic, Option.bind_some]

def fileCost (world : World Schema) (migration : Migration) : Nat :=
  match statementsOf world migration with
  | .ok statements => statements.length + 4
  | .error _ => 4

def loopCost (world : World Schema) : List Migration → Nat
  | [] => 3
  | migration :: rest => fileCost world migration + loopCost world rest

theorem loopCost_bound (world : World Schema) (migrations : List Migration) :
    3 ≤ loopCost world migrations := by
  induction migrations with
  | nil => exact Nat.le_refl _
  | cons migration rest ih =>
      rw [loopCost]
      omega

/-- A bound on the statements a run still makes. -/
def cost (world : World Schema) (runner : Runner) : Nat :=
  match runner.phase with
  | .createHistory => loopCost world runner.migrations + 3
  | .lock => loopCost world runner.migrations + 2
  | .readVersion => loopCost world runner.migrations + 1
  | .selecting => loopCost world runner.migrations
  | .beginning _ statements => loopCost world runner.migrations + statements.length + 3
  | .applying _ left => loopCost world runner.migrations + left.length + 2
  | .committing _ => loopCost world runner.migrations + 1
  | .rollingBack => 2
  | .unlock => 1
  | .finished => 0

theorem nextPending_cost (world : World Schema) {current : Int} {migrations rest : List Migration}
    {migration : Migration} (found : nextPending current migrations = some (migration, rest)) :
    fileCost world migration + loopCost world rest ≤ loopCost world migrations := by
  induction migrations with
  | nil => cases found
  | cons first later ih =>
      simp only [nextPending] at found
      rw [loopCost]
      split at found
      · have below := ih found
        omega
      · cases found
        omega

def Unfailed (runner : Runner) : Prop :=
  match runner.phase with
  | .rollingBack => False
  | .unlock | .finished => runner.result.success = true
  | _ => True

theorem leave_unfailed {driver : Driver} {runner : Runner}
    (well : runner.result.success = true) : Unfailed (leave driver runner) := by
  unfold leave
  by_cases lockless : driver = .sqlite
  · simpa only [Unfailed, lockless, if_true] using well
  · simpa only [Unfailed, lockless, if_false] using well

theorem leave_cost (world : World Schema) (runner : Runner) :
    cost world (leave world.driver runner) ≤ 1 := by
  unfold leave
  by_cases lockless : world.driver = .sqlite
  · simp [cost, lockless]
  · simp [cost, lockless]

/-- Where the files apply, a run that meets no fault goes on, and never fails. -/
theorem advance_succeeds {world : World Schema} {base final : Data Schema}
    {all toApply : List Migration} {owner : Owner} {runner : Runner}
    {store : Store Owner (Data Schema)} (atomic : Transactional world)
    (known : Known base all toApply) (applies : applyAll world toApply base = some final)
    (place : Place world base all toApply owner runner store) (unfailed : Unfailed runner)
    (running : runner.phase ≠ .finished) :
    ∃ after next, advance world owner .succeeds runner store = some (after, next) ∧
      Unfailed after ∧ cost world after < cost world runner := by
  obtain ⟨rest, grown, inPhase⟩ := place
  have remaining := (grown_rest atomic grown).mpr applies
  obtain ⟨phase, migrations, current, result⟩ := runner
  cases phase with
  | createHistory =>
      refine ⟨_, _, rfl, ?_⟩
      by_cases lockless : world.driver = .sqlite
      · simp [Unfailed, cost, lockless]
      · simp [Unfailed, cost, lockless]
  | lock => exact ⟨_, _, rfl, trivial, by simp [cost]⟩
  | readVersion => exact ⟨_, _, rfl, trivial, by simp [cost]⟩
  | selecting =>
      obtain ⟨idle, well, ahead⟩ := inPhase
      refine ⟨_, _, rfl, ?_⟩
      rcases nextPending_cases current migrations with
        ⟨none_left, empty⟩ | ⟨migration, later, found, parted⟩
      · have small := leave_cost world ⟨.selecting, migrations, current, result⟩
        simp only [select, none_left]
        have bound := loopCost_bound world migrations
        refine ⟨leave_unfailed well, ?_⟩
        show cost world (leave world.driver ⟨.selecting, migrations, current, result⟩) <
          loopCost world migrations
        omega
      · have next : rest = migration :: pending current later := ahead.trans parted
        rw [next, applyAll] at remaining
        have bounded := nextPending_cost world found
        simp only [select, found, if_true]
        cases split_up : statementsOf world migration with
        | error problem =>
            simp only [applyMigration, split_up, Option.bind_none] at remaining
            cases remaining
        | ok statements =>
            refine ⟨trivial, ?_⟩
            simp only [fileCost, split_up] at bounded
            simp only [cost]
            omega
  | beginning migration statements =>
      have begun : advance world owner .succeeds
          ⟨.beginning migration statements, migrations, current, result⟩ store =
          some (⟨.applying migration statements, migrations, current, result⟩,
            ⟨store.committed, some (owner, store.committed)⟩) := by
        simp only [advance, if_true, begin_idle inPhase.1, Option.map_some]
      exact ⟨_, _, begun, trivial, by simp [cost]⟩
  | applying migration left =>
      obtain ⟨well, ahead, applying⟩ := inPhase
      obtain ⟨working, own, history, prepared⟩ := applying.resolve_right fun loose => loose.1 atomic
      obtain ⟨statements, split_up, same⟩ := prepared atomic
      rw [ahead, applyAll] at remaining
      obtain ⟨data, applied, _⟩ := Option.bind_eq_some_iff.mp remaining
      simp only [applyMigration, split_up] at applied
      obtain ⟨schema, done, _⟩ := Option.map_eq_some_iff.mp applied
      rw [← same] at done
      cases left with
      | nil =>
          obtain ⟨past, split_all, recorded⟩ := grown_history known grown
          -- The insert meets no row of its version, as the history holds the earlier files only.
          have fresh : migration.version ∉ working.history.map Row.version := by
            rw [history, recorded]
            exact unrecorded (ahead ▸ split_all ▸ known.ascending)
          have inserted : advance world owner .succeeds
              ⟨.applying migration [], migrations, current, result⟩ store =
              some (⟨.committing migration, migrations, current, result⟩, ⟨store.committed,
                some (owner, { working with history := working.history ++ [migration.row] })⟩) := by
            simp only [advance, record, seen_own own, write_own own]
            rw [if_pos ⟨trivial, fresh⟩]
            rfl
          exact ⟨_, _, inserted, trivial, by simp [cost]⟩
      | cons statement left =>
          rw [execAll] at done
          obtain ⟨now, ran, _⟩ := Option.bind_eq_some_iff.mp done
          have atOnce : (world.driver = .mariaDb && world.ddl statement) = false := by
            simp [show world.driver ≠ .mariaDb from atomic]
          have executed : advance world owner .succeeds
              ⟨.applying migration (statement :: left), migrations, current, result⟩ store =
              some (⟨.applying migration left, migrations, current, result⟩,
                ⟨store.committed, some (owner, { working with schema := now })⟩) := by
            simp [advance, execute, atOnce, seen_own own, ran, write_own own]
          exact ⟨_, _, executed, trivial, by simp [cost]⟩
  | committing migration => exact ⟨_, _, rfl, trivial, by simp [cost, committed]⟩
  | rollingBack => exact unfailed.elim
  | unlock => exact ⟨_, _, rfl, unfailed, by simp [cost]⟩
  | finished => exact absurd rfl running

end VoltMod.Migrator
