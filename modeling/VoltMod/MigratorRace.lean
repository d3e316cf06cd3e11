import VoltMod.MigratorRuns

/-! Two runs of one folder against one SQLite database. Only the first to read the
version may find files to apply; the other must not read before they are all in. -/
namespace VoltMod.Migrator
open MigrationText TransactionStore Transition

variable {Schema : Type} {entries : List Entry}

def racing (world : World Schema) (listings : Bool → Listing entries) (base : Data Schema) :
    Pair Schema :=
  ⟨fun who => start world (some (listings who).migrations), ⟨base, none⟩⟩

/-- Neither run has failed; what is in the database is some of the first files, each once,
and once both runs are through it is all of them. -/
structure Undisturbed (world : World Schema) (toApply : List Migration) (base : Data Schema)
    (state : Pair Schema) : Prop where
  succeeded : ∀ who, (state.runners who).phase = .finished →
    (state.runners who).result.success = true
  once : ∃ done rest, toApply = done ++ rest ∧
    applyAll world done base = some state.store.committed
  complete : (∀ who, (state.runners who).phase = .finished) →
    applyAll world toApply base = some state.store.committed

/-- Before the statement that reads the version. -/
def Runner.early (runner : Runner) : Prop :=
  runner.phase = .createHistory ∨ runner.phase = .readVersion

/-- A run reads the version before the other one does, or finds every file recorded. -/
def ReadsInTurn (state : Pair Schema) (who : Bool) : Prop :=
  (state.runners who).phase = .readVersion →
    (state.runners !who).early ∨
    ∀ migration ∈ (state.runners who).migrations,
      migration.version ≤ maxVersion state.store.committed.history

/-- A run that has not read yet, or that found nothing to do. -/
def Waiting (all : List Migration) (runner : Runner) : Prop :=
  (runner.early ∧ runner.migrations = all) ∨
    (runner.result.success = true ∧
      ((runner.phase = .selecting ∧ runner.pending = []) ∨ runner.phase = .finished))

structure Serial (world : World Schema) (base : Data Schema) (all toApply : List Migration)
    (worker : Bool) (state : Pair Schema) : Prop where
  place : Place world base all toApply worker (state.runners worker) state.store
  unfailed : Unfailed (state.runners worker)
  waiting : Waiting all (state.runners !worker)

theorem serial_undisturbed {world : World Schema} {base : Data Schema}
    {all toApply : List Migration} {worker : Bool} {state : Pair Schema}
    (atomic : Transactional world) (serial : Serial world base all toApply worker state) :
    Undisturbed world toApply base state := by
  obtain ⟨rest, grown, inPhase⟩ := serial.place
  obtain ⟨done, parted, history, applied⟩ := id grown
  have working (ended : (state.runners worker).phase = .finished) :
      (state.runners worker).result.success = true := by
    simpa only [Unfailed, ended] using serial.unfailed
  constructor
  · intro who ended
    by_cases same : who = worker
    · subst same
      exact working ended
    · have other : who = !worker := Bool.eq_not.mpr same
      subst other
      rcases serial.waiting with ⟨early | early, _⟩ | ⟨success, _⟩
      · rw [ended] at early
        cases early
      · rw [ended] at early
        cases early
      · exact success
  · exact ⟨done, rest, parted, applied atomic⟩
  · intro ended
    have through := ended worker
    simp only [InPhase, through] at inPhase
    have none_left := inPhase.2 (working through)
    exact (grown_rest atomic grown).mp (by rw [none_left]; rfl)

/-- Only the worker has a transaction open. -/
theorem place_writing {Owner : Type} {world : World Schema} {all rest : List Migration}
    {owner : Owner} {runner : Runner} {store : Store Owner (Data Schema)}
    (inPhase : InPhase world all rest owner runner store) :
    store.writing = none ∨ ∃ working, store.writing = some (owner, working) := by
  obtain ⟨phase, migrations, current, result⟩ := runner
  cases phase with
  | createHistory => exact .inl inPhase.1
  | lock => exact .inl inPhase.1
  | readVersion => exact .inl inPhase.1
  | selecting => exact .inl inPhase.1
  | beginning migration statements => exact .inl inPhase.1
  | applying migration left =>
      rcases inPhase.2.2 with ⟨working, own, _⟩ | ⟨_, idle⟩
      · exact .inr ⟨working, own⟩
      · exact .inl idle
  | committing migration =>
      rcases inPhase.2 with ⟨working, own, _⟩ | ⟨_, idle, _⟩
      · exact .inr ⟨working, own⟩
      · exact .inl idle
  | rollingBack => exact inPhase
  | unlock => exact .inl inPhase.1
  | finished => exact .inl inPhase.1

theorem seen_committed {world : World Schema} {all rest : List Migration} {worker : Bool}
    {runner : Runner} {store : Store Bool (Data Schema)}
    (inPhase : InPhase world all rest worker runner store) :
    seen (!worker) store = store.committed := by
  rcases place_writing inPhase with idle | ⟨working, own⟩
  · exact seen_idle idle _
  · exact seen_other own (by simp)

theorem early_place {Owner : Type} {world : World Schema} {all rest : List Migration}
    {owner : Owner} {runner : Runner} {store : Store Owner (Data Schema)} (early : runner.early)
    (inPhase : InPhase world all rest owner runner store) :
    store.writing = none ∧ runner.migrations = all := by
  rcases early with phase | phase
  · simpa only [InPhase, phase] using inPhase
  · simpa only [InPhase, phase] using inPhase

/-- The waiting run leaves the database alone; reading first makes it the worker. -/
theorem waiting_step {world : World Schema} {base : Data Schema} {all toApply : List Migration}
    {worker : Bool} {state : Pair Schema} {after : Runner} {next : Store Bool (Data Schema)}
    (lockless : world.driver = .sqlite) (known : Known base all toApply)
    (serial : Serial world base all toApply worker state)
    (inTurn : ReadsInTurn state !worker)
    (moved : advance world (!worker) .succeeds (state.runners !worker) state.store =
      some (after, next)) :
    (next = state.store ∧ Waiting all after) ∨
      ((state.runners worker).early ∧ (state.runners worker).migrations = all ∧
        Place world base all toApply (!worker) after next ∧ Unfailed after) := by
  obtain ⟨rest, grown, inPhase⟩ := serial.place
  rcases serial.waiting with ⟨early | early, listed⟩ | ⟨success, ⟨selecting, none_left⟩ | ended⟩
  · simp only [advance, early, if_true, lockless] at moved
    cases moved
    exact .inl ⟨rfl, .inl ⟨.inr rfl, listed⟩⟩
  · have reads := inTurn early
    rw [Bool.not_not] at reads
    -- Reading before the other run makes this one the worker; reading after it is done leaves
    -- it nothing to apply.
    rcases reads with first | nothing
    · obtain ⟨idle, same⟩ := early_place first inPhase
      have ready : InPhase world all rest (!worker) (state.runners !worker) state.store := by
        simp only [InPhase, early]
        exact ⟨idle, listed⟩
      have place := advance_place known ⟨rest, grown, ready⟩ moved
      simp only [advance, early, if_true] at moved
      cases moved
      exact .inr ⟨first, same, place, trivial⟩
    · simp only [advance, early, if_true, seen_committed inPhase] at moved
      cases moved
      refine .inl ⟨rfl, .inr ⟨rfl, .inl ⟨rfl, ?_⟩⟩⟩
      apply List.filter_eq_nil_iff.mpr
      intro migration member
      simpa using nothing migration member
  · simp only [advance, selecting] at moved
    cases moved
    rcases nextPending_cases (state.runners !worker).current (state.runners !worker).migrations with
      ⟨found, _⟩ | ⟨migration, later, _, parted⟩
    · simp only [select, found, leave, lockless, if_true]
      exact .inl ⟨trivial, .inr ⟨success, .inr rfl⟩⟩
    · rw [Runner.pending, parted] at none_left
      cases none_left
  · simp only [advance, ended] at moved
    cases moved

/-- The step law of the race: one run works, the other waits. -/
theorem pair_step {world : World Schema} {base final : Data Schema} {all toApply : List Migration}
    {worker who : Bool} {before after : Pair Schema} (lockless : world.driver = .sqlite)
    (known : Known base all toApply) (applies : applyAll world toApply base = some final)
    (serial : Serial world base all toApply worker before) (inTurn : ReadsInTurn before who)
    (moved : pair world before who = some after) :
    ∃ next, Serial world base all toApply next after := by
  have atomic : Transactional world := by
    rw [Transactional, lockless]
    exact nofun
  obtain ⟨⟨runner, store⟩, advanced, rfl⟩ := Option.map_eq_some_iff.mp moved
  by_cases works : who = worker
  · subst works
    have running : (before.runners who).phase ≠ .finished := by
      intro ended
      simp only [advance, ended] at advanced
      cases advanced
    obtain ⟨_, _, same, unfailed, _⟩ :=
      advance_succeeds atomic known applies serial.place serial.unfailed running
    cases advanced.symm.trans same
    have place := advance_place known serial.place advanced
    exact ⟨who, by simpa using place, by simpa using unfailed, by simpa using serial.waiting⟩
  · have other : who = !worker := Bool.eq_not.mpr works
    subst other
    rcases waiting_step lockless known serial inTurn advanced with
      ⟨rfl, waiting⟩ | ⟨first, listed, place, unfailed⟩
    · exact ⟨worker, by simpa using serial.place, by simpa using serial.unfailed,
        by simpa using waiting⟩
    · exact ⟨!worker, by simpa using place, by simpa using unfailed,
        by simpa using .inl ⟨first, listed⟩⟩

/-- Two runs of one folder, their statements in any order that reads in turn: neither
fails, and every file is applied exactly once. -/
theorem race_undisturbed (world : World Schema) (lockless : world.driver = .sqlite)
    (valid : isValidTableName world.table = true) (numbered : WellNumbered entries)
    (listings : Bool → Listing entries) (past toApply : List Migration)
    (split : (listings false).migrations = past ++ toApply) (base final : Data Schema)
    (recorded : base.history = past.map Migration.row)
    (applies : applyAll world toApply base = some final) (order : List Bool)
    (inTurn : Guarded (pair world) ReadsInTurn (racing world listings base) order) :
    Always (pair world) (Undisturbed world toApply base) (racing world listings base) order := by
  have atomic : Transactional world := by
    rw [Transactional, lockless]
    exact nofun
  have known : Known base (listings false).migrations toApply :=
    ⟨listing_ascending numbered _, past, split, recorded⟩
  have grown : Grown world base toApply toApply base := ⟨[], rfl, by simp, fun _ => rfl⟩
  have serial : Serial world base (listings false).migrations toApply false
      (racing world listings base) := by
    refine ⟨start_place grown rfl, ?_, .inl ⟨.inl ?_, ?_⟩⟩
    · simp only [racing, start, valid, if_true, Unfailed]
    · simp only [racing, start, valid, if_true]
    · simp only [racing, start, valid, if_true]
      exact listing_unique numbered _ _
  have kept : ∀ before who after, (∃ worker,
      Serial world base (listings false).migrations toApply worker before) →
      ReadsInTurn before who → pair world before who = some after →
      ∃ worker, Serial world base (listings false).migrations toApply worker after := by
    rintro before who after ⟨worker, serial⟩ reads moved
    exact pair_step lockless known applies serial reads moved
  apply always_of_guarded kept _ ⟨false, serial⟩ inTurn
  rintro state ⟨worker, serial⟩
  exact serial_undisturbed atomic serial

def justBans : List Entry := [⟨bans.name, true⟩]

def justBansListed : Listing justBans where
  migrations := [bans]
  lists := by decide
  ascending := by decide

/-- One run after the other. -/
theorem one_after_other_undisturbed :
    Always (pair logging) (Undisturbed logging [bans] ⟨[], []⟩)
      (racing logging (fun _ => justBansListed) ⟨[], []⟩)
      (List.replicate 8 false ++ List.replicate 3 true) := by
  refine race_undisturbed logging rfl rfl ⟨by decide, by decide⟩ _ [] [bans] rfl _
    ⟨["CREATE 1_bans.sql".toList], [bans.row]⟩ rfl rfl _ ?_
  apply guarded_cons rfl nofun
  refine guarded_cons rfl (fun _ => .inl (.inl rfl)) ?_
  refine guarded_cons rfl nofun (guarded_cons rfl nofun (guarded_cons rfl nofun ?_))
  refine guarded_cons rfl nofun (guarded_cons rfl nofun (guarded_cons rfl nofun ?_))
  apply guarded_cons rfl nofun
  refine guarded_cons rfl (fun _ => .inr (by decide)) ?_
  exact guarded_cons rfl nofun trivial

/-- Both runs read the version before either applies the one file: the second to reach it
fails on its history row. -/
theorem second_reader_fails :
    ∃ last : Pair (List Text),
      run (pair logging) (racing logging (fun _ => justBansListed) ⟨[], []⟩)
        [false, false, true, true, false, false, false, false, false, false, true, true, true,
          true, true] = some last ∧
      (∀ who, (last.runners who).phase = .finished) ∧
      (last.runners true).result = ⟨false, 0, 0⟩ ∧
      ¬Undisturbed logging [bans] ⟨[], []⟩ last := by
  refine ⟨_, rfl, by decide, rfl, fun undisturbed => ?_⟩
  exact absurd (undisturbed.succeeded true rfl) (by decide)

end VoltMod.Migrator
