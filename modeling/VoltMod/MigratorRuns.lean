import VoltMod.MigratorProgress

/-! Runs one after another on one database: after a failed run the database is at a
prefix of the files and a later run takes it to the end; success means every file of a
well numbered folder is in. -/
namespace VoltMod.Migrator
open MigrationText TransactionStore Transition

variable {Schema : Type}

/-- The versions the runner can tell apart and does not skip. -/
structure WellNumbered (entries : List Entry) : Prop where
  positive : ∀ migration ∈ versioned entries, 0 < migration.version
  distinct : ((versioned entries).map Migration.version).Nodup

variable {entries : List Entry}

theorem listing_ascending (numbered : WellNumbered entries) (listing : Listing entries) :
    Ascending listing.migrations := by
  have distinct : (listing.migrations.map Migration.version).Nodup :=
    (listing.lists.map Migration.version).nodup_iff.mpr numbered.distinct
  refine ⟨fun migration member => ?_, ?_⟩
  · exact numbered.positive migration (listing.lists.mem_iff.mp member)
  · have apart : listing.migrations.Pairwise fun earlier later => earlier.version ≠ later.version :=
      List.pairwise_map.mp distinct
    exact (listing.ascending.and apart).imp fun both => lt_of_le_of_ne both.1 both.2

/-- Distinct versions leave the sort no choice. -/
theorem listing_unique (numbered : WellNumbered entries) (first second : Listing entries) :
    first.migrations = second.migrations := by
  apply List.Perm.eq_of_pairwise _ first.ascending second.ascending
    (first.lists.trans second.lists.symm)
  intro left right inFirst inSecond below above
  have same : left.version = right.version := le_antisymm below above
  exact List.inj_on_of_nodup_map numbered.distinct (first.lists.mem_iff.mp inFirst)
    (second.lists.mem_iff.mp inSecond) same

def SoloPlace (world : World Schema) (base : Data Schema) (all toApply : List Migration)
    (state : Solo Schema) : Prop :=
  Place world base all toApply () state.runner state.store

theorem start_place {Owner : Type} {world : World Schema} {base : Data Schema}
    {all toApply rest : List Migration} {owner : Owner} {store : Store Owner (Data Schema)}
    (grown : Grown world base toApply rest store.committed) (idle : store.writing = none) :
    Place world base all toApply owner (start world (some all)) store := by
  unfold start
  split
  · exact ⟨rest, grown, idle, rfl⟩
  · exact ⟨rest, grown, idle, by simp [failure]⟩

theorem untouched_place (world : World Schema) (base : Data Schema)
    (all toApply : List Migration) :
    SoloPlace world base all toApply (untouched base) :=
  ⟨toApply, ⟨[], rfl, by simp [untouched], fun _ => rfl⟩, rfl, by simp [untouched, failure]⟩

theorem solo_place {world : World Schema} {base : Data Schema} {toApply : List Migration}
    {listing : Listing entries} {before after : Solo Schema} {action : Action entries}
    (numbered : WellNumbered entries) (known : Known base listing.migrations toApply)
    (place : SoloPlace world base listing.migrations toApply before)
    (moved : solo world before action = some after) :
    SoloPlace world base listing.migrations toApply after := by
  cases action with
  | run other =>
      simp only [solo] at moved
      split at moved
      · next ended =>
          cases moved
          obtain ⟨rest, grown, inPhase⟩ := place
          simp only [InPhase, ended] at inPhase
          rw [listing_unique numbered other listing]
          exact start_place grown inPhase.1
      · cases moved
  | answer answer =>
      obtain ⟨next, advanced, rfl⟩ := Option.map_eq_some_iff.mp moved
      exact advance_place known place advanced

theorem run_place {world : World Schema} {base : Data Schema} {toApply : List Migration}
    {listing : Listing entries} {before after : Solo Schema} {actions : List (Action entries)}
    (numbered : WellNumbered entries) (known : Known base listing.migrations toApply)
    (place : SoloPlace world base listing.migrations toApply before)
    (ran : run (solo world) before actions = some after) :
    SoloPlace world base listing.migrations toApply after :=
  run_preserves (fun _ _ _ place moved => solo_place numbered known place moved) place ran

/-- A run with no fault, up to its success. -/
def Completes (world : World Schema) (listing : Listing entries) (before : Solo Schema)
    (final : Data Schema) : Prop :=
  ∃ count last, run (solo world) before
      (.run listing :: List.replicate count (.answer .succeeds)) = some last ∧
    last.runner.phase = .finished ∧ last.runner.result.success = true ∧
    last.store = ⟨final, none⟩

theorem finished_place {world : World Schema} {base : Data Schema} {all toApply : List Migration}
    {state : Solo Schema} (place : SoloPlace world base all toApply state)
    (ended : state.runner.phase = .finished) :
    state.store.writing = none ∧ ∃ rest, Grown world base toApply rest state.store.committed ∧
      (state.runner.result.success = true → rest = []) := by
  obtain ⟨rest, grown, inPhase⟩ := place
  simp only [InPhase, ended] at inPhase
  exact ⟨inPhase.1, rest, grown, inPhase.2⟩

/-- Reporting success means nothing is left. -/
theorem success_applies {world : World Schema} {base : Data Schema} {all toApply : List Migration}
    {state : Solo Schema} (place : SoloPlace world base all toApply state)
    (ended : state.runner.phase = .finished) (success : state.runner.result.success = true) :
    state.store.writing = none ∧
      state.store.committed.history = base.history ++ toApply.map Migration.row ∧
      (Transactional world → applyAll world toApply base = some state.store.committed) := by
  obtain ⟨idle, rest, grown, complete⟩ := finished_place place ended
  obtain ⟨done, parted, history, applied⟩ := grown
  have all_done : toApply = done := by rw [parted, complete success, List.append_nil]
  subst all_done
  exact ⟨idle, history, applied⟩

theorem completes {world : World Schema} {base final : Data Schema} {toApply : List Migration}
    {listing : Listing entries} {before : Solo Schema} (atomic : Transactional world)
    (numbered : WellNumbered entries) (valid : isValidTableName world.table = true)
    (known : Known base listing.migrations toApply)
    (applies : applyAll world toApply base = some final)
    (ended : before.runner.phase = .finished) (here : before.store = ⟨base, none⟩) :
    Completes world listing before final := by
  have started : solo world before (.run listing) =
      some { before with runner := start world (some listing.migrations) } := by
    simp only [solo, ended, if_true]
  have grown : Grown world base toApply toApply before.store.committed :=
    ⟨[], rfl, by simp [here], fun _ => by rw [here]; rfl⟩
  have placed : SoloPlace world base listing.migrations toApply
      { before with runner := start world (some listing.migrations) } :=
    start_place grown (by rw [here])
  have fine : Unfailed (start world (some listing.migrations)) := by
    simp only [start, valid, if_true, Unfailed]
  -- Each answer leaves less to do, so the run reaches its end.
  have progress : ∀ state, SoloPlace world base listing.migrations toApply state ∧
      Unfailed state.runner → ¬state.runner.phase = .finished →
      ∃ next, solo world state (Action.answer .succeeds : Action entries) = some next ∧
        (SoloPlace world base listing.migrations toApply next ∧ Unfailed next.runner) ∧
        cost world next.runner < cost world state.runner := by
    rintro state ⟨place, unfailed⟩ running
    obtain ⟨runner, store, moved, well, smaller⟩ :=
      advance_succeeds atomic known applies place unfailed running
    have taken : solo world state (Action.answer .succeeds : Action entries) =
        some ⟨runner, store⟩ := by
      simp only [solo, moved, Option.map_some]
    exact ⟨⟨runner, store⟩, taken, ⟨solo_place numbered known place taken, well⟩, smaller⟩
  obtain ⟨count, last, ran, ⟨place, unfailed⟩, stopped⟩ :=
    run_until (fun state : Solo Schema => cost world state.runner) progress ⟨placed, fine⟩
  have success : last.runner.result.success = true := by
    simpa only [Unfailed, stopped] using unfailed
  obtain ⟨idle, _, applied⟩ := success_applies place stopped success
  have reached : final = last.store.committed :=
    Option.some.inj (applies.symm.trans (applied atomic))
  refine ⟨count, last, (run_cons_iff ..).mpr ⟨_, started, ran⟩, stopped, success, ?_⟩
  rw [reached, ← idle]

/-- A table name that does not do keeps every run from the database. -/
theorem refused_throughout {world : World Schema} (refused : isValidTableName world.table ≠ true)
    {before after : Solo Schema} {actions : List (Action entries)}
    (start : before.runner.phase = .finished ∧ before.runner.result.success = false)
    (ran : run (solo world) before actions = some after) :
    after.runner.phase = .finished ∧ after.runner.result.success = false := by
  have kept : Preserves (@solo Schema world entries) fun state =>
      state.runner.phase = .finished ∧ state.runner.result.success = false := by
    rintro state (listing | answer) next ⟨ended, failed⟩ moved
    · simp only [solo, ended, if_true, Migrator.start, refused] at moved
      cases moved
      exact ⟨rfl, rfl⟩
    · simp only [solo, advance, ended, Option.map_none] at moved
      cases moved
  exact run_preserves kept start ran

theorem grown_known {world : World Schema} {base data : Data Schema}
    {all toApply rest : List Migration} (known : Known base all toApply)
    (grown : Grown world base toApply rest data) : Known data all rest :=
  ⟨known.ascending, grown_history known grown⟩

theorem completes_applies {world : World Schema} {base final : Data Schema}
    {toApply : List Migration} {listing : Listing entries} (atomic : Transactional world)
    (numbered : WellNumbered entries) (known : Known base listing.migrations toApply)
    (completed : Completes world listing (untouched base) final) :
    applyAll world toApply base = some final ∧ isValidTableName world.table = true := by
  obtain ⟨count, last, ran, ended, success, here⟩ := completed
  have place := run_place numbered known (untouched_place world base _ toApply) ran
  obtain ⟨_, _, applied⟩ := success_applies place ended success
  rw [here] at applied
  refine ⟨applied atomic, ?_⟩
  by_contra refused
  have failed := (refused_throughout refused ⟨rfl, rfl⟩ ran).2
  rw [success] at failed
  cases failed

/-- After a run that stopped anywhere, failed or not, the database holds exactly some of
the first pending files. A later run that reports success applies exactly the others, and
a later run with no fault does: it ends where one that was never interrupted ends. -/
theorem stopped_run_resumes (world : World Schema) (atomic : Transactional world)
    (numbered : WellNumbered entries) (listing : Listing entries)
    (past toApply : List Migration) (split : listing.migrations = past ++ toApply)
    (base : Data Schema) (recorded : base.history = past.map Migration.row)
    (answers : List Answer) (after : Solo Schema)
    (ran : run (solo world) (untouched base) (.run listing :: answers.map .answer) = some after)
    (stopped : after.runner.phase = .finished) :
    ∃ done rest, toApply = done ++ rest ∧ after.store.writing = none ∧
      applyAll world done base = some after.store.committed ∧
      after.store.committed.history = (past ++ done).map Migration.row ∧
      (after.runner.result.success = true → rest = []) ∧
      (∀ more last, run (solo world) after (.run listing :: List.map .answer more) = some last →
        last.runner.phase = .finished → last.runner.result.success = true →
        applyAll world rest after.store.committed = some last.store.committed ∧
          Completes world listing (untouched base) last.store.committed) ∧
      ∀ final, Completes world listing (untouched base) final →
        applyAll world rest after.store.committed = some final ∧
          Completes world listing after final := by
  have known : Known base listing.migrations toApply :=
    ⟨listing_ascending numbered listing, past, split, recorded⟩
  have place := run_place numbered known (untouched_place world base _ toApply) ran
  obtain ⟨idle, rest, grown, complete⟩ := finished_place place stopped
  have onward := grown_known known grown
  obtain ⟨done, parted, history, applied⟩ := id grown
  refine ⟨done, rest, parted, idle, applied atomic, ?_, complete, ?_, ?_⟩
  · rw [history, recorded, List.map_append]
  · intro more last resumed ended success
    have later := run_place numbered known place resumed
    have whole := (success_applies later ended success).2.2 atomic
    have valid : isValidTableName world.table = true := by
      by_contra refused
      have failed := (refused_throughout refused (refused_throughout refused ⟨rfl, rfl⟩ ran) resumed).2
      rw [success] at failed
      cases failed
    exact ⟨(grown_rest atomic grown).mpr whole,
      completes atomic numbered valid known whole rfl rfl⟩
  · intro final uninterrupted
    obtain ⟨whole, valid⟩ := completes_applies atomic numbered known uninterrupted
    have remaining := (grown_rest atomic grown).mpr whole
    refine ⟨remaining, completes atomic numbered valid onward remaining stopped ?_⟩
    rw [← idle]

/-- The schema is the statements it was built with. -/
def logging : World (List Text) where
  driver := .sqlite
  exec statement schema := some (schema ++ [statement])
  ddl _ := false
  files migration := "CREATE ".toList ++ migration.name
  table := "schema_migrations".toList

def bans : Migration := ⟨1, "1_bans.sql".toList⟩
def mutes : Migration := ⟨2, "2_mutes.sql".toList⟩

def bansAndMutes : List Entry := [⟨mutes.name, true⟩, ⟨bans.name, true⟩]

def bansAndMutesListed : Listing bansAndMutes where
  migrations := [bans, mutes]
  lists := by decide
  ascending := by decide

/-- The second file's statement failed. -/
def interrupted : Solo (List Text) :=
  ⟨⟨.finished, [], 0, ⟨false, 1, 1⟩⟩, ⟨⟨["CREATE 1_bans.sql".toList], [bans.row]⟩, none⟩⟩

theorem interrupted_run_resumes :
    Completes logging bansAndMutesListed interrupted
      ⟨["CREATE 1_bans.sql".toList, "CREATE 2_mutes.sql".toList], [bans.row, mutes.row]⟩ := by
  obtain ⟨done, rest, _, _, _, _, _, _, finish⟩ := stopped_run_resumes logging nofun
    ⟨by decide, by decide⟩ bansAndMutesListed [] [bans, mutes] rfl ⟨[], []⟩ rfl
    (List.replicate 9 .succeeds ++ [.fails, .succeeds]) interrupted rfl rfl
  exact (finish _ ⟨13, ⟨⟨.finished, [], 0, ⟨true, 2, 2⟩⟩, _⟩, rfl, rfl, rfl, rfl⟩).2

def noLater (earlier later : Migration) : Bool := decide (earlier.version ≤ later.version)

/-- One listing the sort may produce. -/
def listed (entries : List Entry) : Listing entries where
  migrations := (versioned entries).mergeSort noLater
  lists := List.mergeSort_perm _ _
  ascending := by
    have transitive (first second third : Migration) (below : noLater first second = true)
        (above : noLater second third = true) : noLater first third = true := by
      simp only [noLater, decide_eq_true_eq] at below above ⊢
      exact le_trans below above
    have total (first second : Migration) :
        (noLater first second || noLater second first) = true := by
      simp only [noLater, Bool.or_eq_true, decide_eq_true_eq]
      exact le_total first.version second.version
    exact (List.pairwise_mergeSort transitive total (versioned entries)).imp of_decide_eq_true

/-- A reported success is one: the history is the folder's files in order, each once, and
what a transaction can take back is exactly what they make of the schema. -/
def Truthful (entries : List Entry) (world : World Schema) (schema : Schema)
    (state : Solo Schema) : Prop :=
  state.runner.phase = .finished → state.runner.result.success = true →
    state.store.writing = none ∧ ∃ listing : Listing entries,
      state.store.committed.history = listing.migrations.map Migration.row ∧
      (Transactional world → applyAll world listing.migrations ⟨schema, []⟩ =
        some state.store.committed)

theorem numbered_truthful (numbered : WellNumbered entries) (world : World Schema)
    (schema : Schema) (actions : List (Action entries)) :
    Always (solo world) (Truthful entries world schema) (untouched ⟨schema, []⟩) actions := by
  have known : Known (⟨schema, []⟩ : Data Schema) (listed entries).migrations
      (listed entries).migrations :=
    ⟨listing_ascending numbered _, [], rfl, rfl⟩
  apply always_of_preserves (fun _ _ _ place moved => solo_place numbered known place moved)
    _ (untouched_place world _ _ _) actions
  intro state place ended success
  obtain ⟨idle, history, applied⟩ := success_applies place ended success
  exact ⟨idle, listed entries, history, applied⟩

/-- Every statement does, and every file is empty. -/
def accepting : World Unit where
  driver := .sqlite
  exec _ _ := some ()
  ddl _ := false
  files _ := []
  table := "schema_migrations".toList

structure Counted (history : List Row) : Prop where
  positive : ∀ row ∈ history, 0 < row.version
  distinct : (history.map Row.version).Nodup

theorem counted_next {history : List Row} {migration : Migration} (counted : Counted history)
    (above : maxVersion history < migration.version) : Counted (history ++ [migration.row]) := by
  have bottom : 0 ≤ maxVersion history := by
    cases history with
    | nil => exact le_refl _
    | cons first rest =>
        exact le_trans (le_of_lt (counted.positive first (List.mem_cons_self ..)))
          (le_maxVersion (List.mem_cons_self ..))
  constructor
  · intro row member
    rcases List.mem_append.mp member with old | new
    · exact counted.positive row old
    · rw [List.mem_singleton.mp new]
      exact lt_of_le_of_lt bottom above
  · have absent : migration.version ∉ history.map Row.version := by
      intro member
      obtain ⟨row, stored, same⟩ := List.mem_map.mp member
      have below := le_maxVersion stored
      rw [same] at below
      exact absurd above (not_lt.mpr below)
    simpa [Migration.row] using counted.distinct.concat absent

theorem accepting_statements (migration : Migration) :
    statementsOf accepting migration = .ok [] := rfl

/-- The run up to its first file. -/
theorem accepting_selects (listing : Listing entries) (history : List Row) {runner : Runner}
    (ended : runner.phase = .finished) :
    run (solo accepting) ⟨runner, ⟨⟨(), history⟩, none⟩⟩
        [.run listing, .answer .succeeds, .answer .succeeds] =
      some ⟨⟨.selecting, listing.migrations, maxVersion history,
        ⟨true, 0, maxVersion history⟩⟩, ⟨⟨(), history⟩, none⟩⟩ := by
  have valid : isValidTableName accepting.table = true := rfl
  have lockless : accepting.driver = .sqlite := rfl
  simp [run, solo, ended, start, valid, advance, lockless, seen]

/-- The file is applied, whatever comes of the one after it. -/
theorem accepting_applies (entries : List Entry) {history : List Row} {current : Int}
    (result : MigrationResult) {migrations rest : List Migration} {migration : Migration}
    (found : nextPending current migrations = some (migration, rest))
    (fresh : migration.version ∉ history.map Row.version) :
    run (@solo Unit accepting entries) ⟨⟨.selecting, migrations, current, result⟩,
        ⟨⟨(), history⟩, none⟩⟩
      [.answer .succeeds, .answer .succeeds, .answer .succeeds, .answer .succeeds,
        .answer .fails] =
      some ⟨select accepting .fails (committed migration
        ⟨.committing migration, rest, current, result⟩), ⟨⟨(), history ++ [migration.row]⟩, none⟩⟩ := by
  simp only [run, solo, advance, select, found, accepting_statements, if_true, Option.map_some,
    Option.bind_some, begin, record, seen, write]
  rw [if_pos ⟨trivial, fresh⟩]
  rfl

theorem pending_above {current : Int} {all later : List Migration} {migration : Migration}
    (ahead : pending current all = migration :: later) : current < migration.version := by
  have member : migration ∈ pending current all := ahead ▸ List.mem_cons_self ..
  simpa using (List.mem_filter.mp member).2

/-- A file that went in is not pending afterwards, nor is anything new. -/
theorem pending_fewer {history : List Row} {all later : List Migration} {migration : Migration}
    (ahead : pending (maxVersion history) all = migration :: later) :
    (pending (maxVersion (history ++ [migration.row])) all).length <
      (pending (maxVersion history) all).length := by
  have above := pending_above ahead
  have stored : migration.row ∈ history ++ [migration.row] :=
    List.mem_append_right _ (List.mem_singleton_self _)
  have top : migration.version ≤ maxVersion (history ++ [migration.row]) := le_maxVersion stored
  have narrowed : pending (maxVersion (history ++ [migration.row])) all =
      pending (maxVersion (history ++ [migration.row])) (pending (maxVersion history) all) := by
    simp only [pending, List.filter_filter]
    apply List.filter_congr
    intro other _
    by_cases later : maxVersion (history ++ [migration.row]) < other.version
    · have closing : maxVersion history < other.version := lt_trans (lt_of_lt_of_le above top) later
      simp [later, closing]
    · simp [later]
  rw [narrowed]
  apply List.length_filter_lt_length_iff_exists.mpr
  exact ⟨migration, ahead ▸ List.mem_cons_self .., by simpa using top⟩

/-- Retried often enough, with a fault after every file, any folder of harmless files ends
in a run that reports success. -/
theorem accepting_succeeds (entries : List Entry) {history : List Row} (counted : Counted history)
    {runner : Runner} (ended : runner.phase = .finished) :
    ∃ (actions : List (Action entries)) (last : Solo Unit),
      run (solo accepting) ⟨runner, ⟨⟨(), history⟩, none⟩⟩ actions = some last ∧
      last.runner.phase = .finished ∧ last.runner.result.success = true ∧
        Counted last.store.committed.history := by
  generalize size : (pending (maxVersion history) (listed entries).migrations).length = left
  induction left using Nat.strongRecOn generalizing history runner with
  | ind left ih =>
      have selects := accepting_selects (listed entries) history ended
      rcases nextPending_cases (maxVersion history) (listed entries).migrations with
        ⟨none_left, _⟩ | ⟨migration, rest, found, ahead⟩
      · refine ⟨[.run (listed entries), .answer .succeeds, .answer .succeeds] ++ [.answer .succeeds],
          _, (run_append_iff ..).mpr ⟨_, selects, rfl⟩, ?_⟩
        simp only [select, none_left]
        exact ⟨rfl, rfl, counted⟩
      · have above := pending_above ahead
        have fresh : migration.version ∉ history.map Row.version := by
          intro member
          obtain ⟨row, stored, same⟩ := List.mem_map.mp member
          exact absurd (same ▸ le_maxVersion stored) (not_le.mpr above)
        have applies := accepting_applies entries ⟨true, 0, maxVersion history⟩ found fresh
        have ran := (run_append_iff ..).mpr ⟨_, selects, applies⟩
        have more := counted_next counted above
        cases next : nextPending (maxVersion history) rest with
        | none =>
            refine ⟨_, _, ran, ?_⟩
            simp only [select, committed, next]
            exact ⟨rfl, rfl, more⟩
        | some following =>
            have fewer := size ▸ pending_fewer ahead
            have broken : (select accepting .fails (committed migration ⟨.committing migration,
                rest, maxVersion history, ⟨true, 0, maxVersion history⟩⟩)).phase = .finished := by
              simp only [select, committed, next]
              rfl
            obtain ⟨actions, last, later, reached⟩ := ih _ fewer more broken rfl
            exact ⟨_, last, (run_append_iff ..).mpr ⟨_, ran, later⟩, reached⟩

theorem untouched_finished (data : Data Schema) : (untouched data).runner.phase = .finished := rfl

/-- Two files of one version: the first run stops at the second, the next reports success. -/
def twins : List Entry := [⟨"1_bans.sql".toList, true⟩, ⟨"1_mutes.sql".toList, true⟩]

def twinsListed : Listing twins where
  migrations := [⟨1, "1_bans.sql".toList⟩, ⟨1, "1_mutes.sql".toList⟩]
  lists := by decide
  ascending := by decide

end VoltMod.Migrator
