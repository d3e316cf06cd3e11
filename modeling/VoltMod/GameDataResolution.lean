import VoltMod.GameDataScanner

/-!
What the resolution of the whole file gives each key: what the key gives on its own, whatever
was searched for the keys before it.
-/

namespace VoltMod.GameData

open OrderedDict (keys lookup lookup_isSome lookup_mem)
open SigScanner (Image)

section Scan
open SigScanner (scanFrom scanRanges findPatternEx ScanRange)
variable {bytes : List BytePattern.PatternByte} {anchor : Nat}

def Mapped (first : Option Nat) : Prop := ∀ address, first = some address → address ≠ 0

theorem mapped_none : Mapped none := by
  intro address found
  cases found

theorem scanFrom_mapped (range : ScanRange) (fuel start : Nat) (first : Option Nat)
    (mapped : Mapped first) {found : Option Nat × Bool}
    (scanned : scanFrom bytes anchor range fuel start first = .ok found) : Mapped found.1 := by
  induction fuel generalizing start first with
  | zero =>
      cases scanned
      exact mapped
  | succ fuel ih =>
      rw [scanFrom] at scanned
      split at scanned
      · cases scanned
        exact mapped
      · obtain ⟨hit, _, rest⟩ := (bind_ok_iff _ _ _).mp scanned
        cases hit with
        | none =>
            cases rest
            exact mapped
        | some hit =>
            dsimp only at rest
            split at rest
            · cases rest
              exact mapped
            · refine ih _ _ ?_ rest
              intro address here
              cases here
              have base := range.mapped
              omega

theorem scanRanges_mapped (ranges : List ScanRange) (first : Option Nat) (mapped : Mapped first)
    {found : Option Nat × Bool} (scanned : scanRanges bytes anchor ranges first = .ok found) :
    Mapped found.1 := by
  induction ranges generalizing first with
  | nil =>
      cases scanned
      exact mapped
  | cons range ranges ih =>
      obtain ⟨⟨next, alone⟩, one, rest⟩ := (bind_ok_iff _ _ _).mp scanned
      have here := scanFrom_mapped range _ _ first mapped one
      cases alone with
      | true => exact ih next here rest
      | false =>
          cases rest
          exact here

/-- What a pattern is found at is no null pointer. -/
theorem findPatternEx_mapped {loaded : Option (Image × List ScanRange)}
    {frequencies : BytePattern.ByteHistogram} {pattern : List Char} {result : SigScanner.ScanResult}
    (scanned : findPatternEx loaded frequencies pattern = .ok result) : Mapped result.address := by
  cases loaded with
  | none =>
      cases scanned
      exact mapped_none
  | some loaded =>
      obtain ⟨⟨first, unique⟩, ranges, rest⟩ := (bind_ok_iff _ _ _).mp scanned
      cases rest
      exact scanRanges_mapped loaded.2 none mapped_none ranges

end Scan

/-- A value as it must be, or a failure that says why. -/
def Answers {Value : Type} (holds : Value → Prop) : Result Value → Prop
  | .ok value => holds value
  | .error error => error.detail ≠ ""

section Answers
variable {Value Next : Type} {process : Process} {file : GameDataDocument} {holds : Value → Prop}
  {after : Next → Prop}

theorem answers_unbound {reason : String} (given : reason ≠ "") :
    Answers holds (unbound reason) := given

theorem answers_bind {result : Result Value} {next : Value → Result Next}
    (first : Answers holds result) (later : ∀ value, holds value → Answers after (next value)) :
    Answers after (result >>= next) := by
  cases result with
  | error error => exact first
  | ok value => exact later value first

theorem answers_module (moduleName : String) :
    Answers (fun _ => True) (plainModule process moduleName) := by
  rw [plainModule, loadedImage]
  split
  · exact answers_unbound (by simp [toString])
  · trivial

theorem answers_base (moduleName className baseName : String) :
    Answers (fun _ => True) (plainBase process moduleName className baseName) := by
  refine answers_bind (answers_module moduleName) fun image _ => ?_
  have reasoned := process.baseReason image className baseName
  cases found : process.findBaseIn image className baseName with
  | error error => exact reasoned error found
  | ok base => trivial

theorem answers_table (moduleName className baseName : String) :
    Answers (· ≠ 0) (plainTable process moduleName className baseName) := by
  rw [plainTable]
  split
  · refine answers_bind (answers_base _ _ _) fun found _ => ?_
    rw [ownTable]
    split
    · exact answers_unbound (by simp [toString])
    · next present => exact present
  · refine answers_bind (answers_module _) fun image _ => ?_
    rw [foundTable]
    split
    · exact answers_unbound (by simp [toString])
    · next present => exact present

theorem answers_scan (moduleName pattern : String) :
    Answers (·.2 ≠ 0) (scan process moduleName pattern) := by
  rw [scan]
  split
  · exact answers_unbound (by simp)
  · dsimp only
    split
    · exact answers_unbound (by simp [toString])
    · split
      · exact answers_unbound (by simp)
      · next address found =>
          split
          · exact findPatternEx_mapped (process.scans moduleName pattern) address found
          · exact answers_unbound (by simp)

theorem answers_column (windows linux : Option Int) {what : String} (named : what ≠ "") :
    Answers (0 ≤ ·) (columnValue process windows linux what) := by
  rw [columnValue]
  split
  · exact answers_unbound (by simp [toString])
  · split
    · exact answers_unbound (by simp [toString, named])
    · next negative => exact Int.not_lt.mp negative

theorem answers_findScript (table : Nat) (name : String) :
    Answers (fun _ => True) (findScript process table name) := by
  rw [findScript]
  split
  · exact answers_unbound (by simp)
  · next lookup given =>
      have reasoned := process.scriptReason lookup table name
      cases found : lookup table name with
      | error error => exact reasoned error given found
      | ok target => trivial

theorem answers_scriptSlot (table : Nat) (name : String) :
    Answers (0 ≤ ·) (scriptSlot process table name) := by
  refine answers_bind (answers_findScript _ _) fun target _ => ?_
  split
  · exact answers_unbound (by simp [toString])
  · next negative => exact Int.not_lt.mp negative

theorem answers_global (key : String) : Answers (·.1 ≠ 0) (findGlobal process file key) := by
  rw [findGlobal]
  dsimp only
  split
  · exact answers_unbound (by simp [toString])
  · refine answers_bind (answers_scan _ _) fun found _ => ?_
    obtain ⟨image, address⟩ := found
    dsimp only
    split
    · exact answers_unbound (by simp [toString])
    · next inside =>
        intro null
        simp at inside
        exact inside.1.1 null

theorem answers_checkSlot (entry : GameDataDocument.VTable) (image : Image) {table : Nat}
    {index : Int} (present : table ≠ 0) (counted : 0 ≤ index) :
    Answers (fun found => 0 ≤ found.1 ∧ found.2.1 ≠ 0)
      (checkSlot process entry image table index) := by
  rw [checkSlot]
  dsimp only
  split
  · exact answers_unbound (by simp [toString])
  · exact ⟨counted, present⟩

end Answers

/-- A search answers the same whatever was searched before. -/
def Steady {Value : Type} (process : Process) (holds : Value → Prop) (search : Searching Value) :
    Prop :=
  ∃ answer, Answers holds answer ∧ ∀ symbols, Sound process symbols →
    (search symbols).1 = answer ∧ Sound process (search symbols).2

section Steady
variable {Value Next : Type} {process : Process} {file : GameDataDocument} {holds : Value → Prop}
  {after : Next → Prop}

theorem steady_ofExcept {result : Result Value} (answers : Answers holds result) :
    Steady process holds (.ofExcept result) :=
  ⟨result, answers, fun _ sound => ⟨rfl, sound⟩⟩

theorem steady_pure {value : Value} (held : holds value) :
    Steady process holds (pure value : Searching Value) :=
  ⟨.ok value, held, fun _ sound => ⟨rfl, sound⟩⟩

theorem steady_bind {search : Searching Value} {next : Value → Searching Next}
    (first : Steady process holds search)
    (later : ∀ value, holds value → Steady process after (next value)) :
    Steady process after (search >>= next) := by
  have unfolded (symbols : ModuleSymbols) : (search >>= next) symbols =
      ExceptT.bindCont next (search symbols).1 (search symbols).2 := rfl
  obtain ⟨answer, answers, answered⟩ := first
  cases answer with
  | error error =>
      refine ⟨.error error, answers, fun symbols sound => ?_⟩
      obtain ⟨refused, kept⟩ := answered symbols sound
      rw [unfolded, refused]
      exact ⟨rfl, kept⟩
  | ok value =>
      obtain ⟨answer, held, continued⟩ := later value answers
      refine ⟨answer, held, fun symbols sound => ?_⟩
      obtain ⟨given, kept⟩ := answered symbols sound
      rw [unfolded, given]
      exact continued _ kept

theorem steady_module (moduleName : String) :
    Steady process (fun _ => True) (searching (module process · moduleName)) :=
  ⟨_, answers_module moduleName, fun _ sound => module_plain sound moduleName⟩

theorem steady_base (moduleName className baseName : String) :
    Steady process (fun _ => True) (searching (base process · moduleName className baseName)) :=
  ⟨_, answers_base moduleName className baseName,
    fun _ sound => base_plain sound moduleName className baseName⟩

theorem steady_table (moduleName className baseName : String) :
    Steady process (· ≠ 0) (searching (table process · moduleName className baseName)) :=
  ⟨_, answers_table moduleName className baseName,
    fun _ sound => table_plain sound moduleName className baseName⟩

theorem steady_script (entry : GameDataDocument.Function) :
    Steady process (·.1 ≠ 0) (findScriptFunction process entry) := by
  refine steady_bind (steady_module _) fun image _ => steady_bind (steady_table _ _ _) fun table _ =>
    steady_bind (steady_ofExcept (answers_findScript _ _)) fun target _ => ?_
  split
  · next inside =>
      refine steady_pure ?_
      intro null
      rw [contains, Bool.and_eq_true, Bool.and_eq_true, decide_eq_true_eq, decide_eq_true_eq] at inside
      omega
  · exact steady_ofExcept (answers_unbound (by simp [toString]))

theorem steady_function (key : String) :
    Steady process (·.1 ≠ 0) (findFunction process file key) := by
  rw [findFunction]
  split
  · exact steady_script _
  · split
    · exact steady_ofExcept (answers_unbound (by simp [toString]))
    · exact steady_bind (steady_ofExcept (answers_scan _ _)) fun _ mapped => steady_pure mapped

theorem steady_slot (key : String) :
    Steady process (fun found => 0 ≤ found.1 ∧ found.2.1 ≠ 0) (findSlot process file key) := by
  let entry := file.vtables.getD key {}
  have column : Answers (fun index => entry.script = "" → 0 ≤ index)
      (if entry.script = "" then columnValue process entry.windows entry.linux "index"
        else .ok (-1)) := by
    have counted : Answers (0 ≤ ·) (columnValue process entry.windows entry.linux "index") :=
      answers_column entry.windows entry.linux (by simp)
    by_cases plain : entry.script = ""
    · rw [if_pos plain]
      cases found : columnValue process entry.windows entry.linux "index" with
      | error error =>
          rw [found] at counted
          exact counted
      | ok index =>
          rw [found] at counted
          exact fun _ => counted
    · rw [if_neg plain]
      exact fun empty => absurd empty plain
  refine steady_bind (steady_ofExcept column) fun index counted => steady_bind (steady_module _)
    fun _ _ => steady_bind (steady_table _ _ _) fun table present => ?_
  have slot : Answers (0 ≤ ·)
      (if entry.script ≠ "" then scriptSlot process table entry.script else .ok index) := by
    split
    · exact answers_scriptSlot _ _
    · next plain => exact counted (not_not.mp plain)
  exact steady_bind (steady_ofExcept slot) fun _ counted =>
    steady_ofExcept (answers_checkSlot _ _ present counted)

theorem steady_offset (key : String) :
    Steady process (fun _ => True) (findOffset process file key) := by
  rw [findOffset]
  dsimp only
  split
  · exact steady_bind (steady_ofExcept (answers_column _ _ (by simp))) fun _ _ => steady_pure trivial
  · have part : Steady process (fun _ => True)
        (findBaseOffset process (file.offsets.getD key {})) := by
      rw [findBaseOffset]
      split
      · exact steady_ofExcept (answers_unbound (by simp [toString]))
      · exact steady_bind (steady_base _ _ _) fun _ _ => steady_pure trivial
    exact steady_bind part fun _ _ => steady_pure trivial

/-- What a member of that section holds can be called or read. -/
def Whole : Option GameDataSection → Bound × Recorded → Prop
  | some .function, found => found.1.address ≠ 0
  | some .global, found => found.1.address ≠ 0
  | some .vtable, found => 0 ≤ found.1.value ∧ found.1.address ≠ 0
  | _, _ => True

theorem steady_locate (kind : Option GameDataSection) (key : String) :
    Steady process (Whole kind) (locate process file kind key) := by
  cases kind with
  | none => exact steady_ofExcept (answers_unbound (by simp))
  | some part =>
      cases part with
      | function => exact steady_bind (steady_function key) fun _ present => steady_pure present
      | global =>
          exact steady_bind (steady_ofExcept (answers_global key)) fun _ present =>
            steady_pure present
      | vtable => exact steady_bind (steady_slot key) fun _ held => steady_pure held
      | offset => exact steady_bind (steady_offset key) fun _ _ => steady_pure trivial

end Steady

/-- What a key gives on its own, with nothing searched before. -/
def alone (process : Process) (file : GameDataDocument) (kind : Option GameDataSection)
    (key : String) : Result (Bound × Recorded) :=
  (locate process file kind key {}).1

theorem locate_alone {process : Process} {symbols : ModuleSymbols} (sound : Sound process symbols)
    (file : GameDataDocument) (kind : Option GameDataSection) (key : String) :
    (locate process file kind key symbols).1 = alone process file kind key ∧
      Sound process (locate process file kind key symbols).2 := by
  obtain ⟨answer, _, steady⟩ := steady_locate kind key
  obtain ⟨here, kept⟩ := steady symbols sound
  obtain ⟨there, _⟩ := steady {} (sound_empty process)
  exact ⟨here.trans there.symm, kept⟩

theorem alone_answers (process : Process) (file : GameDataDocument)
    (kind : Option GameDataSection) (key : String) :
    Answers (Whole kind) (alone process file kind key) := by
  obtain ⟨answer, answers, steady⟩ :
      Steady process (Whole kind) (locate process file kind key) := steady_locate kind key
  obtain ⟨there, _⟩ := steady {} (sound_empty process)
  rw [alone, there]
  exact answers

/-- The sections that hold the key, in the order they are indexed. -/
def holders (file : GameDataDocument) (key : String) : List GameDataSection :=
  (if key ∈ file.functions then [.function] else []) ++
    (if key ∈ file.globals then [.global] else []) ++
    (if key ∈ file.vtables then [.vtable] else []) ++
    (if key ∈ file.offsets then [.offset] else [])

def kindOf : List GameDataSection → Option GameDataSection
  | [kind] => some kind
  | _ => none

def indexOf (sections : List GameDataSection) : Option GameDataEntry :=
  if sections = [] then none
  else some { sections := sections.map GameDataSection.name, kind := kindOf sections }

section Index
variable {kind : GameDataSection} {entries : Std.TreeMap String GameDataEntry} {key : String}
  {sections : List GameDataSection}

theorem indexKey_own (held : entries[key]? = indexOf sections) :
    (indexKey kind entries key)[key]? = indexOf (sections ++ [kind]) := by
  rw [indexKey, Std.TreeMap.getElem?_insert_self, Std.TreeMap.getD_eq_getD_getElem?, held]
  cases sections with
  | nil => rfl
  | cons first rest => cases rest <;> simp [indexOf, kindOf]

theorem indexKeys (kind : GameDataSection) (keys : List String) (distinct : keys.Nodup)
    (held : entries[key]? = indexOf sections) :
    (keys.foldl (indexKey kind) entries)[key]? =
      indexOf (sections ++ if key ∈ keys then [kind] else []) := by
  induction keys generalizing entries sections with
  | nil => simpa using held
  | cons first rest ih =>
      obtain ⟨absent, others⟩ := List.nodup_cons.mp distinct
      rw [List.foldl_cons]
      by_cases here : key = first
      · subst here
        rw [ih others (indexKey_own held), if_neg absent, if_pos List.mem_cons_self,
          List.append_nil]
      · have untouched : (indexKey kind entries first)[key]? = indexOf sections := by
          rw [indexKey, Std.TreeMap.getElem?_insert, if_neg (by simpa using Ne.symm here), held]
        rw [ih others untouched]
        simp only [List.mem_cons, here, false_or]

theorem indexed_find (file : GameDataDocument) (key : String) :
    (indexed file)[key]? = indexOf (holders file key) := by
  have nothing : (∅ : Std.TreeMap String GameDataEntry)[key]? = indexOf [] := by simp [indexOf]
  have functions := indexKeys .function _ file.functions.nodup_keys nothing
  have globals := indexKeys .global _ file.globals.nodup_keys functions
  have vtables := indexKeys .vtable _ file.vtables.nodup_keys globals
  have offsets := indexKeys .offset _ file.offsets.nodup_keys vtables
  simpa only [indexed, holders, List.nil_append, Std.TreeMap.mem_keys] using offsets

end Index

/-- One round of a loop over the entries: it writes its own entry, adds its own failures and
records what its own key resolved to. -/
structure Round (settle : String × GameDataEntry → GameDataEntry)
    (lines : String × GameDataEntry → List String) (notes : String × GameDataEntry → List Recorded)
    (before after : GameDataScanner) (item : String × GameDataEntry) : Prop where
  entries : ∀ key, after.entries[key]? =
    if key = item.1 then some (settle item) else before.entries[key]?
  failures : after.failures = before.failures ++ lines item
  record : before.record.held item.1 = [] → ∀ key, after.record.held key =
    if key = item.1 then notes item else before.record.held key

section Loops
variable {settle : String × GameDataEntry → GameDataEntry}
  {lines : String × GameDataEntry → List String} {notes : String × GameDataEntry → List Recorded}
  {step : GameDataScanner → String × GameDataEntry → GameDataScanner}
  {holds : GameDataScanner → Prop}

/-- Every key is met once, with the entry it had before the loop. -/
theorem loop_rounds
    (one : ∀ scanner item, holds scanner → scanner.entries[item.1]? = some item.2 →
      holds (step scanner item) ∧ Round settle lines notes scanner (step scanner item) item)
    (items : List (String × GameDataEntry)) (distinct : (keys items).Nodup)
    (scanner : GameDataScanner) (held : holds scanner)
    (present : ∀ item ∈ items, scanner.entries[item.1]? = some item.2)
    (free : ∀ key ∈ keys items, scanner.record.held key = []) :
    holds (items.foldl step scanner) ∧
      (∀ key, (items.foldl step scanner).entries[key]? =
        ((lookup key items).map fun entry => settle (key, entry)).or scanner.entries[key]?) ∧
      (items.foldl step scanner).failures = scanner.failures ++ items.flatMap lines ∧
      ∀ key, (items.foldl step scanner).record.held key =
        ((lookup key items).map fun entry => notes (key, entry)).getD (scanner.record.held key) := by
  -- A round touches its own key alone, so the later items are still as they were listed.
  induction items generalizing scanner with
  | nil => exact ⟨held, fun key => rfl, by simp, fun key => rfl⟩
  | cons item rest ih =>
      obtain ⟨absent, others⟩ := List.nodup_cons.mp distinct
      obtain ⟨kept, round⟩ := one scanner item held (present item List.mem_cons_self)
      have later : ∀ other ∈ rest, (step scanner item).entries[other.1]? = some other.2 := by
        intro other member
        have apart : other.1 ≠ item.1 := by
          intro same
          exact absent (same ▸ List.mem_map_of_mem member)
        rw [round.entries, if_neg apart]
        exact present other (List.mem_cons_of_mem item member)
      have record := round.record (free item.1 List.mem_cons_self)
      have still : ∀ key ∈ keys rest, (step scanner item).record.held key = [] := by
        intro key member
        have apart : key ≠ item.1 := by
          intro same
          exact absent (same ▸ member)
        rw [record, if_neg apart]
        exact free key (List.mem_cons_of_mem item.1 member)
      have gone : lookup item.1 rest = none := by
        rw [← Option.not_isSome_iff_eq_none, lookup_isSome]
        exact absent
      obtain ⟨after, entries, failures, recorded⟩ :=
        ih others (step scanner item) kept later still
      rw [List.foldl_cons]
      refine ⟨after, fun key => ?_, ?_, fun key => ?_⟩
      · rw [entries, round.entries, lookup]
        by_cases here : key = item.1
        · rw [here, gone, if_pos rfl, if_pos rfl]
          rfl
        · rw [if_neg here, if_neg (Ne.symm here)]
      · rw [failures, round.failures, List.flatMap_cons, List.append_assoc]
      · rw [recorded, record, lookup]
        by_cases here : key = item.1
        · rw [here, gone, if_pos rfl, if_pos rfl]
          rfl
        · rw [if_neg here, if_neg (Ne.symm here)]

theorem keys_toList (entries : Std.TreeMap String GameDataEntry) :
    keys entries.toList = entries.keys := Std.TreeMap.map_fst_toList_eq_keys

theorem lookup_toList (entries : Std.TreeMap String GameDataEntry) (key : String) :
    lookup key entries.toList = entries[key]? := by
  have distinct : (keys entries.toList).Nodup := by
    rw [keys_toList]
    exact entries.nodup_keys
  apply Option.ext
  intro entry
  rw [lookup_mem distinct]
  exact Std.TreeMap.mem_toList_iff_getElem?_eq_some

/-- The loop over all entries. -/
theorem loop_all
    (one : ∀ scanner item, holds scanner → scanner.entries[item.1]? = some item.2 →
      holds (step scanner item) ∧ Round settle lines notes scanner (step scanner item) item)
    (scanner : GameDataScanner) (held : holds scanner)
    (free : ∀ key, scanner.record.held key = []) :
    holds (scanner.entries.toList.foldl step scanner) ∧
      (∀ key, (scanner.entries.toList.foldl step scanner).entries[key]? =
        scanner.entries[key]?.map fun entry => settle (key, entry)) ∧
      (scanner.entries.toList.foldl step scanner).failures =
        scanner.failures ++ scanner.entries.toList.flatMap lines ∧
      ∀ key, (scanner.entries.toList.foldl step scanner).record.held key =
        (scanner.entries[key]?.map fun entry => notes (key, entry)).getD [] := by
  obtain ⟨kept, entries, failures, record⟩ := loop_rounds one scanner.entries.toList
    (by rw [keys_toList]; exact scanner.entries.nodup_keys) scanner held
    (fun item member => Std.TreeMap.mem_toList_iff_getElem?_eq_some.mp member)
    fun key _ => free key
  refine ⟨kept, fun key => ?_, failures, fun key => ?_⟩
  · rw [entries, lookup_toList]
    cases scanner.entries[key]? <;> rfl
  · rw [record, lookup_toList, free]

end Loops

/-- The two sections a key is refused for. -/
def doubled (item : String × GameDataEntry) : Option String :=
  match item.2.sections with
  | first :: second :: _ => some s!"in both '{first}' and '{second}'"
  | _ => none

def lineOf (key reason : String) : String := s!"{key}: {reason}"

def refused (item : String × GameDataEntry) : GameDataEntry :=
  match doubled item with
  | some reason => { item.2 with reason }
  | none => item.2

theorem unrecorded {record : GameDataRecord} {key : String} (free : record.held key = [])
    (other : String) : record.held other = if other = key then [] else record.held other := by
  split
  · next same => rw [same, free]
  · rfl

theorem fail_round (scanner : GameDataScanner) (item : String × GameDataEntry) (error : Error) :
    Round (fun _ => { item.2 with reason := error.detail }) (fun _ => [lineOf item.1 error.detail])
      (fun _ => []) scanner (fail scanner item.1 item.2 error) item where
  entries key := by
    rw [fail, Std.TreeMap.getElem?_insert]
    simp only [Std.compare_eq_iff_eq, eq_comm (a := item.1)]
  failures := rfl
  record := unrecorded

theorem refuseDoubled_round (scanner : GameDataScanner) (item : String × GameDataEntry)
    (held : scanner.entries[item.1]? = some item.2) :
    Round refused (fun item => (doubled item).toList.map (lineOf item.1)) (fun _ => []) scanner
      (refuseDoubled scanner item) item := by
  rw [refuseDoubled]
  split
  · next first second rest two =>
      have reason : doubled item = some s!"in both '{first}' and '{second}'" := by
        rw [doubled, two]
      have round := fail_round scanner item (.notFound s!"in both '{first}' and '{second}'")
      exact {
        entries := by
          intro key
          rw [round.entries, refused, reason]
          rfl
        failures := by
          rw [round.failures, reason]
          rfl
        record := round.record }
  · next single =>
      have reason : doubled item = none := by
        rw [doubled]
        split
        · next first second rest two => exact absurd two (single first second rest)
        · rfl
      exact {
        entries := by
          intro key
          rw [refused, reason]
          split
          · next here => rw [here, held]
          · rfl
        failures := by
          rw [reason]
          exact (List.append_nil _).symm
        record := unrecorded }

section Resolve
variable (process : Process) (file : GameDataDocument)

/-- What an entry comes to, where it was not refused before. -/
def outcome (item : String × GameDataEntry) : Option (Result (Bound × Recorded)) :=
  if item.2.reason ≠ "" then none else some (alone process file item.2.kind item.1)

def settled (item : String × GameDataEntry) : GameDataEntry :=
  match outcome process file item with
  | none => item.2
  | some (.ok (bound, _)) => { item.2 with address := bound.address, value := bound.value }
  | some (.error error) => { item.2 with reason := error.detail }

def failureLines (item : String × GameDataEntry) : List String :=
  match outcome process file item with
  | some (.error error) => [lineOf item.1 error.detail]
  | _ => []

def recordedOf (item : String × GameDataEntry) : List Recorded :=
  match outcome process file item with
  | some (.ok (_, recorded)) => [recorded]
  | _ => []

end Resolve

section Rounds
variable {process : Process} {file : GameDataDocument}

theorem emplaced {Value : Type} (map : Std.TreeMap String Value) (key other : String)
    (value : Value) (free : map[key]? = none) :
    (map.insertIfNew key value)[other]? = if other = key then some value else map[other]? := by
  rw [Std.TreeMap.getElem?_insertIfNew]
  simp only [Std.compare_eq_iff_eq, Std.TreeMap.mem_iff_isSome_getElem?, free, Option.isSome_none,
    Bool.false_eq_true, not_false_eq_true, and_true, eq_comm (a := key)]

theorem held_emplace (record : GameDataRecord) (key other : String) (recorded : Recorded)
    (free : record.held key = []) :
    (record.emplace key recorded).held other =
      if other = key then [recorded] else record.held other := by
  obtain ⟨functions, globals, vtables, offsets⟩ : record.functions[key]? = none ∧
      record.globals[key]? = none ∧ record.vtables[key]? = none ∧ record.offsets[key]? = none := by
    simpa [GameDataRecord.held, Option.toList_eq_nil_iff, and_assoc] using free
  by_cases same : other = key
  · subst same
    cases recorded <;>
      simp only [GameDataRecord.emplace, GameDataRecord.held, emplaced, functions, globals, vtables,
        offsets, if_true] <;>
      rfl
  · cases recorded <;>
      simp only [GameDataRecord.emplace, GameDataRecord.held, emplaced, functions, globals, vtables,
        offsets, if_neg same]

theorem resolve_round {scanner : GameDataScanner} (sound : Sound process scanner.symbols)
    (item : String × GameDataEntry) (held : scanner.entries[item.1]? = some item.2) :
    Sound process (resolve process file scanner item).symbols ∧
      Round (settled process file) (failureLines process file) (recordedOf process file) scanner
        (resolve process file scanner item) item := by
  obtain ⟨found, kept⟩ := locate_alone sound file item.2.kind item.1
  rw [resolve]
  split
  · next stopped =>
      have passed : outcome process file item = none := if_pos stopped
      refine ⟨sound, ⟨fun key => ?_, ?_, fun free key => ?_⟩⟩
      · rw [settled, passed]
        split
        · next here => rw [here, held]
        · rfl
      · rw [failureLines, passed]
        exact (List.append_nil _).symm
      · rw [recordedOf, passed]
        exact unrecorded free key
  · next unrefused =>
      have tried : outcome process file item = some (alone process file item.2.kind item.1) :=
        if_neg unrefused
      generalize locate process file item.2.kind item.1 scanner.symbols = answer at found kept
      obtain ⟨error | ⟨bound, recorded⟩, symbols⟩ := answer
      · have settle : settled process file item = { item.2 with reason := error.detail } := by
          rw [settled, tried, ← found]
        have lines : failureLines process file item = [lineOf item.1 error.detail] := by
          rw [failureLines, tried, ← found]
        have notes : recordedOf process file item = [] := by
          rw [recordedOf, tried, ← found]
        have round := fail_round { scanner with symbols } item error
        refine ⟨kept, ⟨fun key => ?_, ?_, fun free key => ?_⟩⟩
        · rw [round.entries, settle]
        · rw [round.failures, lines]
        · rw [round.record free, notes]
      · have settle : settled process file item =
            { item.2 with address := bound.address, value := bound.value } := by
          rw [settled, tried, ← found]
        have lines : failureLines process file item = [] := by
          rw [failureLines, tried, ← found]
        have notes : recordedOf process file item = [recorded] := by
          rw [recordedOf, tried, ← found]
        refine ⟨kept, ⟨fun key => ?_, ?_, fun free key => ?_⟩⟩
        · rw [Std.TreeMap.getElem?_insert, settle]
          simp only [Std.compare_eq_iff_eq, eq_comm (a := item.1)]
        · rw [lines]
          exact (List.append_nil _).symm
        · rw [notes]
          exact held_emplace scanner.record item.1 key recorded free

end Rounds

/-- What a key comes to on its own, and how the record has it. -/
def entryAlone (process : Process) (file : GameDataDocument) (key : String) :
    Option (GameDataEntry × List Recorded) :=
  let sections := holders file key
  let entry : GameDataEntry :=
    { sections := sections.map GameDataSection.name, kind := kindOf sections }
  match sections with
  | [] => none
  | [kind] =>
      match alone process file (some kind) key with
      | .ok (bound, recorded) =>
          some ({ entry with address := bound.address, value := bound.value }, [recorded])
      | .error error => some ({ entry with reason := error.detail }, [])
  | first :: second :: _ =>
      some ({ entry with reason := s!"in both '{first.name}' and '{second.name}'" }, [])

section Whole
variable (process : Process) (file : GameDataDocument)

theorem empty_held (key : String) : GameDataRecord.empty.held key = [] := by
  simp [GameDataRecord.empty, GameDataRecord.held]

theorem created : (∀ key, (create file).entries[key]? = ((indexOf (holders file key)).map
      fun entry => refused (key, entry))) ∧
    (create file).failures =
      (indexed file).toList.flatMap (fun item => (doubled item).toList.map (lineOf item.1)) ∧
    (∀ key, (create file).record.held key = []) ∧ Sound process (create file).symbols := by
  have one (scanner : GameDataScanner) (item : String × GameDataEntry)
      (unsearched : scanner.symbols = {}) (held : scanner.entries[item.1]? = some item.2) :
      (refuseDoubled scanner item).symbols = {} ∧
        Round refused (fun item => (doubled item).toList.map (lineOf item.1)) (fun _ => []) scanner
          (refuseDoubled scanner item) item := by
    refine ⟨?_, refuseDoubled_round scanner item held⟩
    rw [refuseDoubled]
    split
    · exact unsearched
    · exact unsearched
  obtain ⟨symbols, entries, failures, record⟩ :=
    loop_all one ⟨indexed file, {}, [], .empty⟩ rfl empty_held
  refine ⟨fun key => ?_, failures, fun key => ?_, ?_⟩
  · rw [← indexed_find]
    exact entries key
  · rw [create, record]
    cases (indexed file)[key]? <;> rfl
  · rw [create, symbols]
    exact sound_empty process

theorem doubled_reason {item : String × GameDataEntry} {reason : String}
    (two : doubled item = some reason) : reason ≠ "" := by
  rw [doubled] at two
  split at two
  · cases two
    simp [toString]
  · cases two

theorem entries_resolved (key : String) : (resolveAll process file (create file)).entries[key]? =
    (indexOf (holders file key)).map
      fun entry => settled process file (key, refused (key, entry)) := by
  obtain ⟨entries, _, free, sound⟩ := created process file
  obtain ⟨_, after, _, _⟩ := loop_all (fun scanner item sound held =>
    resolve_round sound item held) (create file) sound free
  rw [resolveAll, after, entries]
  cases indexOf (holders file key) <;> rfl

theorem record_resolved (key : String) : (resolveAll process file (create file)).record.held key =
    ((indexOf (holders file key)).map
      fun entry => recordedOf process file (key, refused (key, entry))).getD [] := by
  obtain ⟨entries, _, free, sound⟩ := created process file
  obtain ⟨_, _, _, record⟩ := loop_all (fun scanner item sound held =>
    resolve_round sound item held) (create file) sound free
  rw [resolveAll, record, entries]
  cases indexOf (holders file key) <;> rfl

/-- A key in one section comes to what it gives on its own, with its record where it resolved; a
key in two to a refusal. -/
theorem resolved_alone (key : String) :
    (resolveAll process file (create file)).find key = (entryAlone process file key).map Prod.fst ∧
      (resolveAll process file (create file)).record.held key =
        ((entryAlone process file key).map Prod.snd).getD [] := by
  rw [GameDataScanner.find, entries_resolved, record_resolved, entryAlone]
  generalize holders file key = sections
  match sections with
  | [] => exact ⟨rfl, rfl⟩
  | [kind] =>
      have plain : indexOf [kind] = some { sections := [kind.name], kind := some kind } := rfl
      have single : refused (key, { sections := [kind.name], kind := some kind }) =
          { sections := [kind.name], kind := some kind } := rfl
      rw [plain, Option.map_some, Option.map_some, single, settled, recordedOf, outcome,
        if_neg (by simp)]
      dsimp only
      cases alone process file (some kind) key with
      | error error => exact ⟨rfl, rfl⟩
      | ok found => exact ⟨rfl, rfl⟩
  | first :: second :: rest =>
      have both : s!"in both '{first.name}' and '{second.name}'" ≠ "" := by simp [toString]
      rw [indexOf, if_neg (by simp)]
      have stays (entry : GameDataEntry) (refusal : entry.reason ≠ "") :
          settled process file (key, entry) = entry ∧ recordedOf process file (key, entry) = [] := by
        have passed : outcome process file (key, entry) = none := if_pos refusal
        rw [settled, recordedOf, passed]
        exact ⟨rfl, rfl⟩
      obtain ⟨entry, record⟩ := stays (refused (key,
        { sections := (first :: second :: rest).map GameDataSection.name
          kind := kindOf (first :: second :: rest) })) both
      exact ⟨congrArg some entry, record⟩

theorem failures_resolved : (resolveAll process file (create file)).failures =
    (indexed file).toList.flatMap (fun item => (doubled item).toList.map (lineOf item.1)) ++
      (create file).entries.toList.flatMap (failureLines process file) := by
  obtain ⟨_, failures, free, sound⟩ := created process file
  obtain ⟨_, _, after, _⟩ := loop_all (fun scanner item sound held =>
    resolve_round sound item held) (create file) sound free
  rw [resolveAll, after, failures]

theorem failureLines_settled (key : String) (entry : GameDataEntry) (line : String) :
    line ∈ failureLines process file (key, entry) ↔
      entry.reason = "" ∧ (settled process file (key, entry)).reason ≠ "" ∧
        line = lineOf key (settled process file (key, entry)).reason := by
  rw [failureLines, settled]
  by_cases stopped : entry.reason = ""
  · have tried : outcome process file (key, entry) =
        some (alone process file entry.kind key) := if_neg (not_not.mpr stopped)
    have answers := alone_answers process file entry.kind key
    rw [tried]
    cases given : alone process file entry.kind key with
    | error error =>
        rw [given] at answers
        have told : error.detail ≠ "" := answers
        simp [stopped, told]
    | ok found => simp [stopped]
  · have passed : outcome process file (key, entry) = none := if_pos stopped
    rw [passed]
    simp [stopped]

/-- The failures are one line for each key that did not bind, with its reason. -/
theorem failures_listed (line : String) :
    line ∈ (resolveAll process file (create file)).failures ↔
      ∃ key entry, (resolveAll process file (create file)).find key = some entry ∧
        entry.reason ≠ "" ∧ line = lineOf key entry.reason := by
  obtain ⟨entries, _⟩ := created process file
  have found (key : String) (entry : GameDataEntry) :
      (resolveAll process file (create file)).find key = some entry ↔
        ∃ start, (indexed file)[key]? = some start ∧
          settled process file (key, refused (key, start)) = entry := by
    rw [GameDataScanner.find, entries_resolved, ← indexed_find, Option.map_eq_some_iff]
  rw [failures_resolved, List.mem_append, List.mem_flatMap, List.mem_flatMap]
  constructor
  · rintro (⟨⟨key, start⟩, member, listed⟩ | ⟨⟨key, entry⟩, member, listed⟩)
    · rw [Std.TreeMap.mem_toList_iff_getElem?_eq_some] at member
      obtain ⟨reason, two, rfl⟩ := List.mem_map.mp listed
      have both := Option.mem_toList.mp two
      have refusal : refused (key, start) = { start with reason } := by rw [refused, both]
      have given : reason ≠ "" := doubled_reason both
      have stays : settled process file (key, refused (key, start)) = { start with reason } := by
        rw [refusal, settled, outcome, if_pos given]
      exact ⟨key, _, (found key _).mpr ⟨start, member, stays⟩, given, rfl⟩
    · rw [Std.TreeMap.mem_toList_iff_getElem?_eq_some, entries, ← indexed_find,
        Option.map_eq_some_iff] at member
      obtain ⟨start, held, rfl⟩ := member
      obtain ⟨_, given, same⟩ := (failureLines_settled process file key _ line).mp listed
      exact ⟨key, _, (found key _).mpr ⟨start, held, rfl⟩, given, same⟩
  · rintro ⟨key, entry, holds, given, rfl⟩
    obtain ⟨start, held, rfl⟩ := (found key entry).mp holds
    by_cases early : (refused (key, start)).reason = ""
    · refine .inr ⟨(key, refused (key, start)), ?_, ?_⟩
      · rw [Std.TreeMap.mem_toList_iff_getElem?_eq_some, entries, ← indexed_find, held]
        rfl
      · exact (failureLines_settled process file key _ _).mpr ⟨early, given, rfl⟩
    · refine .inl ⟨(key, start), Std.TreeMap.mem_toList_iff_getElem?_eq_some.mpr held, ?_⟩
      have plain : start.reason = "" := by
        rw [indexed_find, indexOf] at held
        split at held
        · cases held
        · cases held
          rfl
      have stays : settled process file (key, refused (key, start)) = refused (key, start) := by
        rw [settled, outcome, if_pos early]
      rw [stays]
      cases two : doubled (key, start) with
      | none =>
          rw [refused, two] at early
          exact absurd plain early
      | some reason =>
          rw [refused, two]
          exact List.mem_map.mpr ⟨reason, Option.mem_toList.mpr rfl, rfl⟩

end Whole

end VoltMod.GameData
