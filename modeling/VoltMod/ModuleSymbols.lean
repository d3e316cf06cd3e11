import VoltMod.Memo
import VoltMod.Result
import VoltMod.SigScanner

/-!
Host/GameData/ModuleSymbols.cpp: loaded modules, class tables and base subobjects, each searched
once. What the process answers stands fixed while it is searched; a null address is 0.
-/

namespace VoltMod.GameData

open OrderedDict Memo
open SigScanner (Image ScanRange ScanResult)

structure BaseSubobject where
  offset : Int := 0
  table : Nat := 0
  deriving DecidableEq, Repr

structure ScriptTarget where
  address : Nat := 0
  index : Int := -1
  deriving DecidableEq, Repr

inductive Platform where
  | windows | linux
  deriving DecidableEq, Repr

/-- The process as the lookups see it: the loaded modules with their ranges, what RTTI says of a
class, the mapped memory, the hooks' original slots and the VScript bindings. A search that
fails says why. -/
structure Process where
  platform : Platform
  loaded : String → Option (Image × List ScanRange)
  frequencies : String → BytePattern.ByteHistogram
  findPatternEx : String → String → ScanResult
  scans : ∀ moduleName pattern, SigScanner.findPatternEx (loaded moduleName)
    (frequencies moduleName) pattern.toList = .ok (findPatternEx moduleName pattern)
  findVirtualTableIn : Image → String → Nat
  findBaseIn : Image → String → String → Result BaseSubobject
  displacement : Nat → Int
  readable : Nat → Nat → Bool
  executable : Nat → Bool
  slot : Nat → Nat → Nat
  originalOf : Option (Nat → Nat → Nat)
  scriptOf : Option (Nat → String → Result ScriptTarget)
  baseReason : ∀ image className baseName error,
    findBaseIn image className baseName = .error error → error.detail ≠ ""
  scriptReason : ∀ lookup table name error, scriptOf = some lookup →
    lookup table name = .error error → error.detail ≠ ""

def unbound {Value : Type} (reason : String) : Result Value := .error (.notFound reason)

inductive Search where
  | image (moduleName : String)
  | table (moduleName className : String)
  | base (moduleName className baseName : String)
  deriving DecidableEq, Repr

/-- `searched` are the searches made so far: FindImage, FindVirtualTableIn and FindBaseIn. -/
structure ModuleSymbols where
  modules : List (String × Image) := []
  tables : List ((String × String) × Nat) := []
  bases : List ((String × String × String) × Result BaseSubobject) := []
  searched : List Search := []

def imageOf (process : Process) (moduleName : String) : Image :=
  ((process.loaded moduleName).map Prod.fst).getD {}

/-- A search is made where the table does not hold its key. -/
def noted {Key Value : Type} [DecidableEq Key] (search : Search) (key : Key)
    (held : List (Key × Value)) (searched : List Search) : List Search :=
  if key ∈ keys held then searched else searched ++ [search]

def loadedImage (moduleName : String) (image : Image) : Result Image :=
  if image.base = 0 then unbound s!"module '{moduleName}' is not loaded" else .ok image

def foundTable (moduleName className : String) (table : Nat) : Result Nat :=
  if table = 0 then unbound s!"no vtable for '{className}' in '{moduleName}'" else .ok table

def ownTable (className baseName : String) (base : BaseSubobject) : Result Nat :=
  if base.table = 0 then unbound s!"'{baseName}' has no vtable of its own in '{className}'"
  else .ok base.table

section Source
variable (process : Process) (symbols : ModuleSymbols)

def module (moduleName : String) : Result Image × ModuleSymbols :=
  let (image, modules) := remember moduleName (imageOf process moduleName) symbols.modules
  (loadedImage moduleName image,
    { symbols with
      modules
      searched := noted (.image moduleName) moduleName symbols.modules symbols.searched })

def base (moduleName className baseName : String) : Result BaseSubobject × ModuleSymbols :=
  match module process symbols moduleName with
  | (.error error, symbols) => (.error error, symbols)
  | (.ok image, symbols) =>
      let key := (moduleName, className, baseName)
      let (found, bases) := remember key (process.findBaseIn image className baseName) symbols.bases
      (found,
        { symbols with
          bases
          searched := noted (.base moduleName className baseName) key symbols.bases
            symbols.searched })

def table (moduleName className baseName : String) : Result Nat × ModuleSymbols :=
  if baseName ≠ "" then
    match base process symbols moduleName className baseName with
    | (.error error, symbols) => (.error error, symbols)
    | (.ok found, symbols) => (ownTable className baseName found, symbols)
  else
    match module process symbols moduleName with
    | (.error error, symbols) => (.error error, symbols)
    | (.ok image, symbols) =>
        let key := (moduleName, className)
        let (found, tables) :=
          remember key (process.findVirtualTableIn image className) symbols.tables
        (foundTable moduleName className found,
          { symbols with
            tables
            searched := noted (.table moduleName className) key symbols.tables symbols.searched })

end Source

/-! The same lookups without a table. -/
section Plain
variable (process : Process)

def plainModule (moduleName : String) : Result Image :=
  loadedImage moduleName (imageOf process moduleName)

def plainBase (moduleName className baseName : String) : Result BaseSubobject := do
  let image ← plainModule process moduleName
  process.findBaseIn image className baseName

def plainTable (moduleName className baseName : String) : Result Nat :=
  if baseName ≠ "" then do
    ownTable className baseName (← plainBase process moduleName className baseName)
  else do
    let image ← plainModule process moduleName
    foundTable moduleName className (process.findVirtualTableIn image className)

end Plain

/-- What the searches give: only a module that is loaded is searched further. -/
structure Sound (process : Process) (symbols : ModuleSymbols) : Prop where
  modules : Faithful (imageOf process) symbols.modules
  tables : Faithful (fun key => process.findVirtualTableIn (imageOf process key.1) key.2)
    symbols.tables
  bases : Faithful (fun key => process.findBaseIn (imageOf process key.1) key.2.1 key.2.2)
    symbols.bases
  once : symbols.searched.Nodup
  images : ∀ moduleName, .image moduleName ∈ symbols.searched ↔ moduleName ∈ keys symbols.modules
  classes : ∀ moduleName className, .table moduleName className ∈ symbols.searched ↔
    (moduleName, className) ∈ keys symbols.tables
  parts : ∀ moduleName className baseName, .base moduleName className baseName ∈ symbols.searched ↔
    (moduleName, className, baseName) ∈ keys symbols.bases

section Lookups
variable {process : Process} {symbols : ModuleSymbols}

theorem sound_empty (process : Process) : Sound process {} where
  modules := faithful_nil
  tables := faithful_nil
  bases := faithful_nil
  once := List.nodup_nil
  images := by simp [keys]
  classes := by simp [keys]
  parts := by simp [keys]

section Noted
variable {Key Value : Type} [DecidableEq Key] {search other : Search} {key : Key} {value : Value}
  {held : List (Key × Value)} {searched : List Search}

theorem noted_once (once : searched.Nodup) (same : search ∈ searched ↔ key ∈ keys held) :
    (noted search key held searched).Nodup := by
  rw [noted]
  split
  · exact once
  · next absent =>
      rw [List.nodup_append]
      refine ⟨once, List.nodup_singleton search, ?_⟩
      intro earlier inside last member equal
      rw [List.mem_singleton] at member
      exact absent (same.mp (member ▸ equal ▸ inside))

theorem noted_other (apart : other ≠ search) :
    other ∈ noted search key held searched ↔ other ∈ searched := by
  rw [noted]
  split
  · rfl
  · rw [List.mem_append, List.mem_singleton, or_iff_left apart]

theorem noted_own (same : search ∈ searched ↔ key ∈ keys held) :
    search ∈ noted search key held searched ↔ key ∈ keys (remember key value held).2 := by
  rw [noted, keys_remember]
  split
  · exact same
  · simp

theorem keys_apart {fresh : Key} (apart : fresh ≠ key) :
    fresh ∈ keys (remember key value held).2 ↔ fresh ∈ keys held := by
  rw [keys_remember]
  split
  · rfl
  · rw [List.mem_append, List.mem_singleton, or_iff_left apart]

end Noted

theorem module_plain (sound : Sound process symbols) (moduleName : String) :
    (module process symbols moduleName).1 = plainModule process moduleName ∧
      Sound process (module process symbols moduleName).2 := by
  constructor
  · rw [module, plainModule]
    exact congrArg (loadedImage moduleName) (remember_searched sound.modules rfl)
  · rw [module]
    exact {
      modules := remember_faithful sound.modules rfl
      tables := sound.tables
      bases := sound.bases
      once := noted_once sound.once (sound.images moduleName)
      images := by
        intro other
        by_cases same : other = moduleName
        · subst same
          exact noted_own (sound.images other)
        · rw [noted_other (by simpa using same), keys_apart same]
          exact sound.images other
      classes := by
        intro other className
        rw [noted_other (by simp)]
        exact sound.classes other className
      parts := by
        intro other className baseName
        rw [noted_other (by simp)]
        exact sound.parts other className baseName }

theorem loaded_image {moduleName : String} {image : Image}
    (loaded : plainModule process moduleName = .ok image) : image = imageOf process moduleName := by
  rw [plainModule, loadedImage] at loaded
  split at loaded
  · cases loaded
  · exact (Except.ok.inj loaded).symm

theorem base_plain (sound : Sound process symbols) (moduleName className baseName : String) :
    (base process symbols moduleName className baseName).1 =
        plainBase process moduleName className baseName ∧
      Sound process (base process symbols moduleName className baseName).2 := by
  obtain ⟨answered, kept⟩ := module_plain sound moduleName
  rw [base, plainBase, ← answered]
  generalize found : module process symbols moduleName = answer at answered kept
  obtain ⟨image | image, symbols⟩ := answer
  · exact ⟨rfl, kept⟩
  · obtain rfl := loaded_image answered.symm
    constructor
    · exact remember_searched kept.bases rfl
    · exact {
        modules := kept.modules
        tables := kept.tables
        bases := remember_faithful kept.bases rfl
        once := noted_once kept.once (kept.parts moduleName className baseName)
        images := by
          intro other
          rw [noted_other (by simp)]
          exact kept.images other
        classes := by
          intro other otherClass
          rw [noted_other (by simp)]
          exact kept.classes other otherClass
        parts := by
          intro other otherClass otherBase
          by_cases same : (other, otherClass, otherBase) = (moduleName, className, baseName)
          · cases same
            exact noted_own (kept.parts moduleName className baseName)
          · rw [noted_other (by simpa using same), keys_apart same]
            exact kept.parts other otherClass otherBase }

theorem table_plain (sound : Sound process symbols) (moduleName className baseName : String) :
    (table process symbols moduleName className baseName).1 =
        plainTable process moduleName className baseName ∧
      Sound process (table process symbols moduleName className baseName).2 := by
  rw [table, plainTable]
  split
  · obtain ⟨answered, kept⟩ := base_plain sound moduleName className baseName
    rw [← answered]
    generalize base process symbols moduleName className baseName = answer at answered kept
    obtain ⟨found | found, symbols⟩ := answer
    · exact ⟨rfl, kept⟩
    · exact ⟨rfl, kept⟩
  · obtain ⟨answered, kept⟩ := module_plain sound moduleName
    rw [← answered]
    generalize module process symbols moduleName = answer at answered kept
    obtain ⟨image | image, symbols⟩ := answer
    · exact ⟨rfl, kept⟩
    · obtain rfl := loaded_image answered.symm
      constructor
      · exact congrArg (foundTable moduleName className) (remember_searched kept.tables rfl)
      · exact {
          modules := kept.modules
          tables := remember_faithful kept.tables rfl
          bases := kept.bases
          once := noted_once kept.once (kept.classes moduleName className)
          images := by
            intro other
            rw [noted_other (by simp)]
            exact kept.images other
          classes := by
            intro other otherClass
            by_cases same : (other, otherClass) = (moduleName, className)
            · cases same
              exact noted_own (kept.classes moduleName className)
            · rw [noted_other (by simpa using same), keys_apart same]
              exact kept.classes other otherClass
          parts := by
            intro other otherClass otherBase
            rw [noted_other (by simp)]
            exact kept.parts other otherClass otherBase }

end Lookups

inductive Query where
  | module (moduleName : String)
  | base (moduleName className baseName : String)
  | table (moduleName className baseName : String)

inductive Answer where
  | module (image : Result Image)
  | base (found : Result BaseSubobject)
  | table (found : Result Nat)

def ask (process : Process) (symbols : ModuleSymbols) : Query → Answer × ModuleSymbols
  | .module moduleName => (module process symbols moduleName).map .module id
  | .base moduleName className baseName =>
      (base process symbols moduleName className baseName).map .base id
  | .table moduleName className baseName =>
      (table process symbols moduleName className baseName).map .table id

def askAll (process : Process) : ModuleSymbols → List Query → List Answer × ModuleSymbols
  | symbols, [] => ([], symbols)
  | symbols, query :: rest =>
      let (answer, symbols) := ask process symbols query
      let (answers, symbols) := askAll process symbols rest
      (answer :: answers, symbols)

def plainAnswer (process : Process) : Query → Answer
  | .module moduleName => .module (plainModule process moduleName)
  | .base moduleName className baseName => .base (plainBase process moduleName className baseName)
  | .table moduleName className baseName =>
      .table (plainTable process moduleName className baseName)

theorem ask_plain {process : Process} {symbols : ModuleSymbols} (sound : Sound process symbols)
    (query : Query) : (ask process symbols query).1 = plainAnswer process query ∧
      Sound process (ask process symbols query).2 := by
  cases query with
  | module moduleName =>
      obtain ⟨answered, kept⟩ := module_plain sound moduleName
      exact ⟨congrArg Answer.module answered, kept⟩
  | base moduleName className baseName =>
      obtain ⟨answered, kept⟩ := base_plain sound moduleName className baseName
      exact ⟨congrArg Answer.base answered, kept⟩
  | table moduleName className baseName =>
      obtain ⟨answered, kept⟩ := table_plain sound moduleName className baseName
      exact ⟨congrArg Answer.table answered, kept⟩

theorem askAll_plain {process : Process} {symbols : ModuleSymbols} (sound : Sound process symbols)
    (queries : List Query) :
    (askAll process symbols queries).1 = queries.map (plainAnswer process) ∧
      Sound process (askAll process symbols queries).2 := by
  induction queries generalizing symbols with
  | nil => exact ⟨rfl, sound⟩
  | cons query rest ih =>
      obtain ⟨answered, kept⟩ := ask_plain sound query
      obtain ⟨others, after⟩ := ih kept
      exact ⟨congrArg₂ List.cons answered others, after⟩

/-- In any order of lookups, each answer is what the plain search gives, refusals included, and
no search is made twice. -/
theorem symbols_searched_once (process : Process) (queries : List Query) :
    (askAll process {} queries).1 = queries.map (plainAnswer process) ∧
      (askAll process {} queries).2.searched.Nodup := by
  obtain ⟨answered, sound⟩ := askAll_plain (sound_empty process) queries
  exact ⟨answered, sound.once⟩

end VoltMod.GameData
