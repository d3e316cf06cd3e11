import VoltMod.ModuleSymbols

/-!
Host/GameData/GameDataScanner.cpp: every key of `gamedata.jsonc` resolved against the loaded
modules, once for the process. A `std::map` is an ordered tree map.
-/

namespace VoltMod.GameData

open SigScanner (Image)

/-- A flag each, as `mask` has it. -/
inductive GameDataSection where
  | function | global | vtable | offset
  deriving DecidableEq, Repr

def GameDataSection.name : GameDataSection → String
  | .function => "functions"
  | .global => "globals"
  | .vtable => "vtables"
  | .offset => "offsets"

namespace GameDataDocument

structure Function where
  moduleName : String := "server"
  windows : Option String := none
  linux : Option String := none
  «class» : String := ""
  script : String := ""

structure GlobalColumn where
  pattern : String
  rel32At : Int := 0

structure Global where
  moduleName : String := "server"
  windows : Option GlobalColumn := none
  linux : Option GlobalColumn := none

structure VTable where
  «class» : String := ""
  base : String := ""
  moduleName : String := "server"
  windows : Option Int := none
  linux : Option Int := none
  script : String := ""

structure Offset where
  windows : Option Int := none
  linux : Option Int := none
  «class» : String := ""
  base : String := ""
  moduleName : String := "server"

end GameDataDocument

structure GameDataDocument where
  functions : Std.TreeMap String GameDataDocument.Function
  globals : Std.TreeMap String GameDataDocument.Global
  vtables : Std.TreeMap String GameDataDocument.VTable
  offsets : Std.TreeMap String GameDataDocument.Offset

structure Location where
  moduleName : String
  rva : Nat
  deriving DecidableEq, Repr

structure Slot where
  moduleName : String
  table : Nat
  index : Int
  code : Nat
  deriving DecidableEq, Repr

/-- What one key leaves in the record of what resolved. -/
inductive Recorded where
  | function (location : Location)
  | global (location : Location)
  | vtable (slot : Slot)
  | offset (value : Int)
  deriving DecidableEq, Repr

structure GameDataRecord where
  functions : Std.TreeMap String Location
  globals : Std.TreeMap String Location
  vtables : Std.TreeMap String Slot
  offsets : Std.TreeMap String Int

def GameDataRecord.empty : GameDataRecord := ⟨∅, ∅, ∅, ∅⟩

/-- `std::map::emplace` keeps what is there. -/
def GameDataRecord.emplace (record : GameDataRecord) (key : String) : Recorded → GameDataRecord
  | .function location => { record with functions := record.functions.insertIfNew key location }
  | .global location => { record with globals := record.globals.insertIfNew key location }
  | .vtable slot => { record with vtables := record.vtables.insertIfNew key slot }
  | .offset value => { record with offsets := record.offsets.insertIfNew key value }

def GameDataRecord.held (record : GameDataRecord) (key : String) : List Recorded :=
  (record.functions[key]?.map Recorded.function).toList ++
    (record.globals[key]?.map Recorded.global).toList ++
    (record.vtables[key]?.map Recorded.vtable).toList ++
    (record.offsets[key]?.map Recorded.offset).toList

structure GameDataEntry where
  sections : List String := []
  kind : Option GameDataSection := none
  address : Nat := 0
  value : Int := -1
  reason : String := ""
  deriving DecidableEq, Repr

structure Bound where
  address : Nat := 0
  value : Int := -1
  deriving DecidableEq, Repr

structure GameDataScanner where
  entries : Std.TreeMap String GameDataEntry
  symbols : ModuleSymbols
  failures : List String
  record : GameDataRecord

/-- 2^64, where an address wraps. -/
def wordSize : Int := 18446744073709551616

def rva (image : Image) (address : Nat) : Nat := (((address : Int) - image.base) % wordSize).toNat

def contains (image : Image) (address : Nat) : Bool :=
  image.base ≠ 0 && image.base ≤ address && address < image.base + image.size

/-! Engine/Memory/RelativeAddress.hpp -/

def rel32Size : Nat := 4

def rel32Site (matchAddress : Nat) (ripOffset : Int) : Nat :=
  (((matchAddress : Int) + ripOffset) % wordSize).toNat

def rel32Target (site : Nat) (displacement : Int) : Nat :=
  (((site : Int) + rel32Size + displacement) % wordSize).toNat

def rel32ReadInBounds (moduleBase moduleSize matchAddress : Nat) (ripOffset : Int) : Bool :=
  if ripOffset < 0 ∨ matchAddress < moduleBase then false
  else
    let moduleEnd := (((moduleBase : Int) + moduleSize) % wordSize).toNat
    let site := rel32Site matchAddress ripOffset
    if site < matchAddress ∨ moduleEnd ≤ site then false else rel32Size ≤ moduleEnd - site

/-- What is searched stays known, also where the search fails. -/
abbrev Searching := ExceptT Error (StateM ModuleSymbols)

def searching {Value : Type} (search : ModuleSymbols → Result Value × ModuleSymbols) :
    Searching Value := search

def Searching.ofExcept {Value : Type} (result : Result Value) : Searching Value :=
  fun symbols => (result, symbols)

section Source
variable (process : Process) (file : GameDataDocument)

def resolveRelativeAddress (image : Image) (matchAddress : Nat) (ripOffset : Int) : Nat :=
  if matchAddress = 0 ∨ image.base = 0 then 0
  -- The displacement must be inside the mapping before it is read.
  else if rel32ReadInBounds image.base image.size matchAddress ripOffset then
    let site := rel32Site matchAddress ripOffset
    rel32Target site (process.displacement site)
  else 0

def platformName : String :=
  match process.platform with
  | .windows => "windows"
  | .linux => "linux"

def platformColumn {Value : Type} (windows linux : Option Value) : Option Value :=
  match process.platform with
  | .windows => windows
  | .linux => linux

def scan (moduleName pattern : String) : Result (Image × Nat) :=
  if pattern = "" then unbound "empty pattern"
  else
    let result := process.findPatternEx moduleName pattern
    if result.image.base = 0 then unbound s!"module '{moduleName}' is not loaded"
    else
      match result.address with
      | none => unbound "pattern not found"
      | some address =>
          if result.unique then .ok (result.image, address)
          else unbound "pattern matched more than once"

def columnValue (windows linux : Option Int) (what : String) : Result Int :=
  match platformColumn process windows linux with
  | none => unbound s!"no {platformName process} {what}"
  | some value => if value < 0 then unbound s!"{what} {value} is negative" else .ok value

def originalSlot (table index : Nat) : Nat :=
  let original := (process.originalOf.map fun lookup => lookup table index).getD 0
  if original ≠ 0 then original else process.slot table index

def findScript (table : Nat) (name : String) : Result ScriptTarget :=
  match process.scriptOf with
  | none => unbound "no VScript lookup"
  | some lookup => lookup table name

/-- The slot a virtual VScript binding dispatches through. -/
def scriptSlot (table : Nat) (name : String) : Result Int := do
  let target ← findScript process table name
  if target.index < 0 then unbound s!"VScript '{name}' is not virtual" else return target.index

def findScriptFunction (entry : GameDataDocument.Function) : Searching (Nat × Recorded) := do
  let image ← searching (module process · entry.moduleName)
  let table ← searching (table process · entry.moduleName entry.class "")
  let target ← .ofExcept (findScript process table entry.script)
  if contains image target.address then
    return (target.address, .function ⟨entry.moduleName, rva image target.address⟩)
  else
    .ofExcept (unbound s!"VScript '{entry.script}' is virtual or outside '{entry.moduleName}'")

def findFunction (key : String) : Searching (Nat × Recorded) :=
  let entry := file.functions.getD key {}
  if entry.script ≠ "" then findScriptFunction process entry
  else
    match platformColumn process entry.windows entry.linux with
    | none => .ofExcept (unbound s!"no {platformName process} pattern")
    | some pattern => do
        let (image, address) ← .ofExcept (scan process entry.moduleName pattern)
        return (address, .function ⟨entry.moduleName, rva image address⟩)

def findGlobal (key : String) : Result (Nat × Recorded) :=
  let entry := file.globals.getD key {}
  match platformColumn process entry.windows entry.linux with
  | none => unbound s!"no {platformName process} pattern"
  | some column => do
      let (image, address) ← scan process entry.moduleName column.pattern
      let target := resolveRelativeAddress process image address column.rel32At
      if target = 0 || !contains image target || !process.readable target 8 then
        unbound s!"the rel32 at +{column.rel32At} does not point at readable memory in '{entry.moduleName}'"
      else return (target, .global ⟨entry.moduleName, rva image target⟩)

/-- The slot's code: a short table may end before the index, so that it is readable is asked
first. -/
def slotCode (table : Nat) (index : Int) : Nat :=
  if process.readable (table + 8 * index.toNat) 8 then originalSlot process table index.toNat else 0

/-- The last part of `FindSlot`, from the class table on. -/
def checkSlot (entry : GameDataDocument.VTable) (image : Image) (table : Nat) (index : Int) :
    Result (Int × Nat × Recorded) :=
  let code := slotCode process table index
  if !process.executable code then
    let owner := if entry.base = "" then entry.class else entry.base
    unbound s!"{owner}::[{index}] does not hold code"
  else
    -- A hook trampoline can live outside the module.
    let codeRva := if contains image code then rva image code else 0
    return (index, table, .vtable ⟨entry.moduleName, rva image table, index, codeRva⟩)

/-- The index and the class table. -/
def findSlot (key : String) : Searching (Int × Nat × Recorded) := do
  let entry := file.vtables.getD key {}
  -- A `script` entry's index needs the class table, so it is read once the table is found.
  let index ← .ofExcept (if entry.script = "" then
    columnValue process entry.windows entry.linux "index" else .ok (-1))
  let image ← searching (module process · entry.moduleName)
  let table ← searching (table process · entry.moduleName entry.class entry.base)
  let index ← .ofExcept (if entry.script ≠ "" then scriptSlot process table entry.script
    else .ok index)
  .ofExcept (checkSlot process entry image table index)

def findBaseOffset (entry : GameDataDocument.Offset) : Searching Int :=
  if entry.class = "" then .ofExcept (unbound s!"base '{entry.base}' names no class")
  else do
    let found ← searching (base process · entry.moduleName entry.class entry.base)
    return found.offset

def findOffset (key : String) : Searching (Int × Recorded) := do
  let entry := file.offsets.getD key {}
  let offset ← if entry.base = "" then
    .ofExcept (columnValue process entry.windows entry.linux "offset")
    else findBaseOffset process entry
  return (offset, .offset offset)

def locate (kind : Option GameDataSection) (key : String) : Searching (Bound × Recorded) :=
  match kind with
  | some .function => do
      let (address, recorded) ← findFunction process file key
      return ({ address }, recorded)
  | some .global => do
      let (address, recorded) ← .ofExcept (findGlobal process file key)
      return ({ address }, recorded)
  | some .vtable => do
      let (index, table, recorded) ← findSlot process file key
      return ({ address := table, value := index }, recorded)
  | some .offset => do
      let (value, recorded) ← findOffset process file key
      return ({ value }, recorded)
  | none => .ofExcept (unbound "in no section")

def fail (scanner : GameDataScanner) (key : String) (entry : GameDataEntry) (error : Error) :
    GameDataScanner :=
  { scanner with
    entries := scanner.entries.insert key { entry with reason := error.detail }
    failures := scanner.failures ++ [s!"{key}: {error.detail}"] }

/-- A key in two sections binds from neither, so it has no kind to resolve from. -/
def indexKey (kind : GameDataSection) (entries : Std.TreeMap String GameDataEntry) (key : String) :
    Std.TreeMap String GameDataEntry :=
  let entry := entries.getD key {}
  let sections := entry.sections ++ [kind.name]
  entries.insert key
    { entry with sections, kind := if sections.length = 1 then some kind else none }

def indexed : Std.TreeMap String GameDataEntry :=
  let entries := file.functions.keys.foldl (indexKey .function) ∅
  let entries := file.globals.keys.foldl (indexKey .global) entries
  let entries := file.vtables.keys.foldl (indexKey .vtable) entries
  file.offsets.keys.foldl (indexKey .offset) entries

def refuseDoubled (scanner : GameDataScanner) (item : String × GameDataEntry) : GameDataScanner :=
  match item.2.sections with
  | first :: second :: _ =>
      fail scanner item.1 item.2 (.notFound s!"in both '{first}' and '{second}'")
  | _ => scanner

def create : GameDataScanner :=
  (indexed file).toList.foldl refuseDoubled ⟨indexed file, {}, [], .empty⟩

def resolve (scanner : GameDataScanner) (item : String × GameDataEntry) : GameDataScanner :=
  if item.2.reason ≠ "" then scanner
  else
    match locate process file item.2.kind item.1 scanner.symbols with
    | (.ok (bound, recorded), symbols) =>
        { scanner with
          symbols
          entries := scanner.entries.insert item.1
            { item.2 with address := bound.address, value := bound.value }
          record := scanner.record.emplace item.1 recorded }
    | (.error error, symbols) => fail { scanner with symbols } item.1 item.2 error

def resolveAll (scanner : GameDataScanner) : GameDataScanner :=
  scanner.entries.toList.foldl (resolve process file) scanner

def GameDataScanner.find (scanner : GameDataScanner) (key : String) : Option GameDataEntry :=
  scanner.entries[key]?

end Source

end VoltMod.GameData
