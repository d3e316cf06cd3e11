import VoltMod.VtableSearch

/-!
Engine/Memory/VtableLookup.linux.cpp: a class's table by its symbol in the module's file, or else
through the type name in the module's segments. A file is its bytes; what is read behind them is
an error that tells the place.
-/

namespace VoltMod.ElfSymbols
open MigrationText (Text)
open ProcessMemory VtableLookup

abbrev File := List UInt8

/-- MappedFile::At: room for that many records of a size. -/
def fits (file : File) (offset size count : Nat) : Bool :=
  decide (count ≠ 0 ∧ offset ≤ file.length ∧ count ≤ (file.length - offset) / size)

def readByte (file : File) (place : Nat) : Except Nat UInt8 :=
  match file[place]? with
  | some byte => .ok byte
  | none => .error place

/-- The lowest byte comes first. -/
def readNumber (file : File) : Nat → Nat → Except Nat Nat
  | 0, _ => .ok 0
  | width + 1, place => do
      let low ← readByte file place
      let high ← readNumber file width (place + 1)
      return low.toNat + 256 * high

def textTo : File → Nat → Except Nat Text
  | [], place => .error place
  | byte :: rest, place =>
      if byte = 0 then .ok []
      else (textTo rest (place + 1)).map (Char.ofUInt8 byte :: ·)

/-- A C string goes on to its NUL, wherever that is. -/
def cString (file : File) (place : Nat) : Except Nat Text := textTo (file.drop place) place

def elfMagic : File := [0x7F, 0x45, 0x4C, 0x46]
def elfClass64 : Nat := 2
def headerSize : Nat := 64
def sectionSize : Nat := 64
def symbolSize : Nat := 24
def symtabKind : Nat := 2
def dynsymKind : Nat := 11

structure SectionHeader where
  kind : Nat
  offset : Nat
  size : Nat
  link : Nat
  entrySize : Nat
  deriving DecidableEq, Repr

def readSection (file : File) (place : Nat) : Except Nat SectionHeader := do
  let kind ← readNumber file 4 (place + 4)
  let offset ← readNumber file 8 (place + 24)
  let size ← readNumber file 8 (place + 32)
  let link ← readNumber file 4 (place + 40)
  let entrySize ← readNumber file 8 (place + 56)
  return ⟨kind, offset, size, link, entrySize⟩

/-- The section headers: where the first is, and how many there are. -/
structure Sections where
  offset : Nat
  count : Nat
  deriving DecidableEq, Repr

def readHeader (file : File) : Except Nat (Option Sections) := do
  if fits file 0 headerSize 1 = false then return none
  else do
    let kind ← readNumber file 1 4
    if file.take 4 ≠ elfMagic ∨ kind ≠ elfClass64 then return none
    else do
      let offset ← readNumber file 8 40
      let entrySize ← readNumber file 2 58
      let count ← readNumber file 2 60
      if fits file offset sectionSize count = false ∨ entrySize ≠ sectionSize then return none
      else return some ⟨offset, count⟩

/-- One turn of the loop over a table's symbols; a symbol without a value is not defined here. -/
def searchSymbol (file : File) (symbol : Text) (table strings : SectionHeader) (index : Nat) :
    Except Nat (Option Nat) := do
  let name ← readNumber file 4 (table.offset + symbolSize * index)
  let value ← readNumber file 8 (table.offset + symbolSize * index + 8)
  if strings.size ≤ name ∨ value = 0 then return none
  else do
    let spelled ← cString file (strings.offset + name)
    return if symbol = spelled then some value else none

def usable (file : File) (table strings : SectionHeader) : Bool :=
  fits file strings.offset 1 strings.size &&
    fits file table.offset symbolSize (table.size / symbolSize)

def searchSection (file : File) (symbol : Text) (sections : Sections) (wanted index : Nat) :
    Except Nat (Option Nat) := do
  let table ← readSection file (sections.offset + sectionSize * index)
  if table.kind ≠ wanted ∨ table.entrySize ≠ symbolSize ∨ sections.count ≤ table.link then
    return none
  else do
    let strings ← readSection file (sections.offset + sectionSize * table.link)
    if usable file table strings then
      (List.range (table.size / symbolSize)).findSomeM? (searchSymbol file symbol table strings)
    else return none

/-- `.symtab` first: `.dynsym` holds only exports. -/
def findSymbolValue (file : File) (symbol : Text) : Except Nat Nat := do
  match ← readHeader file with
  | none => return 0
  | some sections => do
      let found ← [symtabKind, dynsymKind].findSomeM? fun wanted =>
        (List.range sections.count).findSomeM? (searchSection file symbol sections wanted)
      return found.getD 0

def tableSymbol (className : Text) : Text := "_ZTV".toList ++ lengthPrefixedName className

/-- What the system says of a module: the path it was loaded from, where, the file there if it
opens, and the segments of the module with that file's name. -/
structure Module where
  path : Text
  base : UInt64
  mappedFile : Option File
  ranges : Option (List ScanRange)

def byTypeName (memory : Memory) (executable : UInt64 → Bool) (module : Module)
    (className : Text) : Except (Nat ⊕ Stop) UInt64 :=
  match module.ranges with
  | none => .ok 0
  | some ranges =>
      (findVirtualTableByTypeName memory executable ranges className).mapError Sum.inr

/-- Object vptrs point past the offset to the top and the typeinfo. -/
def findVirtualTableIn (memory : Memory) (executable : UInt64 → Bool) (module : Module)
    (className : Text) : Except (Nat ⊕ Stop) UInt64 := do
  if module.path = [] then return 0
  else match module.mappedFile with
    | none => byTypeName memory executable module className
    | some file => do
        let value ← (findSymbolValue file (tableSymbol className)).mapError Sum.inl
        if value ≠ 0 then return module.base + UInt64.ofNat value + 16
        else byTypeName memory executable module className

section Layout
variable (file : File)

def numberAt : Nat → Nat → Nat
  | 0, _ => 0
  | width + 1, place => (file.getD place 0).toNat + 256 * numberAt width (place + 1)

def sectionAt (place : Nat) : SectionHeader :=
  ⟨numberAt file 4 (place + 4), numberAt file 8 (place + 24), numberAt file 8 (place + 32),
    numberAt file 4 (place + 40), numberAt file 8 (place + 56)⟩

def headerOf : Option Sections :=
  match readHeader file with
  | .ok answer => answer
  | .error _ => none

structure Place where
  table : SectionHeader
  strings : SectionHeader
  index : Nat
  deriving DecidableEq, Repr

/-- A symbol table of a kind that lies in the file, with its strings. -/
def tableAt (sections : Sections) (wanted index : Nat) : Option (SectionHeader × SectionHeader) :=
  let table := sectionAt file (sections.offset + sectionSize * index)
  let strings := sectionAt file (sections.offset + sectionSize * table.link)
  if table.kind = wanted ∧ table.entrySize = symbolSize ∧ table.link < sections.count ∧
      usable file table strings = true then some (table, strings)
  else none

def tablesOf (sections : Sections) (wanted : Nat) : List (SectionHeader × SectionHeader) :=
  (List.range sections.count).filterMap (tableAt file sections wanted)

def placesIn (tables : SectionHeader × SectionHeader) : List Place :=
  (List.range (tables.1.size / symbolSize)).map (Place.mk tables.1 tables.2)

/-- The file's symbols, those of a full symbol table before the exports. -/
def symbolPlaces : List Place :=
  match headerOf file with
  | none => []
  | some sections =>
      [symtabKind, dynsymKind].flatMap fun wanted =>
        (tablesOf file sections wanted).flatMap placesIn

def nameOf (place : Place) : Nat :=
  numberAt file 4 (place.table.offset + symbolSize * place.index)

def valueOf (place : Place) : Nat :=
  numberAt file 8 (place.table.offset + symbolSize * place.index + 8)

def stringAt (place : Nat) : Text :=
  ((file.drop place).takeWhile (· ≠ 0)).map Char.ofUInt8

structure Defines (symbol : Text) (place : Place) (value : Nat) : Prop where
  inside : nameOf file place < place.strings.size
  spelled : stringAt file (place.strings.offset + nameOf file place) = symbol
  isValue : valueOf file place = value
  defined : value ≠ 0

/-- The last byte of each table's strings is NUL. -/
def Terminated : Prop :=
  ∀ place ∈ symbolPlaces file,
    file[place.strings.offset + place.strings.size - 1]? = some 0

/-- The value of the first symbol with the name. -/
def FirstDefinition (symbol : Text) (value : Nat) : Prop :=
  ∃ earlier place later, symbolPlaces file = earlier ++ place :: later ∧
    Defines file symbol place value ∧ ∀ before ∈ earlier, ∀ other, ¬Defines file symbol before other

def Undefined (symbol : Text) : Prop :=
  ∀ place ∈ symbolPlaces file, ∀ value, ¬Defines file symbol place value

end Layout

section Search
variable {Item Other Value : Type}

theorem findSomeM?_append {search : Item → Except Nat (Option Value)} (first second : List Item) :
    (first ++ second).findSomeM? search = (do
      match ← first.findSomeM? search with
      | some value => return some value
      | none => second.findSomeM? search) := by
  induction first with
  | nil => rfl
  | cons item rest ih =>
      rw [List.cons_append, List.findSomeM?_cons, List.findSomeM?_cons, ih]
      cases search item with
      | error place => rfl
      | ok answer => cases answer <;> rfl

theorem findSomeM?_flatMap {search : Item → Except Nat (Option Value)} {parts : Other → List Item}
    (items : List Other) : (items.flatMap parts).findSomeM? search =
      items.findSomeM? fun item => (parts item).findSomeM? search := by
  induction items with
  | nil => rfl
  | cons item rest ih =>
      rw [List.flatMap_cons, findSomeM?_append, List.findSomeM?_cons, ih]
      rfl

theorem findSomeM?_filterMap {search : Item → Except Nat (Option Value)}
    {part : Other → Option Item} (items : List Other) : (items.filterMap part).findSomeM? search =
      items.findSomeM? fun item => match part item with
        | some found => search found
        | none => .ok none := by
  induction items with
  | nil => rfl
  | cons item rest ih =>
      rw [List.findSomeM?_cons, List.filterMap_cons]
      cases part item with
      | none => exact ih
      | some found =>
          rw [List.findSomeM?_cons, ih]

theorem findSomeM?_map {search : Item → Except Nat (Option Value)} {form : Other → Item}
    (items : List Other) : (items.map form).findSomeM? search =
      items.findSomeM? fun item => search (form item) := by
  induction items with
  | nil => rfl
  | cons item rest ih => rw [List.map_cons, List.findSomeM?_cons, List.findSomeM?_cons, ih]

theorem findSomeM?_congr {first second : Item → Except Nat (Option Value)} {items : List Item}
    (same : ∀ item ∈ items, first item = second item) :
    items.findSomeM? first = items.findSomeM? second := by
  induction items with
  | nil => rfl
  | cons item rest ih =>
      rw [List.findSomeM?_cons, List.findSomeM?_cons, same item List.mem_cons_self,
        ih fun later member => same later (List.mem_cons_of_mem _ member)]

theorem findSomeM?_error {search : Item → Except Nat (Option Value)} {items : List Item}
    {wrong : Nat → Prop} (each : ∀ item ∈ items, ∀ place, search item = .error place → wrong place)
    {place : Nat} (failed : items.findSomeM? search = .error place) : wrong place := by
  induction items with
  | nil => cases failed
  | cons item rest ih =>
      rw [List.findSomeM?_cons] at failed
      cases run : search item with
      | error stop =>
          rw [run] at failed
          cases failed
          exact each item List.mem_cons_self _ run
      | ok answer =>
          rw [run] at failed
          cases answer with
          | some value => cases failed
          | none =>
              exact ih (fun later member => each later (List.mem_cons_of_mem _ member)) failed

theorem findSomeM?_first {search : Item → Except Nat (Option Value)} {items : List Item}
    {defines : Item → Value → Prop} (each : ∀ item ∈ items, ∃ answer,
      search item = .ok answer ∧ ∀ value, answer = some value ↔ defines item value) :
    ∃ answer, items.findSomeM? search = .ok answer ∧
      (answer = none → ∀ item ∈ items, ∀ value, ¬defines item value) ∧
      ∀ value, answer = some value → ∃ earlier item later, items = earlier ++ item :: later ∧
        defines item value ∧ ∀ before ∈ earlier, ∀ other, ¬defines before other := by
  induction items with
  | nil => exact ⟨none, rfl, nofun, nofun⟩
  | cons item rest ih =>
      obtain ⟨answer, run, exact⟩ := each item List.mem_cons_self
      rw [List.findSomeM?_cons, run]
      cases answer with
      | some value =>
          refine ⟨some value, rfl, nofun, ?_⟩
          rintro _ ⟨⟩
          exact ⟨[], item, rest, rfl, (exact value).mp rfl, nofun⟩
      | none =>
          have nothing (value : Value) : ¬defines item value := mt (exact value).mpr nofun
          obtain ⟨later, ran, absent, first⟩ :=
            ih fun later member => each later (List.mem_cons_of_mem _ member)
          refine ⟨later, ran, ?_, ?_⟩
          · intro none other member
            rcases List.mem_cons.mp member with rfl | inside
            · exact nothing
            · exact absent none other inside
          · intro value found
            obtain ⟨earlier, place, others, split, is, free⟩ := first value found
            refine ⟨item :: earlier, place, others, by rw [split]; rfl, is, ?_⟩
            intro before member
            rcases List.mem_cons.mp member with rfl | inside
            · exact nothing
            · exact free before inside

end Search

section Reads
variable {file : File}

theorem readNumber_inside {width place : Nat} (inside : place + width ≤ file.length) :
    readNumber file width place = .ok (numberAt file width place) := by
  induction width generalizing place with
  | zero => rfl
  | succ width ih =>
      have here : place < file.length := by omega
      rw [readNumber, readByte, List.getElem?_eq_getElem here, ih (by omega), numberAt,
        List.getD_eq_getElem?_getD, List.getElem?_eq_getElem here]
      rfl

theorem readSection_inside {place : Nat} (inside : place + 64 ≤ file.length) :
    readSection file place = .ok (sectionAt file place) := by
  rw [readSection, readNumber_inside (by omega), readNumber_inside (by omega),
    readNumber_inside (by omega), readNumber_inside (by omega), readNumber_inside (by omega)]
  rfl

theorem fits_room {offset size count : Nat} (some : 0 < size)
    (room : fits file offset size count = true) : offset + size * count ≤ file.length := by
  rw [fits, decide_eq_true_iff, Nat.le_div_iff_mul_le some, Nat.mul_comm] at room
  omega

theorem record_room {offset size count index : Nat} (inside : index < count)
    (room : offset + size * count ≤ file.length) :
    offset + size * index + size ≤ file.length := by
  have step : size * index + size ≤ size * count := by
    rw [← Nat.mul_succ]
    exact Nat.mul_le_mul_left size inside
  omega

theorem textTo_exact (bytes : File) (place : Nat) : textTo bytes place =
    if 0 ∈ bytes then .ok ((bytes.takeWhile (· ≠ 0)).map Char.ofUInt8)
    else .error (place + bytes.length) := by
  induction bytes generalizing place with
  | nil => rfl
  | cons byte rest ih =>
      rw [textTo]
      by_cases closes : byte = 0
      · simp [closes]
      · have apart : (0 : UInt8) ≠ byte := fun same => closes same.symm
        rw [if_neg closes, ih]
        by_cases later : 0 ∈ rest
        · simp [closes, later, Except.map]
        · simp [apart, later, Except.map, Nat.add_comm, Nat.add_left_comm]

theorem cString_error {place stop : Nat} (inside : place ≤ file.length)
    (failed : cString file place = .error stop) : stop = file.length := by
  rw [cString, textTo_exact] at failed
  split at failed
  · cases failed
  · cases failed
    rw [List.length_drop]
    omega

theorem cString_closed {place last : Nat} (before : place ≤ last)
    (closed : file[last]? = some 0) : cString file place = .ok (stringAt file place) := by
  have closes : 0 ∈ file.drop place := by
    rw [List.mem_iff_getElem?]
    exact ⟨last - place, by rw [List.getElem?_drop, ← closed]; congr 1; omega⟩
  rw [cString, textTo_exact, if_pos closes]
  rfl

/-- The header is read within the file, and what it says of the sections is in the file too. -/
theorem readHeader_ok (file : File) : readHeader file = .ok (headerOf file) ∧
    ∀ sections, headerOf file = some sections →
      sections.offset + sectionSize * sections.count ≤ file.length := by
  have answers : ∃ answer, readHeader file = .ok answer ∧ ∀ sections, answer = some sections →
      sections.offset + sectionSize * sections.count ≤ file.length := by
    rw [readHeader]
    split
    · exact ⟨none, rfl, nofun⟩
    · next room =>
        have long := fits_room (by decide) (eq_true_of_ne_false room)
        rw [headerSize] at long
        rw [readNumber_inside (by omega)]
        simp only [bind, Except.bind]
        split
        · exact ⟨none, rfl, nofun⟩
        · rw [readNumber_inside (by omega), readNumber_inside (by omega),
            readNumber_inside (by omega)]
          simp only
          split
          · exact ⟨none, rfl, nofun⟩
          · next kept =>
              rw [not_or] at kept
              refine ⟨_, rfl, ?_⟩
              rintro _ ⟨⟩
              exact fits_room (by decide) (eq_true_of_ne_false kept.1)
  obtain ⟨answer, run, inside⟩ := answers
  have same : headerOf file = answer := by rw [headerOf, run]
  rw [same]
  exact ⟨run, inside⟩

end Reads

section Symbols
variable {file : File} {symbol : Text}

def lookAt (file : File) (symbol : Text) (place : Place) : Except Nat (Option Nat) :=
  searchSymbol file symbol place.table place.strings place.index

/-- The search of one section is the search at its table's places. -/
theorem searchSection_places {sections : Sections} {wanted index : Nat}
    (room : sections.offset + sectionSize * sections.count ≤ file.length)
    (listed : index ∈ List.range sections.count) :
    searchSection file symbol sections wanted index =
      match tableAt file sections wanted index with
      | some tables => (placesIn tables).findSomeM? (lookAt file symbol)
      | none => .ok none := by
  have inside := record_room (List.mem_range.mp listed) room
  rw [sectionSize] at inside
  rw [searchSection, sectionSize, readSection_inside inside, tableAt, sectionSize]
  simp only [bind, Except.bind]
  split
  · next other =>
      rw [if_neg]
      · rfl
      · rintro ⟨kind, size, link, _⟩
        rcases other with apart | apart | apart
        · exact apart kind
        · exact apart size
        · omega
  · next kept =>
      simp only [not_or, Decidable.not_not, Nat.not_le] at kept
      obtain ⟨kind, size, link⟩ := kept
      have later := record_room link room
      rw [sectionSize] at later
      rw [readSection_inside later]
      simp only
      cases fit : usable file (sectionAt file (sections.offset + 64 * index))
          (sectionAt file (sections.offset +
            64 * (sectionAt file (sections.offset + 64 * index)).link)) with
      | false =>
          rw [if_neg (by simp), if_neg (by simp)]
          rfl
      | true =>
          rw [if_pos rfl, if_pos ⟨kind, size, link, rfl⟩]
          simp only [placesIn, findSomeM?_map]
          rfl

theorem findSymbolValue_places (file : File) (symbol : Text) : findSymbolValue file symbol = (do
    let found ← (symbolPlaces file).findSomeM? (lookAt file symbol)
    return found.getD 0) := by
  obtain ⟨run, room⟩ := readHeader_ok file
  rw [findSymbolValue, run, symbolPlaces]
  simp only [bind, Except.bind]
  cases found : headerOf file with
  | none => rfl
  | some sections =>
      have same (wanted : Nat) :
          (List.range sections.count).findSomeM? (searchSection file symbol sections wanted) =
            ((tablesOf file sections wanted).flatMap placesIn).findSomeM?
              (lookAt file symbol) := by
        rw [findSomeM?_flatMap, tablesOf, findSomeM?_filterMap]
        refine findSomeM?_congr fun index listed => ?_
        rw [searchSection_places (room sections found) listed]
        cases tableAt file sections wanted index <;> rfl
      simp only [findSomeM?_flatMap, same]

/-- What a place's table and strings take of the file. -/
structure Placed (file : File) (place : Place) : Prop where
  record : place.table.offset + symbolSize * place.index + symbolSize ≤ file.length
  strings : place.strings.offset + place.strings.size ≤ file.length

theorem placed {place : Place} (listed : place ∈ symbolPlaces file) : Placed file place := by
  rw [symbolPlaces] at listed
  cases found : headerOf file with
  | none => simp [found] at listed
  | some sections =>
      simp only [found, List.mem_flatMap] at listed
      obtain ⟨wanted, _, ⟨table, strings⟩, held, inside⟩ := listed
      rw [tablesOf, List.mem_filterMap] at held
      obtain ⟨index, _, is⟩ := held
      rw [tableAt] at is
      split at is
      · next kept =>
          cases is
          have fit := kept.2.2.2
          rw [usable, Bool.and_eq_true] at fit
          have room := fits_room (by decide) fit.1
          rw [placesIn, List.mem_map] at inside
          obtain ⟨number, below, rfl⟩ := inside
          rw [Nat.one_mul] at room
          exact ⟨record_room (List.mem_range.mp below) (fits_room (by decide) fit.2), room⟩
      · cases is

theorem lookAt_reads {place : Place} (placed : Placed file place) :
    lookAt file symbol place =
      if place.strings.size ≤ nameOf file place ∨ valueOf file place = 0 then .ok none
      else do
        let spelled ← cString file (place.strings.offset + nameOf file place)
        return if symbol = spelled then some (valueOf file place) else none := by
  have room := placed.record
  rw [symbolSize] at room
  rw [lookAt, searchSymbol, symbolSize, readNumber_inside (by omega),
    readNumber_inside (by omega)]
  rfl

/-- A name that runs out of the file is the only thing read behind its end. -/
theorem lookAt_error {place : Place} (placed : Placed file place) {stop : Nat}
    (failed : lookAt file symbol place = .error stop) : stop = file.length := by
  rw [lookAt_reads placed] at failed
  split at failed
  · cases failed
  · next kept =>
      rw [not_or] at kept
      have inside := placed.strings
      cases run : cString file (place.strings.offset + nameOf file place) with
      | ok spelled =>
          rw [run] at failed
          cases failed
      | error there =>
          rw [run] at failed
          cases failed
          exact cString_error (by omega) run

theorem lookAt_closed {place : Place} (placed : Placed file place)
    (closed : file[place.strings.offset + place.strings.size - 1]? = some 0) :
    ∃ answer, lookAt file symbol place = .ok answer ∧
      ∀ value, answer = some value ↔ Defines file symbol place value := by
  rw [lookAt_reads placed]
  split
  · next passed =>
      refine ⟨none, rfl, fun value => ⟨nofun, ?_⟩⟩
      rintro ⟨inside, _, rfl, defined⟩
      rcases passed with beyond | zero
      · omega
      · exact absurd zero defined
  · next kept =>
      rw [not_or] at kept
      rw [cString_closed (by omega) closed]
      refine ⟨_, rfl, fun value => ?_⟩
      constructor
      · intro found
        split at found
        · next same =>
            cases found
            exact ⟨by omega, same.symm, rfl, kept.2⟩
        · cases found
      · rintro ⟨_, rfl, rfl, _⟩
        rw [if_pos rfl]

/-- Of any bytes at all, only a name that runs out of the file is read behind its end. -/
theorem findSymbolValue_error {stop : Nat} (failed : findSymbolValue file symbol = .error stop) :
    stop = file.length := by
  rw [findSymbolValue_places] at failed
  cases run : (symbolPlaces file).findSomeM? (lookAt file symbol) with
  | ok answer =>
      rw [run] at failed
      cases failed
  | error there =>
      rw [run] at failed
      cases failed
      exact findSomeM?_error (fun place listed stop failed =>
        lookAt_error (placed listed) failed) run

theorem findSymbolValue_closed (terminated : Terminated file) :
    (∃ value, findSymbolValue file symbol = .ok value ∧ value ≠ 0 ∧
      FirstDefinition file symbol value) ∨
    findSymbolValue file symbol = .ok 0 ∧ Undefined file symbol := by
  obtain ⟨answer, run, absent, first⟩ := findSomeM?_first fun place listed =>
    @lookAt_closed file symbol place (placed listed) (terminated place listed)
  rw [findSymbolValue_places, run]
  cases answer with
  | none => exact .inr ⟨rfl, absent rfl⟩
  | some value =>
      obtain ⟨earlier, place, later, split, is, free⟩ := first value rfl
      exact .inl ⟨value, rfl, is.defined, earlier, place, later, split, is, free⟩

end Symbols

section Found
variable (memory : Memory) (executable : UInt64 → Bool) (module : Module) (className : Text)

/-- What the search of the module's segments answers. -/
def ByName (table : UInt64) : Prop :=
  match module.ranges with
  | none => table = 0
  | some ranges => (table ≠ 0 → PrimaryTable memory executable ranges className table) ∧
      (table = 0 → ∀ other, ¬PrimaryTable memory executable ranges className other)

/-- Past the two words before the slots of the table that the file's first such symbol tells. -/
def BySymbol (table : UInt64) : Prop :=
  ∃ file value, module.mappedFile = some file ∧
    FirstDefinition file (tableSymbol className) value ∧
    table = module.base + UInt64.ofNat value + 16

variable {memory executable module className}

theorem byTypeName_found
    (segments : ∀ ranges, module.ranges = some ranges → Segments memory ranges) :
    ∃ table, byTypeName memory executable module className = .ok table ∧
      ByName memory executable module className table := by
  rw [byTypeName]
  cases known : module.ranges with
  | none => exact ⟨0, rfl, by rw [ByName, known]⟩
  | some ranges =>
      obtain ⟨table, run, is⟩ :=
        @typeName_table memory executable ranges (segments ranges known) className
      refine ⟨table, ?_, ?_⟩
      · simp only [run]
        rfl
      · rw [ByName, known]
        exact is

/-- A module with a path: whatever bytes its file holds, nothing is read but the file and the
segments, and behind the file's end only a name that runs out of it. Where the strings of its
symbol tables are terminated, the answer is the table of the first symbol with the class's name,
and of the search of the segments where the file defines none. -/
theorem virtual_table_found (named : module.path ≠ [])
    (segments : ∀ ranges, module.ranges = some ranges → Segments memory ranges) :
    (∀ stop, findVirtualTableIn memory executable module className = .error stop →
      ∃ file, module.mappedFile = some file ∧ stop = .inl file.length) ∧
    ((∀ file, module.mappedFile = some file → Terminated file) →
      ∃ table, findVirtualTableIn memory executable module className = .ok table ∧
        (BySymbol module className table ∨
          (∀ file, module.mappedFile = some file → Undefined file (tableSymbol className)) ∧
            ByName memory executable module className table)) := by
  obtain ⟨searched, run, is⟩ := @byTypeName_found memory executable module className segments
  rw [findVirtualTableIn, if_neg named]
  cases opened : module.mappedFile with
  | none =>
      simp only [run]
      exact ⟨nofun, fun _ => ⟨searched, rfl, .inr ⟨nofun, is⟩⟩⟩
  | some file =>
      constructor
      · intro stop failed
        cases symbol : findSymbolValue file (tableSymbol className) with
        | error there =>
            simp only [symbol, Except.mapError, bind, Except.bind] at failed
            cases failed
            exact ⟨file, rfl, by rw [findSymbolValue_error symbol]⟩
        | ok value =>
            simp only [symbol, Except.mapError, bind, Except.bind, run] at failed
            split at failed <;> cases failed
      · intro terminated
        rcases findSymbolValue_closed (terminated file rfl) with
          ⟨value, symbol, nonzero, first⟩ | ⟨symbol, absent⟩
        · refine ⟨module.base + UInt64.ofNat value + 16, ?_, .inl ⟨file, value, opened, first, rfl⟩⟩
          simp only [symbol, Except.mapError, bind, Except.bind]
          rw [if_pos nonzero]
          rfl
        · refine ⟨searched, ?_, .inr ⟨?_, is⟩⟩
          · simp only [symbol, Except.mapError, bind, Except.bind, run]
            rfl
          · rintro _ ⟨⟩
            exact absent

end Found

section Root

def bytesOf (width value : Nat) : File :=
  (List.range width).map fun i => UInt8.ofNat (value / 256 ^ i)

def sectionBytes (header : SectionHeader) : File :=
  bytesOf 4 0 ++ bytesOf 4 header.kind ++ bytesOf 16 0 ++ bytesOf 8 header.offset ++
    bytesOf 8 header.size ++ bytesOf 4 header.link ++ bytesOf 12 0 ++ bytesOf 8 header.entrySize

/-- A symbol table of one symbol, and its strings. -/
def rootTable : SectionHeader := ⟨2, 192, 24, 1, 24⟩
def rootStrings : SectionHeader := ⟨3, 216, 10, 0, 0⟩

def rootFile : File :=
  elfMagic ++ [2] ++ bytesOf 35 0 ++ bytesOf 8 64 ++ bytesOf 10 0 ++ bytesOf 2 64 ++ bytesOf 2 2 ++
    bytesOf 2 0 ++ sectionBytes rootTable ++ sectionBytes rootStrings ++ bytesOf 8 0 ++
      bytesOf 8 0x5010 ++ bytesOf 8 0 ++ nameBytes "_ZTV4Root"

def rootServer : Module := ⟨"libserver.so".toList, 0x7000, some rootFile, some [rootSegment]⟩

theorem root_symbol : findVirtualTableIn rootModule (· == 0x2000) rootServer "Root".toList =
      .ok 0xC020 ∧ BySymbol rootServer "Root".toList 0xC020 := by
  have segments (ranges : List ScanRange) (known : rootServer.ranges = some ranges) :
      Segments rootModule ranges := by
    cases known
    exact root_segments
  have places : symbolPlaces rootFile = [⟨rootTable, rootStrings, 0⟩] := by decide +kernel
  have terminated (file : File) (opened : rootServer.mappedFile = some file) :
      Terminated file := by
    cases opened
    intro place listed
    rw [places] at listed
    rw [List.mem_singleton.mp listed]
    decide +kernel
  have defined : Defines rootFile (tableSymbol "Root".toList) ⟨rootTable, rootStrings, 0⟩ 0x5010 :=
    ⟨by decide +kernel, by decide +kernel, by decide +kernel, by decide⟩
  have run : findVirtualTableIn rootModule (· == 0x2000) rootServer "Root".toList =
      .ok 0xC020 := by decide +kernel
  obtain ⟨table, answer, either⟩ := (@virtual_table_found rootModule (· == 0x2000) rootServer
    "Root".toList (by decide) segments).2 terminated
  cases run.symm.trans answer
  refine ⟨run, either.resolve_right fun other => ?_⟩
  exact other.1 rootFile rfl _ (places ▸ List.mem_cons_self) _ defined

end Root

end VoltMod.ElfSymbols
