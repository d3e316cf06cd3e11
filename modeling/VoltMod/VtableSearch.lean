import VoltMod.TypeInfoGraph

/-!
Engine/Memory/VtableLookup.cpp: a class's table through its Itanium type name. The ranges are the
segments of the module in memory; `executable` is what the system says of an address.
-/

namespace VoltMod.VtableLookup
open MigrationText (Text)
open ProcessMemory

structure ScanRange where
  base : UInt64
  size : UInt64
  deriving DecidableEq, Repr

/-- The loop over one range's words, the next one at `address`. -/
def wordsFrom (memory : Memory) (value limit : UInt64) : Nat → UInt64 → Except Stop (List UInt64)
  | 0, _ => .error .fuel
  | fuel + 1, address =>
      if address + 16 ≤ limit then do
        let here ← readWord memory address
        let rest ← wordsFrom memory value limit fuel (address + 8)
        return if here = value then address :: rest else rest
      else return []

/-- The range's second word: the first one has none before it. -/
def secondWord (range : ScanRange) : UInt64 := ((range.base + 7) &&& ~~~7) + 8

def findWords (memory : Memory) (ranges : List ScanRange) (value : UInt64) :
    Except Stop (List UInt64) := do
  let found ← ranges.mapM fun range =>
    wordsFrom memory value (range.base + range.size) (range.size.toNat + 1) (secondWord range)
  return found.flatten

/-- `string_view::find`. -/
def findText (needle text : Text) (start : Nat) : Option Nat :=
  (List.range' start (text.length + 1 - start)).find? fun place =>
    needle.isPrefixOf (text.drop place)

def nameCharacter (c : Char) : Bool := c.isAlphanum || c == '_'

/-- A name character before it makes it a part of a longer mangled name. -/
def insideLongerName (text : Text) (place : Nat) : Bool :=
  decide (0 < place) && text[place - 1]?.any nameCharacter

section Source
variable (memory : Memory) (executable : UInt64 → Bool) (ranges : List ScanRange)

def isExecutableAddress (address : UInt64) : Bool := address != 0 && executable address

/-- Whether the table with this typeinfo word in its header has such an offset to the top, and
code in its first slot. -/
def headsTable (offsetToTop : UInt64) (header : UInt64) : Except Stop Bool := do
  let top ← readWord memory (header - 8)
  if top = offsetToTop then do
    let slot ← readWord memory (header + 8)
    return isExecutableAddress executable slot
  else return false

/-- The primary table of a class whose name lies here. -/
def tableNamed (address : UInt64) : Except Stop (Option UInt64) := do
  let names ← findWords memory ranges address
  names.findSomeM? fun name => do
    let typeInfos ← findWords memory ranges (name - 8)
    typeInfos.findSomeM? fun header => do
      let heads ← headsTable memory executable 0 header
      return if heads then some (header + 8) else none

/-- The loop over one range's occurrences of the name, the next one looked for from `start`. -/
def searchRange (needle : Text) (base : UInt64) (text : Text) :
    Nat → Nat → Except Stop (Option UInt64)
  | 0, _ => .error .fuel
  | fuel + 1, start =>
      match findText needle text start with
      | none => return none
      | some place =>
          if insideLongerName text place then searchRange needle base text fuel (place + 1)
          else do
            match ← tableNamed memory executable ranges (base + UInt64.ofNat place) with
            | some table => return some table
            | none => searchRange needle base text fuel (place + 1)

def typeNeedle (className : Text) : Text := lengthPrefixedName className ++ ['\x00']

/-- A null pointer is 0. -/
def findVirtualTableByTypeName (className : Text) : Except Stop UInt64 := do
  let found ← ranges.findSomeM? fun range => do
    let text ← readText memory range.size.toNat range.base
    searchRange memory executable ranges (typeNeedle className) range.base text
      (text.length + 2) 0
  return found.getD 0

/-- The loop over the words, with the table found so far. -/
def onlyTable (offsetToTop : UInt64) : UInt64 → List UInt64 → Except Stop UInt64
  | found, [] => return found
  | found, header :: rest => do
      let heads ← headsTable memory executable offsetToTop header
      if heads = false then onlyTable offsetToTop found rest
      else if found ≠ 0 then return 0
      else onlyTable offsetToTop (header + 8) rest

def findVirtualTableByTypeInfo (typeInfo offsetToTop : UInt64) : Except Stop UInt64 := do
  let headers ← findWords memory ranges typeInfo
  onlyTable memory executable offsetToTop 0 headers

end Source

section Layout
variable (memory : Memory) (executable : UInt64 → Bool) (ranges : List ScanRange)

/-- Every byte is in a readable mapping, which need not be one for all of them. -/
def Spanned (address : UInt64) (size : Nat) : Prop :=
  ∀ offset < size, (memory.queryRegion (address + UInt64.ofNat offset)).any (·.readable) = true

def before (first second : ScanRange) : Prop :=
  first.base.toNat + first.size.toNat ≤ second.base.toNat

/-- The module's segments: mapped readable in the lower half of the addresses, and apart. -/
structure Segments : Prop where
  spanned : ∀ range ∈ ranges, Spanned memory range.base range.size.toNat
  low : ∀ range ∈ ranges, range.base.toNat + range.size.toNat ≤ 2 ^ 63
  apart : ranges.Pairwise fun first second => before first second ∨ before second first

/-- A word of a segment, the words before and behind it in the same one. -/
def Within (range : ScanRange) (address : UInt64) : Prop :=
  address.toNat % 8 = 0 ∧ range.base.toNat + 8 ≤ address.toNat ∧
    address.toNat + 16 ≤ range.base.toNat + range.size.toNat

/-- A table: its offset to the top and its typeinfo, and code in its first slot. -/
structure TableOf (typeInfo offsetToTop table : UInt64) : Prop where
  placed : ∃ range ∈ ranges, Within range (table - 8)
  top : word memory (table - 16) = offsetToTop
  ofType : word memory (table - 8) = typeInfo
  code : isExecutableAddress executable (word memory table) = true

/-- The class's name, to its end, that no name character comes before. -/
structure NameAt (className : Text) (address : UInt64) : Prop where
  placed : ∃ range ∈ ranges, ∃ place, address = range.base + UInt64.ofNat place ∧
    place + (typeNeedle className).length ≤ range.size.toNat ∧
    (place ≠ 0 → nameCharacter (Char.ofUInt8 (memory.byte (address - 1))) = false)
  spelled : text memory (typeNeedle className).length address = typeNeedle className

/-- A typeinfo that has the class's name; a word behind these two is in the segment too. -/
structure TypeInfoOf (className : Text) (typeInfo : UInt64) : Prop where
  placed : ∃ range ∈ ranges, Within range (typeInfo + 8)
  named : NameAt memory ranges className (word memory (typeInfo + 8))

def PrimaryTable (className : Text) (table : UInt64) : Prop :=
  ∃ typeInfo, TypeInfoOf memory ranges className typeInfo ∧
    TableOf memory executable ranges typeInfo 0 table

end Layout

section Reads
variable {memory : Memory} {address : UInt64} {size : Nat}

theorem readNumber_spanned (spanned : Spanned memory address size) {width offset : Nat}
    (inside : offset + width ≤ size) :
    readNumber memory width (address + UInt64.ofNat offset) =
      .ok (number memory width (address + UInt64.ofNat offset)) := by
  induction width generalizing offset with
  | zero => rfl
  | succ width ih =>
      have first : readByte memory (address + UInt64.ofNat offset) =
          .ok (memory.byte (address + UInt64.ofNat offset)) := by
        rw [readByte, if_pos (spanned offset (by omega))]
      rw [readNumber, first, next_address, ih (by omega), number, next_address]
      rfl

theorem readText_spanned (spanned : Spanned memory address size) {length offset : Nat}
    (inside : offset + length ≤ size) :
    readText memory length (address + UInt64.ofNat offset) =
      .ok (text memory length (address + UInt64.ofNat offset)) := by
  induction length generalizing offset with
  | zero => rfl
  | succ length ih =>
      have first : readByte memory (address + UInt64.ofNat offset) =
          .ok (memory.byte (address + UInt64.ofNat offset)) := by
        rw [readByte, if_pos (spanned offset (by omega))]
      rw [readText, first, next_address, ih (by omega), text, next_address]
      rfl

theorem text_drop (address : UInt64) (size place : Nat) :
    (text memory size address).drop place =
      text memory (size - place) (address + UInt64.ofNat place) := by
  induction place generalizing address size with
  | zero => simp
  | succ place ih =>
      cases size with
      | zero => simp [text]
      | succ size =>
          rw [text, List.drop_succ_cons, ih, Nat.add_sub_add_right, UInt64.add_assoc,
            UInt64.add_comm 1, ← UInt64.add_assoc, next_address]

theorem text_take {length : Nat} (inside : length ≤ size) (address : UInt64) :
    (text memory size address).take length = text memory length address := by
  induction length generalizing address size with
  | zero => rfl
  | succ length ih =>
      cases size with
      | zero => omega
      | succ size => rw [text, text, List.take_succ_cons, ih (by omega)]

theorem text_at {place : Nat} (inside : place < size) (address : UInt64) :
    (text memory size address)[place]? =
      some (Char.ofUInt8 (memory.byte (address + UInt64.ofNat place))) := by
  rw [← List.head?_drop, text_drop]
  obtain ⟨rest, size⟩ : ∃ rest, size - place = rest + 1 := ⟨size - place - 1, by omega⟩
  rw [size]
  rfl

theorem prefix_at {needle : Text} {place : Nat} (address : UInt64) :
    needle.isPrefixOf ((text memory size address).drop place) = true ↔
      (needle = [] ∨ place + needle.length ≤ size) ∧
        text memory needle.length (address + UInt64.ofNat place) = needle := by
  rw [List.isPrefixOf_iff_prefix, text_drop, List.prefix_iff_eq_take]
  constructor
  · intro same
    have lengths := congrArg List.length same
    rw [List.length_take, text_length] at lengths
    have inside : needle.length ≤ size - place := by omega
    rw [text_take inside] at same
    refine ⟨?_, same.symm⟩
    by_cases empty : needle.length = 0
    · exact .inl (List.length_eq_zero_iff.mp empty)
    · exact .inr (by omega)
  · rintro ⟨rfl | inside, same⟩
    · simp
    · rw [text_take (by omega), same]

end Reads

section Words
variable {memory : Memory} {ranges : List ScanRange} {range : ScanRange} {value : UInt64}

theorem aligned_down {number : Nat} (small : number < 2 ^ 64) :
    number &&& (2 ^ 64 - 8) = number / 8 * 8 := by
  have high : 2 ^ 64 - 8 = (2 ^ 61 - 1) <<< 3 := by decide
  have low : number / 8 * 8 = number >>> 3 <<< 3 := by
    rw [Nat.shiftLeft_eq, Nat.shiftRight_eq_div_pow]
  rw [high, low]
  apply Nat.eq_of_testBit_eq
  intro bit
  rw [Nat.testBit_and, Nat.testBit_shiftLeft, Nat.testBit_shiftLeft, Nat.testBit_two_pow_sub_one,
    Nat.testBit_shiftRight]
  by_cases three : 3 ≤ bit
  · have place : 3 + (bit - 3) = bit := by omega
    rw [place]
    by_cases inside : bit < 64
    · have last : bit - 3 < 61 := by omega
      simp [three, last]
    · have zero : number.testBit bit = false :=
        Nat.testBit_lt_two_pow
          (Nat.lt_of_lt_of_le small (Nat.pow_le_pow_right (by decide) (by omega)))
      simp [zero]
  · simp [three]

theorem secondWord_place (range : ScanRange) (low : range.base.toNat ≤ 2 ^ 63) :
    (secondWord range).toNat = (range.base.toNat + 7) / 8 * 8 + 8 := by
  have up : (range.base + 7).toNat = range.base.toNat + 7 := by
    rw [UInt64.toNat_add]
    exact Nat.mod_eq_of_lt (by have : (7 : UInt64).toNat = 7 := rfl; omega)
  have mask : (~~~7 : UInt64).toNat = 2 ^ 64 - 8 := rfl
  rw [secondWord, UInt64.toNat_add, UInt64.toNat_and, mask, up,
    aligned_down (by omega)]
  exact Nat.mod_eq_of_lt (by have : (8 : UInt64).toNat = 8 := rfl; omega)

theorem readWord_within (segments : Segments memory ranges) (member : range ∈ ranges)
    (address : UInt64) (lower : range.base.toNat ≤ address.toNat)
    (upper : address.toNat + 8 ≤ range.base.toNat + range.size.toNat) :
    readWord memory address = .ok (word memory address) := by
  have place : range.base + UInt64.ofNat (address.toNat - range.base.toNat) = address := by
    have small := address.toNat_lt
    rw [← UInt64.toNat_inj, UInt64.toNat_add,
      UInt64.toNat_ofNat_of_lt' (by rw [UInt64.size]; omega)]
    omega
  have read := @readNumber_spanned memory range.base _ (segments.spanned range member) 8
    (address.toNat - range.base.toNat) (by omega)
  rw [place] at read
  rw [readWord, read]
  rfl

/-- What the loop finds from an aligned address on. -/
theorem wordsFrom_found (segments : Segments memory ranges) (member : range ∈ ranges)
    {fuel : Nat} {address : UInt64} (aligned : address.toNat % 8 = 0)
    (lower : range.base.toNat + 8 ≤ address.toNat) (small : address.toNat ≤ 2 ^ 63 + 16)
    (enough : range.base.toNat + range.size.toNat < address.toNat + 8 * fuel + 16) :
    ∃ found, wordsFrom memory value (range.base + range.size) (fuel + 1) address = .ok found ∧
      found.Nodup ∧ ∀ other, other ∈ found ↔
        word memory other = value ∧ address.toNat ≤ other.toNat ∧ Within range other := by
  have low := segments.low range member
  have limit : (range.base + range.size).toNat = range.base.toNat + range.size.toNat := by
    rw [UInt64.toNat_add]
    exact Nat.mod_eq_of_lt (by omega)
  have behind : (address + 16).toNat = address.toNat + 16 := by
    rw [UInt64.toNat_add]
    exact Nat.mod_eq_of_lt (by have : (16 : UInt64).toNat = 16 := rfl; omega)
  -- One round for each word up to the range's end, with the words behind left to the induction.
  induction fuel generalizing address with
  | zero =>
      refine ⟨[], ?_, List.nodup_nil, ?_⟩
      · rw [wordsFrom, if_neg (by rw [UInt64.le_iff_toNat_le, behind, limit]; omega)]
        rfl
      · intro other
        simp only [List.not_mem_nil, false_iff, Within]
        omega
  | succ fuel ih =>
      rw [wordsFrom]
      split
      · next inside =>
          rw [UInt64.le_iff_toNat_le, behind, limit] at inside
          have next : (address + 8).toNat = address.toNat + 8 := by
            rw [UInt64.toNat_add]
            exact Nat.mod_eq_of_lt (by have : (8 : UInt64).toNat = 8 := rfl; omega)
          have beyond : (address + 8 + 16).toNat = (address + 8).toNat + 16 := by
            rw [UInt64.toNat_add, next]
            exact Nat.mod_eq_of_lt (by have : (16 : UInt64).toNat = 16 := rfl; omega)
          obtain ⟨rest, run, once, exact⟩ := @ih (address + 8) (by omega) (by omega) (by omega)
            (by omega) beyond
          have read := readWord_within segments member address (by omega) (by omega)
          have fresh : address ∉ rest := by
            intro again
            have later := ((exact address).mp again).2.1
            omega
          have here : Within range address := ⟨aligned, lower, by omega⟩
          have split (other : UInt64) (within : Within range other) :
              address.toNat ≤ other.toNat ↔
                other = address ∨ (address + 8).toNat ≤ other.toNat := by
            rw [← UInt64.toNat_inj, next]
            have same := within.1
            omega
          by_cases hit : word memory address = value
          · refine ⟨address :: rest, ?_, List.nodup_cons.mpr ⟨fresh, once⟩, ?_⟩
            · rw [read, run]
              simp [bind, Except.bind, pure, Except.pure, hit]
            · intro other
              rw [List.mem_cons, exact]
              constructor
              · rintro (rfl | ⟨same, _, within⟩)
                · exact ⟨hit, Nat.le_refl _, here⟩
                · exact ⟨same, by omega, within⟩
              · rintro ⟨same, later, within⟩
                exact ((split other within).mp later).imp_right fun later => ⟨same, later, within⟩
          · refine ⟨rest, ?_, once, ?_⟩
            · rw [read, run]
              simp [bind, Except.bind, pure, Except.pure, hit]
            · intro other
              rw [exact]
              constructor
              · rintro ⟨same, later, within⟩
                exact ⟨same, by omega, within⟩
              · rintro ⟨same, later, within⟩
                rcases (split other within).mp later with rfl | later
                · exact absurd same hit
                · exact ⟨same, later, within⟩
      · next outside =>
          rw [UInt64.le_iff_toNat_le, behind, limit] at outside
          refine ⟨[], rfl, List.nodup_nil, ?_⟩
          intro other
          simp only [List.not_mem_nil, false_iff, Within]
          omega

theorem within_apart {first second : ScanRange} {address : UInt64} (inFirst : Within first address)
    (inSecond : Within second address) : ¬(before first second ∨ before second first) := by
  simp only [Within, before] at *
  omega

theorem findWords_found (segments : Segments memory ranges) (value : UInt64) :
    ∃ found, findWords memory ranges value = .ok found ∧ found.Nodup ∧ ∀ address,
      address ∈ found ↔ word memory address = value ∧ ∃ range ∈ ranges, Within range address := by
  have each : ∀ part : List ScanRange, part.Sublist ranges → ∃ lists : List (List UInt64),
      part.mapM (fun range => wordsFrom memory value (range.base + range.size)
        (range.size.toNat + 1) (secondWord range)) = Except.ok lists ∧ lists.flatten.Nodup ∧
      ∀ address, address ∈ lists.flatten ↔
        word memory address = value ∧ ∃ range ∈ part, Within range address := by
    intro part
    induction part with
    | nil => exact fun _ => ⟨[], rfl, List.nodup_nil, by simp⟩
    | cons range rest ih =>
        intro inside
        obtain ⟨lists, run, once, exact⟩ := ih ((List.sublist_cons_self range rest).trans inside)
        have member : range ∈ ranges := inside.subset List.mem_cons_self
        have low := segments.low range member
        have start := secondWord_place range (by omega)
        obtain ⟨found, first, distinct, listed⟩ := @wordsFrom_found memory ranges range value
          segments member range.size.toNat (secondWord range) (by omega) (by omega) (by omega)
          (by omega)
        have all (address : UInt64) : address ∈ found ↔
            word memory address = value ∧ Within range address := by
          rw [listed]
          constructor
          · exact fun ⟨same, _, within⟩ => ⟨same, within⟩
          · rintro ⟨same, within⟩
            refine ⟨same, ?_, within⟩
            have aligned := within.1
            have behind := within.2.1
            omega
        refine ⟨found :: lists, ?_, ?_, ?_⟩
        · rw [List.mapM_cons, first, run]
          rfl
        · rw [List.flatten_cons, List.nodup_append]
          refine ⟨distinct, once, ?_⟩
          rintro address here other there rfl
          obtain ⟨later, isLater, within⟩ := ((exact address).mp there).2
          have apart := (segments.apart.sublist inside)
          rw [List.pairwise_cons] at apart
          exact within_apart ((all address).mp here).2 within (apart.1 later isLater)
        · intro address
          rw [List.flatten_cons, List.mem_append, all, exact]
          simp only [List.mem_cons, exists_eq_or_imp]
          tauto
  obtain ⟨lists, run, once, exact⟩ := each ranges (List.Sublist.refl ranges)
  refine ⟨lists.flatten, ?_, once, exact⟩
  rw [findWords, run]
  rfl

end Words

section Searching
variable {Value Item Next : Type}

/-- A search that ends, with something wanted if there is such a thing. -/
def Searches (outcome : Except Stop (Option Value)) (wanted : Value → Prop) : Prop :=
  ∃ answer, outcome = .ok answer ∧ (∀ value, answer = some value → wanted value) ∧
    (answer = none → ∀ value, ¬wanted value)

theorem searches_bind {first : Except Stop Next} {next : Next → Except Stop (Option Value)}
    {wanted : Value → Prop} {found : Next} (ran : first = .ok found)
    (search : Searches (next found) wanted) : Searches (first >>= next) wanted := by
  rw [ran]
  exact search

theorem searches_iff {outcome : Except Stop (Option Value)} {wanted other : Value → Prop}
    (same : ∀ value, wanted value ↔ other value) (search : Searches outcome wanted) :
    Searches outcome other := by
  obtain ⟨answer, run, sound, complete⟩ := search
  exact ⟨answer, run, fun value isSome => (same value).mp (sound value isSome),
    fun isNone value => mt (same value).mpr (complete isNone value)⟩

theorem searches_guard {holds : Bool} {value : Value} :
    Searches (.ok (if holds then some value else none)) fun other =>
      holds = true ∧ other = value := by
  refine ⟨_, rfl, ?_, ?_⟩
  · intro other found
    split at found
    · next yes =>
        cases found
        exact ⟨yes, rfl⟩
    · cases found
  · intro found other ⟨yes, _⟩
    rw [if_pos yes] at found
    cases found

/-- The search of each item in turn, up to the first that finds something. -/
theorem searches_items {items : List Item} {search : Item → Except Stop (Option Value)}
    {wanted : Item → Value → Prop} (each : ∀ item ∈ items, Searches (search item) (wanted item)) :
    Searches (items.findSomeM? search) fun value => ∃ item ∈ items, wanted item value := by
  induction items with
  | nil => exact ⟨none, rfl, nofun, by simp⟩
  | cons item rest ih =>
      obtain ⟨answer, run, sound, complete⟩ := each item List.mem_cons_self
      rw [List.findSomeM?_cons, run]
      cases answer with
      | some value =>
          refine ⟨some value, rfl, ?_, nofun⟩
          rintro other ⟨⟩
          exact ⟨item, List.mem_cons_self, sound value rfl⟩
      | none =>
          refine searches_iff ?_ (ih fun later member => each later (List.mem_cons_of_mem _ member))
          intro value
          have nothing := complete rfl value
          simp [nothing]

theorem findText_some {needle text : Text} {start place : Nat}
    (found : findText needle text start = some place) :
    start ≤ place ∧ needle.isPrefixOf (text.drop place) = true ∧
      ∀ earlier, start ≤ earlier → earlier < place →
        needle.isPrefixOf (text.drop earlier) = false := by
  rw [findText, List.find?_range'_eq_some] at found
  obtain ⟨hit, inside, first⟩ := found
  rw [List.mem_range'_1] at inside
  exact ⟨inside.1, hit, fun earlier after earlier' => by simpa using first earlier after earlier'⟩

theorem findText_none {needle text : Text} {start : Nat} (some : needle ≠ [])
    (absent : findText needle text start = none) {place : Nat} (after : start ≤ place) :
    needle.isPrefixOf (text.drop place) = false := by
  by_cases inside : place ≤ text.length
  · rw [findText, List.find?_range'_eq_none] at absent
    simpa using absent place after (by omega)
  · rw [List.drop_eq_nil_of_le (by omega)]
    cases needle with
    | nil => exact absurd rfl some
    | cons => rfl

theorem searchRange_none {memory : Memory} {executable : UInt64 → Bool}
    {ranges : List ScanRange} {needle text : Text} {base : UInt64} {wanted : Nat → UInt64 → Prop}
    {fuel start : Nat} (some : needle ≠ []) (absent : findText needle text start = none) :
    Searches (searchRange memory executable ranges needle base text (fuel + 1) start) fun table =>
      ∃ place, start ≤ place ∧ needle.isPrefixOf (text.drop place) = true ∧
        insideLongerName text place = false ∧ wanted place table := by
  rw [searchRange, absent]
  refine ⟨none, rfl, nofun, ?_⟩
  rintro _ table ⟨place, after, hit, _⟩
  rw [findText_none some absent after] at hit
  cases hit

/-- The loop over the occurrences, where the search behind each of them is one. -/
theorem searchRange_searches {memory : Memory} {executable : UInt64 → Bool}
    {ranges : List ScanRange} {needle text : Text} {base : UInt64} {wanted : Nat → UInt64 → Prop}
    (some : needle ≠ [])
    (each : ∀ place, Searches
      (tableNamed memory executable ranges (base + UInt64.ofNat place)) (wanted place))
    {fuel start : Nat} (enough : text.length ≤ fuel + start) :
    Searches (searchRange memory executable ranges needle base text (fuel + 1) start) fun table =>
      ∃ place, start ≤ place ∧ needle.isPrefixOf (text.drop place) = true ∧
        insideLongerName text place = false ∧ wanted place table := by
  have short {place : Nat} (hit : needle.isPrefixOf (text.drop place) = true) :
      place < text.length := by
    refine Decidable.byContradiction fun long => ?_
    rw [List.drop_eq_nil_of_le (by omega), List.isPrefixOf_iff_prefix] at hit
    exact some (List.prefix_nil.mp hit)
  induction fuel generalizing start with
  | zero =>
      cases found : findText needle text start with
      | none => exact searchRange_none some found
      | some place =>
          obtain ⟨after, hit, _⟩ := findText_some found
          have inside := short hit
          omega
  | succ fuel ih =>
      cases found : findText needle text start with
      | none => exact searchRange_none some found
      | some place =>
          rw [searchRange, found]
          obtain ⟨after, hit, first⟩ := findText_some found
          have inside := short hit
          have later := @ih (place + 1) (by omega)
          -- Every occurrence from here on is this one or comes later.
          have split (other : Nat) : start ≤ other ∧ needle.isPrefixOf (text.drop other) = true ↔
              needle.isPrefixOf (text.drop other) = true ∧
                (other = place ∨ place + 1 ≤ other) := by
            constructor
            · rintro ⟨behind, again⟩
              refine ⟨again, ?_⟩
              by_cases earlier : other < place
              · rw [first other behind earlier] at again
                cases again
              · omega
            · rintro ⟨again, rfl | behind⟩
              · exact ⟨after, again⟩
              · exact ⟨by omega, again⟩
          have parts (table : UInt64) : (∃ other, start ≤ other ∧
              needle.isPrefixOf (text.drop other) = true ∧ insideLongerName text other = false ∧
                wanted other table) ↔
              insideLongerName text place = false ∧ wanted place table ∨
                ∃ other, place + 1 ≤ other ∧ needle.isPrefixOf (text.drop other) = true ∧
                  insideLongerName text other = false ∧ wanted other table := by
            constructor
            · rintro ⟨other, behind, again, whole, is⟩
              rcases ((split other).mp ⟨behind, again⟩).2 with rfl | last
              · exact .inl ⟨whole, is⟩
              · exact .inr ⟨other, last, again, whole, is⟩
            · rintro (⟨whole, is⟩ | ⟨other, last, again, whole, is⟩)
              · exact ⟨place, after, hit, whole, is⟩
              · exact ⟨other, by omega, again, whole, is⟩
          refine searches_iff (fun table => (parts table).symm) ?_
          cases longer : insideLongerName text place with
          | true =>
              simp only [longer, if_true]
              refine searches_iff (fun table => ?_) later
              simp
          | false =>
              obtain ⟨answer, run, sound, complete⟩ := each place
              simp only [longer, Bool.false_eq_true, if_false, run, bind, Except.bind]
              cases answer with
              | some table =>
                  refine ⟨table, rfl, ?_, nofun⟩
                  rintro other ⟨⟩
                  exact .inl ⟨trivial, sound table rfl⟩
              | none =>
                  refine searches_iff (fun table => ?_) later
                  have nothing := complete rfl table
                  simp [nothing]

end Searching

section Tables
variable {memory : Memory} {executable : UInt64 → Bool} {ranges : List ScanRange}

theorem within_around {range : ScanRange} {address : UInt64} (within : Within range address) :
    (address - 8).toNat = address.toNat - 8 ∧
      ((address + 8).toNat = address.toNat + 8 ∨ 2 ^ 64 ≤ address.toNat + 8) := by
  obtain ⟨_, lower, _⟩ := within
  have small := address.toNat_lt
  refine ⟨UInt64.toNat_sub_of_le _ _ (UInt64.le_iff_toNat_le.mpr ?_), ?_⟩
  · have : (8 : UInt64).toNat = 8 := rfl
    omega
  · rw [UInt64.toNat_add]
    have : (8 : UInt64).toNat = 8 := rfl
    omega

/-- The words around one within a segment are in the segment. -/
theorem headsTable_within (segments : Segments memory ranges) {range : ScanRange}
    (member : range ∈ ranges) {header : UInt64} (within : Within range header)
    (offsetToTop : UInt64) :
    headsTable memory executable offsetToTop header = .ok (decide (
      word memory (header - 8) = offsetToTop ∧
        isExecutableAddress executable (word memory (header + 8)) = true)) := by
  obtain ⟨before, behind⟩ := within_around within
  have low := segments.low range member
  obtain ⟨aligned, lower, upper⟩ := within
  have next : (header + 8).toNat = header.toNat + 8 := by omega
  have top := readWord_within segments member (header - 8) (by omega) (by omega)
  have slot := readWord_within segments member (header + 8) (by omega) (by omega)
  rw [headsTable, top]
  simp only [bind, Except.bind]
  split
  · next same =>
      rw [slot]
      simp [same, pure, Except.pure]
  · next other => simp [other, pure, Except.pure]

theorem back_forth (address : UInt64) : address + 8 - 8 = address := by grind

/-- The table whose header this is. -/
theorem tableOf_header {header typeInfo offsetToTop : UInt64} :
    TableOf memory executable ranges typeInfo offsetToTop (header + 8) ↔
      (∃ range ∈ ranges, Within range header) ∧ word memory header = typeInfo ∧
        word memory (header - 8) = offsetToTop ∧
          isExecutableAddress executable (word memory (header + 8)) = true := by
  have before : header + 8 - 16 = header - 8 := by grind
  constructor
  · rintro ⟨placed, top, ofType, code⟩
    rw [back_forth] at placed ofType
    rw [before] at top
    exact ⟨placed, ofType, top, code⟩
  · rintro ⟨placed, ofType, top, code⟩
    refine ⟨?_, (congrArg (word memory) before).trans top,
      (congrArg (word memory) (back_forth header)).trans ofType, code⟩
    rw [back_forth]
    exact placed

theorem tableOf_some (segments : Segments memory ranges) {typeInfo offsetToTop table : UInt64}
    (is : TableOf memory executable ranges typeInfo offsetToTop table) : table ≠ 0 := by
  rintro rfl
  obtain ⟨range, member, _, _, upper⟩ := is.placed
  have low := segments.low range member
  have last : (0 - 8 : UInt64).toNat = 2 ^ 64 - 8 := rfl
  omega

theorem tableNamed_searches (segments : Segments memory ranges) (address : UInt64) :
    Searches (tableNamed memory executable ranges address) fun table =>
      ∃ typeInfo, (∃ range ∈ ranges, Within range (typeInfo + 8)) ∧
        word memory (typeInfo + 8) = address ∧
          TableOf memory executable ranges typeInfo 0 table := by
  obtain ⟨names, run, _, areNames⟩ := findWords_found segments address
  have inner (name : UInt64) : Searches
      (do
        let typeInfos ← findWords memory ranges (name - 8)
        typeInfos.findSomeM? fun header => do
          let heads ← headsTable memory executable 0 header
          return if heads then some (header + 8) else none)
      fun table => TableOf memory executable ranges (name - 8) 0 table := by
    obtain ⟨headers, ran, _, areHeaders⟩ := findWords_found segments (name - 8)
    have each (header : UInt64) (listed : header ∈ headers) : Searches
        (do
          let heads ← headsTable memory executable 0 header
          return if heads then some (header + 8) else none)
        fun table => (word memory (header - 8) = 0 ∧
          isExecutableAddress executable (word memory (header + 8)) = true) ∧
          table = header + 8 := by
      obtain ⟨_, range, member, within⟩ := (areHeaders header).mp listed
      rw [headsTable_within segments member within]
      refine searches_iff (fun table => ?_) searches_guard
      rw [decide_eq_true_iff]
    refine searches_bind ran (searches_iff ?_ (searches_items each))
    intro table
    constructor
    · rintro ⟨header, listed, ⟨top, code⟩, rfl⟩
      obtain ⟨ofType, placed⟩ := (areHeaders header).mp listed
      exact tableOf_header.mpr ⟨placed, ofType, top, code⟩
    · intro is
      have back : table = table - 8 + 8 := by grind
      rw [back] at is
      obtain ⟨placed, ofType, top, code⟩ := tableOf_header.mp is
      exact ⟨table - 8, (areHeaders _).mpr ⟨ofType, placed⟩, ⟨top, code⟩, back⟩
  refine searches_bind run (searches_iff ?_ (searches_items fun name _ => inner name))
  intro table
  constructor
  · rintro ⟨name, listed, is⟩
    have back : name - 8 + 8 = name := by grind
    obtain ⟨same, placed⟩ := (areNames name).mp listed
    exact ⟨name - 8, by rw [back]; exact placed, by rw [back]; exact same, is⟩
  · rintro ⟨typeInfo, placed, same, is⟩
    refine ⟨typeInfo + 8, (areNames _).mpr ⟨same, placed⟩, ?_⟩
    rw [back_forth]
    exact is

theorem typeNeedle_some (className : Text) : typeNeedle className ≠ [] :=
  List.append_ne_nil_of_right_ne_nil _ (List.cons_ne_nil _ _)

/-- What no name character comes before in the text of its segment. -/
theorem whole_iff {base : UInt64} {size place : Nat} (inside : place ≤ size) :
    insideLongerName (text memory size base) place = false ↔
      (place ≠ 0 → nameCharacter (Char.ofUInt8
        (memory.byte (base + UInt64.ofNat place - 1))) = false) := by
  cases place with
  | zero => simp [insideLongerName]
  | succ place =>
      have back : base + (UInt64.ofNat place + 1) - 1 = base + UInt64.ofNat place := by grind
      simp [insideLongerName, text_at inside, back]

theorem typeName_searches (segments : Segments memory ranges) (className : Text) :
    Searches (ranges.findSomeM? fun range => do
      let text ← readText memory range.size.toNat range.base
      searchRange memory executable ranges (typeNeedle className) range.base text
        (text.length + 2) 0)
      (PrimaryTable memory executable ranges className) := by
  have some := typeNeedle_some className
  have each (range : ScanRange) (member : range ∈ ranges) : Searches
      (do
        let text ← readText memory range.size.toNat range.base
        searchRange memory executable ranges (typeNeedle className) range.base text
          (text.length + 2) 0)
      fun table => ∃ place, 0 ≤ place ∧
        (typeNeedle className).isPrefixOf
          ((text memory range.size.toNat range.base).drop place) = true ∧
        insideLongerName (text memory range.size.toNat range.base) place = false ∧
        ∃ typeInfo, (∃ range ∈ ranges, Within range (typeInfo + 8)) ∧
          word memory (typeInfo + 8) = range.base + UInt64.ofNat place ∧
            TableOf memory executable ranges typeInfo 0 table := by
    have read : readText memory range.size.toNat range.base =
        .ok (text memory range.size.toNat range.base) := by
      simpa using @readText_spanned memory range.base _ (segments.spanned range member)
        range.size.toNat 0 (by omega)
    refine searches_bind read (searchRange_searches some (fun place => ?_) (by omega))
    exact tableNamed_searches segments (range.base + UInt64.ofNat place)
  refine searches_iff ?_ (searches_items each)
  intro table
  constructor
  · rintro ⟨range, member, place, _, hit, whole, typeInfo, placed, same, is⟩
    obtain ⟨short, spelled⟩ := (prefix_at range.base).mp hit
    have inside := short.resolve_left some
    refine ⟨typeInfo, ⟨placed, ?_⟩, is⟩
    rw [same]
    exact ⟨⟨range, member, place, rfl, inside, (whole_iff (by omega)).mp whole⟩, spelled⟩
  · rintro ⟨typeInfo, ⟨placed, ⟨range, member, place, same, inside, whole⟩, spelled⟩, is⟩
    rw [same] at spelled whole
    exact ⟨range, member, place, Nat.zero_le _, (prefix_at range.base).mpr ⟨.inr inside, spelled⟩,
      (whole_iff (by omega)).mpr whole, typeInfo, placed, same, is⟩

theorem typeName_table (segments : Segments memory ranges) (className : Text) : ∃ table,
    findVirtualTableByTypeName memory executable ranges className = .ok table ∧
    (table ≠ 0 → PrimaryTable memory executable ranges className table) ∧
    (table = 0 → ∀ other, ¬PrimaryTable memory executable ranges className other) := by
  obtain ⟨answer, run, sound, complete⟩ :=
    @typeName_searches memory executable ranges segments className
  refine ⟨answer.getD 0, ?_, ?_, ?_⟩
  · rw [findVirtualTableByTypeName, run]
    rfl
  · intro nonzero
    cases answer with
    | none => exact absurd rfl nonzero
    | some table => exact sound table rfl
  · intro zero
    cases answer with
    | none => exact complete rfl
    | some table =>
        obtain ⟨_, _, is⟩ := sound table rfl
        exact absurd zero (tableOf_some segments is)

theorem onlyTable_exact {offsetToTop : UInt64} {heads : UInt64 → Bool} {headers : List UInt64}
    (each : ∀ header ∈ headers, headsTable memory executable offsetToTop header =
      .ok (heads header)) (real : ∀ header ∈ headers, header + 8 ≠ 0) (found : UInt64) :
    onlyTable memory executable offsetToTop found headers = .ok (
      match headers.filter heads with
      | [] => found
      | [header] => if found = 0 then header + 8 else 0
      | _ => 0) := by
  induction headers generalizing found with
  | nil => rfl
  | cons header rest ih =>
      have later := ih (fun other member => each other (List.mem_cons_of_mem _ member))
        fun other member => real other (List.mem_cons_of_mem _ member)
      rw [onlyTable, each header List.mem_cons_self]
      simp only [bind, Except.bind]
      cases is : heads header with
      | false =>
          rw [if_pos rfl, later, List.filter_cons_of_neg (by simp [is])]
      | true =>
          rw [if_neg (by simp), List.filter_cons_of_pos is]
          split
          · next other =>
              cases rest.filter heads with
              | nil => rfl
              | cons => rfl
          · next none =>
              rw [later]
              have here := real header List.mem_cons_self
              simp only [ne_eq, Decidable.not_not] at none
              cases remaining : rest.filter heads with
              | nil => simp [none]
              | cons second more => cases more <;> simp [here]

/-- The word of the class's table that the search by a typeinfo stops at. -/
theorem typeInfo_table (segments : Segments memory ranges) (typeInfo offsetToTop : UInt64) :
    ∃ tables : List UInt64, tables.Nodup ∧ (∀ table, table ∈ tables ↔
        TableOf memory executable ranges typeInfo offsetToTop table) ∧
      findVirtualTableByTypeInfo memory executable ranges typeInfo offsetToTop = .ok (
        match tables with
        | [table] => table
        | _ => 0) := by
  obtain ⟨headers, run, once, exact⟩ := findWords_found segments typeInfo
  let heads (header : UInt64) : Bool := decide (word memory (header - 8) = offsetToTop ∧
    isExecutableAddress executable (word memory (header + 8)) = true)
  have each (header : UInt64) (listed : header ∈ headers) :
      headsTable memory executable offsetToTop header = .ok (heads header) := by
    obtain ⟨_, range, member, within⟩ := (exact header).mp listed
    exact headsTable_within segments member within offsetToTop
  have real (header : UInt64) (listed : header ∈ headers) : header + 8 ≠ 0 := by
    obtain ⟨_, range, member, within⟩ := (exact header).mp listed
    have low := segments.low range member
    have behind := (within_around within).2
    have upper := within.2.2
    intro zero
    rw [zero, UInt64.toNat_zero] at behind
    omega
  have search := onlyTable_exact each real 0
  refine ⟨(headers.filter heads).map (· + 8), ?_, fun table => ?_, ?_⟩
  · refine (once.filter heads).map ?_
    intro first second same
    exact (UInt64.add_left_inj 8).mp same
  · rw [List.mem_map]
    constructor
    · rintro ⟨header, listed, rfl⟩
      rw [List.mem_filter, exact, decide_eq_true_iff] at listed
      exact tableOf_header.mpr ⟨listed.1.2, listed.1.1, listed.2⟩
    · intro is
      have back : table = table - 8 + 8 := by grind
      rw [back] at is
      obtain ⟨placed, ofType, top, code⟩ := tableOf_header.mp is
      refine ⟨table - 8, ?_, back.symm⟩
      rw [List.mem_filter, exact, decide_eq_true_iff]
      exact ⟨⟨ofType, placed⟩, top, code⟩
  · rw [findVirtualTableByTypeInfo, run]
    simp only [bind, Except.bind]
    rw [search]
    rcases headers.filter heads with _ | ⟨first, _ | ⟨second, rest⟩⟩ <;> rfl

theorem lengthPrefixedName_injective {first second : Text}
    (same : lengthPrefixedName first = lengthPrefixedName second) : first = second := by
  have total := congrArg List.length same
  simp only [lengthPrefixedName, List.length_append] at total
  have lengths : first.length = second.length := by
    rcases Nat.le_total first.length second.length with below | below
    · have digits := Decimals.spelled_longer below
      omega
    · have digits := Decimals.spelled_longer below
      omega
  exact (List.append_inj' same lengths).2

theorem lengthPrefixedName_plain {className : Text} (plain : '\x00' ∉ className) :
    '\x00' ∉ lengthPrefixedName className := by
  rw [lengthPrefixedName, List.mem_append, not_or]
  exact ⟨Decimals.spelled_apart _ (by decide), plain⟩

/-- The digits before a name say where it ends, so no other class's name lies there. -/
theorem nameAt_unique {first second : Text} {address : UInt64} (plain : '\x00' ∉ first)
    (other : '\x00' ∉ second) (isFirst : NameAt memory ranges first address)
    (isSecond : NameAt memory ranges second address) : first = second := by
  have ends {one two : Text} (plain : '\x00' ∉ two) (ofOne : NameAt memory ranges one address)
      (ofTwo : NameAt memory ranges two address) :
      (typeNeedle two).length ≤ (typeNeedle one).length := by
    refine Decidable.byContradiction fun longer => ?_
    have start : (typeNeedle two).take (typeNeedle one).length = typeNeedle one := by
      rw [← ofTwo.spelled, text_take (by omega), ofOne.spelled]
    have inside : typeNeedle one <+: lengthPrefixedName two := by
      refine List.prefix_of_prefix_length_le (start ▸ List.take_prefix _ _)
        (List.prefix_append _ _) ?_
      rw [typeNeedle, List.length_append, List.length_singleton] at longer
      omega
    exact lengthPrefixedName_plain plain (inside.subset (List.mem_append_right _ (by simp)))
  have lengths := Nat.le_antisymm (ends plain isSecond isFirst) (ends other isFirst isSecond)
  have same : typeNeedle first = typeNeedle second := by
    rw [← isFirst.spelled, lengths, isSecond.spelled]
  exact lengthPrefixedName_injective (List.append_cancel_right same)

end Tables

/-- In the segments of a module both searches end. By a class's name a primary table of the class
is found where there is one, by a typeinfo the table that is the only one with such a header; and
a table belongs to one class only. -/
theorem tables_searched (memory : Memory) (executable : UInt64 → Bool) (ranges : List ScanRange)
    (segments : Segments memory ranges) :
    (∀ className, ∃ table,
      findVirtualTableByTypeName memory executable ranges className = .ok table ∧
      (table ≠ 0 → PrimaryTable memory executable ranges className table) ∧
      (table = 0 → ∀ other, ¬PrimaryTable memory executable ranges className other)) ∧
    (∀ typeInfo offsetToTop, ∃ table,
      findVirtualTableByTypeInfo memory executable ranges typeInfo offsetToTop = .ok table ∧
      ∀ other, other ≠ 0 → (table = other ↔ ∀ candidate,
        TableOf memory executable ranges typeInfo offsetToTop candidate ↔ candidate = other)) ∧
    ∀ first second table, '\x00' ∉ first → '\x00' ∉ second →
      PrimaryTable memory executable ranges first table →
      PrimaryTable memory executable ranges second table → first = second := by
  refine ⟨fun className => ?_, fun typeInfo offsetToTop => ?_, ?_⟩
  · exact typeName_table segments className
  · obtain ⟨tables, once, exact, run⟩ :=
      @typeInfo_table memory executable ranges segments typeInfo offsetToTop
    refine ⟨_, run, fun other nonzero => ?_⟩
    simp only [← exact]
    rcases tables with _ | ⟨table, _ | ⟨second, rest⟩⟩
    · simp only [List.not_mem_nil, false_iff]
      refine ⟨fun zero => absurd zero.symm nonzero, fun only => absurd rfl (only other)⟩
    · simp only [List.mem_singleton]
      refine ⟨fun same candidate => same ▸ Iff.rfl, fun only => (only table).mp rfl⟩
    · refine ⟨fun zero => absurd zero.symm nonzero, fun only => ?_⟩
      have one := (only table).mp List.mem_cons_self
      have two := (only second).mp (List.mem_cons_of_mem _ List.mem_cons_self)
      rw [one, two] at once
      exact absurd List.mem_cons_self (List.nodup_cons.mp once).1
  · rintro first second table plain other ⟨typeInfo, isFirst, ofFirst⟩ ⟨_, isSecond, ofSecond⟩
    rw [← ofSecond.ofType, ofFirst.ofType] at isSecond
    exact nameAt_unique plain other isFirst.named isSecond.named

/-- The table of Root at 0x1010, its typeinfo at 0x1018 and its name at 0x1030. -/
def rootModule : Memory :=
  mapped 0x1000 ([0, 0x1018, 0x2000, 0x5000, 0x1030, 0].flatMap wordBytes ++ nameBytes "4Root")

def rootSegment : ScanRange := ⟨0x1000, 54⟩

theorem root_segments : Segments rootModule [rootSegment] where
  spanned := by
    intro range member
    rw [List.mem_singleton.mp member]
    have all : ∀ offset < 54, (rootModule.queryRegion (0x1000 + UInt64.ofNat offset)).any
        (·.readable) = true := by decide +kernel
    exact all
  low := by
    intro range member
    rw [List.mem_singleton.mp member]
    decide
  apart := List.pairwise_singleton _ _

theorem root_found :
    findVirtualTableByTypeName rootModule (· == 0x2000) [rootSegment] "Root".toList =
      .ok 0x1010 ∧
    PrimaryTable rootModule (· == 0x2000) [rootSegment] "Root".toList 0x1010 := by
  have run : findVirtualTableByTypeName rootModule (· == 0x2000) [rootSegment] "Root".toList =
      .ok 0x1010 := by decide +kernel
  obtain ⟨table, answer, is, _⟩ :=
    (tables_searched rootModule (· == 0x2000) [rootSegment] root_segments).1 "Root".toList
  cases run.symm.trans answer
  exact ⟨run, is (by decide)⟩

end VoltMod.VtableLookup
