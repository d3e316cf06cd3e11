import Mathlib.Data.List.Dedup
import VoltMod.BytePattern

/-!
Engine/Memory/SigScanner.cpp: a pattern searched in all ranges of a module, going on behind
a hit to tell whether it is the only one.
-/

namespace VoltMod.SigScanner

open MigrationText (Text)
open BytePattern

structure Image where
  base : Nat := 0
  size : Nat := 0
  path : Text := []
  deriving DecidableEq, Repr

/-- Mapped memory: its bytes stand from a base that is no null pointer. -/
structure ScanRange where
  base : Nat
  bytes : List UInt8
  mapped : base ≠ 0

structure ScanResult where
  address : Option Nat := none
  unique : Bool := true
  image : Image := {}
  deriving DecidableEq, Repr

/-- The loop over one range: the first hit so far, and whether the scan goes on, which a second
hit ends. A round moves on by one byte at least. -/
def scanFrom (bytes : List PatternByte) (anchor : Nat) (range : ScanRange) :
    Nat → Nat → Option Nat → Except Fault (Option Nat × Bool)
  | 0, _, first => .ok (first, true)
  | fuel + 1, start, first =>
      if range.bytes.length ≤ start then .ok (first, true)
      else do
        match ← findFirst (range.bytes.drop start) bytes anchor with
        | none => return (first, true)
        | some hit =>
            if first.isSome then return (first, false)
            else
              scanFrom bytes anchor range fuel (start + hit + 1) (some (range.base + (start + hit)))

def scanRanges (bytes : List PatternByte) (anchor : Nat) :
    List ScanRange → Option Nat → Except Fault (Option Nat × Bool)
  | [], first => .ok (first, true)
  | range :: ranges, first => do
      match ← scanFrom bytes anchor range range.bytes.length 0 first with
      | (first, true) => scanRanges bytes anchor ranges first
      | (first, false) => return (first, false)

/-- `loaded` is what `FindModuleAndRanges` has for the module, `frequencies` what
`FrequenciesOf` has. -/
def findPatternEx (loaded : Option (Image × List ScanRange)) (frequencies : ByteHistogram)
    (pattern : Text) : Except Fault ScanResult :=
  match loaded with
  | none => .ok {}
  | some (image, ranges) => do
      let bytes := parsePattern pattern
      let (first, unique) ← scanRanges bytes (anchorOf bytes frequencies) ranges none
      return { address := first, unique, image }

/-- The addresses of the range the pattern matches at, from `start` on. -/
def hitsFrom (bytes : List PatternByte) (range : ScanRange) (start : Nat) : List Nat :=
  ((List.range' start (range.bytes.length - start)).filter
    fun offset => MatchesAt range.bytes bytes offset).map (range.base + ·)

def hits (bytes : List PatternByte) (ranges : List ScanRange) : List Nat :=
  ranges.flatMap fun range => hitsFrom bytes range 0

/-- The scan's outcome where `found` are the matches there are. -/
def verdict (found : List Nat) : Option Nat × Bool := (found.head?, found.length ≤ 1)

section Scan
variable {bytes : List PatternByte} {anchor : Nat} {range : ScanRange} {start : Nat}

theorem matches_drop {memory : List UInt8} (inside : start ≤ memory.length) (offset : Nat) :
    MatchesAt (memory.drop start) bytes offset ↔ MatchesAt memory bytes (start + offset) := by
  simp only [MatchesAt, List.length_drop, List.drop_drop]
  constructor
  · rintro ⟨room, covered⟩
    exact ⟨by omega, covered⟩
  · rintro ⟨room, covered⟩
    exact ⟨by omega, covered⟩

theorem hits_absent (inside : start ≤ range.bytes.length)
    (leftmost : LeftmostFrom (range.bytes.drop start) bytes 0 none) :
    hitsFrom bytes range start = [] := by
  cases leftmost with
  | nowhere unmatched =>
      rw [hitsFrom, List.map_eq_nil_iff, List.filter_eq_nil_iff]
      intro place within
      obtain ⟨offset, -, rfl⟩ := List.mem_range'.mp within
      have missed := unmatched offset (Nat.zero_le _)
      rw [matches_drop inside] at missed
      simpa using missed

theorem hits_next {hit : Nat} (inside : start ≤ range.bytes.length)
    (leftmost : LeftmostFrom (range.bytes.drop start) bytes 0 (some hit)) (present : bytes ≠ []) :
    hitsFrom bytes range start =
      (range.base + (start + hit)) :: hitsFrom bytes range (start + hit + 1) := by
  cases leftmost with
  | here _ stands first =>
      rw [matches_drop inside] at stands
      have room := stands.1
      have some_byte := List.length_pos_of_ne_nil present
      have parted : List.range' start (range.bytes.length - start) =
          List.range' start hit ++ (start + hit) ::
            List.range' (start + hit + 1) (range.bytes.length - (start + hit + 1)) := by
        rw [← List.range'_succ, List.range'_append_1]
        congr 1
        omega
      have skipped : (List.range' start hit).filter
          (fun offset => MatchesAt range.bytes bytes offset) = [] := by
        rw [List.filter_eq_nil_iff]
        intro place within
        obtain ⟨offset, short, rfl⟩ := List.mem_range'.mp within
        have missed := first offset (Nat.zero_le _) short
        rw [matches_drop inside] at missed
        simpa using missed
      rw [hitsFrom, parted, List.filter_append, skipped, List.nil_append,
        List.filter_cons_of_pos (by simpa using stands), List.map_cons, hitsFrom]

section Ranges
variable (present : bytes ≠ [])
  (finds : ∀ memory, ∃ found, findFirst memory bytes anchor = .ok found ∧
    LeftmostFrom memory bytes 0 found)
include present finds

/-- One range's matches are added to the first one so far. -/
theorem scanFrom_exact (range : ScanRange) (fuel start : Nat) (first : Option Nat)
    (enough : range.bytes.length ≤ start + fuel) :
    scanFrom bytes anchor range fuel start first =
      .ok (verdict (first.toList ++ hitsFrom bytes range start)) := by
  have alone (first : Option Nat) : verdict first.toList = (first, true) := by
    cases first <;> rfl
  have ended (start : Nat) (passed : range.bytes.length ≤ start) :
      hitsFrom bytes range start = [] := by
    rw [hitsFrom, Nat.sub_eq_zero_of_le passed]
    rfl
  induction fuel generalizing start first with
  | zero => rw [scanFrom, ended start enough, List.append_nil, alone]
  | succ fuel hypothesis =>
      by_cases passed : range.bytes.length ≤ start
      · rw [scanFrom, if_pos passed, ended start passed, List.append_nil, alone]
      · have inside : start ≤ range.bytes.length := Nat.le_of_not_le passed
        obtain ⟨found, search, leftmost⟩ := finds (range.bytes.drop start)
        rw [scanFrom, if_neg passed, search]
        cases found with
        | none =>
            rw [hits_absent inside leftmost, List.append_nil, alone]
            rfl
        | some hit =>
            rw [hits_next inside leftmost present]
            cases first with
            | none => exact hypothesis _ _ (by omega)
            | some earlier => simp [verdict, bind, Except.bind, pure, Except.pure]

theorem scanRanges_exact (ranges : List ScanRange) (first : Option Nat) :
    scanRanges bytes anchor ranges first = .ok (verdict (first.toList ++ hits bytes ranges)) := by
  induction ranges generalizing first with
  | nil => cases first <;> rfl
  | cons range ranges hypothesis =>
      have one := scanFrom_exact present finds range range.bytes.length 0 first (by omega)
      have more : hits bytes (range :: ranges) = hitsFrom bytes range 0 ++ hits bytes ranges := by
        rw [hits, List.flatMap_cons, ← hits]
      rw [scanRanges, one, more, ← List.append_assoc]
      generalize first.toList ++ hitsFrom bytes range 0 = seen
      match seen with
      | [] => exact hypothesis none
      | [address] => exact hypothesis (some address)
      | address :: second :: others => simp [verdict, bind, Except.bind, pure, Except.pure]

end Ranges

end Scan

/-- The scan finds the first match and tells whether there is another, wherever it starts in a
range, and reads nothing outside the ranges. -/
theorem findPatternEx_exact (image : Image) (ranges : List ScanRange)
    (frequencies : ByteHistogram) (pattern : Text) (present : parsePattern pattern ≠ [])
    (counted : Counted (parsePattern pattern) frequencies) :
    findPatternEx (some (image, ranges)) frequencies pattern =
      .ok { address := (hits (parsePattern pattern) ranges).head?
            unique := (hits (parsePattern pattern) ranges).length ≤ 1
            image } := by
  have scanned := scanRanges_exact present (fun memory => findFirst_leftmost memory present counted)
    ranges none
  rw [findPatternEx]
  dsimp only
  rw [scanned]
  rfl

/-- The anchored search finds the leftmost match, the scan over ranges tells whether there is a
second one, each range's matches counted on their own, and neither reads past a range. -/
theorem patterns_found (bytes : List PatternByte) (frequencies : ByteHistogram)
    (present : bytes ≠ []) (counted : Counted bytes frequencies) :
    (∀ memory, ∃ found, findFirst memory bytes (anchorOf bytes frequencies) = .ok found ∧
      LeftmostFrom memory bytes 0 found) ∧
    ∀ image ranges pattern, parsePattern pattern = bytes →
      ∃ result, findPatternEx (some (image, ranges)) frequencies pattern = .ok result ∧
        (result.unique = false ↔ 2 ≤ (hits bytes ranges).length) := by
  constructor
  · exact fun memory => findFirst_leftmost memory present counted
  · rintro image ranges pattern rfl
    refine ⟨_, findPatternEx_exact image ranges frequencies pattern present counted, ?_⟩
    rw [decide_eq_false_iff_not]
    omega

/-- A byte that stands at two overlapping places of one range. -/
theorem overlapping_found :
    (∃ found, findFirst [0x90, 0x90, 0x90] (parsePattern "90 ??".toList)
        (anchorOf (parsePattern "90 ??".toList) fun _ => 3) = .ok found ∧
      LeftmostFrom [0x90, 0x90, 0x90] (parsePattern "90 ??".toList) 0 found) ∧
    ∃ result, findPatternEx (some ({}, [⟨16, [0x90, 0x90, 0x90], by decide⟩])) (fun _ => 3)
        "90 ??".toList = .ok result ∧ result.unique = false := by
  have counted : Counted (parsePattern "90 ??".toList) fun _ => 3 :=
    .inr ⟨{ value := 0x90 }, by decide, rfl, by decide⟩
  obtain ⟨first, second⟩ := patterns_found (parsePattern "90 ??".toList) (fun _ => 3) (by decide) counted
  refine ⟨first _, ?_⟩
  obtain ⟨result, found, unique⟩ := second {} [⟨16, [0x90, 0x90, 0x90], by decide⟩] _ rfl
  exact ⟨result, found, unique.mpr (by decide)⟩

/-- An empty pattern is not found where it matches, a byte counted as often as a count can say
is found where it does not stand, and a range listed twice has its one match twice. -/
theorem search_misses :
    (findFirst [0] [] (anchorOf [] fun _ => 1) = .ok none ∧ MatchesAt [0] [] 0) ∧
    (findFirst [0] [{ value := 1 }] (anchorOf [{ value := 1 }] fun _ => sizeMax) = .ok (some 0) ∧
      ¬ MatchesAt [0] [{ value := 1 }] 0) ∧
    findPatternEx (some ({}, [⟨16, [1], by decide⟩, ⟨16, [1], by decide⟩])) (fun _ => 1)
        "01".toList = .ok { address := some 16, unique := false } ∧
      (hits (parsePattern "01".toList) [⟨16, [1], by decide⟩, ⟨16, [1], by decide⟩]).dedup = [16] := by
  refine ⟨by decide, by decide, by decide, by decide⟩

end VoltMod.SigScanner
