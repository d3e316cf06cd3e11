import Mathlib.Data.List.TakeWhile
import VoltMod.MigrationText

/-!
Engine/Memory/BytePattern.cpp: a byte pattern parsed from its text, and its first match in a
range of memory. A range is the list of its bytes; reading anything else is an error.
-/

namespace VoltMod.BytePattern

open MigrationText (Text)

structure PatternByte where
  value : UInt8 := 0
  wildcard : Bool := false
  deriving DecidableEq, Repr

/-- `std::array<size_t, 256>` -/
abbrev ByteHistogram := UInt8 → UInt64

def sizeMax : UInt64 := 0xFFFFFFFFFFFFFFFF

inductive Fault where
  | outOfRange
  deriving DecidableEq, Repr

section Parse

def space (c : Char) : Bool :=
  c == ' ' || c == '\t' || c == '\n' || c == '\x0b' || c == '\x0c' || c == '\r'

def hexDigit (c : Char) : Option Nat :=
  if '0' ≤ c ∧ c ≤ '9' then some (c.toNat - '0'.toNat)
  else if 'a' ≤ c ∧ c ≤ 'f' then some (c.toNat - 'a'.toNat + 10)
  else if 'A' ≤ c ∧ c ≤ 'F' then some (c.toNat - 'A'.toNat + 10)
  else none

/-- `std::from_chars` in base 16, over the whole token. -/
def hexValue (token : Text) : Option Nat :=
  if token = [] then none
  else token.foldlM (fun value c => (hexDigit c).map (16 * value + ·)) 0

def parseToken (token : Text) : Option PatternByte :=
  if token = "?".toList ∨ token = "??".toList then some { wildcard := true }
  else
    match hexValue token with
    | none => none
    | some value => if 0xFF < value then none else some { value := UInt8.ofNat value }

/-- A token that is no byte drops the whole pattern. -/
def parsePattern (pattern : Text) : List PatternByte :=
  (((pattern.splitOnP space).filter (· ≠ [])).mapM parseToken).getD []

end Parse

/-- The loop of `AnchorOf`: `index` is the place of the first byte of the rest. -/
def anchorFrom (frequencies : ByteHistogram) (index anchor : Nat) (rarest : UInt64) :
    List PatternByte → Nat
  | [] => anchor
  | byte :: rest =>
      if byte.wildcard then anchorFrom frequencies (index + 1) anchor rarest rest
      else if frequencies byte.value < rarest then
        anchorFrom frequencies (index + 1) index (frequencies byte.value) rest
      else anchorFrom frequencies (index + 1) anchor rarest rest

def anchorOf (pattern : List PatternByte) (frequencies : ByteHistogram) : Nat :=
  anchorFrom frequencies 0 pattern.length sizeMax pattern

/-- `std::memchr` over `count` bytes from `start`, any of which it may read. -/
def memchr (memory : List UInt8) (start : Nat) (wanted : UInt8) (count : Nat) :
    Except Fault (Option Nat) :=
  if start + count ≤ memory.length then
    .ok ((((memory.drop start).take count).findIdx? (· == wanted)).map (start + ·))
  else .error .outOfRange

def matchesAt (memory : List UInt8) (start : Nat) : List PatternByte → Except Fault Bool
  | [] => .ok true
  | byte :: rest =>
      if byte.wildcard then matchesAt memory (start + 1) rest
      else
        match memory[start]? with
        | none => .error .outOfRange
        | some there =>
            if there = byte.value then matchesAt memory (start + 1) rest else .ok false

/-- The loop of `FindFirst`. A round moves on by one start at least, so one more than the last
start is fuel enough. -/
def findFrom (memory : List UInt8) (pattern : List PatternByte) (anchor : Nat) (wanted : UInt8)
    (lastStart : Nat) : Nat → Nat → Except Fault (Option Nat)
  | 0, _ => .ok none
  | fuel + 1, start =>
      if lastStart < start then .ok none
      else do
        -- The window ends at the last start's anchor byte.
        match ← memchr memory (start + anchor) wanted (lastStart - start + 1) with
        | none => return none
        | some found =>
            if ← matchesAt memory (found - anchor) pattern then return some (found - anchor)
            else findFrom memory pattern anchor wanted lastStart fuel (found - anchor + 1)

/-- A null base has no bytes behind it. -/
def findFirst (memory : List UInt8) (pattern : List PatternByte) (anchor : Nat) :
    Except Fault (Option Nat) :=
  if pattern = [] ∨ memory.length < pattern.length then .ok none
  else
    match pattern[anchor]? with
    -- Nothing to anchor on: an all-wildcard pattern matches at the first offset.
    | none => .ok (some 0)
    | some byte =>
        findFrom memory pattern anchor byte.value (memory.length - pattern.length)
          (memory.length - pattern.length + 1) 0

def covers (byte : PatternByte) (there : UInt8) : Bool := byte.wildcard || there == byte.value

/-- The whole pattern matches, inside the memory. -/
def MatchesAt (memory : List UInt8) (pattern : List PatternByte) (start : Nat) : Prop :=
  start + pattern.length ≤ memory.length ∧
    ∀ pair ∈ pattern.zip (memory.drop start), covers pair.1 pair.2 = true

instance (memory : List UInt8) (pattern : List PatternByte) (start : Nat) :
    Decidable (MatchesAt memory pattern start) :=
  inferInstanceAs (Decidable (_ ∧ _))

/-- The first match from `start` on. -/
inductive LeftmostFrom (memory : List UInt8) (pattern : List PatternByte) (start : Nat) :
    Option Nat → Prop
  | nowhere (unmatched : ∀ later, start ≤ later → ¬ MatchesAt memory pattern later) :
      LeftmostFrom memory pattern start none
  | here {found : Nat} (behind : start ≤ found) (stands : MatchesAt memory pattern found)
      (first : ∀ earlier, start ≤ earlier → earlier < found →
        ¬ MatchesAt memory pattern earlier) :
      LeftmostFrom memory pattern start (some found)

/-- A fixed byte of the pattern is counted below the largest count, or all are wildcards. -/
def Counted (pattern : List PatternByte) (frequencies : ByteHistogram) : Prop :=
  (∀ byte ∈ pattern, byte.wildcard = true) ∨
    ∃ byte ∈ pattern, byte.wildcard = false ∧ frequencies byte.value < sizeMax

section Search
variable {memory : List UInt8} {pattern : List PatternByte} {start : Nat}

theorem matches_cons {byte : PatternByte} {rest : List PatternByte} (fits : start < memory.length) :
    MatchesAt memory (byte :: rest) start ↔
      covers byte memory[start] = true ∧ MatchesAt memory rest (start + 1) := by
  simp only [MatchesAt, List.length_cons, List.drop_eq_getElem_cons fits, List.zip_cons_cons,
    List.forall_mem_cons]
  constructor
  · rintro ⟨room, first, others⟩
    exact ⟨first, by omega, others⟩
  · rintro ⟨first, room, others⟩
    exact ⟨by omega, first, others⟩

/-- Where the pattern has room, comparing it reads nothing else. -/
theorem matchesAt_exact (start : Nat) (room : start + pattern.length ≤ memory.length) :
    matchesAt memory start pattern = .ok (decide (MatchesAt memory pattern start)) := by
  induction pattern generalizing start with
  | nil =>
      have nothing : MatchesAt memory [] start := ⟨room, by simp⟩
      rw [matchesAt, decide_eq_true nothing]
  | cons byte rest hypothesis =>
      rw [List.length_cons] at room
      have fits : start < memory.length := by omega
      have behind := hypothesis (start + 1) (by omega)
      simp only [matchesAt, List.getElem?_eq_getElem fits, behind, matches_cons fits, covers]
      cases byte.wildcard with
      | true => simp
      | false => by_cases same : memory[start] = byte.value <;> simp [same]

theorem window_getElem {count i : Nat} (within : i < count) :
    ((memory.drop start).take count)[i]? = memory[start + i]? := by
  rw [List.getElem?_take_of_lt within, List.getElem?_drop]

/-- What `memchr` may say of the bytes from `start` up to `stop`. -/
inductive FoundByte (memory : List UInt8) (wanted : UInt8) (start stop : Nat) : Option Nat → Prop
  | absent (passed : ∀ i, start ≤ i → i < stop → memory[i]? ≠ some wanted) :
      FoundByte memory wanted start stop none
  | at_byte {found : Nat} (behind : start ≤ found) (before : found < stop)
      (passed : ∀ i, start ≤ i → i < found → memory[i]? ≠ some wanted) :
      FoundByte memory wanted start stop (some found)

theorem memchr_exact (wanted : UInt8) {count : Nat} (inside : start + count ≤ memory.length) :
    ∃ found, memchr memory start wanted count = .ok found ∧
      FoundByte memory wanted start (start + count) found := by
  refine ⟨_, if_pos inside, ?_⟩
  have shifted {i : Nat} (from_start : start ≤ i) (within : i < start + count) :
      ((memory.drop start).take count)[i - start]? = memory[i]? := by
    rw [window_getElem (by omega), Nat.add_sub_cancel' from_start]
  cases search : ((memory.drop start).take count).findIdx? (· == wanted) with
  | none =>
      apply FoundByte.absent
      intro i from_start within there
      rw [← shifted from_start within] at there
      have missed := List.findIdx?_eq_none_iff.mp search wanted (List.mem_of_getElem? there)
      rw [beq_self_eq_true] at missed
      cases missed
  | some offset =>
      obtain ⟨short, -, passed⟩ := List.findIdx?_eq_some_iff_getElem.mp search
      have within : offset < count := by
        rw [List.length_take] at short
        omega
      apply FoundByte.at_byte (Nat.le_add_right _ _) (Nat.add_lt_add_left within start)
      intro i from_start earlier there
      rw [← shifted from_start (by omega)] at there
      obtain ⟨_, same⟩ := List.getElem?_eq_some_iff.mp there
      apply passed (i - start) (by omega)
      rw [same, beq_self_eq_true]

/-- A match has the anchor's byte behind its start. -/
theorem anchor_there {anchor : Nat} {byte : PatternByte} (placed : pattern[anchor]? = some byte)
    (fixed : byte.wildcard = false) (stands : MatchesAt memory pattern start) :
    memory[start + anchor]? = some byte.value := by
  obtain ⟨room, covered⟩ := stands
  have short := (List.getElem?_eq_some_iff.mp placed).1
  have fits : start + anchor < memory.length := by omega
  have there : (memory.drop start)[anchor]? = some memory[start + anchor] := by
    rw [List.getElem?_drop, List.getElem?_eq_getElem fits]
  have pair : (pattern.zip (memory.drop start))[anchor]? = some (byte, memory[start + anchor]) := by
    rw [List.getElem?_zip_eq_some]
    exact ⟨placed, there⟩
  have alike := covered _ (List.mem_of_getElem? pair)
  simp only [covers, fixed, Bool.false_or, beq_iff_eq] at alike
  rw [List.getElem?_eq_getElem fits, alike]

/-- Past the last start nothing matches. -/
theorem past_end (passed : memory.length < start + pattern.length) :
    LeftmostFrom memory pattern start none := by
  apply LeftmostFrom.nowhere
  intro later behind stands
  have room := stands.1
  omega

/-- Starts known not to match may be passed over. -/
theorem LeftmostFrom.widen {later : Nat} {found : Option Nat}
    (leftmost : LeftmostFrom memory pattern later found) (behind : start ≤ later)
    (skipped : ∀ earlier, start ≤ earlier → earlier < later → ¬ MatchesAt memory pattern earlier) :
    LeftmostFrom memory pattern start found := by
  cases leftmost with
  | nowhere unmatched =>
      apply LeftmostFrom.nowhere
      intro next from_start
      rcases Nat.lt_or_ge next later with short | far
      · exact skipped next from_start short
      · exact unmatched next far
  | here after stands first =>
      apply LeftmostFrom.here (Nat.le_trans behind after) stands
      intro earlier from_start before
      rcases Nat.lt_or_ge earlier later with short | far
      · exact skipped earlier from_start short
      · exact first earlier far before

theorem findFrom_exact {anchor fuel : Nat} {byte : PatternByte}
    (placed : pattern[anchor]? = some byte) (fixed : byte.wildcard = false)
    (room : pattern.length ≤ memory.length) (start : Nat)
    (enough : memory.length - pattern.length < start + fuel) :
    ∃ found, findFrom memory pattern anchor byte.value (memory.length - pattern.length) fuel start =
        .ok found ∧ LeftmostFrom memory pattern start found := by
  have inside : anchor < pattern.length := (List.getElem?_eq_some_iff.mp placed).1
  induction fuel generalizing start with
  | zero => exact ⟨none, rfl, past_end (by omega)⟩
  | succ fuel hypothesis =>
      by_cases passed : memory.length - pattern.length < start
      · exact ⟨none, by rw [findFrom, if_pos passed], past_end (by omega)⟩
      have window : start + anchor + (memory.length - pattern.length - start + 1) ≤
          memory.length := by omega
      obtain ⟨found, search, seen⟩ := memchr_exact byte.value window
      rw [findFrom, if_neg passed, search]
      cases seen with
      | absent missed =>
          refine ⟨none, rfl, .nowhere ?_⟩
          intro later behind stands
          have fits := stands.1
          exact missed (later + anchor) (by omega) (by omega) (anchor_there placed fixed stands)
      | @at_byte found behind before missed =>
          have compared : matchesAt memory (found - anchor) pattern =
              .ok (decide (MatchesAt memory pattern (found - anchor))) :=
            matchesAt_exact (found - anchor) (by omega)
          have skipped (later : Nat) (from_start : start ≤ later) (short : later < found - anchor) :
              ¬ MatchesAt memory pattern later := fun stands =>
            missed (later + anchor) (by omega) (by omega) (anchor_there placed fixed stands)
          by_cases stands : MatchesAt memory pattern (found - anchor)
          · refine ⟨some (found - anchor), ?_, .here (by omega) stands skipped⟩
            rw [decide_eq_true stands] at compared
            simp only [bind, Except.bind, compared, if_true, pure, Except.pure]
          · obtain ⟨next, onward, leftmost⟩ := hypothesis (found - anchor + 1) (by omega)
            refine ⟨next, ?_, ?_⟩
            · rw [decide_eq_false stands] at compared
              simp only [bind, Except.bind, compared, Bool.false_eq_true, if_false, onward]
            · apply leftmost.widen (by omega)
              intro earlier from_start before matching
              rcases Nat.lt_succ_iff_lt_or_eq.mp before with short | rfl
              · exact skipped earlier from_start short matching
              · exact stands matching

theorem anchorFrom_cases (frequencies : ByteHistogram) (index anchor : Nat) (rarest : UInt64)
    (rest : List PatternByte) :
    (anchorFrom frequencies index anchor rarest rest = anchor ∧
        ∀ byte ∈ rest, byte.wildcard = false → rarest ≤ frequencies byte.value) ∨
      ∃ offset byte, rest[offset]? = some byte ∧ byte.wildcard = false ∧
        anchorFrom frequencies index anchor rarest rest = index + offset := by
  induction rest generalizing index anchor rarest with
  | nil => exact .inl ⟨rfl, by simp⟩
  | cons byte rest hypothesis =>
      have later {kept : Nat} {count : UInt64} (other : ∃ offset fixed, rest[offset]? = some fixed ∧
          fixed.wildcard = false ∧ anchorFrom frequencies (index + 1) kept count rest =
            index + 1 + offset) :
          ∃ offset fixed, (byte :: rest)[offset]? = some fixed ∧ fixed.wildcard = false ∧
            anchorFrom frequencies (index + 1) kept count rest = index + offset := by
        obtain ⟨offset, fixed, placed, unmasked, same⟩ := other
        exact ⟨offset + 1, fixed, placed, unmasked, by omega⟩
      rw [anchorFrom]
      split
      · next masked =>
          rcases hypothesis (index + 1) anchor rarest with ⟨same, commoner⟩ | other
          · refine .inl ⟨same, List.forall_mem_cons.mpr ⟨?_, commoner⟩⟩
            simp [masked]
          · exact .inr (later other)
      · next unmasked =>
          split
          · rcases hypothesis (index + 1) index (frequencies byte.value) with ⟨same, -⟩ | other
            · exact .inr ⟨0, byte, rfl, by simpa using unmasked, same⟩
            · exact .inr (later other)
          · next common =>
              rcases hypothesis (index + 1) anchor rarest with ⟨same, commoner⟩ | other
              · exact .inl ⟨same, List.forall_mem_cons.mpr ⟨fun _ => UInt64.not_lt.mp common, commoner⟩⟩
              · exact .inr (later other)

/-- The anchor is a fixed byte of the pattern, unless it has none but wildcards. -/
theorem anchorOf_fixed {frequencies : ByteHistogram} (counted : Counted pattern frequencies) :
    (pattern[anchorOf pattern frequencies]? = none ∧ ∀ byte ∈ pattern, byte.wildcard = true) ∨
      ∃ byte, pattern[anchorOf pattern frequencies]? = some byte ∧ byte.wildcard = false := by
  rcases anchorFrom_cases frequencies 0 pattern.length sizeMax pattern with
    ⟨same, commoner⟩ | ⟨offset, byte, placed, fixed, same⟩
  · rcases counted with masked | ⟨byte, inside, fixed, rare⟩
    · refine .inl ⟨?_, masked⟩
      rw [anchorOf, same]
      exact List.getElem?_eq_none (Nat.le_refl _)
    · exact absurd rare (UInt64.not_lt.mpr (commoner byte inside fixed))
  · refine .inr ⟨byte, ?_, fixed⟩
    rw [anchorOf, same, Nat.zero_add]
    exact placed

end Search

/-- The search by its anchor finds the leftmost match, and reads nothing outside the memory. -/
theorem findFirst_leftmost (memory : List UInt8) {pattern : List PatternByte}
    {frequencies : ByteHistogram} (present : pattern ≠ [])
    (counted : Counted pattern frequencies) :
    ∃ found, findFirst memory pattern (anchorOf pattern frequencies) = .ok found ∧
      LeftmostFrom memory pattern 0 found := by
  by_cases short : memory.length < pattern.length
  · exact ⟨none, if_pos (.inr short), past_end (by omega)⟩
  rw [findFirst, if_neg (not_or.mpr ⟨present, short⟩)]
  rcases anchorOf_fixed counted with ⟨nowhere, masked⟩ | ⟨byte, placed, fixed⟩
  · rw [nowhere]
    refine ⟨some 0, rfl, .here (Nat.le_refl _) ⟨by omega, ?_⟩ fun earlier _ before => by omega⟩
    intro pair inside
    rw [covers, masked pair.1 (List.of_mem_zip inside).1, Bool.true_or]
  · rw [placed]
    exact findFrom_exact placed fixed (by omega) 0 (by omega)

end VoltMod.BytePattern
