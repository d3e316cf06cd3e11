import Mathlib.Data.List.Forall2
import Mathlib.Data.List.ReduceOption
import VoltMod.BytePattern

/-! cli/voltmod/framework/gamedata_check.py over gamedata.py's `pattern_regex`: a committed byte
pattern looked up in a game binary, and the one moved struct offset that explains why it is gone.
`none` is a ValueError; the binary is its contents. -/
namespace VoltMod.GameDataCheck
open MigrationText (Text)
open BytePattern

/-- `str.isspace` -/
def isspace (c : Char) : Bool :=
  ('\t' ≤ c && c ≤ '\r') || ('\x1c' ≤ c && c ≤ ' ') ||
    [0x85, 0xA0, 0x1680, 0x2028, 0x2029, 0x202F, 0x205F, 0x3000].contains c.toNat ||
    (0x2000 ≤ c.toNat && c.toNat ≤ 0x200A)

/-- The runs between separators, as `str.split()` and the host's tokens are. -/
def words (separates : Char → Bool) (text : Text) : List Text :=
  (text.splitOnP separates).filter (· ≠ [])

def split (text : Text) : List Text := words isspace text

/-- `" ".join` -/
def join (tokens : List Text) : Text := List.intercalate [' '] tokens

def unprefixed : Text → Text
  | '0' :: 'x' :: '_' :: digits => digits
  | '0' :: 'X' :: '_' :: digits => digits
  | '0' :: 'x' :: digits => digits
  | '0' :: 'X' :: digits => digits
  | digits => digits

/-- Digits that single underscores may stand between. -/
def digits16 (digits : Text) : Option Nat :=
  let groups := digits.splitOnP (· == '_')
  if groups.contains [] then none else hexValue groups.flatten

/-- `int(token, 16)` of an ASCII token without spaces. -/
def int16 : Text → Option Int
  | '-' :: digits => (digits16 (unprefixed digits)).map fun value => -(value : Int)
  | '+' :: digits => (digits16 (unprefixed digits)).map Int.ofNat
  | digits => (digits16 (unprefixed digits)).map Int.ofNat

/-- `bytes([int(token, 16)])` -/
def tokenByte (token : Text) : Option UInt8 :=
  (int16 token).bind fun value =>
    if 0 ≤ value ∧ value < 256 then some (UInt8.ofNat value.toNat) else none

def isWildcard (token : Text) : Bool := token = "?".toList || token = "??".toList

def regexPart (token : Text) : Option PatternByte :=
  if isWildcard token then some { wildcard := true }
  else (tokenByte token).map fun value => { value }

def patternRegex (pattern : Text) : Option (List PatternByte) := (split pattern).mapM regexPart

/-- The regex matches where the bytes begin. -/
def fits : List PatternByte → List UInt8 → Bool
  | [], _ => true
  | _ :: _, [] => false
  | byte :: pattern, there :: rest => covers byte there && fits pattern rest

/-- `finditer`: the next match is looked for behind the one before. -/
def finditer (regex : List PatternByte) : Nat → Nat → List UInt8 → List Nat
  | 0, index, [] => if fits regex [] then [index] else []
  | _ + 1, _, [] => []
  | skip + 1, index, _ :: rest => finditer regex skip (index + 1) rest
  | 0, index, byte :: rest =>
      if fits regex (byte :: rest) then
        index :: finditer regex (regex.length - 1) (index + 1) rest
      else finditer regex 0 (index + 1) rest

def find (contents : List UInt8) (pattern : Text) : Option (List Nat) :=
  (patternRegex pattern).map fun regex => finditer regex 0 0 contents

def maxOffset : Nat := 0xFFFF

/-- `int.from_bytes(bytes, "little")` -/
def littleEndian : List UInt8 → Nat
  | [] => 0
  | byte :: rest => byte.toNat + 256 * littleEndian rest

/-- The offsets of `_offset_candidates`, a window at a time. -/
def offsetCandidates (tokens : List Text) : Option (List (Nat × Nat)) := do
  let windows := (List.range (tokens.length - 3)).map fun index =>
    (index, (tokens.drop index).take 4)
  let literal := windows.filter fun window => !window.2.any isWildcard
  let values ← literal.mapM fun window =>
    (window.2.mapM tokenByte).map fun bytes => (window.1, littleEndian bytes)
  return values.filter fun found => 0 < found.2 && found.2 ≤ maxOffset

structure Repair where
  pattern : Text
  index : Nat
  oldOffset : Nat
  newOffset : Nat
  deriving DecidableEq, Repr

/-- The tokens with the four from `index` on wildcarded. -/
def wildcarded (tokens : List Text) (index : Nat) : List Text :=
  tokens.take index ++ List.replicate 4 "?".toList ++ tokens.drop (index + 4)

def read (contents : List UInt8) (offset length : Nat) : List UInt8 :=
  (contents.drop offset).take length

/-- A round of the loop of `repair_pattern`. -/
def repairAt (contents : List UInt8) (tokens : List Text) (candidate : Nat × Nat) :
    Option (Option Repair) := do
  let pattern := join (wildcarded tokens candidate.1)
  match ← find contents pattern with
  | [place] =>
      let newOffset := littleEndian (read contents (place + candidate.1) 4)
      return some ⟨pattern, candidate.1, candidate.2, newOffset⟩
  | _ => return none

def repairPattern (contents : List UInt8) (pattern : Text) : Option (Option Repair) := do
  let tokens := split pattern
  let candidates ← offsetCandidates tokens
  let repairs ← candidates.mapM (repairAt contents tokens)
  match repairs.reduceOption with
  | [repair] => return some repair
  | _ => return none

/-- The baseline's classes, each with the offsets its fields have. -/
abbrev Schema := List (String × List (String × Option Nat))

def schemaFieldsAt (schema : Schema) (offset : Nat) : List String :=
  (schema.mergeSort fun first second => decide (first.1 ≤ second.1)).flatMap fun (name, fields) =>
    (fields.filter fun field => field.2 = some offset).map fun field => s!"{name}::{field.1}"

inductive PatternStatus where
  | unique | repaired | ambiguous | missing
  deriving DecidableEq, Repr

structure PatternResult where
  sectionName : String
  key : String
  status : PatternStatus
  detail : String := ""
  oldPattern : Text := []
  newPattern : Text := []
  deriving DecidableEq, Repr

def repairDetail (schema : Schema) (repair : Repair) : String :=
  let detail := s!"bytes {repair.index}-{repair.index + 3}: " ++
    s!"{repair.oldOffset} -> {repair.newOffset}, wildcarded"
  match schemaFieldsAt schema repair.newOffset with
  | [] => detail
  | fields => detail ++ s!"\n{repair.newOffset} is " ++ ", ".intercalate (fields.take 2)

def checkPattern (contents : List UInt8) (sectionName key : String) (pattern : Text)
    (schema : Schema) : Option PatternResult := do
  match ← find contents pattern with
  | [_] => return { sectionName, key, status := .unique }
  | first :: second :: rest =>
      return { sectionName, key, status := .ambiguous
               detail := s!"{(first :: second :: rest).length} matches" }
  | [] =>
      match ← repairPattern contents pattern with
      | none =>
          return { sectionName, key, status := .missing
                   detail := "no match, and no single moved offset explains it" }
      | some repair =>
          return { sectionName, key, status := .repaired, detail := repairDetail schema repair
                   oldPattern := pattern, newPattern := repair.pattern }

section Lists
variable {First Second : Type} {f : First → Option Second}

theorem mapM_some {xs : List First} {ys : List Second} :
    xs.mapM f = some ys ↔ List.Forall₂ (fun x y => f x = some y) xs ys := by
  induction xs generalizing ys with
  | nil =>
      cases ys with
      | nil => simp
      | cons y ys => exact iff_of_false (by simp) nofun
  | cons x xs ih =>
      simp only [List.mapM_cons, Option.pure_def, Option.bind_eq_bind, Option.bind_eq_some_iff,
        Option.some.injEq]
      constructor
      · rintro ⟨y, here, rest, there, rfl⟩
        exact .cons here (ih.mp there)
      · intro all
        cases all with
        | cons here there => exact ⟨_, here, _, ih.mpr there, rfl⟩

theorem mapM_append_some {xs more : List First} {ys others : List Second}
    (front : xs.mapM f = some ys) (back : more.mapM f = some others) :
    (xs ++ more).mapM f = some (ys ++ others) := by
  simp [List.mapM_append, front, back]

theorem mapM_append_inv {xs more : List First} {zs : List Second}
    (all : (xs ++ more).mapM f = some zs) :
    ∃ ys others, xs.mapM f = some ys ∧ more.mapM f = some others ∧ zs = ys ++ others := by
  simp only [List.mapM_append, Option.pure_def, Option.bind_eq_bind, Option.bind_eq_some_iff,
    Option.some.injEq] at all
  obtain ⟨ys, front, others, back, rfl⟩ := all
  exact ⟨ys, others, front, back, rfl⟩

theorem mapM_mem {xs : List First} {ys : List Second} {y : Second} (all : xs.mapM f = some ys)
    (member : y ∈ ys) : ∃ x ∈ xs, f x = some y := by
  have pairs := mapM_some.mp all
  clear all
  induction pairs with
  | nil => cases member
  | cons here there ih =>
      rcases List.mem_cons.mp member with rfl | later
      · exact ⟨_, List.mem_cons_self, here⟩
      · obtain ⟨x, inside, found⟩ := ih later
        exact ⟨x, List.mem_cons_of_mem _ inside, found⟩

theorem mapM_image {xs : List First} {ys : List Second} {x : First} (all : xs.mapM f = some ys)
    (member : x ∈ xs) : ∃ y ∈ ys, f x = some y := by
  have pairs := mapM_some.mp all
  clear all
  induction pairs with
  | nil => cases member
  | cons here there ih =>
      rcases List.mem_cons.mp member with rfl | later
      · exact ⟨_, List.mem_cons_self, here⟩
      · obtain ⟨y, inside, found⟩ := ih later
        exact ⟨y, List.mem_cons_of_mem _ inside, found⟩

end Lists

section Words
variable {separates other : Char → Bool} {text : Text}

theorem splitOnP_unseparated {piece : Text} (member : piece ∈ text.splitOnP separates) :
    ∀ c ∈ piece, separates c = false := by
  induction text generalizing piece with
  | nil =>
      rw [List.splitOnP_nil, List.mem_singleton] at member
      subst member
      exact nofun
  | cons c rest ih =>
      rw [List.splitOnP_cons_eq_if_modifyHead] at member
      split at member
      · rcases List.mem_cons.mp member with rfl | later
        · exact nofun
        · exact ih later
      · next apart =>
          obtain ⟨first, others, pieces⟩ := List.exists_cons_of_ne_nil
            (List.splitOnP_ne_nil separates rest)
          rw [pieces] at ih member
          rcases List.mem_cons.mp member with rfl | later
          · intro d inside
            rcases List.mem_cons.mp inside with rfl | deeper
            · simpa using apart
            · exact ih List.mem_cons_self d deeper
          · exact ih (List.mem_cons_of_mem _ later)

/-- A character of the text separates or stands in one of the pieces. -/
theorem splitOnP_covers (separates : Char → Bool) {c : Char} (member : c ∈ text) :
    separates c = true ∨ ∃ piece ∈ text.splitOnP separates, c ∈ piece := by
  induction text with
  | nil => cases member
  | cons d rest ih =>
      rw [List.splitOnP_cons_eq_if_modifyHead]
      split
      · next here =>
          rcases List.mem_cons.mp member with rfl | later
          · exact .inl here
          · refine (ih later).imp_right ?_
            rintro ⟨piece, inside, held⟩
            exact ⟨piece, List.mem_cons_of_mem _ inside, held⟩
      · obtain ⟨first, others, pieces⟩ := List.exists_cons_of_ne_nil
          (List.splitOnP_ne_nil separates rest)
        rw [pieces] at ih ⊢
        rcases List.mem_cons.mp member with rfl | later
        · exact .inr ⟨_, List.mem_cons_self, List.mem_cons_self⟩
        · refine (ih later).imp_right ?_
          rintro ⟨piece, inside, held⟩
          rcases List.mem_cons.mp inside with rfl | deeper
          · exact ⟨_, List.mem_cons_self, List.mem_cons_of_mem _ held⟩
          · exact ⟨piece, List.mem_cons_of_mem _ deeper, held⟩

theorem splitOnP_alike (alike : ∀ c ∈ text, separates c = other c) :
    text.splitOnP separates = text.splitOnP other := by
  induction text with
  | nil => rfl
  | cons c rest ih =>
      have here := alike c List.mem_cons_self
      have later := ih fun d member => alike d (List.mem_cons_of_mem _ member)
      rw [List.splitOnP_cons_eq_if_modifyHead, List.splitOnP_cons_eq_if_modifyHead, here, later]

theorem mem_words {token : Text} (member : token ∈ words separates text) :
    token ≠ [] ∧ ∀ c ∈ token, separates c = false := by
  obtain ⟨inside, some_⟩ := List.mem_filter.mp member
  exact ⟨by simpa using some_, splitOnP_unseparated inside⟩

theorem words_join {tokens : List Text} (space : separates ' ' = true)
    (whole : ∀ token ∈ tokens, token ≠ [] ∧ ∀ c ∈ token, separates c = false) :
    words separates (join tokens) = tokens := by
  induction tokens with
  | nil => rfl
  | cons token rest ih =>
      obtain ⟨some_, plain⟩ := whole token List.mem_cons_self
      have later := ih fun other member => whole other (List.mem_cons_of_mem _ member)
      cases rest with
      | nil => simp [words, join, List.splitOnP_eq_singleton plain, some_]
      | cons next others =>
          have cut : words separates (token ++ ' ' :: join (next :: others)) =
              token :: words separates (join (next :: others)) := by
            rw [words, List.splitOnP_append_cons_of_forall_mem plain ' ' space,
              List.filter_cons_of_pos (by simpa using some_), ← words]
          have spelled : join (token :: next :: others) = token ++ ' ' :: join (next :: others) := by
            rw [join, List.intercalate_cons_cons, List.append_assoc]
            rfl
          rw [spelled, cut, later]

end Words

section Matching
variable {regex : List PatternByte} {bytes : List UInt8}

theorem fits_append (front back : List PatternByte) (bytes : List UInt8) :
    fits (front ++ back) bytes = (fits front bytes && fits back (bytes.drop front.length)) := by
  induction front generalizing bytes with
  | nil => rfl
  | cons byte front ih =>
      cases bytes with
      | nil => rfl
      | cons there rest => simp only [List.cons_append, fits, ih, List.length_cons,
          List.drop_succ_cons, Bool.and_assoc]

theorem fits_iff : fits regex bytes = true ↔
    regex.length ≤ bytes.length ∧ ∀ pair ∈ regex.zip bytes, covers pair.1 pair.2 = true := by
  induction regex generalizing bytes with
  | nil => simp [fits]
  | cons byte regex ih =>
      cases bytes with
      | nil => simp [fits]
      | cons there rest =>
          simp only [fits, Bool.and_eq_true, ih, List.length_cons, Nat.add_le_add_iff_right,
            List.zip_cons_cons, List.forall_mem_cons]
          exact and_left_comm

theorem fits_matches {memory : List UInt8} {start : Nat} (inside : start ≤ memory.length) :
    fits regex (memory.drop start) = true ↔ MatchesAt memory regex start := by
  rw [fits_iff, MatchesAt, List.length_drop]
  exact and_congr_left fun _ => by omega

theorem finditer_fits {skip index place : Nat} (member : place ∈ finditer regex skip index bytes) :
    ∃ offset, place = index + offset ∧ offset ≤ bytes.length ∧
      fits regex (bytes.drop offset) = true := by
  induction bytes generalizing skip index with
  | nil =>
      cases skip with
      | zero =>
          simp only [finditer] at member
          split at member
          · next here =>
              rw [List.mem_singleton] at member
              exact ⟨0, member, Nat.le_refl 0, here⟩
          · cases member
      | succ skip => cases member
  | cons byte rest ih =>
      have later : ∀ skip, place ∈ finditer regex skip (index + 1) rest →
          ∃ offset, place = index + offset ∧ offset ≤ (byte :: rest).length ∧
            fits regex ((byte :: rest).drop offset) = true := by
        intro skip behind
        obtain ⟨offset, same, inside, found⟩ := ih behind
        exact ⟨offset + 1, by omega, Nat.succ_le_succ inside, found⟩
      cases skip with
      | succ skip => exact later skip member
      | zero =>
          simp only [finditer] at member
          split at member
          · next here =>
              rcases List.mem_cons.mp member with rfl | behind
              · exact ⟨0, rfl, Nat.zero_le _, here⟩
              · exact later _ behind
          · exact later 0 member

theorem finditer_none {index : Nat} (none_ : finditer regex 0 index bytes = []) (offset : Nat)
    (inside : offset ≤ bytes.length) : fits regex (bytes.drop offset) = false := by
  induction bytes generalizing index offset with
  | nil =>
      simp only [finditer, ite_eq_right_iff] at none_
      obtain rfl : offset = 0 := Nat.le_zero.mp inside
      exact Bool.eq_false_iff.mpr fun here => absurd (none_ here) (by simp)
  | cons byte rest ih =>
      simp only [finditer] at none_
      split at none_
      · cases none_
      · next missed =>
          cases offset with
          | zero => exact Bool.eq_false_iff.mpr missed
          | succ offset => exact ih none_ offset (Nat.le_of_succ_le_succ inside)

theorem littleEndian_injective {first second : List UInt8} (long : first.length = second.length)
    (same : littleEndian first = littleEndian second) : first = second := by
  induction first generalizing second with
  | nil => exact (List.length_eq_zero_iff.mp long.symm).symm
  | cons byte rest ih =>
      cases second with
      | nil => cases long
      | cons other others =>
          simp only [littleEndian] at same
          have low := byte.toNat_lt
          have high := other.toNat_lt
          have here : byte.toNat = other.toNat := by omega
          have there : littleEndian rest = littleEndian others := by omega
          rw [UInt8.toNat_inj.mp here, ih (Nat.succ.inj long) there]

def fixedBytes : List UInt8 → List PatternByte
  | [] => []
  | value :: values => { value } :: fixedBytes values

@[simp] theorem fixedBytes_length (values : List UInt8) :
    (fixedBytes values).length = values.length := by
  induction values with
  | nil => rfl
  | cons value values ih => exact congrArg Nat.succ ih

/-- Bytes spelled out fit themselves alone. -/
theorem fits_literal (values bytes : List UInt8) (room : values.length ≤ bytes.length) :
    fits (fixedBytes values) bytes = true ↔ bytes.take values.length = values := by
  induction values generalizing bytes with
  | nil => simp [fixedBytes, fits]
  | cons value values ih =>
      cases bytes with
      | nil => cases room
      | cons there rest =>
          simp only [fixedBytes, fits, covers, Bool.false_or, Bool.and_eq_true, beq_iff_eq,
            ih rest (Nat.le_of_succ_le_succ room), List.length_cons, List.take_succ_cons,
            List.cons.injEq]

end Matching

section Host
variable {token : Text} {byte : PatternByte}

theorem hexValue_digits {value : Nat} (spelled : hexValue token = some value) :
    token ≠ [] ∧ ∀ c ∈ token, ∃ digit, hexDigit c = some digit := by
  unfold hexValue at spelled
  split at spelled
  · cases spelled
  · next some_ =>
      refine ⟨some_, ?_⟩
      clear some_
      revert spelled
      generalize (0 : Nat) = start
      induction token generalizing start with
      | nil => exact fun _ => nofun
      | cons c rest ih =>
          intro spelled d member
          rw [List.foldlM_cons] at spelled
          obtain ⟨next, here, later⟩ := Option.bind_eq_some_iff.mp spelled
          obtain ⟨digit, found, _⟩ := Option.map_eq_some_iff.mp here
          rcases List.mem_cons.mp member with rfl | behind
          · exact ⟨digit, found⟩
          · exact ih next later d behind

theorem digit_code {c : Char} {digit : Nat} (found : hexDigit c = some digit) :
    (48 ≤ c.toNat ∧ c.toNat ≤ 57) ∨ (97 ≤ c.toNat ∧ c.toNat ≤ 102) ∨
      (65 ≤ c.toNat ∧ c.toNat ≤ 70) := by
  unfold hexDigit at found
  split at found
  · next within => exact .inl within
  · split at found
    · next within => exact .inr (.inl within)
    · split at found
      · next within => exact .inr (.inr within)
      · cases found

theorem isspace_code {c : Char} (found : isspace c = true) : c.toNat ≤ 32 ∨ 133 ≤ c.toNat := by
  simp only [isspace, Bool.or_eq_true, Bool.and_eq_true, decide_eq_true_eq, List.contains_cons,
    List.contains_nil, beq_iff_eq, Bool.false_eq_true, or_false] at found
  have control : ∀ limit : Char, c ≤ limit → c.toNat ≤ limit.toNat := fun _ below => below
  rcases found with ((⟨_, below⟩ | ⟨_, below⟩) | listed) | ⟨above, _⟩
  · have := control _ below
    exact .inl (this.trans (by decide))
  · exact .inl (control _ below)
  · omega
  · omega

theorem digit_plain {c : Char} {digit : Nat} (found : hexDigit c = some digit) :
    isspace c = false ∧ ∀ other ∈ ['_', 'x', 'X', '-', '+', '?'], c ≠ other := by
  have code := digit_code found
  constructor
  · refine Bool.eq_false_iff.mpr fun spaced => ?_
    have := isspace_code spaced
    omega
  · rintro other member rfl
    simp only [List.mem_cons, List.not_mem_nil, or_false] at member
    rcases member with rfl | rfl | rfl | rfl | rfl | rfl <;> cases found

/-- What the host reads of a token, `int` reads as well. -/
theorem int16_digits {value : Nat} (spelled : hexValue token = some value) :
    int16 token = some (value : Int) := by
  obtain ⟨some_, digits⟩ := hexValue_digits spelled
  have plain : ∀ c ∈ token, ∀ other ∈ ['_', 'x', 'X', '-', '+', '?'], c ≠ other := by
    intro c member
    obtain ⟨digit, found⟩ := digits c member
    exact (digit_plain found).2
  have whole : unprefixed token = token := by
    unfold unprefixed
    split
    · exact absurd rfl (plain 'x' (by simp) 'x' (by simp))
    · exact absurd rfl (plain 'X' (by simp) 'X' (by simp))
    · exact absurd rfl (plain 'x' (by simp) 'x' (by simp))
    · exact absurd rfl (plain 'X' (by simp) 'X' (by simp))
    · rfl
  have ungrouped : digits16 token = some value := by
    have one : token.splitOnP (· == '_') = [token] := by
      refine List.splitOnP_eq_singleton fun c member => ?_
      simpa using plain c member '_' (by simp)
    rw [digits16, one]
    simpa [Ne.symm some_] using spelled
  unfold int16
  split
  · exact absurd rfl (plain '-' (by simp) '-' (by simp))
  · exact absurd rfl (plain '+' (by simp) '+' (by simp))
  · rw [whole, ungrouped]
    rfl

theorem regexPart_host (parsed : parseToken token = some byte) : regexPart token = some byte := by
  unfold parseToken at parsed
  split at parsed
  · next wild =>
      rw [regexPart, if_pos (by simpa [isWildcard] using wild)]
      exact parsed
  · next fixed =>
      split at parsed
      · cases parsed
      · next value spelled =>
          split at parsed
          · cases parsed
          · next small =>
              rw [regexPart, if_neg (by simpa [isWildcard] using fixed), tokenByte,
                int16_digits spelled]
              have fits : (0 : Int) ≤ value ∧ (value : Int) < 256 := by omega
              rw [Option.bind_some, if_pos fits]
              exact parsed

theorem space_isspace {c : Char} (spaced : space c = true) : isspace c = true := by
  simp only [space, Bool.or_eq_true, beq_iff_eq] at spaced
  rcases spaced with ((((rfl | rfl) | rfl) | rfl) | rfl) | rfl <;> decide

theorem parsed_plain (parsed : parseToken token = some byte) : ∀ c ∈ token, isspace c = false := by
  unfold parseToken at parsed
  split at parsed
  · next wild =>
      intro c member
      have asked : c = '?' := by rcases wild with rfl | rfl <;> simpa using member
      rw [asked]
      decide
  · split at parsed
    · cases parsed
    · next value spelled =>
        intro c member
        obtain ⟨digit, found⟩ := (hexValue_digits spelled).2 c member
        exact (digit_plain found).1

/-- Where the host reads the pattern, both cut it into the same tokens. -/
theorem host_tokens {pattern : Text} (reads : parsePattern pattern ≠ []) :
    split pattern = words space pattern ∧
      (split pattern).mapM parseToken = some (parsePattern pattern) := by
  have parsed : (words space pattern).mapM parseToken = some (parsePattern pattern) := by
    unfold parsePattern at reads ⊢
    unfold words
    cases tokens : ((pattern.splitOnP space).filter (· ≠ [])).mapM parseToken with
    | none =>
        rw [tokens] at reads
        exact absurd rfl reads
    | some bytes => rfl
  have same : split pattern = words space pattern := by
    unfold split words
    congr 1
    refine splitOnP_alike fun c member => ?_
    rcases splitOnP_covers space member with spaced | ⟨piece, inside, held⟩
    · rw [spaced, space_isspace spaced]
    · have token : piece ∈ words space pattern :=
        List.mem_filter.mpr ⟨inside, by simpa using List.ne_nil_of_mem held⟩
      obtain ⟨byte, _, found⟩ := mapM_image parsed token
      rw [parsed_plain found c held]
      exact (splitOnP_unseparated inside c held).symm
  exact ⟨same, same ▸ parsed⟩

end Host

/-- The regex with the four bytes behind `front` wildcarded. -/
def widened (front back : List PatternByte) : List PatternByte :=
  front ++ List.replicate 4 { wildcard := true } ++ back

theorem fits_wildcards (count : Nat) (bytes : List UInt8) :
    fits (List.replicate count { wildcard := true }) bytes = decide (count ≤ bytes.length) := by
  induction count generalizing bytes with
  | zero => simp [fits]
  | succ count ih =>
      cases bytes with
      | nil => simp [List.replicate_succ, fits]
      | cons there rest => simp [List.replicate_succ, fits, covers, ih]

theorem fits_widened {front back : List PatternByte} {values bytes : List UInt8}
    (four : values.length = 4)
    (found : fits (front ++ fixedBytes values ++ back) bytes = true) :
    fits (widened front back) bytes = true := by
  rw [fits_append, fits_append, Bool.and_eq_true, Bool.and_eq_true] at found
  obtain ⟨⟨before, literal⟩, behind⟩ := found
  have room := (fits_iff.mp literal).1
  rw [fixedBytes_length, four] at room
  rw [widened, fits_append, fits_append, before, fits_wildcards, decide_eq_true room]
  simpa [four] using behind

/-- What is not there and is there once widened holds other bytes at the offset's place. -/
theorem widened_moved {front back : List PatternByte} {values bytes : List UInt8}
    (four : values.length = 4)
    (gone : fits (front ++ fixedBytes values ++ back) bytes = false)
    (found : fits (widened front back) bytes = true) :
    littleEndian ((bytes.drop front.length).take 4) ≠ littleEndian values := by
  intro same
  rw [widened, fits_append, fits_append, Bool.and_eq_true, Bool.and_eq_true, fits_wildcards,
    decide_eq_true_iff] at found
  obtain ⟨⟨before, room⟩, behind⟩ := found
  have taken : (bytes.drop front.length).take 4 = values := by
    refine littleEndian_injective ?_ same
    rw [List.length_take, four]
    omega
  have literal := (fits_literal values (bytes.drop front.length) (by omega)).mpr
    (by rw [four]; exact taken)
  rw [fits_append, fits_append, before, literal] at gone
  simp only [Bool.and_self, Bool.true_and, List.length_append, fixedBytes_length, four,
    List.length_replicate] at gone behind
  rw [behind] at gone
  cases gone

/-- `old` is gone from the file, and `written`, its four bytes `values` of an offset wildcarded,
stands at `place` alone, with another offset there. -/
structure Explains (contents : List UInt8) (old written : Text) (before window after : List Text)
    (values : List UInt8) (place : Nat) : Prop where
  tokens : split old = before ++ window ++ after
  rewritten : split written = before ++ List.replicate 4 "?".toList ++ after
  literal : window.length = 4 ∧ ∀ token ∈ window, isWildcard token = false
  offset : window.mapM tokenByte = some values ∧ 0 < littleEndian values ∧
    littleEndian values ≤ maxOffset
  gone : find contents old = some []
  unique : find contents written = some [place]
  moved : littleEndian (read contents (place + before.length) 4) ≠ littleEndian values
  only : ∀ candidates, offsetCandidates (split old) = some candidates →
    ∀ other ∈ candidates, other.1 ≠ before.length →
      ∀ elsewhere, find contents (join (wildcarded (split old) other.1)) ≠ some [elsewhere]
  host : parsePattern old ≠ [] →
    MatchesAt contents (parsePattern written) place ∧
      (parsePattern written).length = (parsePattern old).length ∧
        ∀ memory start, MatchesAt memory (parsePattern old) start →
          MatchesAt memory (parsePattern written) start

section Rewriting
variable {tokens window : List Text} {front back : List PatternByte} {values : List UInt8}

theorem window_fixed (plain : ∀ token ∈ window, isWildcard token = false)
    (spelled : window.mapM tokenByte = some values) :
    window.mapM regexPart = some (fixedBytes values) := by
  rw [mapM_some] at spelled ⊢
  induction spelled with
  | nil => exact .nil
  | cons here there ih =>
      have literal := plain _ List.mem_cons_self
      refine .cons ?_ (ih fun token member => plain token (List.mem_cons_of_mem _ member))
      simp [regexPart, literal, here]

theorem wildcards_parts (count : Nat) : (List.replicate count "?".toList).mapM regexPart =
    some (List.replicate count { wildcard := true }) := by
  induction count with
  | zero => rfl
  | succ count ih =>
      rw [List.replicate_succ, List.mapM_cons, ih]
      rfl

theorem wildcards_parsed (count : Nat) : (List.replicate count "?".toList).mapM parseToken =
    some (List.replicate count { wildcard := true }) := by
  induction count with
  | zero => rfl
  | succ count ih =>
      rw [List.replicate_succ, List.mapM_cons, ih]
      rfl

theorem host_parts {parsed : List PatternByte} (reads : tokens.mapM parseToken = some parsed) :
    tokens.mapM regexPart = some parsed := by
  rw [mapM_some] at reads ⊢
  exact reads.imp fun _ _ => regexPart_host

/-- Joined with spaces, the rewritten tokens are cut as they were. -/
theorem wildcarded_words {separates : Char → Bool} {pattern : Text} (index : Nat)
    (space : separates ' ' = true) (asked : separates '?' = false)
    (wider : ∀ c, separates c = true → isspace c = true) :
    words separates (join (wildcarded (split pattern) index)) =
      wildcarded (split pattern) index := by
  refine words_join space fun token member => ?_
  have own : token ∈ split pattern → token ≠ [] ∧ ∀ c ∈ token, separates c = false := by
    intro inside
    obtain ⟨some_, plain⟩ := mem_words inside
    refine ⟨some_, fun c held => Bool.eq_false_iff.mpr fun spaced => ?_⟩
    exact absurd (wider c spaced) (by simp [plain c held])
  rcases List.mem_append.mp member with left | right
  · rcases List.mem_append.mp left with before | wild
    · exact own (List.mem_of_mem_take before)
    · rw [List.eq_of_mem_replicate wild]
      exact ⟨by simp, by simpa using asked⟩
  · exact own (List.mem_of_mem_drop right)

theorem parsed_written {pattern : Text} {index : Nat} {parsed : List PatternByte}
    (reads : (wildcarded (split pattern) index).mapM parseToken = some parsed) :
    parsePattern (join (wildcarded (split pattern) index)) = parsed := by
  have host : parsePattern (join (wildcarded (split pattern) index)) =
      ((words space (join (wildcarded (split pattern) index))).mapM parseToken).getD [] := rfl
  rw [host, wildcarded_words index (by decide) (by decide) fun _ => space_isspace, reads]
  rfl

end Rewriting

section Repair
variable {contents : List UInt8} {pattern : Text}

theorem candidate_window {tokens : List Text} {candidates : List (Nat × Nat)}
    {candidate : Nat × Nat} (found : offsetCandidates tokens = some candidates)
    (member : candidate ∈ candidates) :
    candidate.1 + 4 ≤ tokens.length ∧
      (∀ token ∈ (tokens.drop candidate.1).take 4, isWildcard token = false) ∧
      ∃ values, ((tokens.drop candidate.1).take 4).mapM tokenByte = some values ∧
        candidate.2 = littleEndian values ∧ 0 < candidate.2 ∧ candidate.2 ≤ maxOffset := by
  simp only [offsetCandidates, Option.pure_def, Option.bind_eq_bind, Option.bind_eq_some_iff,
    Option.some.injEq] at found
  obtain ⟨values, all, rfl⟩ := found
  obtain ⟨inside, small⟩ := List.mem_filter.mp member
  obtain ⟨window, listed, read_⟩ := mapM_mem all inside
  obtain ⟨bytes, spelled, rfl⟩ := Option.map_eq_some_iff.mp read_
  obtain ⟨ranged, plain⟩ := List.mem_filter.mp listed
  obtain ⟨index, within, rfl⟩ := List.mem_map.mp ranged
  rw [List.mem_range] at within
  simp only [Bool.not_eq_true', List.any_eq_false, Bool.not_eq_true] at plain
  simp only [Bool.and_eq_true, decide_eq_true_eq] at small
  exact ⟨by omega, plain, bytes, spelled, rfl, small⟩

theorem repairAt_some {tokens : List Text} {candidate : Nat × Nat} {repair : Repair}
    (made : repairAt contents tokens candidate = some (some repair)) :
    ∃ place, find contents (join (wildcarded tokens candidate.1)) = some [place] ∧
      repair = ⟨join (wildcarded tokens candidate.1), candidate.1, candidate.2,
        littleEndian (read contents (place + candidate.1) 4)⟩ := by
  simp only [repairAt, Option.pure_def, Option.bind_eq_bind, Option.bind_eq_some_iff] at made
  obtain ⟨places, found, same⟩ := made
  split at same
  · next place => exact ⟨place, found, (Option.some.inj (Option.some.inj same)).symm⟩
  · cases same

theorem repairAt_found {tokens : List Text} {candidate : Nat × Nat} {place : Nat}
    (found : find contents (join (wildcarded tokens candidate.1)) = some [place]) :
    repairAt contents tokens candidate = some (some
      ⟨join (wildcarded tokens candidate.1), candidate.1, candidate.2,
        littleEndian (read contents (place + candidate.1) 4)⟩) := by
  simp [repairAt, found]

theorem repairPattern_some {repair : Repair}
    (made : repairPattern contents pattern = some (some repair)) :
    ∃ candidates candidate place, offsetCandidates (split pattern) = some candidates ∧
      candidate ∈ candidates ∧
      find contents (join (wildcarded (split pattern) candidate.1)) = some [place] ∧
      repair = ⟨join (wildcarded (split pattern) candidate.1), candidate.1, candidate.2,
        littleEndian (read contents (place + candidate.1) 4)⟩ ∧
      ∀ other ∈ candidates, other.1 ≠ candidate.1 →
        ∀ elsewhere, find contents (join (wildcarded (split pattern) other.1)) ≠
          some [elsewhere] := by
  simp only [repairPattern, Option.pure_def, Option.bind_eq_bind, Option.bind_eq_some_iff] at made
  obtain ⟨candidates, listed, repairs, tried, same⟩ := made
  split at same
  · next single alone =>
      obtain rfl := Option.some.inj (Option.some.inj same)
      have inside : some single ∈ repairs :=
        List.reduceOption_mem_iff.mp (alone ▸ List.mem_singleton_self single)
      obtain ⟨candidate, member, made⟩ := mapM_mem tried inside
      obtain ⟨place, found, rfl⟩ := repairAt_some made
      refine ⟨candidates, candidate, place, listed, member, found, rfl, ?_⟩
      intro other among apart elsewhere there
      obtain ⟨outcome, held, again⟩ := mapM_image tried among
      rw [repairAt_found there] at again
      obtain rfl := Option.some.inj again
      have also := List.reduceOption_mem_iff.mpr held
      rw [alone, List.mem_singleton] at also
      exact apart (congrArg Repair.index also)
  · cases same

theorem find_regex {places : List Nat} (found : find contents pattern = some places) :
    ∃ regex, (split pattern).mapM regexPart = some regex ∧
      places = finditer regex 0 0 contents := by
  obtain ⟨regex, parts, rfl⟩ := Option.map_eq_some_iff.mp found
  exact ⟨regex, parts, rfl⟩

theorem split_rewritten (index : Nat) :
    split (join (wildcarded (split pattern) index)) = wildcarded (split pattern) index :=
  wildcarded_words index (by decide) (by decide) fun _ => id

theorem explained {candidates : List (Nat × Nat)} {candidate : Nat × Nat} {place : Nat}
    (gone : find contents pattern = some [])
    (listed : offsetCandidates (split pattern) = some candidates) (member : candidate ∈ candidates)
    (found : find contents (join (wildcarded (split pattern) candidate.1)) = some [place])
    (only : ∀ other ∈ candidates, other.1 ≠ candidate.1 → ∀ elsewhere,
      find contents (join (wildcarded (split pattern) other.1)) ≠ some [elsewhere]) :
    ∃ before window after values, before.length = candidate.1 ∧
      littleEndian values = candidate.2 ∧
      Explains contents pattern (join (wildcarded (split pattern) candidate.1)) before window after
        values place := by
  obtain ⟨room, plain, values, spelled, offset, ranged⟩ := candidate_window listed member
  obtain ⟨index, value⟩ := candidate
  simp only at room plain spelled offset ranged found only ⊢
  subst offset
  generalize before_ : (split pattern).take index = before
  generalize window_ : ((split pattern).drop index).take 4 = window at plain spelled
  generalize after_ : (split pattern).drop (index + 4) = after
  -- The candidate cuts the pattern in three, of which the middle is the literal offset.
  have cut : split pattern = before ++ window ++ after := by
    rw [← before_, ← window_, ← after_, ← List.drop_drop, List.append_assoc,
      List.take_append_drop, List.take_append_drop]
  have placed : before.length = index := by
    rw [← before_, List.length_take]
    omega
  have long : window.length = 4 := by
    rw [← window_, List.length_take, List.length_drop]
    omega
  have four : values.length = 4 := by
    rw [← (mapM_some.mp spelled).length_eq, long]
  have rewritten : wildcarded (split pattern) index =
      before ++ List.replicate 4 "?".toList ++ after := by
    rw [wildcarded, before_, after_]
  have fixed := window_fixed plain spelled
  -- Both patterns read as the same parts but for the window, so the hit differs just there.
  obtain ⟨regex, parts, absent⟩ := find_regex gone
  obtain ⟨wide, wideParts, single⟩ := find_regex found
  rw [cut] at parts
  obtain ⟨_, back, left, behind, rfl⟩ := mapM_append_inv parts
  obtain ⟨front, _, ahead, middle, rfl⟩ := mapM_append_inv left
  obtain rfl := Option.some.inj (middle.symm.trans fixed)
  rw [split_rewritten, rewritten] at wideParts
  have widely := mapM_append_some (mapM_append_some ahead (wildcards_parts 4)) behind
  obtain rfl := Option.some.inj (wideParts.symm.trans widely)
  have along : front.length = index := by
    rw [← (mapM_some.mp ahead).length_eq, placed]
  have hit : place ∈ finditer (front ++ List.replicate 4 { wildcard := true } ++ back) 0 0
      contents := single ▸ List.mem_singleton_self place
  obtain ⟨there, same, inside, stands⟩ := finditer_fits hit
  rw [Nat.zero_add] at same
  subst same
  have missed := finditer_none absent.symm place inside
  refine ⟨before, window, after, values, placed, rfl, ?_⟩
  refine
    { tokens := cut
      rewritten := by rw [split_rewritten, rewritten]
      literal := ⟨long, plain⟩
      offset := ⟨spelled, ranged⟩
      gone := gone
      unique := found
      moved := ?_
      only := ?_
      host := ?_ }
  · have moved := widened_moved four missed stands
    rwa [List.drop_drop, along, ← placed] at moved
  · intro others again
    obtain rfl := Option.some.inj (listed.symm.trans again)
    rwa [placed]
  · intro reads
    obtain ⟨_, tokens⟩ := host_tokens reads
    rw [cut] at tokens
    have same := Option.some.inj ((host_parts tokens).symm.trans parts)
    obtain ⟨most, _, hostLeft, hostBack, _⟩ := mapM_append_inv tokens
    obtain ⟨_, _, hostFront, _, _⟩ := mapM_append_inv hostLeft
    obtain rfl := Option.some.inj ((host_parts hostFront).symm.trans ahead)
    obtain rfl := Option.some.inj ((host_parts hostBack).symm.trans behind)
    have hostWritten := mapM_append_some (mapM_append_some hostFront (wildcards_parsed 4)) hostBack
    rw [← rewritten] at hostWritten
    have written := parsed_written hostWritten
    rw [written, same]
    refine ⟨(fits_matches inside).mp stands, by simp [four]; omega, fun memory start there => ?_⟩
    have within : start ≤ memory.length := Nat.le_trans (Nat.le_add_right _ _) there.1
    exact (fits_matches within).mp (fits_widened four ((fits_matches within).mpr there))

end Repair

end VoltMod.GameDataCheck
