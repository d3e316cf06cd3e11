import VoltMod.Strip
import VoltMod.TargetResolver

/-! Core/Text/Strings.cpp's durations and how Commands/ArgBinding.cpp binds one. The grammar the
documentation gives is stated over the trimmed, lower-cased text, and the tokens that do not bind
as it says are told exactly. -/
namespace VoltMod.Durations
open MigrationText (Text digit decimal)
open SteamIds (isNumeric)
open Targeting (toLower)
open TargetResolver (ArgError)
open Strip

def isSpace (c : Char) : Bool :=
  c == ' ' || c == '\t' || c == '\n' || c == '\x0b' || c == '\x0c' || c == '\r'

def trim (text : Text) : Text := strip isSpace text

def intMax : Int := 2147483647

/-- A whole text read into a 32 bit `int`: no blanks, no `+`, an overflow an error. -/
def parseInt : Text → Option Int
  | '-' :: digits =>
      if isNumeric digits ∧ (decimal digits : Int) ≤ intMax + 1 then some (-decimal digits)
      else none
  | digits =>
      if isNumeric digits ∧ (decimal digits : Int) ≤ intMax then some (decimal digits) else none

def multiplierOf : Char → Option Int
  | 's' => some 1
  | 'm' => some 60
  | 'h' => some 3600
  | 'd' => some 86400
  | 'w' => some 604800
  | _ => none

/-- So many of a unit in seconds, -1 where the number does not read or the total overflows. -/
def scaled (multiplier : Int) (number : Text) : Int :=
  match parseInt number with
  | none => -1
  | some value =>
      if value < 0 then -1
      else if value * multiplier > intMax then -1
      else value * multiplier

def parseLower (lower : Text) : Int :=
  if lower = "0".toList ∨ lower = "perm".toList ∨ lower = "permanent".toList then 0
  else
    match lower.getLast? with
    | none => -1
    | some suffix =>
        if digit suffix then scaled 1 lower
        else
          match multiplierOf suffix with
          | none => -1
          | some multiplier => scaled multiplier lower.dropLast

def parseDuration (text : Text) : Int :=
  let text := trim text
  if text = [] then -1 else parseLower (toLower text)

/-- In seconds, zero permanent. A bare number is in minutes, and not held to an `int` then. -/
def bindDuration (token : Text) : Except ArgError Int :=
  let seconds := parseDuration token
  if seconds < 0 then .error ⟨"cmd.badDuration", [("token", token)]⟩
  else .ok (if isNumeric token then seconds * 60 else seconds)

/-- A digit string that an `int` holds. -/
def amount (number : Text) : Option Int :=
  if isNumeric number ∧ (decimal number : Int) ≤ intMax then some (decimal number) else none

/-- The documented grammar of a command's duration: minutes, so many of a unit that fit an `int`,
or permanent. -/
def meaning (lower : Text) : Option Int :=
  if lower = "perm".toList ∨ lower = "permanent".toList then some 0
  else if isNumeric lower then (amount lower).map (· * 60)
  else
    match lower.getLast?.bind multiplierOf, amount lower.dropLast with
    | some multiplier, some count =>
        if count * multiplier ≤ intMax then some (count * multiplier) else none
    | _, _ => none

/-- Blanks around a number keep it from being seen as a bare one. -/
def Padded (token : Text) : Prop :=
  trim token ≠ token ∧ ∃ count, amount (trim token) = some count ∧ count ≠ 0

/-- A minus sign before zeros. -/
def Negated (number : Text) : Prop :=
  ∃ zeros, number = '-' :: zeros ∧ isNumeric zeros ∧ decimal zeros = 0

/-- A minus sign is refused unless zeros follow, with or without a unit. -/
def NegatedZero (lower : Text) : Prop :=
  Negated lower ∨ (lower.getLast?.bind multiplierOf).isSome = true ∧ Negated lower.dropLast

theorem numeric_unsigned {number : Text} (numeric : isNumeric number) (digits : Text) :
    number ≠ '-' :: digits := by
  rintro rfl
  obtain ⟨c, rest, same, isDigit⟩ := SteamIds.numeric_cons numeric
  cases same
  revert isDigit
  decide

theorem parseInt_amount {number : Text} {count : Int} (reads : amount number = some count) :
    parseInt number = some count ∧ 0 ≤ count ∧ count ≤ intMax := by
  unfold amount at reads
  split at reads
  · next fits =>
      cases reads
      constructor
      · unfold parseInt
        split
        · next digits => exact absurd rfl (numeric_unsigned fits.1 digits)
        · exact if_pos fits
      · exact ⟨Int.natCast_nonneg _, fits.2⟩
  · cases reads

theorem parseInt_negated {number : Text} (negated : Negated number) : parseInt number = some 0 := by
  obtain ⟨zeros, rfl, numeric, zero⟩ := negated
  simp [parseInt, numeric, zero, intMax]

/-- What else is read is below zero. -/
theorem parseInt_rest {number : Text} {value : Int} (reads : parseInt number = some value)
    (unread : amount number = none) (unsigned : ¬Negated number) : value < 0 := by
  unfold parseInt at reads
  split at reads
  · next digits =>
      split at reads
      · next fits =>
          cases reads
          have nonzero : decimal digits ≠ 0 := fun zero => unsigned ⟨digits, rfl, fits.1, zero⟩
          omega
      · cases reads
  · split at reads
    · next fits =>
        rw [amount, if_pos fits] at unread
        cases unread
    · cases reads

variable {token number lower : Text} {multiplier : Int}

theorem scaled_amount {count : Int} (reads : amount number = some count) :
    scaled multiplier number = if count * multiplier ≤ intMax then count * multiplier else -1 := by
  obtain ⟨parsed, notNegative, _⟩ := parseInt_amount reads
  rw [scaled, parsed]
  dsimp only
  rw [if_neg (by omega)]
  by_cases fits : count * multiplier ≤ intMax
  · rw [if_neg (by omega), if_pos fits]
  · rw [if_pos (by omega), if_neg fits]

theorem scaled_negated (negated : Negated number) : scaled multiplier number = 0 := by
  rw [scaled, parseInt_negated negated]
  simp [intMax]

theorem scaled_rest (unread : amount number = none) (unsigned : ¬Negated number) :
    scaled multiplier number = -1 := by
  rw [scaled]
  split
  · rfl
  · next value reads => rw [if_pos (parseInt_rest reads unread unsigned)]

theorem digit_toLower (c : Char) : digit c.toLower = digit c := by
  cases isDigit : digit c with
  | true => rw [Targeting.digit_lower isDigit, isDigit]
  | false =>
      by_cases upper : c.val ≥ 'A'.val ∧ c.val ≤ 'Z'.val
      · have lowered : c.toLower.val = c.val + 32 := congrArg Char.val (dif_pos upper)
        have low : 65 ≤ c.val.toNat := upper.1
        have high : c.val.toNat ≤ 90 := upper.2
        have moved : c.toLower.val.toNat = c.val.toNat + 32 := by
          rw [lowered, UInt32.toNat_add]
          change (c.val.toNat + 32) % 4294967296 = c.val.toNat + 32
          omega
        rw [digit, Bool.and_eq_false_iff]
        right
        apply decide_eq_false
        intro small
        have bound : c.toLower.val.toNat ≤ 57 := small
        omega
      · have same : c.toLower = c := dif_neg upper
        rw [same, isDigit]

theorem numeric_toLower (text : Text) : isNumeric (toLower text) = isNumeric text := by
  cases text with
  | nil => rfl
  | cons c rest =>
      simp only [isNumeric, toLower, List.map_cons, List.all_cons, List.all_map, digit_toLower,
        Function.comp_def]
      rfl

theorem numeric_lower {text : Text} (numeric : isNumeric text) : toLower text = text := by
  simp only [isNumeric, Bool.and_eq_true] at numeric
  rw [toLower, List.map_congr_left fun c member =>
    Targeting.digit_lower (List.all_eq_true.mp numeric.2 c member), List.map_id']

theorem digit_apart {c : Char} (isDigit : digit c) : isSpace c = false := by
  have no : ∀ other, digit other = false → (c == other) = false := fun other blank =>
    beq_false_of_ne (Targeting.digit_apart other isDigit blank)
  simp only [isSpace, no ' ' rfl, no '\t' rfl, no '\n' rfl, no '\x0b' rfl, no '\x0c' rfl,
    no '\r' rfl, Bool.or_self]

theorem numeric_trim {text : Text} (numeric : isNumeric text) : trim text = text := by
  simp only [isNumeric, Bool.and_eq_true] at numeric
  exact strip_clean fun c member => digit_apart (List.all_eq_true.mp numeric.2 c member)

theorem numeric_last {text : Text} (numeric : isNumeric text) :
    ∃ c, text.getLast? = some c ∧ digit c = true := by
  have some := SteamIds.numeric_spoken numeric
  simp only [isNumeric, Bool.and_eq_true] at numeric
  refine ⟨text.getLast some, List.getLast?_eq_some_getLast some, ?_⟩
  exact List.all_eq_true.mp numeric.2 _ (List.getLast_mem some)

theorem unit_digit {c : Char} (isDigit : digit c) : multiplierOf c = none := by
  have apart : ∀ other, digit other = false → c ≠ other := fun other letter =>
    Targeting.digit_apart other isDigit letter
  unfold multiplierOf
  split
  · exact absurd rfl (apart 's' rfl)
  · exact absurd rfl (apart 'm' rfl)
  · exact absurd rfl (apart 'h' rfl)
  · exact absurd rfl (apart 'd' rfl)
  · exact absurd rfl (apart 'w' rfl)
  · rfl

theorem unit_positive {c : Char} (unit : multiplierOf c = some multiplier) : 0 ≤ multiplier := by
  unfold multiplierOf at unit
  split at unit
  · cases unit; decide
  · cases unit; decide
  · cases unit; decide
  · cases unit; decide
  · cases unit; decide
  · cases unit

theorem amount_numeric {count : Int} (reads : amount number = some count) : isNumeric number := by
  unfold amount at reads
  split at reads
  · next fits => exact fits.1
  · cases reads

theorem negated_plain (negated : Negated number) : isNumeric number = false := by
  obtain ⟨zeros, rfl, _⟩ := negated
  rfl

theorem parseDuration_lower (token : Text) :
    parseDuration token = parseLower (toLower (trim token)) := by
  rw [parseDuration]
  split
  · next empty =>
      rw [empty]
      rfl
  · rfl

/-- What a token should bind to. -/
def spelled (token : Text) : Except ArgError Int :=
  match meaning (toLower (trim token)) with
  | some seconds => .ok seconds
  | none => .error ⟨"cmd.badDuration", [("token", token)]⟩

theorem numeric_bound (numeric : isNumeric (trim token)) :
    bindDuration token = spelled token ↔ ¬Padded token := by
  have same := numeric_lower numeric
  have named : ¬(trim token = "perm".toList ∨ trim token = "permanent".toList) := by
    rintro (word | word)
    · rw [word] at numeric
      cases numeric
    · rw [word] at numeric
      cases numeric
  obtain ⟨last, ends, isDigit⟩ := numeric_last numeric
  rw [bindDuration, parseDuration_lower, spelled, meaning, same, if_neg named, if_pos numeric]
  -- A number too large is refused either way; one that is read differs only in its padding.
  cases reads : amount (trim token) with
  | none =>
      have refused : parseLower (trim token) = -1 := by
        have unsigned : ¬Negated (trim token) := fun negated =>
          Bool.noConfusion (numeric.symm.trans (negated_plain negated))
        have nonzero : trim token ≠ "0".toList := by
          intro zero
          rw [zero] at reads
          exact absurd reads (by decide)
        rw [parseLower, if_neg (not_or.mpr ⟨nonzero, named⟩), ends]
        dsimp only
        rw [if_pos isDigit, scaled_rest reads unsigned]
      rw [refused]
      exact iff_of_true rfl fun padded => by
        obtain ⟨_, count, other, _⟩ := padded
        rw [reads] at other
        cases other
  | some count =>
      obtain ⟨_, positive, bound⟩ := parseInt_amount reads
      have read : parseLower (trim token) = count := by
        rw [parseLower]
        split
        · next words =>
            have zero : trim token = "0".toList := words.resolve_right named
            rw [zero] at reads
            exact Option.some.inj reads
        · rw [ends]
          dsimp only
          rw [if_pos isDigit, scaled_amount reads, Int.mul_one, if_pos bound]
      rw [read, if_neg (by omega)]
      simp only [Option.map_some, Except.ok.injEq]
      by_cases bare : isNumeric token
      · rw [if_pos bare]
        exact iff_of_true rfl fun padded => padded.1 (numeric_trim bare)
      · have padded : trim token ≠ token := by
          intro kept
          rw [kept] at numeric
          exact bare numeric
        rw [if_neg bare]
        constructor
        · rintro meets ⟨_, other, also, nonzero⟩
          rw [reads] at also
          cases also
          omega
        · intro unpadded
          by_contra differ
          exact unpadded ⟨padded, count, reads, by omega⟩

theorem word_bound {word : Text} (same : toLower (trim token) = word) (zero : parseLower word = 0)
    (permanent : meaning word = some 0) : bindDuration token = spelled token := by
  rw [bindDuration, parseDuration_lower, spelled, same, zero, permanent, Int.zero_mul, ite_self]
  rfl

/-- What is neither a word nor a bare number: a number and its unit, or refused. -/
theorem suffixed_bound (named : ¬(lower = "perm".toList ∨ lower = "permanent".toList))
    (letters : isNumeric lower = false) (same : toLower (trim token) = lower) :
    bindDuration token = spelled token ↔ ¬NegatedZero lower := by
  have bare : isNumeric token = false := by
    rw [← Bool.not_eq_true]
    intro numeric
    rw [← same, numeric_toLower, numeric_trim numeric, numeric] at letters
    cases letters
  have nonzero : lower ≠ "0".toList := by
    rintro rfl
    cases letters
  rw [bindDuration, parseDuration_lower, spelled, same, meaning, if_neg named, parseLower,
    if_neg (not_or.mpr ⟨nonzero, named⟩), bare, letters]
  simp only [Bool.false_eq_true, if_false]
  unfold NegatedZero
  -- By the last character: none, a digit, or another one that is a unit or not.
  cases ends : lower.getLast? with
  | none =>
      rw [List.getLast?_eq_none_iff] at ends
      subst ends
      exact iff_of_true rfl (by rintro (⟨_, ⟨⟩, _⟩ | ⟨⟨⟩, _⟩))
  | some suffix =>
      simp only [Option.bind_some]
      cases isDigit : digit suffix with
      | true =>
          rw [unit_digit isDigit]
          simp only [if_true, Option.isSome_none, Bool.false_eq_true, false_and, or_false]
          by_cases negated : Negated lower
          · rw [scaled_negated negated]
            exact iff_of_false nofun fun plain => plain negated
          · have unread : amount lower = none := by
              rw [amount, letters]
              exact if_neg fun fits => Bool.false_ne_true fits.1
            rw [scaled_rest unread negated]
            exact iff_of_true rfl negated
      | false =>
          have signed : ¬Negated lower := by
            rintro ⟨zeros, rfl, numeric, _⟩
            obtain ⟨last, lasts, lastDigit⟩ := numeric_last numeric
            rw [List.getLast?_cons, lasts] at ends
            cases ends
            exact Bool.noConfusion (isDigit.symm.trans lastDigit)
          simp only [Bool.false_eq_true, if_false, signed, false_or]
          cases unit : multiplierOf suffix with
          | none => exact iff_of_true rfl nofun
          | some multiplier =>
              simp only [Option.isSome_some, true_and]
              by_cases negated : Negated lower.dropLast
              · have unread : amount lower.dropLast = none := by
                  rw [amount, negated_plain negated]
                  exact if_neg fun fits => Bool.false_ne_true fits.1
                rw [scaled_negated negated, unread]
                exact iff_of_false nofun fun plain => plain negated
              · apply iff_of_true _ negated
                cases reads : amount lower.dropLast with
                | none =>
                    rw [scaled_rest reads negated]
                    rfl
                | some count =>
                    obtain ⟨_, positive, _⟩ := parseInt_amount reads
                    rw [scaled_amount reads]
                    dsimp only
                    by_cases fits : count * multiplier ≤ intMax
                    · have total : 0 ≤ count * multiplier :=
                        Int.mul_nonneg positive (unit_positive unit)
                      rw [if_pos fits, if_neg (by omega), if_pos fits]
                    · rw [if_neg fits, if_neg fits]
                      rfl

/-- A token binds as the grammar says unless it is a bare number with blanks around it or a minus
sign before zeros. -/
theorem duration_bound_iff (token : Text) : bindDuration token = spelled token ↔
    ¬Padded token ∧ ¬NegatedZero (toLower (trim token)) := by
  by_cases numeric : isNumeric (trim token)
  · rw [numeric_bound numeric, numeric_lower numeric]
    have positive : ¬NegatedZero (trim token) := by
      obtain ⟨last, ends, isDigit⟩ := numeric_last numeric
      rintro (negated | unit)
      · exact Bool.noConfusion (numeric.symm.trans (negated_plain negated))
      · rw [ends, Option.bind_some, unit_digit isDigit] at unit
        cases unit.1
    exact (and_iff_left positive).symm
  · have unpadded : ¬Padded token := fun padded => by
      obtain ⟨_, count, reads, _⟩ := padded
      exact numeric (amount_numeric reads)
    rw [and_iff_right unpadded]
    by_cases named : toLower (trim token) = "perm".toList ∨
        toLower (trim token) = "permanent".toList
    · rcases named with word | word
      · exact iff_of_true (word_bound word (by decide) (by decide)) (by
          rw [word]
          rintro (⟨_, ⟨⟩, _⟩ | ⟨_, _, ⟨⟩, _⟩))
      · exact iff_of_true (word_bound word (by decide) (by decide)) (by
          rw [word]
          rintro (⟨_, ⟨⟩, _⟩ | ⟨_, _, ⟨⟩, _⟩))
    · apply suffixed_bound named _ rfl
      rw [numeric_toLower]
      exact Bool.not_eq_true _ ▸ numeric

/-- Five minutes are bound as five seconds. -/
theorem padded_misread : ¬∀ token, bindDuration token = spelled token := by
  intro bound
  have seconds : bindDuration " 5".toList = .ok 5 := by rfl
  have minutes : spelled " 5".toList = .ok 300 := by rfl
  have both := (bound " 5".toList).symm.trans seconds
  rw [minutes] at both
  cases both

example : bindDuration "-0d".toList = .ok 0 ∧
    spelled "-0d".toList = .error ⟨"cmd.badDuration", [("token", "-0d".toList)]⟩ :=
  ⟨rfl, rfl⟩

end VoltMod.Durations
