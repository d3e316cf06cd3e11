import VoltMod.MigrationText
import Mathlib.Algebra.Group.Int.Defs
import Mathlib.Algebra.Group.Nat.Defs
import Mathlib.Data.List.Induction

/-! Core/Text/Strings.cpp and Core/Slots/SteamId.cpp: the numbers a text can spell and the three
forms of a Steam id. A text is the list of its bytes. -/
namespace VoltMod.SteamIds
open MigrationText (Text digit decimal)

def isNumeric (text : Text) : Bool := text ≠ [] && text.all digit

/-- A whole text of digits, an overflow refused. -/
def parseUInt32 (text : Text) : Option Nat :=
  if isNumeric text ∧ decimal text < 2 ^ 32 then some (decimal text) else none

def parseInt64 (text : Text) : Option Int :=
  let negative := text.head? = some '-'
  let digits := if negative then text.tail else text
  let value : Int := if negative then -decimal digits else decimal digits
  if isNumeric digits ∧ -2 ^ 63 ≤ value ∧ value < 2 ^ 63 then some value else none

def steamId64Base : Int := 76561197960265728

/-- Account ids are 32 bit. -/
def isValid (steamId64 : Int) : Bool :=
  steamId64Base ≤ steamId64 ∧ steamId64 < steamId64Base + 0x100000000

def fromSteamId3 (steamId3 : Text) : Option Int :=
  let opening := "[U:1:".toList
  if opening.isPrefixOf steamId3 ∧ opening.length + 1 < steamId3.length ∧
      steamId3.getLast? = some ']' then
    (parseUInt32 (steamId3.drop opening.length).dropLast).map (steamId64Base + ·)
  else none

def fromSteamId (steamId : Text) : Option Int :=
  let opening := "STEAM_".toList
  if opening.isPrefixOf steamId then
    match steamId.drop opening.length with
    | «universe» :: ':' :: auth :: ':' :: number =>
        if '0' ≤ «universe» ∧ «universe» ≤ '5' ∧ '0' ≤ auth ∧ auth ≤ '1' then
          -- The account id wraps as a 32 bit number does.
          (parseUInt32 number).map fun account =>
            steamId64Base + ((account * 2 + (auth.toNat - '0'.toNat)) % 2 ^ 32 : Nat)
        else none
    | _ => none
  else none

theorem digit_value {c : Char} (isDigit : digit c) : c.toNat - '0'.toNat ≤ 9 := by
  simp only [digit, Bool.and_eq_true, decide_eq_true_eq] at isDigit
  have high : c.toNat ≤ '9'.toNat := isDigit.2
  exact Nat.sub_le_of_le_add high

theorem decimal_append (text : Text) (c : Char) :
    decimal (text ++ [c]) = 10 * decimal text + (c.toNat - '0'.toNat) := by
  rw [decimal, List.foldl_append]
  rfl

/-- A number has at least as many digits as it needs. -/
theorem decimal_lt {text : Text} (digits : text.all digit) : decimal text < 10 ^ text.length := by
  induction text using List.reverseRecOn with
  | nil => decide
  | append_singleton text c ih =>
      rw [List.all_append, Bool.and_eq_true] at digits
      have front := ih digits.1
      have last := digit_value (List.all_eq_true.mp digits.2 c List.mem_cons_self)
      rw [decimal_append, List.length_append, List.length_singleton, Nat.pow_succ]
      omega

/-- A text of digits begins with one. -/
theorem numeric_cons {text : Text} (numeric : isNumeric text) :
    ∃ c rest, text = c :: rest ∧ digit c := by
  cases text with
  | nil => cases numeric
  | cons c rest =>
      simp only [isNumeric, List.all_cons, Bool.and_eq_true] at numeric
      exact ⟨c, rest, rfl, numeric.2.1⟩

theorem numeric_spoken {text : Text} (numeric : isNumeric text) : text ≠ [] := by
  rintro rfl
  cases numeric

theorem numeric_parse {text : Text} (numeric : isNumeric text) {value : Int}
    (parsed : parseInt64 text = some value) : value = decimal text := by
  obtain ⟨c, rest, rfl, isDigit⟩ := numeric_cons numeric
  have unsigned : ¬(c :: rest).head? = some '-' := by
    rintro ⟨⟩
    revert isDigit
    decide
  simp only [parseInt64, if_neg unsigned] at parsed
  split at parsed
  · exact (Option.some.inj parsed).symm
  · cases parsed

/-- A Steam id written in digits is long enough to be read as one. -/
theorem valid_length {text : Text} (numeric : isNumeric text) {value : Int}
    (parsed : parseInt64 text = some value) (valid : isValid value) : 15 ≤ text.length := by
  have digits : text.all digit := by
    rw [isNumeric, Bool.and_eq_true] at numeric
    exact numeric.2
  have bound := decimal_lt digits
  rw [numeric_parse numeric parsed, isValid, decide_eq_true_eq, steamId64Base] at valid
  by_contra short
  have small : 10 ^ text.length ≤ 10 ^ 14 := Nat.pow_le_pow_right (by omega) (by omega)
  omega

end VoltMod.SteamIds
