import VoltMod.Decimals
import VoltMod.SteamIds

/-! Core/Slots/SteamId.cpp both ways: what an accepted text spells, and what a formatted id reads
back as. -/
namespace VoltMod.SteamIdSpellings
open MigrationText (Text digit decimal)
open SteamIds
open Decimals

/-- What the cast to a 32 bit unsigned number leaves. -/
def getAccountId (steamId64 : Int) : Nat := ((steamId64 - steamId64Base) % 2 ^ 32).toNat

def toSteamId3 (steamId64 : Int) : Text :=
  "[U:1:".toList ++ spelled (getAccountId steamId64) ++ [']']

def toSteamId (steamId64 : Int) : Text :=
  let accountId := getAccountId steamId64
  "STEAM_0:".toList ++ spelled (accountId % 2) ++ ':' :: spelled (accountId / 2)

/-- The account id a text spells in one of the two forms, however large. -/
inductive Spells : Text → Nat → Prop where
  | steamId3 (number : Text) (numeric : isNumeric number) :
      Spells ("[U:1:".toList ++ number ++ [']']) (decimal number)
  | steamId («universe» auth : Char) (number : Text)
      (known : '0' ≤ «universe» ∧ «universe» ≤ '5' ∧ '0' ≤ auth ∧ auth ≤ '1')
      (numeric : isNumeric number) :
      Spells ("STEAM_".toList ++ «universe» :: ':' :: auth :: ':' :: number)
        (decimal number * 2 + (auth.toNat - '0'.toNat))

def Parses (text : Text) (steamId64 : Int) : Prop :=
  fromSteamId text = some steamId64 ∨ fromSteamId3 text = some steamId64

/-- An account number that 32 bits hold and whose double they do not. -/
def Overflows (text : Text) : Prop :=
  ∃ («universe» auth : Char) (number : Text),
    text = "STEAM_".toList ++ «universe» :: ':' :: auth :: ':' :: number ∧
      2 ^ 31 ≤ decimal number ∧ decimal number < 2 ^ 32

variable {text other : Text} {steamId64 : Int} {account : Nat}

theorem parseUInt32_iff {number : Text} {value : Nat} : parseUInt32 number = some value ↔
    isNumeric number ∧ decimal number < 2 ^ 32 ∧ value = decimal number := by
  rw [parseUInt32]
  split
  · next fits =>
      rw [Option.some.injEq]
      exact ⟨fun same => ⟨fits.1, fits.2, same.symm⟩, fun reads => reads.2.2.symm⟩
  · next unread => exact iff_of_false nofun fun reads => unread ⟨reads.1, reads.2.1⟩

theorem fromSteamId3_iff : fromSteamId3 text = some steamId64 ↔
    ∃ number, text = "[U:1:".toList ++ number ++ [']'] ∧ isNumeric number ∧
      decimal number < 2 ^ 32 ∧ steamId64 = steamId64Base + decimal number := by
  unfold fromSteamId3
  constructor
  · intro read
    dsimp only at read
    split at read
    · next shaped =>
        obtain ⟨opens, long, closes⟩ := shaped
        obtain ⟨tail, rfl⟩ := List.isPrefixOf_iff_prefix.mp opens
        rcases tail.eq_nil_or_concat with rfl | ⟨number, last, rfl⟩
        · exact absurd long (by decide)
        · rw [List.concat_eq_append] at read closes ⊢
          rw [← List.append_assoc, List.getLast?_concat] at closes
          cases closes
          rw [List.drop_left, List.dropLast_concat] at read
          obtain ⟨value, widened, rfl⟩ := Option.map_eq_some_iff.mp read
          obtain ⟨account, reads, same⟩ := Option.bind_eq_some_iff.mp widened
          obtain ⟨numeric, fits, rfl⟩ := parseUInt32_iff.mp reads
          cases same
          exact ⟨number, (List.append_assoc _ _ _).symm, numeric, fits, rfl⟩
    · cases read
  · rintro ⟨number, rfl, numeric, fits, rfl⟩
    have spoken := numeric_spoken numeric
    have long : 0 < number.length := List.length_pos_iff.mpr spoken
    have shaped : "[U:1:".toList.isPrefixOf ("[U:1:".toList ++ number ++ [']']) ∧
        "[U:1:".toList.length + 1 < ("[U:1:".toList ++ number ++ [']']).length ∧
        ("[U:1:".toList ++ number ++ [']']).getLast? = some ']' := by
      refine ⟨?_, ?_, List.getLast?_concat⟩
      · rw [List.isPrefixOf_iff_prefix, List.append_assoc]
        exact List.prefix_append _ _
      · rw [List.length_append, List.length_append, List.length_singleton]
        omega
    dsimp only
    rw [if_pos shaped, List.append_assoc, List.drop_left, List.dropLast_concat,
      parseUInt32_iff.mpr ⟨numeric, fits, rfl⟩]
    rfl

theorem fromSteamId_iff : fromSteamId text = some steamId64 ↔
    ∃ («universe» auth : Char) (number : Text),
      text = "STEAM_".toList ++ «universe» :: ':' :: auth :: ':' :: number ∧
        ('0' ≤ «universe» ∧ «universe» ≤ '5' ∧ '0' ≤ auth ∧ auth ≤ '1') ∧
        isNumeric number ∧ decimal number < 2 ^ 32 ∧
        steamId64 = steamId64Base +
          ((decimal number * 2 + (auth.toNat - '0'.toNat)) % 2 ^ 32 : Nat) := by
  unfold fromSteamId
  constructor
  · intro read
    dsimp only at read
    split at read
    · next opens =>
        obtain ⟨tail, rfl⟩ := List.isPrefixOf_iff_prefix.mp opens
        rw [List.drop_left] at read
        split at read
        · next «universe» auth number =>
            split at read
            · next known =>
                obtain ⟨value, reads, rfl⟩ := Option.map_eq_some_iff.mp read
                obtain ⟨numeric, fits, rfl⟩ := parseUInt32_iff.mp reads
                exact ⟨_, _, _, rfl, known, numeric, fits, rfl⟩
            · cases read
        · cases read
    · cases read
  · rintro ⟨«universe», auth, number, rfl, known, numeric, fits, rfl⟩
    rw [if_pos (List.isPrefixOf_iff_prefix.mpr (List.prefix_append _ _)), List.drop_left]
    refine (if_pos known).trans ?_
    rw [parseUInt32_iff.mpr ⟨numeric, fits, rfl⟩]
    rfl

theorem auth_value {auth : Char} (known : '0' ≤ auth ∧ auth ≤ '1') :
    auth.toNat - '0'.toNat ≤ 1 := by
  have high : auth.toNat ≤ 49 := known.2
  change auth.toNat - 48 ≤ 1
  omega

theorem spells_once {account again : Nat} (one : Spells text account) (two : Spells text again) :
    account = again := by
  cases one with
  | steamId3 number numeric =>
      generalize same : "[U:1:".toList ++ number ++ [']'] = text at two
      cases two with
      | steamId3 =>
          rw [List.append_assoc, List.append_assoc] at same
          rw [List.append_cancel_right (List.append_cancel_left same)]
      | steamId => cases same
  | steamId «universe» auth number known numeric =>
      generalize same : "STEAM_".toList ++ «universe» :: ':' :: auth :: ':' :: number = text at two
      cases two with
      | steamId3 => cases same
      | steamId =>
          have tail := List.append_cancel_left same
          cases tail
          rfl

/-- What an accepted text spells, and where the id wraps. -/
theorem parses_spells (parses : Parses text steamId64) : ∃ account, Spells text account ∧
    (Overflows text ↔ 2 ^ 32 ≤ account) ∧ account < 2 ^ 33 ∧
      steamId64 = steamId64Base + (account % 2 ^ 32 : Nat) := by
  rcases parses with two | three
  · obtain ⟨«universe», auth, number, rfl, known, numeric, fits, rfl⟩ := fromSteamId_iff.mp two
    have small := auth_value known.2.2
    refine ⟨_, .steamId «universe» auth number known numeric, ?_, by omega, rfl⟩
    constructor
    · rintro ⟨_, _, other, same, low, _⟩
      cases List.append_cancel_left same
      omega
    · intro large
      exact ⟨«universe», auth, number, rfl, by omega, fits⟩
  · obtain ⟨number, rfl, numeric, fits, rfl⟩ := fromSteamId3_iff.mp three
    refine ⟨_, .steamId3 number numeric, ?_, by omega, by rw [Nat.mod_eq_of_lt fits]⟩
    apply iff_of_false
    · rintro ⟨_, _, _, ⟨⟩, _⟩
    · omega

theorem account_valid (valid : isValid steamId64 = true) :
    getAccountId steamId64 < 2 ^ 32 ∧ steamId64 = steamId64Base + (getAccountId steamId64 : Nat) := by
  rw [isValid, decide_eq_true_eq] at valid
  rw [getAccountId]
  omega

theorem numeric_spelled (n : Nat) : isNumeric (spelled n) = true := by
  rw [isNumeric, Bool.and_eq_true]
  exact ⟨decide_eq_true (spelled_some n), spelled_digits n⟩

theorem steamId3_back (valid : isValid steamId64 = true) :
    fromSteamId3 (toSteamId3 steamId64) = some steamId64 := by
  obtain ⟨small, same⟩ := account_valid valid
  apply fromSteamId3_iff.mpr
  refine ⟨spelled (getAccountId steamId64), rfl, numeric_spelled _, ?_, ?_⟩
  · rw [decimal_spelled]
    exact small
  · rw [decimal_spelled]
    exact same

theorem steamId_back (valid : isValid steamId64 = true) :
    fromSteamId (toSteamId steamId64) = some steamId64 := by
  obtain ⟨small, same⟩ := account_valid valid
  have odd : ∃ auth : Char, spelled (getAccountId steamId64 % 2) = [auth] ∧
      ('0' ≤ auth ∧ auth ≤ '1') ∧ auth.toNat - '0'.toNat = getAccountId steamId64 % 2 := by
    rcases Nat.mod_two_eq_zero_or_one (getAccountId steamId64) with zero | one
    · rw [zero]
      exact ⟨'0', rfl, by decide, rfl⟩
    · rw [one]
      exact ⟨'1', rfl, by decide, rfl⟩
  obtain ⟨auth, written, known, bit⟩ := odd
  apply fromSteamId_iff.mpr
  refine ⟨'0', auth, spelled (getAccountId steamId64 / 2), ?_, ⟨by decide, by decide, known⟩,
    numeric_spelled _, ?_, ?_⟩
  · unfold toSteamId
    dsimp only
    rw [written]
    generalize spelled (getAccountId steamId64 / 2) = number
    rfl
  · rw [decimal_spelled]
    omega
  · rw [decimal_spelled, bit]
    omega

/-- A text is accepted only when it spells an account id below 2^32, unless its account number
overflows; two accepted texts of one id spell one account unless one of them does; and what is
formatted reads back. -/
theorem steamIds_spelled (text other : Text) (steamId64 : Int) :
    ((∀ parsed, Parses text parsed → ∃ account, Spells text account ∧ account < 2 ^ 32) ↔
      ¬((∃ parsed, Parses text parsed) ∧ Overflows text)) ∧
    (Parses text steamId64 → Parses other steamId64 →
      ((∃ account, Spells text account ∧ Spells other account) ↔
        (Overflows text ↔ Overflows other))) ∧
    (isValid steamId64 = true →
      fromSteamId3 (toSteamId3 steamId64) = some steamId64 ∧
        fromSteamId (toSteamId steamId64) = some steamId64) := by
  constructor
  · constructor
    · rintro accepted ⟨⟨steamId64, parses⟩, overflows⟩
      obtain ⟨account, spells, small⟩ := accepted steamId64 parses
      obtain ⟨again, also, wraps, _⟩ := parses_spells parses
      have large := wraps.mp overflows
      rw [spells_once spells also] at small
      omega
    · intro fits steamId64 parses
      obtain ⟨account, spells, wraps, _⟩ := parses_spells parses
      have small : ¬2 ^ 32 ≤ account := fun large => fits ⟨⟨steamId64, parses⟩, wraps.mpr large⟩
      exact ⟨account, spells, by omega⟩
  · constructor
    · intro one two
      obtain ⟨account, spells, wraps, bound, same⟩ := parses_spells one
      obtain ⟨again, also, wrapsToo, boundToo, sameToo⟩ := parses_spells two
      rw [wraps, wrapsToo]
      constructor
      · rintro ⟨shared, first, second⟩
        rw [spells_once spells first, spells_once also second]
      · intro both
        have equal : account = again := by omega
        exact ⟨account, spells, equal ▸ also⟩
    · intro valid
      exact ⟨steamId3_back valid, steamId_back valid⟩

/-- One past the largest account number is taken for the first account. -/
theorem account_wraps :
    Parses "STEAM_0:0:2147483648".toList steamId64Base ∧
      Parses "STEAM_0:0:0".toList steamId64Base ∧
        (¬∃ account, Spells "STEAM_0:0:2147483648".toList account ∧ account < 2 ^ 32) ∧
          ¬∃ account, Spells "STEAM_0:0:2147483648".toList account ∧
            Spells "STEAM_0:0:0".toList account := by
  have large : Spells "STEAM_0:0:2147483648".toList 4294967296 :=
    .steamId '0' '0' "2147483648".toList (by decide) (by decide)
  have first : Spells "STEAM_0:0:0".toList 0 :=
    .steamId '0' '0' "0".toList (by decide) (by decide)
  refine ⟨Or.inl (by decide), Or.inl (by decide), ?_, ?_⟩
  · rintro ⟨account, spells, small⟩
    rw [← spells_once large spells] at small
    exact absurd small (by decide)
  · rintro ⟨account, spells, also⟩
    cases (spells_once large spells).trans (spells_once also first)

end VoltMod.SteamIdSpellings
