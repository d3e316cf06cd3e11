import VoltMod.MigrationText

/-! How `std::to_string` spells a number, and that its digits read back as that number. -/
namespace VoltMod.Decimals
open MigrationText (Text digit decimal)

def spelled (n : Nat) : Text := Nat.toDigits 10 n

theorem decimal_spelled (n : Nat) : decimal (spelled n) = n :=
  Nat.ofDigitChars_ten_toDigits

theorem spelled_digits (n : Nat) : (spelled n).all digit := by
  rw [List.all_eq_true]
  intro c member
  have isDigit := Nat.isDigit_of_mem_toDigits (by decide) (by decide) member
  simp only [Char.isDigit, Bool.and_eq_true, decide_eq_true_eq] at isDigit
  simp only [digit, Bool.and_eq_true, decide_eq_true_eq]
  exact isDigit

theorem spelled_some (n : Nat) : spelled n ≠ [] := Nat.toDigits_ne_nil

theorem spelled_apart (n : Nat) {c : Char} (other : digit c = false) : c ∉ spelled n := by
  intro member
  have isDigit := List.all_eq_true.mp (spelled_digits n) c member
  rw [other] at isDigit
  cases isDigit

theorem spelled_longer {m n : Nat} (below : m ≤ n) : (spelled m).length ≤ (spelled n).length := by
  refine (Nat.length_toDigits_le_iff (by decide) Nat.length_toDigits_pos).mpr ?_
  exact Nat.lt_of_le_of_lt below
    ((Nat.length_toDigits_le_iff (by decide) Nat.length_toDigits_pos).mp (Nat.le_refl _))

theorem spelled_injective {m n : Nat} (same : spelled m = spelled n) : m = n := by
  rw [← decimal_spelled m, same, decimal_spelled]

def signed : Int → Text
  | .ofNat n => spelled n
  | .negSucc n => '-' :: spelled (n + 1)

theorem signed_apart (value : Int) {c : Char} (other : digit c = false) (plain : c ≠ '-') :
    c ∉ signed value := by
  cases value with
  | ofNat n => exact spelled_apart n other
  | negSucc n =>
      intro member
      rcases List.mem_cons.mp member with same | later
      · exact plain same
      · exact spelled_apart (n + 1) other later

theorem signed_injective {first second : Int} (same : signed first = signed second) :
    first = second := by
  have apart (m n : Nat) : spelled m ≠ '-' :: spelled (n + 1) := fun alike =>
    spelled_apart m (c := '-') (by decide) (alike ▸ List.mem_cons_self)
  cases first with
  | ofNat m =>
      cases second with
      | ofNat n => exact congrArg Int.ofNat (spelled_injective same)
      | negSucc n => exact absurd same (apart m n)
  | negSucc m =>
      cases second with
      | ofNat n => exact absurd same.symm (apart n m)
      | negSucc n =>
          have alike := spelled_injective (List.cons.inj same).2
          exact congrArg Int.negSucc (Nat.succ.inj alike)

end VoltMod.Decimals
