import Mathlib.Data.List.Basic

/-! A text's bytes in UTF-8, each byte the character of its number, as a program reads them
that looks for ASCII marks and leaves every other byte alone. -/
namespace VoltMod.Utf8

def ascii (c : Char) : Prop := c.toNat < 128

instance (c : Char) : Decidable (ascii c) := inferInstanceAs (Decidable (c.toNat < 128))

theorem ascii_text {text : List Char} (every : (text.all fun c => decide (ascii c)) = true) :
    ∀ c ∈ text, ascii c :=
  fun c member => of_decide_eq_true (List.all_eq_true.mp every c member)

def bytesOf (c : Char) : List Char := (String.utf8EncodeChar c).map Char.ofUInt8

def encode (text : List Char) : List Char := text.flatMap bytesOf

@[simp] theorem encode_nil : encode [] = [] := rfl

@[simp] theorem encode_cons (c : Char) (text : List Char) :
    encode (c :: text) = bytesOf c ++ encode text := rfl

@[simp] theorem encode_append (first second : List Char) :
    encode (first ++ second) = encode first ++ encode second := List.flatMap_append

theorem ofUInt8_toNat (byte : UInt8) : (Char.ofUInt8 byte).toNat = byte.toNat := rfl

theorem bytesOf_ascii {c : Char} (plain : ascii c) : bytesOf c = [c] := by
  have small : c.val.toNat ≤ 0x7f := Nat.le_of_lt_succ plain
  unfold bytesOf String.utf8EncodeChar
  rw [if_pos small]
  refine congrArg (fun d => [d]) (Char.toNat_inj.mp ?_)
  rw [ofUInt8_toNat, UInt8.toNat_ofNat']
  exact Nat.mod_eq_of_lt (by omega)

theorem bytesOf_ne_nil (c : Char) : bytesOf c ≠ [] := by
  intro empty
  exact String.utf8EncodeChar_ne_nil (List.map_eq_nil_iff.mp empty)

/-- Where a character is no ASCII character, none of its bytes is one. -/
theorem bytesOf_high {c d : Char} (wide : ¬ascii c) (member : d ∈ bytesOf c) : ¬ascii d := by
  have large : ¬c.val.toNat ≤ 0x7f := fun small => wide (Nat.lt_succ_of_le small)
  obtain ⟨byte, inside, rfl⟩ := List.mem_map.mp member
  have high : 128 ≤ byte.toNat := by
    unfold String.utf8EncodeChar at inside
    rw [if_neg large] at inside
    split at inside
    · rcases List.mem_pair.mp inside with rfl | rfl
      · rw [UInt8.toNat_ofNat']
        omega
      · rw [UInt8.toNat_ofNat']
        omega
    · split at inside
      · simp only [List.mem_cons, List.not_mem_nil, or_false] at inside
        rcases inside with rfl | rfl | rfl
        all_goals
          rw [UInt8.toNat_ofNat']
          omega
      · simp only [List.mem_cons, List.not_mem_nil, or_false] at inside
        rcases inside with rfl | rfl | rfl | rfl
        all_goals
          rw [UInt8.toNat_ofNat']
          omega
  intro plain
  exact absurd plain (Nat.not_lt.mpr high)

theorem encode_ascii {text : List Char} (plain : ∀ c ∈ text, ascii c) : encode text = text := by
  induction text with
  | nil => rfl
  | cons c text ih =>
      rw [encode_cons, bytesOf_ascii (plain c List.mem_cons_self),
        ih fun d member => plain d (List.mem_cons_of_mem c member)]
      rfl

theorem mem_encode {text : List Char} {mark : Char} (plain : ascii mark) :
    mark ∈ encode text ↔ mark ∈ text := by
  constructor
  · intro member
    obtain ⟨c, inside, byte⟩ := List.mem_flatMap.mp member
    by_cases narrow : ascii c
    · rw [bytesOf_ascii narrow] at byte
      rwa [List.mem_singleton.mp byte]
    · exact absurd plain (bytesOf_high narrow byte)
  · intro member
    refine List.mem_flatMap.mpr ⟨mark, member, ?_⟩
    rw [bytesOf_ascii plain]
    exact List.mem_singleton_self mark

theorem encode_eq_nil {text : List Char} (empty : encode text = []) : text = [] := by
  cases text with
  | nil => rfl
  | cons c text =>
      exact absurd (List.append_eq_nil_iff.mp empty).1 (bytesOf_ne_nil c)

/-- A mark among the bytes is a mark of the text. -/
theorem encode_split {text first after : List Char} {mark : Char} (plain : ascii mark)
    (split : encode text = first ++ mark :: after) :
    ∃ before behind, text = before ++ mark :: behind ∧ encode before = first ∧
      encode behind = after := by
  induction text generalizing first with
  | nil => simp at split
  | cons c text ih =>
      rw [encode_cons] at split
      rcases List.append_eq_append_iff.mp split with ⟨more, rfl, later⟩ | ⟨more, own, later⟩
      · obtain ⟨before, behind, rfl, taken, left⟩ := ih later
        refine ⟨c :: before, behind, rfl, ?_, left⟩
        rw [encode_cons, taken]
      · cases more with
        | nil =>
            -- The mark follows on the character's last byte.
            have next : encode text = [] ++ mark :: after := later.symm
            obtain ⟨before, behind, rfl, taken, left⟩ := ih next
            obtain rfl := encode_eq_nil taken
            refine ⟨[c], behind, rfl, ?_, left⟩
            simpa using own
        | cons byte more =>
            obtain ⟨rfl, rest⟩ := List.cons.inj later
            have member : mark ∈ bytesOf c := own ▸ List.mem_append_right first List.mem_cons_self
            have narrow : ascii c := by
              by_contra wide
              exact bytesOf_high wide member plain
            rw [bytesOf_ascii narrow] at own
            obtain ⟨rfl, same⟩ := List.singleton_eq_append_iff.mp own |>.resolve_right (by simp)
            obtain ⟨rfl, rfl⟩ := List.cons.inj same
            exact ⟨[], text, rfl, rfl, rest.symm⟩

/-- Bytes that are all ASCII are the text itself. -/
theorem encode_plain {text bytes : List Char} (plain : ∀ c ∈ bytes, ascii c)
    (same : encode text = bytes) : text = bytes := by
  have narrow : ∀ c ∈ text, ascii c := by
    intro c member
    by_contra wide
    obtain ⟨byte, inside⟩ := List.exists_mem_of_ne_nil _ (bytesOf_ne_nil c)
    refine bytesOf_high wide inside (plain byte ?_)
    rw [← same]
    exact List.mem_flatMap.mpr ⟨c, member, inside⟩
  rw [← same, encode_ascii narrow]

/-- ASCII bytes in front are the text's own front. -/
theorem encode_front {text front after : List Char} (plain : ∀ c ∈ front, ascii c)
    (split : encode text = front ++ after) :
    ∃ behind, text = front ++ behind ∧ encode behind = after := by
  induction front generalizing text with
  | nil => exact ⟨text, rfl, split⟩
  | cons mark front ih =>
      have next : encode text = [] ++ mark :: (front ++ after) := split
      obtain ⟨before, behind, rfl, taken, left⟩ :=
        encode_split (plain mark List.mem_cons_self) next
      obtain rfl := encode_eq_nil taken
      have others : ∀ c ∈ front, ascii c :=
        fun c member => plain c (List.mem_cons_of_mem mark member)
      obtain ⟨rest, rfl, last⟩ := ih others left
      exact ⟨rest, rfl, last⟩

end VoltMod.Utf8
