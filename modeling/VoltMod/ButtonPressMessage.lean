import Mathlib.Data.Nat.Bitwise
import VoltMod.Result
import VoltMod.WireFormat

/-!
Host/Input/ButtonPressMessage.cpp: the button id read out of the bytes of a user message. The
string is the list of its bytes, and reading a byte behind it is a fault of its own.
-/

namespace VoltMod.ButtonPress

open WireFormat

inductive Failure where
  | outOfRange
  /-- The loop of `Parse` was given too few rounds. -/
  | unfinished
  | refused (error : Error)
  deriving DecidableEq, Repr

abbrev Reading (Value : Type) := Except Failure Value

def refuse {Value : Type} (detail : String) : Reading Value :=
  .error (.refused (Error.invalid detail))

def wireVarint : UInt32 := 0
def wireFixed64 : UInt32 := 1
def wireLengthDelimited : UInt32 := 2
def wireFixed32 : UInt32 := 5

def maxVarintBytes : Nat := 10

/-- The loop of `ReadVarint`, with the rounds that are left, and where it leaves `at`. -/
def readVarintFrom (bytes : List UInt8) : Nat → Nat → UInt64 → Nat → Reading (UInt64 × Nat)
  | 0, _, _, _ => refuse "a varint is longer than ten bytes"
  | rounds + 1, byte, value, here =>
      if bytes.length ≤ here then refuse "a varint runs past the end of the payload"
      else
        match bytes[here]? with
        | none => .error .outOfRange
        | some part =>
            let value := value ||| (part &&& 0x7F).toUInt64 <<< (7 * UInt64.ofNat byte)
            if part &&& 0x80 = 0 then .ok (value, here + 1)
            else readVarintFrom bytes rounds (byte + 1) value (here + 1)

def readVarint (bytes : List UInt8) (here : Nat) : Reading (UInt64 × Nat) :=
  readVarintFrom bytes maxVarintBytes 0 0 here

def pastTheEnd : String := "a field runs past the end of the payload"

/-- Where the field ends. -/
def skipField (bytes : List UInt8) (here : Nat) (wireType : UInt32) : Reading Nat :=
  if wireType = wireVarint then do
    let (_, next) ← readVarint bytes here
    return next
  else if wireType = wireFixed64 then
    if bytes.length < here + 8 then refuse pastTheEnd else .ok (here + 8)
  else if wireType = wireFixed32 then
    if bytes.length < here + 4 then refuse pastTheEnd else .ok (here + 4)
  else if wireType = wireLengthDelimited then do
    let (length, next) ← readVarint bytes here
    -- Against the bytes left: the cursor would wrap with a length near 2^64 added first.
    if bytes.length - next < length.toNat then refuse pastTheEnd
    else if bytes.length < next + length.toNat then refuse pastTheEnd
    else return next + length.toNat
  else refuse s!"unknown protobuf wire type {wireType}"

structure ButtonPressMessage where
  buttonId : List UInt8 := []
  deriving DecidableEq, Repr

/-- The loop of `Parse`. A round reads a byte at least, so one round more than there are bytes is
enough. -/
def parseFrom (bytes : List UInt8) : Nat → Nat → ButtonPressMessage → Bool →
    Reading ButtonPressMessage
  | 0, _, _, _ => .error .unfinished
  | rounds + 1, here, out, haveButton =>
      if here < bytes.length then do
        let (key, next) ← readVarint bytes here
        let field := (key >>> 3).toUInt32
        let wireType := (key &&& 0x7).toUInt32
        if field = 2 ∧ wireType = wireLengthDelimited then
          let (length, start) ← readVarint bytes next
          if bytes.length - start < length.toNat then
            refuse "the button id runs past the end of the payload"
          else
            parseFrom bytes rounds (start + length.toNat)
              { buttonId := (bytes.drop start).take length.toNat } true
        else
          let skipped ← skipField bytes next wireType
          parseFrom bytes rounds skipped out haveButton
      else if haveButton then .ok out
      else refuse "the payload carries no button id"

def parse (bytes : List UInt8) : Reading ButtonPressMessage :=
  parseFrom bytes (bytes.length + 1) 0 {} false

/-- `Error::Invalid`, and no fault of the reader. -/
def Refused (failure : Failure) : Prop := ∃ detail, failure = .refused (Error.invalid detail)

/-- The bytes from `here` up to `next`. -/
structure Cut (bytes : List UInt8) (here next : Nat) (part : List UInt8) : Prop where
  ends : next = here + part.length
  parted : bytes.drop here = part ++ bytes.drop next

section Cuts
variable {bytes part first second : List UInt8} {here next : Nat}

theorem cut_append {middle : Nat} (one : Cut bytes here middle first)
    (two : Cut bytes middle next second) : Cut bytes here next (first ++ second) where
  ends := by
    rw [two.ends, one.ends, List.length_append]
    omega
  parted := by rw [one.parted, two.parted, List.append_assoc]

theorem cut_split (cut : Cut bytes here next (first ++ second)) :
    Cut bytes here (here + first.length) first ∧
      Cut bytes (here + first.length) next second := by
  obtain ⟨ends, parted⟩ := cut
  have behind : bytes.drop (here + first.length) = second ++ bytes.drop next := by
    rw [← List.drop_drop, parted, List.append_assoc, List.drop_left]
  rw [List.append_assoc] at parted
  refine ⟨⟨rfl, by rw [parted, behind]⟩, ⟨?_, behind⟩⟩
  rw [ends, List.length_append]
  omega

theorem cut_within (cut : Cut bytes here next part) (inside : here ≤ bytes.length) :
    next ≤ bytes.length := by
  have long := congrArg List.length cut.parted
  rw [List.length_append, List.length_drop, List.length_drop] at long
  have ends := cut.ends
  omega

theorem cut_take {length : Nat} (inside : here + length ≤ bytes.length) :
    Cut bytes here (here + length) ((bytes.drop here).take length) where
  ends := by
    rw [List.length_take, List.length_drop]
    omega
  parted := by rw [← List.drop_drop, List.take_append_drop]

theorem cut_front {rest : List UInt8} (parted : bytes.drop here = part ++ rest) :
    Cut bytes here (here + part.length) part ∧ bytes.drop (here + part.length) = rest := by
  have behind : bytes.drop (here + part.length) = rest := by
    rw [← List.drop_drop, parted, List.drop_left]
  exact ⟨⟨rfl, by rw [behind, parted]⟩, behind⟩

/-- What is cut out is what stands there. -/
theorem cut_stands (cut : Cut bytes here next part) :
    part = (bytes.drop here).take part.length := by
  rw [cut.parted, List.take_left]

end Cuts

section Varints
variable {bytes : List UInt8}

theorem part_number (part : UInt8) : (part &&& 0x7F).toUInt64.toNat = part.toNat % 128 := by
  rw [UInt8.toNat_toUInt64, UInt8.toNat_and]
  exact Nat.and_two_pow_sub_one_eq_mod part.toNat 7

theorem part_ends (part : UInt8) : part &&& 0x80 = 0 ↔ part.toNat < 128 := by
  have bit : (part &&& 0x80).toNat = (part.toNat.testBit 7).toNat * 2 ^ 7 := by
    rw [UInt8.toNat_and]
    exact Nat.and_two_pow part.toNat 7
  have small := part.toNat_lt
  rw [← UInt8.toNat_inj, bit, Nat.testBit_eq_decide_div_mod_eq]
  by_cases high : part.toNat / 2 ^ 7 % 2 = 1
  · simp only [high, decide_true, Bool.toNat_true, UInt8.toNat_zero]
    omega
  · simp only [high, decide_false, Bool.toNat_false, UInt8.toNat_zero]
    omega

/-- What a byte adds stands above what is there, less what does not fit in 64 bits. -/
theorem part_added {value : UInt64} {byte : Nat} (part : UInt8) (early : byte < 10)
    (small : value.toNat < 2 ^ (7 * byte)) :
    (value ||| (part &&& 0x7F).toUInt64 <<< (7 * UInt64.ofNat byte)).toNat =
      value.toNat + 2 ^ (7 * byte) * (part.toNat % 128) % 2 ^ 64 := by
  have shift : (7 * UInt64.ofNat byte).toNat % 64 = 7 * byte := by
    rw [UInt64.toNat_mul, UInt64.toNat_ofNat']
    change 7 * (byte % 2 ^ 64) % 2 ^ 64 % 64 = 7 * byte
    omega
  have width : 2 ^ (7 * byte) * 2 ^ (64 - 7 * byte) = 2 ^ 64 := by
    rw [← Nat.pow_add]
    congr 1
    omega
  rw [UInt64.toNat_or, UInt64.toNat_shiftLeft, shift, part_number, Nat.shiftLeft_eq,
    Nat.mul_comm (part.toNat % 128), ← width, Nat.mul_mod_mul_left, Nat.or_comm,
    ← Nat.two_pow_add_eq_or_of_lt small, Nat.add_comm]

theorem varint_starts {head : List UInt8} {whole : Nat} (spells : Varint head whole) :
    ∃ first rest, head = first :: rest := by
  cases spells with
  | last => exact ⟨_, _, rfl⟩
  | more => exact ⟨_, _, rfl⟩

theorem readVarintFrom_iff {rounds byte here next : Nat} {value result : UInt64}
    (room : byte + rounds = 10) (small : value.toNat < 2 ^ (7 * byte)) :
    readVarintFrom bytes rounds byte value here = .ok (result, next) ↔
      ∃ head whole, Cut bytes here next head ∧ head.length ≤ rounds ∧ Varint head whole ∧
        result.toNat = (value.toNat + 2 ^ (7 * byte) * whole) % 2 ^ 64 := by
  -- On the rounds left: what was read so far fits in seven bits for each byte.
  induction rounds generalizing byte value here with
  | zero =>
      apply iff_of_false nofun
      rintro ⟨head, whole, -, short, spells, -⟩
      obtain ⟨first, rest, rfl⟩ := varint_starts spells
      cases short
  | succ rounds hypothesis =>
      by_cases past : bytes.length ≤ here
      · rw [readVarintFrom, if_pos past]
        apply iff_of_false nofun
        rintro ⟨head, whole, cut, -, spells, -⟩
        obtain ⟨first, rest, rfl⟩ := varint_starts spells
        have parted := cut.parted
        rw [List.drop_eq_nil_of_le past] at parted
        cases parted
      · have inside := Nat.lt_of_not_le past
        have there : bytes[here]? = some bytes[here] := List.getElem?_eq_getElem inside
        have opened : bytes.drop here = bytes[here] :: bytes.drop (here + 1) :=
          List.drop_eq_getElem_cons inside
        have one : Cut bytes here (here + 1) [bytes[here]] := ⟨rfl, opened⟩
        have added := part_added bytes[here] (by omega : byte < 10) small
        have width : (2 : Nat) ^ (7 * (byte + 1)) = 128 * 2 ^ (7 * byte) := by ring
        rw [readVarintFrom, if_neg past]
        simp only [there]
        split
        -- The top bit is clear, so this byte ends the number.
        · next ends =>
            have low := (part_ends _).mp ends
            simp only [Except.ok.injEq, Prod.mk.injEq]
            constructor
            · rintro ⟨rfl, rfl⟩
              refine ⟨[bytes[here]], _, one, by simp, .last low, ?_⟩
              have fits := UInt64.toNat_lt
                (value ||| (bytes[here] &&& 0x7F).toUInt64 <<< (7 * UInt64.ofNat byte))
              rw [added, Nat.mod_eq_of_lt low] at fits ⊢
              omega
            · rintro ⟨head, whole, ⟨rfl, parted⟩, -, spells, result_eq⟩
              rw [opened] at parted
              cases spells with
              | last =>
                  obtain ⟨rfl, -⟩ := List.cons.inj parted
                  refine ⟨?_, rfl⟩
                  rw [← UInt64.toNat_inj, result_eq, ← Nat.mod_eq_of_lt (UInt64.toNat_lt (_ ||| _)),
                    added, Nat.mod_eq_of_lt low, Nat.add_mod_mod]
              | more goesOn =>
                  obtain ⟨rfl, -⟩ := List.cons.inj parted
                  omega
        -- It goes on: this byte's part is added, and the rest is read above it.
        · next goesOn =>
            have high : 128 ≤ bytes[here].toNat := Nat.le_of_not_lt (goesOn ∘ (part_ends _).mpr)
            rw [hypothesis (by omega)]
            · constructor
              · rintro ⟨head, whole, cut, short, spells, result_eq⟩
                refine ⟨bytes[here] :: head, _, cut_append one cut,
                  Nat.succ_le_succ short, .more high spells, ?_⟩
                rw [result_eq, added, width, Nat.mul_add, Nat.mul_assoc, Nat.mul_left_comm]
                omega
              · rintro ⟨head, whole, cut, short, spells, result_eq⟩
                have parted := cut.parted
                rw [opened] at parted
                cases spells with
                | last low =>
                    obtain ⟨rfl, -⟩ := List.cons.inj parted
                    omega
                | @more _ rest whole _ behind =>
                    obtain ⟨rfl, -⟩ := List.cons.inj parted
                    rw [← List.singleton_append] at cut
                    refine ⟨rest, whole, (cut_split cut).2, Nat.le_of_succ_le_succ short,
                      behind, ?_⟩
                    rw [result_eq, added, width, Nat.mul_add, Nat.mul_assoc, Nat.mul_left_comm]
                    omega
            · rw [added, width]
              have least : 2 ^ (7 * byte) * (bytes[here].toNat % 128) % 2 ^ 64 ≤
                  2 ^ (7 * byte) * 127 :=
                (Nat.mod_le _ _).trans (Nat.mul_le_mul_left _ (by omega))
              omega

theorem readVarint_iff {here next : Nat} {value : UInt64} :
    readVarint bytes here = .ok (value, next) ↔
      ∃ head, Cut bytes here next head ∧ Number head value.toNat := by
  rw [readVarint, readVarintFrom_iff rfl (by decide)]
  constructor
  · rintro ⟨head, whole, cut, short, spells, same⟩
    refine ⟨head, cut, short, whole, spells, ?_⟩
    rw [same, UInt64.toNat_zero, Nat.mul_zero, Nat.pow_zero, Nat.zero_add, Nat.one_mul]
  · rintro ⟨head, cut, short, whole, spells, same⟩
    refine ⟨head, whole, cut, short, spells, ?_⟩
    rw [← same, UInt64.toNat_zero, Nat.mul_zero, Nat.pow_zero, Nat.zero_add, Nat.one_mul]

/-- A varint that is not read is refused; nothing behind the string is looked at. -/
theorem readVarintFrom_refused {rounds byte here : Nat} {value : UInt64} {failure : Failure}
    (failed : readVarintFrom bytes rounds byte value here = .error failure) :
    Refused failure := by
  induction rounds generalizing byte here value with
  | zero =>
      cases failed
      exact ⟨_, rfl⟩
  | succ rounds hypothesis =>
      rw [readVarintFrom] at failed
      split at failed
      · cases failed
        exact ⟨_, rfl⟩
      · next inside =>
          rw [List.getElem?_eq_getElem (Nat.lt_of_not_le inside)] at failed
          dsimp only at failed
          split at failed
          · cases failed
          · exact hypothesis failed

end Varints

section Fields
variable {bytes : List UInt8} {here next : Nat}

/-- A length that fits in the bytes left is followed by its payload. -/
theorem delimited_iff {payload : List UInt8} (inside : here ≤ bytes.length) :
    (∃ length start, readVarint bytes here = .ok (length, start) ∧
        ¬bytes.length - start < length.toNat ∧ next = start + length.toNat ∧
          payload = (bytes.drop start).take length.toNat) ↔
      ∃ body, Cut bytes here next body ∧ Spelled body (.delimited payload) := by
  constructor
  · rintro ⟨length, start, ran, fits, rfl, rfl⟩
    obtain ⟨head, cut, number⟩ := readVarint_iff.mp ran
    have within := cut_within cut inside
    have room : start + length.toNat ≤ bytes.length := by omega
    have long : ((bytes.drop start).take length.toNat).length = length.toNat := by
      rw [List.length_take, List.length_drop]
      omega
    exact ⟨_, cut_append cut (cut_take room), .delimited (long.symm ▸ number)⟩
  · rintro ⟨body, cut, spelled⟩
    cases spelled with
    | @delimited head payload long =>
        obtain ⟨first, second⟩ := cut_split cut
        have within := cut_within second (cut_within first inside)
        have width : (UInt64.ofNat payload.length).toNat = payload.length :=
          UInt64.toNat_ofNat'.trans (number_width long)
        have fits := second.ends
        refine ⟨_, _, readVarint_iff.mpr ⟨head, first, width.symm ▸ long⟩, ?_, ?_, ?_⟩
        · rw [width]
          omega
        · rw [width]
          exact fits
        · rw [width]
          exact cut_stands second

theorem skipVarint_iff :
    skipField bytes here wireVarint = .ok next ↔
      ∃ body value, Cut bytes here next body ∧ Number body value := by
  rw [skipField, if_pos rfl, bind_ok_iff]
  constructor
  · rintro ⟨⟨value, _⟩, ran, ⟨⟩⟩
    obtain ⟨head, cut, number⟩ := readVarint_iff.mp ran
    exact ⟨head, _, cut, number⟩
  · rintro ⟨body, value, cut, number⟩
    have width : (UInt64.ofNat value).toNat = value :=
      UInt64.toNat_ofNat'.trans (number_width number)
    exact ⟨(UInt64.ofNat value, next), readVarint_iff.mpr ⟨body, cut, width.symm ▸ number⟩, rfl⟩

theorem skipDelimited_iff (inside : here ≤ bytes.length) :
    skipField bytes here wireLengthDelimited = .ok next ↔
      ∃ body payload, Cut bytes here next body ∧ Spelled body (.delimited payload) := by
  rw [skipField, if_neg (by decide), if_neg (by decide), if_neg (by decide), if_pos rfl,
    bind_ok_iff]
  constructor
  · rintro ⟨⟨length, start⟩, ran, skipped⟩
    dsimp only at skipped
    split at skipped
    · cases skipped
    · next fits =>
        split at skipped
        · cases skipped
        · cases skipped
          obtain ⟨body, read⟩ := (delimited_iff inside).mp ⟨length, start, ran, fits, rfl, rfl⟩
          exact ⟨body, _, read⟩
  · rintro ⟨body, payload, read⟩
    obtain ⟨length, start, ran, fits, rfl, -⟩ := (delimited_iff inside).mpr ⟨body, read⟩
    refine ⟨(length, start), ran, ?_⟩
    have within := cut_within (readVarint_iff.mp ran).choose_spec.1 inside
    dsimp only
    rw [if_neg fits, if_neg (by omega)]
    rfl

/-- Eight or four bytes, whatever they are. -/
theorem skipped_iff (inside : here ≤ bytes.length) (width : Nat) :
    (if bytes.length < here + width then refuse pastTheEnd else .ok (here + width)) =
        (.ok next : Reading Nat) ↔
      ∃ body, Cut bytes here next body ∧ body.length = width := by
  constructor
  · intro ran
    split at ran
    · cases ran
    · next room =>
        cases ran
        refine ⟨_, cut_take (Nat.le_of_not_lt room), ?_⟩
        rw [List.length_take, List.length_drop]
        omega
  · rintro ⟨body, cut, rfl⟩
    have within := cut_within cut inside
    rw [← cut.ends, if_neg (Nat.not_lt.mpr within)]

theorem skipField_iff {wireType : UInt32} (inside : here ≤ bytes.length) :
    skipField bytes here wireType = .ok next ↔
      ∃ body content, Cut bytes here next body ∧ Spelled body content ∧
        content.wireType = wireType.toNat := by
  by_cases varint : wireType = wireVarint
  · subst varint
    rw [skipVarint_iff]
    constructor
    · rintro ⟨body, value, cut, number⟩
      exact ⟨body, _, cut, .varint number, rfl⟩
    · rintro ⟨body, content, cut, spelled, type⟩
      obtain ⟨value, -, number⟩ := spelled_varint spelled type
      exact ⟨body, value, cut, number⟩
  by_cases fixed64 : wireType = wireFixed64
  · subst fixed64
    rw [skipField, if_neg varint, if_pos rfl, skipped_iff inside]
    constructor
    · rintro ⟨body, cut, long⟩
      exact ⟨body, _, cut, .fixed64 long, rfl⟩
    · rintro ⟨body, content, cut, spelled, type⟩
      exact ⟨body, cut, (spelled_fixed64 spelled type).2⟩
  by_cases fixed32 : wireType = wireFixed32
  · subst fixed32
    rw [skipField, if_neg varint, if_neg fixed64, if_pos rfl, skipped_iff inside]
    constructor
    · rintro ⟨body, cut, long⟩
      exact ⟨body, _, cut, .fixed32 long, rfl⟩
    · rintro ⟨body, content, cut, spelled, type⟩
      exact ⟨body, cut, (spelled_fixed32 spelled type).2⟩
  by_cases delimited : wireType = wireLengthDelimited
  · subst delimited
    rw [skipDelimited_iff inside]
    constructor
    · rintro ⟨body, payload, cut, spelled⟩
      exact ⟨body, _, cut, spelled, rfl⟩
    · rintro ⟨body, content, cut, spelled, type⟩
      obtain ⟨payload, rfl⟩ := spelled_delimited spelled type
      exact ⟨body, payload, cut, spelled⟩
  · rw [skipField, if_neg varint, if_neg fixed64, if_neg fixed32, if_neg delimited]
    apply iff_of_false nofun
    rintro ⟨body, content, -, -, type⟩
    cases content with
    | varint => exact varint (UInt32.toNat_inj.mp type.symm)
    | fixed64 => exact fixed64 (UInt32.toNat_inj.mp type.symm)
    | delimited => exact delimited (UInt32.toNat_inj.mp type.symm)
    | fixed32 => exact fixed32 (UInt32.toNat_inj.mp type.symm)

theorem skipField_refused {wireType : UInt32} {failure : Failure}
    (failed : skipField bytes here wireType = .error failure) : Refused failure := by
  have read : ∀ {Value : Type} {onward : UInt64 × Nat → Reading Value},
      (readVarint bytes here >>= onward) = .error failure →
        Refused failure ∨ ∃ value, onward value = .error failure := by
    intro Value onward failed
    cases ran : readVarint bytes here with
    | error missed =>
        rw [ran] at failed
        cases failed
        exact .inl (readVarintFrom_refused ran)
    | ok value =>
        rw [ran] at failed
        exact .inr ⟨value, failed⟩
  unfold skipField at failed
  split at failed
  · rcases read failed with refused | ⟨value, ⟨⟩⟩
    exact refused
  split at failed
  · split at failed
    · cases failed
      exact ⟨_, rfl⟩
    · cases failed
  split at failed
  · split at failed
    · cases failed
      exact ⟨_, rfl⟩
    · cases failed
  split at failed
  · rcases read failed with refused | ⟨value, failed⟩
    · exact refused
    · dsimp only at failed
      split at failed
      · cases failed
        exact ⟨_, rfl⟩
      · split at failed
        · cases failed
          exact ⟨_, rfl⟩
        · cases failed
  · cases failed
    exact ⟨_, rfl⟩

end Fields

/-- The numbers that `static_cast<uint32_t>` takes for the button's field. -/
def truncated (number : Nat) : Bool := number % 2 ^ 32 == 2

def button (number : Nat) : Bool := number == 2

section Parse
variable {bytes : List UInt8} {here next : Nat}

theorem key_wireType (key : UInt64) : (key &&& 0x7).toUInt32.toNat = key.toNat % 8 := by
  have low : (key &&& 0x7).toNat = key.toNat % 8 := by
    rw [UInt64.toNat_and]
    exact Nat.and_two_pow_sub_one_eq_mod key.toNat 3
  rw [UInt64.toNat_toUInt32, low]
  omega

theorem key_field (key : UInt64) :
    (key >>> 3).toUInt32 = 2 ↔ truncated (key.toNat / 8) = true := by
  have high : (key >>> 3).toNat = key.toNat / 8 := by
    rw [UInt64.toNat_shiftRight]
    exact Nat.shiftRight_eq_div_pow _ 3
  rw [← UInt32.toNat_inj, UInt64.toNat_toUInt32, high, truncated, beq_iff_eq]
  exact Iff.rfl

/-- The first field of what is left, and the rest. -/
theorem message_cut {fields : List Field} (inside : here < bytes.length) :
    Message (bytes.drop here) fields ↔
      ∃ head body middle next field behind, fields = field :: behind ∧
        Cut bytes here middle head ∧ Cut bytes middle next body ∧
          Number head (8 * field.number + field.content.wireType) ∧
            Spelled body field.content ∧ Message (bytes.drop next) behind := by
  constructor
  · intro message
    generalize left : bytes.drop here = text at message
    cases message with
    | nil => exact absurd (List.drop_eq_nil_iff.mp left) (Nat.not_le.mpr inside)
    | @field head body rest field behind key spelled message =>
        obtain ⟨cut, onward⟩ := cut_front left
        obtain ⟨first, second⟩ := cut_split cut
        exact ⟨head, body, _, _, field, behind, rfl, first, second, key, spelled,
          onward.symm ▸ message⟩
  · rintro ⟨head, body, middle, next, field, behind, rfl, first, second, key, spelled, message⟩
    rw [(cut_append first second).parted]
    exact .field key spelled message

/-- What the loop returns where nothing more is taken. -/
def held (out : ButtonPressMessage) (haveButton : Bool) : Option ButtonPressMessage :=
  if haveButton then some out else none

section Held
variable {field : Field} {fields : List Field} {out : ButtonPressMessage} {haveButton : Bool}

theorem held_taken {payload : List UInt8} (taken : payloadOf truncated field = some payload) :
    ((lastPayload truncated (field :: fields)).map ButtonPressMessage.mk).or
        (held out haveButton) =
      ((lastPayload truncated fields).map ButtonPressMessage.mk).or (held ⟨payload⟩ true) := by
  rw [lastPayload_cons, taken]
  cases lastPayload truncated fields <;> rfl

theorem held_passed (passed : payloadOf truncated field = none) :
    ((lastPayload truncated (field :: fields)).map ButtonPressMessage.mk).or
        (held out haveButton) =
      ((lastPayload truncated fields).map ButtonPressMessage.mk).or (held out haveButton) := by
  rw [lastPayload_cons, passed, Option.or_none]

end Held

theorem key_spelled {field : Field} {head : List UInt8}
    (spells : Number head (8 * field.number + field.content.wireType)) :
    ∃ key : UInt64, Number head key.toNat ∧ key.toNat / 8 = field.number ∧
      (key &&& 0x7).toUInt32.toNat = field.content.wireType := by
  have small := wireType_small field.content
  have width := UInt64.toNat_ofNat'.trans (number_width spells)
  refine ⟨UInt64.ofNat (8 * field.number + field.content.wireType), ?_, ?_, ?_⟩
  · rw [width]
    exact spells
  · rw [width]
    omega
  · rw [key_wireType, width]
    omega

theorem payload_taken {field : Field} (number : truncated field.number = true)
    (type : field.content.wireType = 2) :
    ∃ payload, field.content = .delimited payload ∧ payloadOf truncated field = some payload := by
  obtain ⟨_, content⟩ := field
  cases content with
  | delimited payload => exact ⟨payload, rfl, payloadOf_some.mpr ⟨number, rfl⟩⟩
  | _ => cases type

theorem payload_passed {field : Field}
    (other : ¬(truncated field.number = true ∧ field.content.wireType = 2)) :
    payloadOf truncated field = none := by
  by_contra found
  obtain ⟨payload, chosen⟩ := Option.ne_none_iff_exists'.mp found
  obtain ⟨number, content⟩ := payloadOf_some.mp chosen
  exact other ⟨number, congrArg Content.wireType content⟩

theorem payload_delimited {number : Nat} {payload : List UInt8}
    (chosen : truncated number = true) :
    payloadOf truncated ⟨number, .delimited payload⟩ = some payload :=
  payloadOf_some.mpr ⟨chosen, rfl⟩

/-- The test of `Parse` for the button's field. -/
theorem key_taken (key : UInt64) :
    ((key >>> 3).toUInt32 = 2 ∧ (key &&& 0x7).toUInt32 = wireLengthDelimited) ↔
      truncated (key.toNat / 8) = true ∧ (key &&& 0x7).toUInt32.toNat = 2 := by
  rw [key_field]
  apply and_congr_right
  intro _
  rw [← UInt32.toNat_inj]
  exact Iff.rfl

/-- A round reads the next field of the message, which the rounds that are left go on from. -/
theorem parseFrom_iff {rounds : Nat} {out result : ButtonPressMessage} {haveButton : Bool}
    (enough : bytes.length - here < rounds) (inside : here ≤ bytes.length) :
    parseFrom bytes rounds here out haveButton = .ok result ↔
      ∃ fields, Message (bytes.drop here) fields ∧
        ((lastPayload truncated fields).map ButtonPressMessage.mk).or (held out haveButton) =
          some result := by
  -- One round for each key read, and a key has a byte at least.
  induction rounds generalizing here out haveButton with
  | zero => omega
  | succ rounds hypothesis =>
      by_cases more : here < bytes.length
      · rw [parseFrom, if_pos more, bind_ok_iff]
        constructor
        · rintro ⟨⟨key, middle⟩, ran, went⟩
          obtain ⟨head, cut, number⟩ := readVarint_iff.mp ran
          have within := cut_within cut inside
          have forward := List.length_pos_of_ne_nil (number_some number)
          have ends := cut.ends
          have parts : key.toNat = 8 * (key.toNat / 8) + (key &&& 0x7).toUInt32.toNat := by
            rw [key_wireType]
            omega
          dsimp only at went
          split at went
          -- The button's field, delimited: its payload replaces what was held.
          · next taken =>
              obtain ⟨field, type⟩ := (key_taken key).mp taken
              obtain ⟨⟨length, start⟩, also, went⟩ := (bind_ok_iff ..).mp went
              dsimp only at went
              split at went
              · cases went
              · next fits =>
                  obtain ⟨body, second, spelled⟩ :=
                    (delimited_iff within).mp ⟨length, start, also, fits, rfl, rfl⟩
                  have last := cut_within second within
                  have goes := second.ends
                  obtain ⟨fields, message, left⟩ := (hypothesis (by omega) last).mp went
                  rw [type] at parts
                  refine ⟨⟨key.toNat / 8, .delimited _⟩ :: fields, (message_cut more).mpr
                    ⟨head, body, middle, _, _, fields, rfl, cut, second, ?_, spelled, message⟩, ?_⟩
                  · exact parts ▸ number
                  · rw [held_taken (payload_delimited field)]
                    exact left
          -- Any other field is skipped, and what was held stays.
          · next passed =>
              obtain ⟨next, skipped, went⟩ := (bind_ok_iff ..).mp went
              obtain ⟨body, content, second, spelled, type⟩ := (skipField_iff within).mp skipped
              have last := cut_within second within
              have goes := second.ends
              obtain ⟨fields, message, left⟩ := (hypothesis (by omega) last).mp went
              rw [← type] at parts
              refine ⟨⟨key.toNat / 8, content⟩ :: fields, (message_cut more).mpr
                ⟨head, body, middle, _, _, fields, rfl, cut, second, ?_, spelled, message⟩, ?_⟩
              · exact parts ▸ number
              · rw [held_passed]
                · exact left
                · apply payload_passed
                  rintro ⟨wrapped, two⟩
                  exact passed ((key_taken key).mpr ⟨wrapped, type.symm.trans two⟩)
        -- Back: the first field's number and type say which of the two the reader meets.
        · rintro ⟨fields, message, left⟩
          obtain ⟨head, body, middle, next, field, behind, rfl, first, second, spells, spelled,
            message⟩ := (message_cut more).mp message
          obtain ⟨key, number, high, low⟩ := key_spelled spells
          have within := cut_within first inside
          have last := cut_within second within
          have forward := List.length_pos_of_ne_nil (number_some number)
          have ends := first.ends
          have goes := second.ends
          refine ⟨(key, middle), readVarint_iff.mpr ⟨head, first, number⟩, ?_⟩
          have test := key_taken key
          rw [high, low] at test
          by_cases taken : truncated field.number = true ∧ field.content.wireType = 2
          · obtain ⟨payload, content, chosen⟩ := payload_taken taken.1 taken.2
            rw [content] at spelled
            obtain ⟨length, start, ran, fits, rfl, rfl⟩ :=
              (delimited_iff within).mpr ⟨body, second, spelled⟩
            rw [held_taken chosen] at left
            dsimp only
            rw [if_pos (test.mpr taken)]
            refine (bind_ok_iff ..).mpr ⟨(length, start), ran, ?_⟩
            dsimp only
            rw [if_neg fits]
            exact (hypothesis (by omega) last).mpr ⟨behind, message, left⟩
          · rw [held_passed (payload_passed taken)] at left
            dsimp only
            rw [if_neg (taken ∘ test.mp)]
            exact (bind_ok_iff ..).mpr ⟨next,
              (skipField_iff within).mpr ⟨body, _, second, spelled, low.symm⟩,
              (hypothesis (by omega) last).mpr ⟨behind, message, left⟩⟩
      -- At the end no field is left, so only a button already held makes a result.
      · have empty : bytes.drop here = [] := List.drop_eq_nil_of_le (Nat.le_of_not_lt more)
        have nothing : ∀ {fields}, Message [] fields → fields = [] := fun message =>
          message_once message .nil
        rw [parseFrom, if_neg more, empty]
        cases haveButton with
        | true =>
            constructor
            · rintro ⟨⟩
              exact ⟨[], .nil, rfl⟩
            · rintro ⟨fields, message, left⟩
              obtain rfl := nothing message
              cases left
              rfl
        | false =>
            apply iff_of_false nofun
            rintro ⟨fields, message, left⟩
            obtain rfl := nothing message
            cases left

theorem parseFrom_refused {rounds : Nat} {out : ButtonPressMessage} {haveButton : Bool}
    {failure : Failure} (enough : bytes.length - here < rounds) (inside : here ≤ bytes.length)
    (failed : parseFrom bytes rounds here out haveButton = .error failure) : Refused failure := by
  induction rounds generalizing here out haveButton with
  | zero => omega
  | succ rounds hypothesis =>
      rw [parseFrom] at failed
      split at failed
      · next more =>
          cases ran : readVarint bytes here with
          | error missed =>
              rw [ran] at failed
              cases failed
              exact readVarintFrom_refused ran
          | ok read =>
              obtain ⟨key, middle⟩ := read
              obtain ⟨head, cut, number⟩ := readVarint_iff.mp ran
              have within := cut_within cut inside
              have forward := List.length_pos_of_ne_nil (number_some number)
              have ends := cut.ends
              rw [ran] at failed
              change (if _ then _ else _) = _ at failed
              split at failed
              · cases also : readVarint bytes middle with
                | error missed =>
                    rw [also] at failed
                    cases failed
                    exact readVarintFrom_refused also
                | ok read =>
                    obtain ⟨length, start⟩ := read
                    rw [also] at failed
                    change (if _ then _ else _) = _ at failed
                    split at failed
                    · cases failed
                      exact ⟨_, rfl⟩
                    · next fits =>
                        obtain ⟨body, second, -⟩ :=
                          (delimited_iff within).mp ⟨length, start, also, fits, rfl, rfl⟩
                        have goes := second.ends
                        exact hypothesis (by omega) (cut_within second within) failed
              · cases skipped : skipField bytes middle (key &&& 0x7).toUInt32 with
                | error missed =>
                    rw [skipped] at failed
                    cases failed
                    exact skipField_refused skipped
                | ok next =>
                    obtain ⟨body, _, second, -⟩ := (skipField_iff within).mp skipped
                    have goes := second.ends
                    rw [skipped] at failed
                    exact hypothesis (by omega) (cut_within second within) failed
      · split at failed
        · cases failed
        · cases failed
          exact ⟨_, rfl⟩

theorem parse_iff {payload : List UInt8} :
    parse bytes = .ok ⟨payload⟩ ↔
      ∃ fields, Message bytes fields ∧ lastPayload truncated fields = some payload := by
  rw [parse, parseFrom_iff (by omega) (Nat.zero_le _)]
  simp only [List.drop_zero, held, Bool.false_eq_true, if_false, Option.or_none,
    Option.map_eq_some_iff, ButtonPressMessage.mk.injEq, exists_eq_right]

end Parse

/-- What is asked of `Parse`: it comes to an end, reads inside the string, and returns the payload
of the last length-delimited field with number 2. -/
structure Parsed (bytes : List UInt8) : Prop where
  ends : (∃ out, parse bytes = .ok out) ∨ ∃ failure, parse bytes = .error failure ∧ Refused failure
  exact : ∀ payload, parse bytes = .ok ⟨payload⟩ ↔
    ∃ fields, Message bytes fields ∧ lastPayload button fields = some payload

/-- The last length-delimited field whose number is 2 in its lower 32 bits has another number, and
its payload is not what the last field with number 2 carries. -/
def Aliased (bytes : List UInt8) : Prop :=
  ∃ before number payload after,
    Message bytes (before ++ ⟨number, .delimited payload⟩ :: after) ∧
      truncated number = true ∧ number ≠ 2 ∧ lastPayload truncated after = none ∧
        lastPayload button before ≠ some payload

theorem button_truncated (number : Nat) (chosen : button number = true) :
    truncated number = true := by
  rw [button, beq_iff_eq] at chosen
  subst chosen
  rfl

theorem button_passed {number : Nat} {payload : List UInt8} (other : number ≠ 2) :
    payloadOf button ⟨number, .delimited payload⟩ = none := by
  by_contra found
  obtain ⟨_, chosen⟩ := Option.ne_none_iff_exists'.mp found
  exact other (beq_iff_eq.mp (payloadOf_some.mp chosen).1)

/-- Numbers that are truncated matter where the last one of them is another number's. -/
theorem lastPayload_differs {fields : List Field} :
    lastPayload truncated fields ≠ lastPayload button fields ↔
      ∃ before number payload after, fields = before ++ ⟨number, .delimited payload⟩ :: after ∧
        truncated number = true ∧ number ≠ 2 ∧ lastPayload truncated after = none ∧
          lastPayload button before ≠ some payload := by
  constructor
  · intro differ
    cases last : lastPayload truncated fields with
    | none => exact absurd (last.trans (lastPayload_fewer button_truncated last).symm) differ
    | some payload =>
        obtain ⟨before, ⟨number, content⟩, after, rfl, chosen, later⟩ := lastPayload_some last
        obtain ⟨wrapped, rfl⟩ := payloadOf_some.mp chosen
        rw [last, lastPayload_append, lastPayload_cons,
          lastPayload_fewer button_truncated later, Option.none_or] at differ
        have other : number ≠ 2 := by
          rintro rfl
          exact differ rfl
        refine ⟨before, number, payload, after, rfl, wrapped, other, later, ?_⟩
        rw [button_passed other, Option.none_or] at differ
        exact differ.symm
  · rintro ⟨before, number, payload, after, rfl, wrapped, other, later, differ⟩ same
    rw [lastPayload_append, lastPayload_cons, later, Option.none_or, payload_delimited wrapped,
      lastPayload_append, lastPayload_cons, lastPayload_fewer button_truncated later,
      button_passed other] at same
    exact differ same.symm

/-- The button's id is read as asked exactly where no other number wraps to the button's. -/
theorem parse_exact_iff (bytes : List UInt8) : Parsed bytes ↔ ¬Aliased bytes := by
  constructor
  · rintro parsed ⟨before, number, payload, after, message, aliased⟩
    apply lastPayload_differs.mpr ⟨before, number, payload, after, rfl, aliased⟩
    apply Option.ext
    intro found
    rw [← message_last message, ← parse_iff, parsed.exact, message_last message]
  · intro clear
    constructor
    · cases ran : parse bytes with
      | ok out => exact .inl ⟨out, rfl⟩
      | error failure =>
          exact .inr ⟨failure, rfl, parseFrom_refused (Nat.lt_succ_self _) (Nat.zero_le _) ran⟩
    · intro payload
      rw [parse_iff]
      apply exists_congr
      intro fields
      apply and_congr_right
      intro message
      have same : lastPayload truncated fields = lastPayload button fields := by
        by_contra differ
        obtain ⟨before, number, found, after, rfl, aliased⟩ := lastPayload_differs.mp differ
        exact clear ⟨before, number, found, after, message, aliased⟩
      rw [same]

/-- Field 4294967298 is taken for field 2. -/
theorem wrapped_number_taken :
    parse [0x92, 0x80, 0x80, 0x80, 0x80, 0x01, 0x02, 0x68, 0x69] = .ok ⟨[0x68, 0x69]⟩ ∧
      ¬Parsed [0x92, 0x80, 0x80, 0x80, 0x80, 0x01, 0x02, 0x68, 0x69] := by
  have ran : parse [0x92, 0x80, 0x80, 0x80, 0x80, 0x01, 0x02, 0x68, 0x69] =
      .ok ⟨[0x68, 0x69]⟩ := by decide
  refine ⟨ran, fun parsed => ?_⟩
  have key : Number [0x92, 0x80, 0x80, 0x80, 0x80, 0x01] (8 * 4294967298 + 2) :=
    ⟨by decide, _, .more (by decide) (.more (by decide) (.more (by decide) (.more (by decide)
      (.more (by decide) (.last (by decide)))))), by decide⟩
  have length : Number [0x02] 2 := ⟨by decide, _, .last (by decide), by decide⟩
  have spelled : Spelled ([0x02] ++ [0x68, 0x69]) (.delimited [0x68, 0x69]) := .delimited length
  have message : Message ([0x92, 0x80, 0x80, 0x80, 0x80, 0x01] ++ [0x02, 0x68, 0x69] ++ [])
      [⟨4294967298, .delimited [0x68, 0x69]⟩] := .field key spelled .nil
  have last := (message_last message).mp ((parsed.exact _).mp ran)
  cases last

end VoltMod.ButtonPress
