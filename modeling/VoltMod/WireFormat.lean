import Mathlib.Data.List.Basic
import Mathlib.Tactic.Ring

/-!
A wire format of tagged fields: a key of a number and a wire type, then a value spelled as its
wire type says. No spelling is the beginning of another one, so bytes are read in one way.
-/

namespace VoltMod.WireFormat

/-- Seven bits a byte, the lowest first, the high bit set on all but the last. -/
inductive Varint : List UInt8 → Nat → Prop
  | last {byte : UInt8} (ends : byte.toNat < 128) : Varint [byte] byte.toNat
  | more {byte : UInt8} {rest : List UInt8} {value : Nat} (goesOn : 128 ≤ byte.toNat)
      (behind : Varint rest value) : Varint (byte :: rest) (byte.toNat % 128 + 128 * value)

/-- A varint of at most ten bytes, for its lower 64 bits. -/
def Number (bytes : List UInt8) (value : Nat) : Prop :=
  bytes.length ≤ 10 ∧ ∃ whole, Varint bytes whole ∧ whole % 2 ^ 64 = value

inductive Content where
  | varint (value : Nat)
  | fixed64 (bytes : List UInt8)
  | delimited (payload : List UInt8)
  | fixed32 (bytes : List UInt8)
  deriving DecidableEq, Repr

def Content.wireType : Content → Nat
  | .varint _ => 0
  | .fixed64 _ => 1
  | .delimited _ => 2
  | .fixed32 _ => 5

inductive Spelled : List UInt8 → Content → Prop
  | varint {bytes : List UInt8} {value : Nat} (number : Number bytes value) :
      Spelled bytes (.varint value)
  | fixed64 {bytes : List UInt8} (long : bytes.length = 8) : Spelled bytes (.fixed64 bytes)
  | delimited {head payload : List UInt8} (long : Number head payload.length) :
      Spelled (head ++ payload) (.delimited payload)
  | fixed32 {bytes : List UInt8} (long : bytes.length = 4) : Spelled bytes (.fixed32 bytes)

structure Field where
  number : Nat
  content : Content
  deriving DecidableEq, Repr

/-- A concatenation of complete fields. -/
inductive Message : List UInt8 → List Field → Prop
  | nil : Message [] []
  | field {head body rest : List UInt8} {field : Field} {fields : List Field}
      (key : Number head (8 * field.number + field.content.wireType))
      (spelled : Spelled body field.content) (behind : Message rest fields) :
      Message (head ++ body ++ rest) (field :: fields)

/-- The payload of a length-delimited field with one of the numbers. -/
def payloadOf (numbers : Nat → Bool) (field : Field) : Option (List UInt8) :=
  match field.content with
  | .delimited payload => if numbers field.number then some payload else none
  | _ => none

def lastPayload (numbers : Nat → Bool) (fields : List Field) : Option (List UInt8) :=
  (fields.filterMap (payloadOf numbers)).getLast?

section Once
variable {bytes other rest tail : List UInt8} {value second : Nat}

theorem varint_once (one : Varint bytes value) (two : Varint other second)
    (same : bytes ++ rest = other ++ tail) : bytes = other ∧ value = second ∧ rest = tail := by
  induction one generalizing other second with
  | last ends =>
      cases two with
      | last also =>
          obtain ⟨rfl, rfl⟩ := List.cons.inj same
          exact ⟨rfl, rfl, rfl⟩
      | more goesOn behind =>
          obtain ⟨rfl, -⟩ := List.cons.inj same
          omega
  | more goesOn behind hypothesis =>
      cases two with
      | last also =>
          obtain ⟨rfl, -⟩ := List.cons.inj same
          omega
      | more also further =>
          obtain ⟨rfl, onward⟩ := List.cons.inj same
          obtain ⟨rfl, rfl, rfl⟩ := hypothesis further onward
          exact ⟨rfl, rfl, rfl⟩

theorem number_once (one : Number bytes value) (two : Number other second)
    (same : bytes ++ rest = other ++ tail) : bytes = other ∧ value = second ∧ rest = tail := by
  obtain ⟨-, whole, spells, rfl⟩ := one
  obtain ⟨-, also, spellsToo, rfl⟩ := two
  obtain ⟨rfl, rfl, rfl⟩ := varint_once spells spellsToo same
  exact ⟨rfl, rfl, rfl⟩

section Types
variable {content : Content}

theorem spelled_varint (spelled : Spelled bytes content) (type : content.wireType = 0) :
    ∃ value, content = .varint value ∧ Number bytes value := by
  cases spelled with
  | varint number => exact ⟨_, rfl, number⟩
  | _ => cases type

theorem spelled_fixed64 (spelled : Spelled bytes content) (type : content.wireType = 1) :
    content = .fixed64 bytes ∧ bytes.length = 8 := by
  cases spelled with
  | fixed64 long => exact ⟨rfl, long⟩
  | _ => cases type

theorem spelled_delimited (spelled : Spelled bytes content) (type : content.wireType = 2) :
    ∃ payload, content = .delimited payload := by
  cases spelled with
  | delimited long => exact ⟨_, rfl⟩
  | _ => cases type

theorem spelled_fixed32 (spelled : Spelled bytes content) (type : content.wireType = 5) :
    content = .fixed32 bytes ∧ bytes.length = 4 := by
  cases spelled with
  | fixed32 long => exact ⟨rfl, long⟩
  | _ => cases type

end Types

theorem spelled_once {content again : Content} (one : Spelled bytes content)
    (two : Spelled other again) (type : content.wireType = again.wireType)
    (same : bytes ++ rest = other ++ tail) : bytes = other ∧ content = again ∧ rest = tail := by
  cases one with
  | varint number =>
      cases two with
      | varint also =>
          obtain ⟨rfl, rfl, rfl⟩ := number_once number also same
          exact ⟨rfl, rfl, rfl⟩
      | _ => cases type
  | fixed64 long =>
      cases two with
      | fixed64 also =>
          obtain ⟨rfl, rfl⟩ := List.append_inj same (long.trans also.symm)
          exact ⟨rfl, rfl, rfl⟩
      | _ => cases type
  | delimited long =>
      cases two with
      | delimited also =>
          rw [List.append_assoc, List.append_assoc] at same
          obtain ⟨rfl, length, onward⟩ := number_once long also same
          obtain ⟨rfl, rfl⟩ := List.append_inj onward length
          exact ⟨rfl, rfl, rfl⟩
      | _ => cases type
  | fixed32 long =>
      cases two with
      | fixed32 also =>
          obtain ⟨rfl, rfl⟩ := List.append_inj same (long.trans also.symm)
          exact ⟨rfl, rfl, rfl⟩
      | _ => cases type

theorem number_width (number : Number bytes value) : value % 2 ^ 64 = value := by
  obtain ⟨-, whole, -, rfl⟩ := number
  exact Nat.mod_mod _ _

theorem number_some (number : Number bytes value) : bytes ≠ [] := by
  obtain ⟨-, whole, spells, -⟩ := number
  cases spells <;> exact List.cons_ne_nil _ _

theorem wireType_small (content : Content) : content.wireType < 8 := by
  cases content <;> exact of_decide_eq_true rfl

/-- Bytes are read in one way. -/
theorem message_once {fields again : List Field} (one : Message bytes fields)
    (two : Message bytes again) : fields = again := by
  induction one generalizing again with
  | nil =>
      generalize empty : ([] : List UInt8) = bytes at two
      cases two with
      | nil => rfl
      | field key _ _ =>
          simp only [List.nil_eq, List.append_eq_nil_iff] at empty
          exact absurd empty.1.1 (number_some key)
  | @field head body rest field fields key spelled behind hypothesis =>
      generalize whole : head ++ body ++ rest = bytes at two
      cases two with
      | nil =>
          simp only [List.append_eq_nil_iff] at whole
          exact absurd whole.1.1 (number_some key)
      | @field head' body' rest' field' fields' key' spelled' behind' =>
          rw [List.append_assoc, List.append_assoc] at whole
          obtain ⟨rfl, equal, onward⟩ := number_once key key' whole
          have small := wireType_small field.content
          have small' := wireType_small field'.content
          obtain ⟨rfl, content, rfl⟩ := spelled_once spelled spelled' (by omega) onward
          have number : field.number = field'.number := by
            rw [content] at equal
            omega
          have first : field = field' := by
            cases field
            cases field'
            exact congrArg₂ Field.mk number content
          rw [first, hypothesis behind']

end Once

section LastPayload
variable {numbers fewer : Nat → Bool} {field : Field} {fields before after : List Field}
  {payload : List UInt8}

theorem payloadOf_some : payloadOf numbers field = some payload ↔
    numbers field.number = true ∧ field.content = .delimited payload := by
  obtain ⟨number, content⟩ := field
  cases content with
  | delimited spelled => simp [payloadOf]
  | _ => exact iff_of_false nofun nofun

theorem lastPayload_append :
    lastPayload numbers (before ++ after) =
      (lastPayload numbers after).or (lastPayload numbers before) := by
  rw [lastPayload, List.filterMap_append, List.getLast?_append]
  rfl

theorem lastPayload_cons :
    lastPayload numbers (field :: fields) =
      (lastPayload numbers fields).or (payloadOf numbers field) := by
  rw [← List.singleton_append, lastPayload_append]
  congr 1
  unfold lastPayload
  cases found : payloadOf numbers field <;> simp [found]

/-- The last field chosen, with none chosen behind it. -/
theorem lastPayload_some (found : lastPayload numbers fields = some payload) :
    ∃ before field after, fields = before ++ field :: after ∧
      payloadOf numbers field = some payload ∧ lastPayload numbers after = none := by
  induction fields with
  | nil => cases found
  | cons first rest hypothesis =>
      rw [lastPayload_cons] at found
      cases later : lastPayload numbers rest with
      | none =>
          rw [later, Option.none_or] at found
          exact ⟨[], first, rest, rfl, found, later⟩
      | some chosen =>
          rw [later] at found
          obtain ⟨before, field, after, rfl, here, none⟩ := hypothesis (later.trans found)
          exact ⟨first :: before, field, after, rfl, here, none⟩

theorem payloadOf_fewer (within : ∀ number, fewer number = true → numbers number = true)
    (missed : payloadOf numbers field = none) : payloadOf fewer field = none := by
  by_contra found
  obtain ⟨payload, chosen⟩ := Option.ne_none_iff_exists'.mp found
  obtain ⟨number, content⟩ := payloadOf_some.mp chosen
  rw [payloadOf_some.mpr ⟨within _ number, content⟩] at missed
  cases missed

theorem lastPayload_fewer (within : ∀ number, fewer number = true → numbers number = true)
    (missed : lastPayload numbers fields = none) : lastPayload fewer fields = none := by
  rw [lastPayload, List.getLast?_eq_none_iff, List.filterMap_eq_nil_iff] at missed ⊢
  exact fun field listed => payloadOf_fewer within (missed field listed)

/-- What any reading of the bytes ends with is what this one does. -/
theorem message_last {bytes : List UInt8} (message : Message bytes fields) :
    (∃ again, Message bytes again ∧ lastPayload numbers again = some payload) ↔
      lastPayload numbers fields = some payload := by
  constructor
  · rintro ⟨again, read, last⟩
    rw [message_once message read]
    exact last
  · intro last
    exact ⟨fields, message, last⟩

end LastPayload

end VoltMod.WireFormat
