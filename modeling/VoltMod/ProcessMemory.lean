import VoltMod.MigrationText

/-!
The memory of the process as the lookups read it: the mapping an address lies in
(Engine/Memory/SigScanner.cpp asks the system for it), and the bytes. To read what is not
readable is a fault.
-/

namespace VoltMod.ProcessMemory
open MigrationText (Text)

structure MemoryRegion where
  «end» : UInt64
  readable : Bool
  deriving DecidableEq, Repr

/-- `queryRegion` is what the system answers for an address: a mapping goes on to its end. -/
structure Memory where
  queryRegion : UInt64 → Option MemoryRegion
  byte : UInt64 → UInt8
  spans : ∀ address region, queryRegion address = some region → address < region.end ∧
    ∀ other, address ≤ other → other < region.end → queryRegion other = some region

/-- Why a run has no answer: it read what is not readable, or it went deeper than its fuel. -/
inductive Stop where
  | fault (address : UInt64)
  | fuel
  deriving DecidableEq, Repr

def isReadableAddress (memory : Memory) (address : UInt64) (bytes : Nat) : Bool :=
  if address = 0 ∨ bytes = 0 then false
  else
    match memory.queryRegion address with
    | none => false
    | some region => region.readable && decide (bytes ≤ (region.end - address).toNat)

def readByte (memory : Memory) (address : UInt64) : Except Stop UInt8 :=
  if (memory.queryRegion address).any (·.readable) then .ok (memory.byte address)
  else .error (.fault address)

/-- The lowest byte comes first. -/
def readNumber (memory : Memory) : Nat → UInt64 → Except Stop Nat
  | 0, _ => .ok 0
  | width + 1, address => do
      let low ← readByte memory address
      let high ← readNumber memory width (address + 1)
      return low.toNat + 256 * high

def readWord (memory : Memory) (address : UInt64) : Except Stop UInt64 :=
  UInt64.ofNat <$> readNumber memory 8 address

def readU32 (memory : Memory) (address : UInt64) : Except Stop UInt32 :=
  UInt32.ofNat <$> readNumber memory 4 address

def readText (memory : Memory) : Nat → UInt64 → Except Stop Text
  | 0, _ => .ok []
  | length + 1, address => do
      let first ← readByte memory address
      let rest ← readText memory length (address + 1)
      return Char.ofUInt8 first :: rest

section Contents
variable (memory : Memory)

def number : Nat → UInt64 → Nat
  | 0, _ => 0
  | width + 1, address => (memory.byte address).toNat + 256 * number width (address + 1)

def word (address : UInt64) : UInt64 := UInt64.ofNat (number memory 8 address)

def half (address : UInt64) : UInt32 := UInt32.ofNat (number memory 4 address)

def text : Nat → UInt64 → Text
  | 0, _ => []
  | length + 1, address => Char.ofUInt8 (memory.byte address) :: text length (address + 1)

end Contents

section Reads
variable {memory : Memory} {address : UInt64} {size : Nat}

theorem readable_region (readable : isReadableAddress memory address size = true) :
    address ≠ 0 ∧ size ≠ 0 ∧ ∃ region, memory.queryRegion address = some region ∧
      region.readable = true ∧ size ≤ (region.end - address).toNat := by
  rw [isReadableAddress] at readable
  split at readable
  · cases readable
  · next some =>
      rw [not_or] at some
      refine ⟨some.1, some.2, ?_⟩
      split at readable
      · cases readable
      · next region found =>
          rw [Bool.and_eq_true, decide_eq_true_eq] at readable
          exact ⟨region, found, readable⟩

theorem readable_less {less : Nat} (readable : isReadableAddress memory address size = true)
    (some : less ≠ 0) (within : less ≤ size) : isReadableAddress memory address less = true := by
  obtain ⟨nonzero, _, region, found, permitted, room⟩ := readable_region readable
  rw [isReadableAddress, if_neg (by simp [nonzero, some]), found]
  simp [permitted, Nat.le_trans within room]

/-- Every address of a readable span is in its mapping, with the rest of the span behind it. -/
theorem readable_place {offset : Nat} (readable : isReadableAddress memory address size = true)
    (inside : offset < size) :
    address + UInt64.ofNat offset ≠ 0 ∧ ∃ region,
      memory.queryRegion (address + UInt64.ofNat offset) = some region ∧ region.readable = true ∧
        size - offset ≤ (region.end - (address + UInt64.ofNat offset)).toNat := by
  obtain ⟨nonzero, _, region, found, permitted, room⟩ := readable_region readable
  obtain ⟨below, same⟩ := memory.spans address region found
  rw [UInt64.lt_iff_toNat_lt] at below
  rw [UInt64.toNat_sub_of_le _ _ (UInt64.le_iff_toNat_le.mpr (Nat.le_of_lt below))] at room
  have most := region.end.toNat_lt
  have place : (address + UInt64.ofNat offset).toNat = address.toNat + offset := by
    rw [UInt64.toNat_add, UInt64.toNat_ofNat_of_lt' (by rw [UInt64.size]; omega),
      Nat.mod_eq_of_lt (by omega)]
  refine ⟨?_, region, same _ (UInt64.le_iff_toNat_le.mpr (by omega))
    (UInt64.lt_iff_toNat_lt.mpr (by omega)), permitted, ?_⟩
  · rw [Ne, ← UInt64.toNat_inj] at nonzero ⊢
    rw [UInt64.toNat_zero] at nonzero ⊢
    omega
  · rw [UInt64.toNat_sub_of_le _ _ (UInt64.le_iff_toNat_le.mpr (by omega)), place]
    omega

theorem readable_later {offset : Nat} (readable : isReadableAddress memory address size = true)
    (inside : offset < size) :
    isReadableAddress memory (address + UInt64.ofNat offset) (size - offset) = true := by
  obtain ⟨nonzero, region, found, permitted, room⟩ := readable_place readable inside
  rw [isReadableAddress, if_neg (by simp only [nonzero, false_or]; omega), found]
  simp [permitted, room]

theorem next_address (offset : Nat) :
    address + UInt64.ofNat offset + 1 = address + UInt64.ofNat (offset + 1) := by
  rw [UInt64.add_assoc, UInt64.ofNat_add]
  rfl

theorem readByte_readable {offset : Nat} (readable : isReadableAddress memory address size = true)
    (inside : offset < size) : readByte memory (address + UInt64.ofNat offset) =
      .ok (memory.byte (address + UInt64.ofNat offset)) := by
  obtain ⟨_, region, found, permitted, _⟩ := readable_place readable inside
  rw [readByte, found, Option.any_some, if_pos permitted]

theorem readNumber_readable {width offset : Nat}
    (readable : isReadableAddress memory address size = true) (inside : offset + width ≤ size) :
    readNumber memory width (address + UInt64.ofNat offset) =
      .ok (number memory width (address + UInt64.ofNat offset)) := by
  induction width generalizing offset with
  | zero => rfl
  | succ width ih =>
      rw [readNumber, readByte_readable readable (by omega), next_address, ih (by omega), number,
        next_address]
      rfl

theorem readText_readable {length offset : Nat}
    (readable : isReadableAddress memory address size = true) (inside : offset + length ≤ size) :
    readText memory length (address + UInt64.ofNat offset) =
      .ok (text memory length (address + UInt64.ofNat offset)) := by
  induction length generalizing offset with
  | zero => rfl
  | succ length ih =>
      rw [readText, readByte_readable readable (by omega), next_address, ih (by omega), text,
        next_address]
      rfl

theorem readByte_start (readable : isReadableAddress memory address size = true) :
    readByte memory address = .ok (memory.byte address) := by
  have some := (readable_region readable).2.1
  simpa using readByte_readable readable (Nat.pos_of_ne_zero some)

theorem readText_start {length : Nat} (readable : isReadableAddress memory address size = true)
    (inside : length ≤ size) : readText memory length address = .ok (text memory length address) := by
  simpa using @readText_readable memory address size length 0 readable (by omega)

theorem readWord_readable {offset : Nat} (readable : isReadableAddress memory address size = true)
    (inside : offset + 8 ≤ size) : readWord memory (address + UInt64.ofNat offset) =
      .ok (word memory (address + UInt64.ofNat offset)) := by
  rw [readWord, readNumber_readable readable inside]
  rfl

theorem readWord_start (readable : isReadableAddress memory address size = true)
    (inside : 8 ≤ size) : readWord memory address = .ok (word memory address) := by
  simpa using @readWord_readable memory address size 0 readable (by omega)

theorem readU32_readable {offset : Nat} (readable : isReadableAddress memory address size = true)
    (inside : offset + 4 ≤ size) : readU32 memory (address + UInt64.ofNat offset) =
      .ok (half memory (address + UInt64.ofNat offset)) := by
  rw [readU32, readNumber_readable readable inside]
  rfl

theorem text_succ (length : Nat) (address : UInt64) :
    text memory (length + 1) address = text memory length address ++
      [Char.ofUInt8 (memory.byte (address + UInt64.ofNat length))] := by
  induction length generalizing address with
  | zero => simp [text]
  | succ length ih =>
      have last : address + 1 + UInt64.ofNat length = address + UInt64.ofNat (length + 1) := by
        rw [UInt64.add_assoc, UInt64.add_comm 1, ← UInt64.add_assoc, next_address]
      rw [text, ih, last]
      rfl

theorem text_length (length : Nat) (address : UInt64) :
    (text memory length address).length = length := by
  induction length generalizing address with
  | zero => rfl
  | succ length ih => rw [text, List.length_cons, ih]

end Reads

section Ends

/-- A run that did not stop for want of fuel. -/
def Ends {Value : Type} (outcome : Except Stop Value) : Prop := outcome ≠ .error .fuel

variable {Value Next : Type}

theorem ends_ok (value : Value) : Ends (.ok value : Except Stop Value) := nofun

theorem ends_bind {first : Except Stop Value} {next : Value → Except Stop Next}
    (ends : Ends first) (later : ∀ value, Ends (next value)) : Ends (first >>= next) := by
  cases first with
  | error stop => exact fun same => ends (congrArg Except.error (Except.error.inj same))
  | ok value => exact later value

theorem ends_foldlM {Item : Type} {items : List Item}
    {next : Value → Item → Except Stop Value} (later : ∀ value item, Ends (next value item))
    (value : Value) : Ends (items.foldlM next value) := by
  induction items generalizing value with
  | nil => exact ends_ok value
  | cons item rest ih =>
      rw [List.foldlM_cons]
      exact ends_bind (later value item) ih

variable (memory : Memory)

theorem ends_readByte (address : UInt64) : Ends (readByte memory address) := by
  rw [readByte]
  split <;> nofun

theorem ends_readNumber (width : Nat) (address : UInt64) :
    Ends (readNumber memory width address) := by
  induction width generalizing address with
  | zero => exact ends_ok 0
  | succ width ih =>
      exact ends_bind (ends_readByte memory address) fun low =>
        ends_bind (ih (address + 1)) fun high => ends_ok _

theorem ends_readText (length : Nat) (address : UInt64) :
    Ends (readText memory length address) := by
  induction length generalizing address with
  | zero => exact ends_ok []
  | succ length ih =>
      exact ends_bind (ends_readByte memory address) fun first =>
        ends_bind (ih (address + 1)) fun rest => ends_ok _

theorem ends_map {outcome : Except Stop Value} (ends : Ends outcome) (form : Value → Next) :
    Ends (form <$> outcome) := by
  cases outcome with
  | error stop => exact fun same => ends (congrArg Except.error (Except.error.inj same))
  | ok value => nofun

theorem ends_readWord (address : UInt64) : Ends (readWord memory address) :=
  ends_map (ends_readNumber memory 8 address) _

theorem ends_readU32 (address : UInt64) : Ends (readU32 memory address) :=
  ends_map (ends_readNumber memory 4 address) _

end Ends

end VoltMod.ProcessMemory
