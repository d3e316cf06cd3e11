import VoltMod.SchemaClasses

/-! schemagen/accessors.py with the templates it fills, Schema/View.hpp and Schema/Notify.cpp: the
accessors of a generated class, and what they do when they run. An address is a whole number, the
null pointer zero; of an accessor's spelling only what it computes is kept. -/
namespace VoltMod.SchemaGen
open MigrationText (Text)

inductive Read where
  | address (constant : Offset)
  | embedded (viewClass : Text) (constant : Offset)
  | pointer (viewClass : Text) (constant : Offset)
  | charBuf (length : Int) (constant : Offset)
  | element (cppType : Text) (length : Int) (constant : Offset)
  | value (cppType : Text) (constant : Offset)
  deriving DecidableEq, Repr

/-- What a setter assigns through; only an array's takes an index. -/
inductive Write where
  | element (cppType : Text) (length : Int) (constant : Offset)
  | value (stored : Text) (constant : Offset)
  deriving DecidableEq, Repr

inductive Notify where
  | componentOwner (ownerLinkOffset : Offset)
  | entity
  deriving DecidableEq, Repr

structure SetterCode where
  write : Write
  /-- Nothing for a field the engine does not network. -/
  notify : Option Notify
  deriving DecidableEq, Repr

structure AccessorCode where
  name : Text
  read : Read
  setter : Option SetterCode
  deriving DecidableEq, Repr

def charBuf (length : Int) : Text := "CharBuf<".toList ++ (toString length).toList ++ ">".toList

def readOf (field : SchemaField) : Option Read :=
  match field.kind with
  | .skipped _ => none
  | .address => some (.address field.offset)
  | .view viewClass true => some (.embedded viewClass field.offset)
  | .view viewClass false => some (.pointer viewClass field.offset)
  | .charArray length => some (.charBuf length field.offset)
  | .array cppType length => some (.element cppType length field.offset)
  | .value cppType | .enum cppType | .handle cppType => some (.value cppType field.offset)

/-- A view hands out another object and an address is raw memory: neither is assigned through. -/
def writeOf (field : SchemaField) : Option Write :=
  match field.kind with
  | .skipped _ | .address | .view _ _ => none
  | .charArray length => some (.value (charBuf length) field.offset)
  | .array cppType length => some (.element cppType length field.offset)
  | .value cppType | .enum cppType | .handle cppType => some (.value cppType field.offset)

/-- The engine rejects a change reported for a field it does not network. -/
def notifyStatement (schemaClass : SchemaClass) (field : SchemaField) : Option Notify :=
  if !field.networked then none
  else if schemaClass.linked then some (.componentOwner schemaClass.ownerLinkOffset)
  else some .entity

def accessorCode (schemaClass : SchemaClass) (field : SchemaField) : Option AccessorCode :=
  (readOf field).map fun read =>
    { name := field.method
      read := read
      setter := if schemaClass.writable then
          (writeOf field).map fun write => ⟨write, notifyStatement schemaClass field⟩
        else none }

structure View where
  base : Int
  /-- The entity a write notifies, at the owner offset. -/
  owner : Int
  ownerOffset : Offset
  deriving DecidableEq, Repr

def View.null : View := ⟨0, 0, 0⟩

/-- What the accessors read of the engine's memory. -/
structure Memory where
  pointer : Int → Int
  pathIndex : Int → Int

structure Notice where
  entity : Int
  offset : Offset
  /-- Of the owner link it came through. -/
  pathIndex : Option Int
  deriving DecidableEq, Repr

/-- Where an object's owner link lies. -/
def SchemaClass.link (schemaClass : SchemaClass) (base : Int) : Int :=
  base + schemaClass.ownerLinkOffset.toInt

def notifyEntity (entity : Int) (offset : Offset) : Option Notice :=
  if entity = 0 then none else some ⟨entity, offset, none⟩

def notifyComponentOwner (memory : Memory) (component : Int) (ownerLinkOffset offset : Offset) :
    Option Notice :=
  if component = 0 ∨ ownerLinkOffset.toInt < 0 then none
  else
    let link := component + ownerLinkOffset.toInt
    if memory.pointer link = 0 then none
    else some ⟨memory.pointer link, offset, some (memory.pathIndex (link + 0x20))⟩

/-- From a pointer: an entity's constructor makes it own itself, and the classes below inherit it. -/
def SchemaClass.construct (schemaClass : SchemaClass) (base : Int) : View :=
  if schemaClass.isEntity then ⟨base, base, 0⟩ else ⟨base, 0, 0⟩

def View.inside (constant : Offset) (view : View) : View :=
  ⟨view.base + constant.toInt, view.owner, view.ownerOffset + constant⟩

/-- The view an accessor hands out, with its class. An entity's class has no constructor that takes
an owner, so an accessor that embeds one does not compile. -/
def Read.run (classes : List SchemaClass) (memory : Memory) (view : View) :
    Read → Option (SchemaClass × View)
  | .embedded viewClass constant =>
      ((findClass classes viewClass).filter fun target => !target.isEntity).map fun target =>
        (target, if view.base = 0 then .null else view.inside constant)
  | .pointer viewClass constant =>
      (findClass classes viewClass).map fun target =>
        (target, if view.base = 0 then .null
          else target.construct (memory.pointer (view.base + constant.toInt)))
  | _ => none

def sizeOf (cppType : Text) : Nat :=
  let sizes := [("bool", 1), ("char", 1), ("int8_t", 1), ("uint8_t", 1), ("int16_t", 2),
    ("uint16_t", 2), ("int32_t", 4), ("uint32_t", 4), ("int64_t", 8), ("uint64_t", 8),
    ("float", 4), ("double", 8), ("EntityRef", 4)]
  ((sizes.find? fun entry => entry.1.toList = cppType).map Prod.snd).getD 0

def Write.passes (index : Nat) : Write → Bool
  | .element _ length _ => index < length
  | .value _ _ => true

/-- How far into the object the assignment goes. -/
def Write.reach (index : Nat) : Write → Int
  | .element cppType _ constant => constant.toInt + index * sizeOf cppType
  | .value _ constant => constant.toInt

/-- The offset handed to dirty tracking. -/
def Write.offset (index : Nat) : Write → Offset
  | .element cppType _ constant => constant + BitVec.ofNat 32 (index * sizeOf cppType)
  | .value _ constant => constant

structure Outcome where
  written : Option Int
  notice : Option Notice
  deriving DecidableEq, Repr

def Notify.run (memory : Memory) (view : View) (offset : Offset) : Notify → Option Notice
  | .componentOwner ownerLinkOffset =>
      notifyComponentOwner memory view.base ownerLinkOffset offset
  | .entity => notifyEntity view.owner (view.ownerOffset + offset)

def SetterCode.run (memory : Memory) (view : View) (index : Nat) (setter : SetterCode) : Outcome :=
  if view.base = 0 ∨ setter.write.passes index = false then ⟨none, none⟩
  else
    { written := some (view.base + setter.write.reach index)
      notice := setter.notify.bind (Notify.run memory view (setter.write.offset index)) }

/-- The views a plugin gets from an entity's: conversions to a base, and accessors. -/
inductive Reached (classes : List SchemaClass) (memory : Memory) : SchemaClass → View → Prop where
  | entity {schemaClass : SchemaClass} (member : schemaClass ∈ classes)
      (entity : schemaClass.isEntity = true) (address : Int) :
      Reached classes memory schemaClass (schemaClass.construct address)
  | toBase {schemaClass base : SchemaClass} {view : View} {name : Text}
      (reached : Reached classes memory schemaClass view) (derives : schemaClass.base = some name)
      (found : findClass classes name = some base) : Reached classes memory base view
  | accessor {schemaClass target : SchemaClass} {view next : View} {field : SchemaField}
      {code : AccessorCode} (reached : Reached classes memory schemaClass view)
      (selected : field ∈ schemaClass.fields) (generated : accessorCode schemaClass field = some code)
      (ran : code.read.run classes memory view = some (target, next)) :
      Reached classes memory target next

/-- The offset told is where in the object the assignment goes. -/
theorem offset_reach (index : Nat) (write : Write) :
    BitVec.ofInt 32 (write.reach index) = write.offset index := by
  cases write with
  | element cppType length constant =>
      rw [Write.reach, Write.offset, BitVec.ofInt_add, BitVec.ofInt_toInt]
      congr 1
  | value stored constant => exact BitVec.ofInt_toInt

theorem findClass_mem {classes : List SchemaClass} {name : Text} {schemaClass : SchemaClass}
    (found : findClass classes name = some schemaClass) :
    schemaClass ∈ classes ∧ schemaClass.name = name :=
  ⟨List.mem_of_find?_eq_some found, by simpa using List.find?_some found⟩

def handedOut (memory : Memory) (target : SchemaClass) (embedded : Bool) (constant : Offset)
    (view : View) : View :=
  if view.base = 0 then .null
  else if embedded then view.inside constant
  else target.construct (memory.pointer (view.base + constant.toInt))

/-- Views come from the view fields alone. -/
theorem handsOut_iff {classes : List SchemaClass} {memory : Memory} {view next : View}
    {schemaClass target : SchemaClass} {field : SchemaField} :
    (∃ code, accessorCode schemaClass field = some code ∧
      code.read.run classes memory view = some (target, next)) ↔
      ∃ viewClass embedded, field.kind = .view viewClass embedded ∧
        findClass classes viewClass = some target ∧ (embedded = true → target.isEntity = false) ∧
        next = handedOut memory target embedded field.offset view := by
  simp only [accessorCode, Option.map_eq_some_iff, exists_exists_and_eq_and]
  constructor
  · rintro ⟨read, described, ran⟩
    cases kind : field.kind with
    | view viewClass embedded =>
        cases embedded with
        | true =>
            simp only [readOf, kind, Option.some.injEq] at described
            subst described
            obtain ⟨found, kept, same⟩ := Option.map_eq_some_iff.mp ran
            obtain ⟨found', plain⟩ := Option.filter_eq_some_iff.mp kept
            cases same
            exact ⟨viewClass, true, rfl, found', fun _ => by simpa using plain, rfl⟩
        | false =>
            simp only [readOf, kind, Option.some.injEq] at described
            subst described
            obtain ⟨found, kept, same⟩ := Option.map_eq_some_iff.mp ran
            cases same
            exact ⟨viewClass, false, rfl, kept, nofun, rfl⟩
    | skipped reason => simp [readOf, kind] at described
    | _ =>
        simp only [readOf, kind, Option.some.injEq] at described
        subst described
        cases ran
  · rintro ⟨viewClass, embedded, kind, found, plain, rfl⟩
    cases embedded with
    | true =>
        refine ⟨.embedded viewClass field.offset, by simp [readOf, kind], ?_⟩
        simp [Read.run, found, plain rfl, handedOut]
    | false =>
        refine ⟨.pointer viewClass field.offset, by simp [readOf, kind], ?_⟩
        simp [Read.run, found, handedOut]

theorem Reached.handedOut {classes : List SchemaClass} {memory : Memory} {view : View}
    {schemaClass target : SchemaClass} {field : SchemaField} {viewClass : Text} {embedded : Bool}
    (reached : Reached classes memory schemaClass view) (selected : field ∈ schemaClass.fields)
    (kind : field.kind = .view viewClass embedded)
    (found : findClass classes viewClass = some target)
    (plain : embedded = true → target.isEntity = false) :
    Reached classes memory target (handedOut memory target embedded field.offset view) := by
  obtain ⟨code, generated, ran⟩ := handsOut_iff.mpr ⟨viewClass, embedded, kind, found, plain, rfl⟩
  exact reached.accessor selected generated ran

end VoltMod.SchemaGen
