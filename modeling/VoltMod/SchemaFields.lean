import VoltMod.MigrationText
import Mathlib.Data.List.Basic

/-! schemagen/dump_types.py, model.py and fields.py: the schema a host dumps, and a manifest entry
resolved against it. Names are ASCII, as the engine's identifiers are. -/
namespace VoltMod.SchemaGen
open MigrationText (Text)

/-- An `int32_t`, as the engine and the generated constants hold an offset. -/
abbrev Offset := BitVec 32

inductive Category where
  | builtin | declaredEnum | declaredClass | pointer | fixedArray | atomic | bitfield
  | other (name : Text)
  deriving DecidableEq, Repr

inductive Atomic where
  | t | collectionOfT | other
  deriving DecidableEq, Repr

/-- `inner` is empty and `extent` zero where the dump has none. -/
structure DumpedType where
  name : Text
  category : Category
  inner : Text
  extent : Int
  atomic : Option Atomic
  deriving DecidableEq, Repr

structure DumpedField where
  name : Text
  offset : Offset
  size : Int
  networked : Bool
  type : DumpedType
  deriving DecidableEq, Repr

structure DumpedClass where
  size : Int
  /-- Empty for a root class. -/
  base : Text
  /-- The owner link's offset, or -1. -/
  chainOffset : Offset
  fields : List DumpedField
  deriving DecidableEq, Repr

structure Dump where
  classes : List (Text × DumpedClass)
  distinct : (classes.map Prod.fst).Nodup

def Dump.find (dump : Dump) (name : Text) : Option DumpedClass :=
  (dump.classes.find? fun entry => entry.1 = name).map Prod.snd

inductive SchemaError where
  | missingClass (name : Text)
  | missingField (name engineName : Text)
  | sameMethod (name engineName seen method : Text)
  /-- Python's `ValueError` of `method_name`. -/
  | noName (engineName : Text)
  /-- Python's `KeyError` of a dump's class. -/
  | noKey (name : Text)
  deriving DecidableEq, Repr

def SchemaError.message : SchemaError → Text
  | .missingClass name =>
      "manifest names class '".toList ++ name ++ "', which the dump does not have".toList
  | .missingField name engineName =>
      "manifest names ".toList ++ name ++ "::".toList ++ engineName ++
        ", which the dump lacks".toList
  | .sameMethod name engineName seen method =>
      name ++ ": '".toList ++ engineName ++ "' and '".toList ++ seen ++ "' both map to ".toList ++
        method ++ "(); rename one with '>' in the manifest".toList
  | .noName engineName => engineName ++ ": no name left after m_".toList
  | .noKey name => "'".toList ++ name ++ "'".toList

inductive FieldKind where
  | value (cppType : Text)
  | enum (cppType : Text)
  | view (viewClass : Text) (embedded : Bool)
  | handle (cppType : Text)
  | charArray (length : Int)
  | array (cppType : Text) (length : Int)
  | address
  | skipped (reason : Text)
  deriving DecidableEq, Repr

structure SchemaField where
  engineName : Text
  method : Text
  offset : Offset
  size : Int
  kind : FieldKind
  engineType : Text
  networked : Bool
  deriving DecidableEq, Repr

structure SchemaClass where
  name : Text
  size : Int
  ownerLinkOffset : Offset
  base : Option Text
  isEntity : Bool
  inEntity : Bool
  fields : List SchemaField
  deriving DecidableEq, Repr

/-- A class with an owner link notifies through it. -/
def SchemaClass.linked (schemaClass : SchemaClass) : Bool :=
  0 ≤ schemaClass.ownerLinkOffset.toInt

/-- Whether a write has a route to the engine's dirty tracking. -/
def SchemaClass.writable (schemaClass : SchemaClass) : Bool :=
  schemaClass.isEntity || schemaClass.linked || schemaClass.inEntity

def hungarianPrefixes : List Text :=
  ["a", "ang", "arr", "b", "cl", "clr", "d", "e", "f", "fl", "fn", "h", "i", "isz", "m",
    "n", "nv", "p", "pp", "psz", "pv", "q", "s", "str", "sz", "t", "u", "ub", "ui", "un",
    "v", "vec", "w", "x", "y", "z"].map String.toList

/-- The longest known prefix goes, where an upper case letter follows it. -/
def methodName (engineName : Text) : Except SchemaError Text :=
  let body := if engineName.take 2 = "m_".toList then engineName.drop 2 else engineName
  match body with
  | [] => .error (.noName engineName)
  | first :: others =>
      let stripped := [3, 2, 1].findSome? fun length =>
        let rest := body.drop length
        if hungarianPrefixes.contains (body.take length) ∧ rest.head?.any Char.isUpper ∧
            3 ≤ rest.length then
          some rest
        else none
      .ok (stripped.getD (first.toUpper :: others))

def partition (separator : Char) (text : Text) : Text × Text :=
  (text.takeWhile (· ≠ separator), (text.dropWhile (· ≠ separator)).tail)

def unlessEmpty (text : Text) : Option Text := if text = [] then none else some text

/-- The engine's name, a method's own and a C++ type's own, as in `m_state>Offset:Vector`. -/
def parseManifestEntry (entry : Text) : Text × Option Text × Option Text :=
  let (name, cppType) := partition ':' entry
  let (name, method) := partition '>' name
  (name, unlessEmpty method, unlessEmpty cppType)

def lookup (types : List (String × String)) (name : Text) : Option Text :=
  (types.find? fun entry => entry.1.toList = name).map fun entry => entry.2.toList

def builtinTypes : List (String × String) :=
  [("bool", "bool"), ("char", "char"), ("int8", "int8_t"), ("uint8", "uint8_t"),
    ("int16", "int16_t"), ("uint16", "uint16_t"), ("int32", "int32_t"), ("uint32", "uint32_t"),
    ("int64", "int64_t"), ("uint64", "uint64_t"), ("float32", "float"), ("float64", "double")]

/-- Types the engine treats as plain values. -/
def atomicTypes : List (String × String) :=
  [("Vector", "Vector"), ("VectorWS", "Vector"), ("QAngle", "QAngle"), ("Color", "Color"),
    ("CPlayerSlot", "int32_t"), ("CEntityIndex", "int32_t"), ("CUtlSymbolLarge", "const char*"),
    ("CUtlString", "const char*"), ("GameTime_t", "float"), ("GameTick_t", "int32_t")]

def isHandle (name : Text) : Bool := name.take 7 = "CHandle".toList

/-- A type the generator does not know is skipped rather than guessed at. -/
def fieldKind (dump : Dump) (type : DumpedType) : FieldKind :=
  let unknown : FieldKind := .skipped type.name
  match type.category with
  | .builtin => (lookup builtinTypes type.name).elim unknown .value
  | .declaredEnum => .enum type.name
  | .declaredClass => if (dump.find type.name).isSome then .view type.name true else unknown
  | .pointer => if (dump.find type.inner).isSome then .view type.inner false else unknown
  | .fixedArray =>
      if type.inner = "char".toList then .charArray type.extent
      else if type.extent ≤ 0 then unknown
      else match lookup builtinTypes type.inner with
        | some cppType => .array cppType type.extent
        | none => if isHandle type.inner then .array "EntityRef".toList type.extent else unknown
  | .atomic =>
      if type.atomic = some .collectionOfT then .address
      else if type.atomic = some .t ∧ isHandle type.name then .handle "EntityRef".toList
      else (lookup atomicTypes type.name).elim unknown .value
  | .bitfield => unknown
  | .other category => .skipped (category ++ " ".toList ++ type.name)

def resolveField (entry : Text) (dumped : DumpedField) (dump : Dump) :
    Except SchemaError SchemaField := do
  let (engineName, method, typeOverride) := parseManifestEntry entry
  let method ← method.elim (methodName engineName) .ok
  pure {
    engineName := engineName
    method := method
    offset := dumped.offset
    size := dumped.size
    kind := typeOverride.elim (fieldKind dump dumped.type) .value
    engineType := dumped.type.name
    networked := dumped.networked }

theorem resolveField_kind {entry : Text} {dumped : DumpedField} {dump : Dump} {field : SchemaField}
    (resolved : resolveField entry dumped dump = .ok field) :
    field.kind = (parseManifestEntry entry).2.2.elim (fieldKind dump dumped.type) .value := by
  unfold resolveField at resolved
  cases named : (parseManifestEntry entry).2.1.elim
      (methodName (parseManifestEntry entry).1) .ok with
  | error error => simp [named, bind, Except.bind] at resolved
  | ok method =>
      simp only [named, bind, Except.bind, pure, Except.pure, Except.ok.injEq] at resolved
      subst resolved
      rfl

theorem fieldKind_view {dump : Dump} {type : DumpedType} {viewClass : Text} {embedded : Bool}
    (view : fieldKind dump type = .view viewClass embedded) :
    (dump.find viewClass).isSome = true := by
  unfold fieldKind at view
  cases category : type.category with
  | declaredClass =>
      simp only [category] at view
      split at view
      · next known =>
          cases view
          exact known
      · cases view
  | pointer =>
      simp only [category] at view
      split at view
      · next known =>
          cases view
          exact known
      · cases view
  | builtin =>
      simp only [category] at view
      cases known : lookup builtinTypes type.name <;> simp [known] at view
  | atomic =>
      simp only [category] at view
      split_ifs at view
      cases known : lookup atomicTypes type.name <;> simp [known] at view
  | fixedArray =>
      simp only [category] at view
      split_ifs at view
      · split at view
        · cases view
        · cases view
      · split at view
        · cases view
        · cases view
  | declaredEnum => simp [category] at view
  | bitfield => simp [category] at view
  | other name => simp [category] at view

/-- A class a view returns is one the dump has. -/
theorem resolveField_view {entry : Text} {dumped : DumpedField} {dump : Dump} {field : SchemaField}
    (resolved : resolveField entry dumped dump = .ok field) {viewClass : Text} {embedded : Bool}
    (view : field.kind = .view viewClass embedded) : (dump.find viewClass).isSome = true := by
  rw [resolveField_kind resolved] at view
  cases override : (parseManifestEntry entry).2.2 with
  | none =>
      rw [override] at view
      exact fieldKind_view view
  | some cppType =>
      rw [override] at view
      cases view

end VoltMod.SchemaGen
