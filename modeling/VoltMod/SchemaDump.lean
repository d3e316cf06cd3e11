import Mathlib.Data.Char
import Mathlib.Data.List.Lex
import VoltMod.SchemaClasses

/-! Host/Schema/SchemaFields.hpp and SchemaDump.cpp: the engine's schema, and the dump the generator
reads. The pointers to first bases are the list of the classes above; enumerators are left out. -/
namespace VoltMod.SchemaDump
open MigrationText (Text)
open SchemaGen

/-- `size` where the type tells one; `type` is what `DescribeType` reads of it. -/
structure LiveField where
  name : Option Text
  offset : Offset
  size : Option Int
  type : DumpedType
  deriving DecidableEq, Repr

structure Declared where
  name : Option Text
  size : Int
  fields : List LiveField
  deriving DecidableEq, Repr

structure LiveClass extends Declared where
  /-- Its first base, that one's first base, and so on. -/
  bases : List Declared
  deriving DecidableEq, Repr

/-- The owner link field a replicated component carries. -/
def chainField : Text := "__m_pChainEntity".toList

/-- Most-derived first. -/
def findField (klass : LiveClass) (field : Text) : Option LiveField :=
  (klass.toDeclared :: klass.bases).findSome? fun declared =>
    declared.fields.find? fun held => held.name = some field

/-- The class bindings of a scope, a hash by name. -/
structure Scope where
  classes : List LiveClass
  distinct : (classes.filterMap fun klass => klass.name).Nodup

def Scope.findDeclaredClass (scope : Scope) (name : Text) : Option LiveClass :=
  scope.classes.find? fun klass => klass.name = some name

/-- A server class hides a global one of its name. -/
def findClass (global : Option Scope) (server : Scope) (name : Text) : Option LiveClass :=
  (server.findDeclaredClass name).or (global.bind fun scope => scope.findDeclaredClass name)

/-- `networked` is the class's serializer, which knows no field of a class that is not networked. -/
def describeField (networked : Text → Bool) (field : LiveField) : Option DumpedField :=
  field.name.map fun name => ⟨name, field.offset, field.size.getD 0, networked name, field.type⟩

def describeClass (networked : Text → Bool) (klass : LiveClass) : DumpedClass where
  size := klass.size
  base := (klass.bases.head?.bind Declared.name).getD []
  chainOffset := ((findField klass chainField).map LiveField.offset).getD (-1)
  fields := klass.fields.filterMap (describeField networked)

/-- `insert_or_assign` -/
def assign {Value : Type} (name : Text) (value : Value) (entries : List (Text × Value)) :
    List (Text × Value) :=
  entries.filter (fun entry => entry.1 ≠ name) ++ [(name, value)]

def mergeClass (networked : Text → Text → Bool) (classes : List (Text × DumpedClass))
    (klass : LiveClass) : List (Text × DumpedClass) :=
  match klass.name with
  | none => classes
  | some name => assign name (describeClass (networked name) klass) classes

def mergeScope (networked : Text → Text → Bool) (scope : Scope)
    (classes : List (Text × DumpedClass)) : List (Text × DumpedClass) :=
  scope.classes.foldl (mergeClass networked) classes

/-- An ordered map keeps the file stable; server definitions override global ones. -/
def dumpedClasses (networked : Text → Text → Bool) (global : Option Scope) (server : Scope) :
    List (Text × DumpedClass) :=
  let classes := global.elim [] fun scope => mergeScope networked scope []
  (mergeScope networked server classes).mergeSort fun first second => first.1 ≤ second.1

section Merge
variable {networked : Text → Text → Bool} {classes : List (Text × DumpedClass)} {name : Text}
  {dumped : DumpedClass}

theorem mem_assign {Value : Type} {key : Text} {held value : Value}
    {entries : List (Text × Value)} :
    (key, held) ∈ assign name value entries ↔
      key = name ∧ held = value ∨ key ≠ name ∧ (key, held) ∈ entries := by
  simp only [assign, List.mem_append, List.mem_filter, List.mem_singleton, Prod.mk.injEq,
    decide_eq_true_iff]
  tauto

theorem assign_distinct {Value : Type} {value : Value} {entries : List (Text × Value)}
    (distinct : (entries.map Prod.fst).Nodup) :
    ((assign name value entries).map Prod.fst).Nodup := by
  rw [assign, List.map_append, List.nodup_append]
  refine ⟨(List.filter_sublist.map Prod.fst).nodup distinct, List.nodup_singleton _, ?_⟩
  rintro key held other last rfl
  obtain ⟨entry, kept, rfl⟩ := List.mem_map.mp held
  have apart := (List.mem_filter.mp kept).2
  rw [decide_eq_true_iff] at apart
  exact apart (List.mem_singleton.mp last)

theorem merge_distinct {found : List LiveClass} (distinct : (classes.map Prod.fst).Nodup) :
    ((found.foldl (mergeClass networked) classes).map Prod.fst).Nodup := by
  induction found generalizing classes with
  | nil => exact distinct
  | cons klass rest ih =>
      apply ih
      unfold mergeClass
      split
      · exact distinct
      · exact assign_distinct distinct

/-- A scope's classes are described as they are; what it lacks stays as it was. -/
theorem mem_merge {found : List LiveClass}
    (distinct : (found.filterMap fun klass => klass.name).Nodup) :
    (name, dumped) ∈ found.foldl (mergeClass networked) classes ↔
      (∃ klass ∈ found, klass.name = some name ∧ dumped = describeClass (networked name) klass) ∨
        (∀ klass ∈ found, klass.name ≠ some name) ∧ (name, dumped) ∈ classes := by
  induction found generalizing classes with
  | nil => simp
  | cons klass rest ih =>
      cases called : klass.name with
      | none =>
          rw [List.filterMap_cons_none (by exact called)] at distinct
          simp [ih distinct, mergeClass, called]
      | some own =>
          rw [List.filterMap_cons_some (by exact called), List.nodup_cons, List.mem_filterMap]
            at distinct
          have later : ∀ other ∈ rest, other.name ≠ some own :=
            fun other member same => distinct.1 ⟨other, member, same⟩
          rw [List.foldl_cons, ih distinct.2]
          simp only [mergeClass, called, mem_assign, List.mem_cons, exists_eq_or_imp,
            forall_eq_or_imp, Option.some.injEq, ne_eq]
          by_cases same : own = name
          · subst same
            have none_ : ¬ ∃ klass ∈ rest, klass.name = some own ∧
                dumped = describeClass (networked own) klass :=
              fun ⟨other, member, again, _⟩ => later other member again
            simpa [none_] using fun _ => later
          · simp [same, Ne.symm same]

end Merge

/-- The dump that is written, as the generator reads it. -/
def writeDump (networked : Text → Text → Bool) (global : Option Scope) (server : Scope) : Dump where
  classes := dumpedClasses networked global server
  distinct := by
    have perm := List.mergeSort_perm (mergeScope networked server
      (global.elim [] fun scope => mergeScope networked scope []))
      fun first second : Text × DumpedClass => decide (first.1 ≤ second.1)
    rw [dumpedClasses, (perm.map Prod.fst).nodup_iff]
    apply merge_distinct
    cases global with
    | none => exact List.nodup_nil
    | some scope => exact merge_distinct List.nodup_nil

theorem find_iff (dump : Dump) {name : Text} {dumped : DumpedClass} :
    dump.find name = some dumped ↔ (name, dumped) ∈ dump.classes := by
  obtain ⟨classes, distinct⟩ := dump
  simp only [Dump.find]
  induction classes with
  | nil => simp
  | cons entry rest ih =>
      rw [List.map_cons, List.nodup_cons] at distinct
      by_cases same : entry.1 = name
      · subst same
        rw [List.find?_cons_of_pos (by simp)]
        constructor
        · rintro ⟨⟩
          exact List.mem_cons_self
        · intro member
          rcases List.mem_cons.mp member with same | later
          · rw [← same]
            rfl
          · exact absurd (List.mem_map_of_mem later) distinct.1
      · rw [List.find?_cons_of_neg (by simpa using same), ih distinct.2, List.mem_cons]
        constructor
        · exact .inr
        · rintro (rfl | later)
          · exact absurd rfl same
          · exact later

section Find
variable {networked : Text → Text → Bool} {global : Option Scope} {server : Scope} {name : Text}

theorem findDeclaredClass_iff {scope : Scope} {klass : LiveClass} :
    scope.findDeclaredClass name = some klass ↔
      klass ∈ scope.classes ∧ klass.name = some name := by
  obtain ⟨classes, distinct⟩ := scope
  simp only [Scope.findDeclaredClass]
  induction classes with
  | nil => simp
  | cons first rest ih =>
      by_cases same : first.name = some name
      · rw [List.find?_cons_of_pos (by simpa using same)]
        rw [List.filterMap_cons_some (by exact same), List.nodup_cons, List.mem_filterMap]
          at distinct
        constructor
        · rintro ⟨⟩
          exact ⟨List.mem_cons_self, same⟩
        · rintro ⟨member, called⟩
          rcases List.mem_cons.mp member with rfl | later
          · rfl
          · exact absurd ⟨klass, later, called⟩ distinct.1
      · have rest_ : (rest.filterMap fun klass => klass.name).Nodup := by
          refine (List.Sublist.filterMap _ (List.sublist_cons_self first rest)).nodup distinct
        rw [List.find?_cons_of_neg (by simpa using same), ih rest_, List.mem_cons]
        constructor
        · rintro ⟨member, called⟩
          exact ⟨.inr member, called⟩
        · rintro ⟨rfl | member, called⟩
          · exact absurd called same
          · exact ⟨member, called⟩

theorem described_iff {scope : Scope} {dumped : DumpedClass} :
    (∃ klass ∈ scope.classes, klass.name = some name ∧
      dumped = describeClass (networked name) klass) ↔
      (scope.findDeclaredClass name).map (describeClass (networked name)) = some dumped := by
  rw [Option.map_eq_some_iff]
  constructor
  · rintro ⟨klass, member, called, same⟩
    exact ⟨klass, findDeclaredClass_iff.mpr ⟨member, called⟩, same.symm⟩
  · rintro ⟨klass, found, same⟩
    obtain ⟨member, called⟩ := findDeclaredClass_iff.mp found
    exact ⟨klass, member, called, same.symm⟩

/-- The dump describes the classes that a lookup in the same scopes finds. -/
theorem writeDump_find : (writeDump networked global server).find name =
    (findClass global server name).map (describeClass (networked name)) := by
  apply Option.ext
  intro dumped
  have perm := List.mergeSort_perm (mergeScope networked server
    (global.elim [] fun scope => mergeScope networked scope []))
    fun first second : Text × DumpedClass => decide (first.1 ≤ second.1)
  rw [find_iff]
  show (name, dumped) ∈ dumpedClasses networked global server ↔ _
  rw [dumpedClasses, perm.mem_iff, mergeScope, mem_merge server.distinct, described_iff, findClass]
  have lacks : (∀ klass ∈ server.classes, klass.name ≠ some name) ↔
      server.findDeclaredClass name = none := by
    simp [Scope.findDeclaredClass]
  rw [lacks]
  cases held : server.findDeclaredClass name with
  | some klass => simp
  | none =>
      cases global with
      | none => simp
      | some scope => simp [mergeScope, mem_merge scope.distinct, described_iff]

end Find

/-- A base is the class found by its name, under the same bases. -/
def Rooted (find : Text → Option LiveClass) : Prop :=
  ∀ name klass, find name = some klass → ∀ base above, klass.bases = base :: above →
    ∃ own, base.name = some own ∧ own ≠ [] ∧ find own = some ⟨base, above⟩

section Links
variable {networked : Text → Text → Bool} {global : Option Scope} {server : Scope} {name : Text}

theorem described_base {klass : LiveClass} (found : findClass global server name = some klass) :
    baseOf (writeDump networked global server) name =
      unlessEmpty ((klass.bases.head?.bind Declared.name).getD []) := by
  rw [baseOf, writeDump_find, found]
  rfl

theorem declared_described {klass : LiveClass} {field : Text} {held : LiveField}
    (found : klass.fields.find? (fun held => held.name = some field) = some held) :
    ∃ dumped ∈ (describeClass (networked name) klass).fields,
      dumped.name = field ∧ dumped.offset = held.offset := by
  have called := List.find?_some found
  rw [decide_eq_true_iff] at called
  refine ⟨⟨field, held.offset, held.size.getD 0, networked name field, held.type⟩, ?_, rfl, rfl⟩
  refine List.mem_filterMap.mpr ⟨held, List.mem_of_find?_eq_some found, ?_⟩
  rw [describeField, called]
  rfl

/-- An owner link that a dump tells of is declared by the class or by one it derives from. -/
theorem link_declared (rooted : Rooted (findClass global server)) {klass : LiveClass}
    (found : findClass global server name = some klass) {link : LiveField}
    (linked : findField klass chainField = some link) :
    ∃ holder, (holder = name ∨
        Relation.TransGen (Walk.Follows (baseOf (writeDump networked global server))) name holder) ∧
      ∃ dumped, (writeDump networked global server).find holder = some dumped ∧
        ∃ field ∈ dumped.fields, field.name = chainField ∧ field.offset = link.offset := by
  obtain ⟨own, bases⟩ := klass
  induction bases generalizing own name with
  | nil =>
      refine ⟨name, .inl rfl, _, by rw [writeDump_find, found]; rfl, ?_⟩
      cases here : own.fields.find? fun held => held.name = some chainField with
      | none => simp [findField, here] at linked
      | some held =>
          have same : held = link := by simpa [findField, here] using linked
          exact same ▸ declared_described here
  | cons base above ih =>
      cases here : own.fields.find? fun held => held.name = some chainField with
      | some held =>
          refine ⟨name, .inl rfl, _, by rw [writeDump_find, found]; rfl, ?_⟩
          have same : held = link := by simpa [findField, here] using linked
          exact same ▸ declared_described here
      | none =>
          obtain ⟨parent, called, named, next⟩ := rooted name _ found base above rfl
          have follows : Walk.Follows (baseOf (writeDump networked global server)) name parent := by
            rw [Walk.Follows, described_base found]
            simp [called, unlessEmpty, named]
          have above_ : findField ⟨base, above⟩ chainField = some link := by
            simpa [findField, List.findSome?_cons, here] using linked
          obtain ⟨holder, reached, declared⟩ := ih base next above_
          refine ⟨holder, .inr ?_, declared⟩
          rcases reached with rfl | further
          · exact .single follows
          · exact .head follows further

end Links

end VoltMod.SchemaDump
