import VoltMod.SchemaFields
import VoltMod.Walk

/-! schemagen/resolve.py: the manifest's classes with the bases they derive from and the classes
their views return, and which structs are embedded in entities alone. -/
namespace VoltMod.SchemaGen
open MigrationText (Text)
open Walk (Follows)

/-- A class that derives from it replicates writes through the entity itself. -/
def entityBase : Text := "CEntityInstance".toList

inductive Selection where
  /-- `"*"`. -/
  | all
  | fields (entries : List Text)
  deriving DecidableEq, Repr

structure Manifest where
  classes : List (Text × Selection)
  distinct : (classes.map Prod.fst).Nodup

def baseOf (dump : Dump) (name : Text) : Option Text :=
  (dump.find name).bind fun dumped => unlessEmpty dumped.base

/-- The single-inheritance chain above the class, nearest first. -/
def baseClasses (dump : Dump) (name : Text) : List Text :=
  Walk.walk (baseOf dump) (dump.classes.length + 1) [] name

def newClass (dump : Dump) (name : Text) : Except SchemaError SchemaClass :=
  match dump.find name with
  | none => .error (.noKey name)
  | some dumped => .ok {
      name := name
      size := dumped.size
      ownerLinkOffset := dumped.chainOffset
      base := (baseClasses dump name).head?
      isEntity := name = entityBase || (baseClasses dump name).contains entityBase
      inEntity := false
      fields := [] }

/-- A later entry of one name takes the earlier one's place. -/
def byName (fields : List DumpedField) (name : Text) : Option DumpedField :=
  fields.reverse.find? fun field => field.name = name

def selected (fields : List DumpedField) : Selection → List Text
  | .all => (fields.map DumpedField.name).eraseDups
  | .fields entries => entries

def selectFields (dump : Dump) (name : Text) (dumped : List DumpedField) :
    List Text → Except SchemaError (List SchemaField)
  | [] => .ok []
  | entry :: rest => do
      let engineName := (parseManifestEntry entry).1
      match byName dumped engineName with
      | none => .error (.missingField name engineName)
      | some field => do
          let field ← resolveField entry field dump
          let fields ← selectFields dump name dumped rest
          pure (field :: fields)

/-- No two fields share an accessor; `seen` holds the fields before, latest first. -/
def checkMethods (name : Text) (seen : List SchemaField) : List SchemaField → Except SchemaError Unit
  | [] => .ok ()
  | field :: rest =>
      match seen.find? fun other => other.method = field.method with
      | some other => .error (.sameMethod name field.engineName other.engineName field.method)
      | none => checkMethods name (field :: seen) rest

def resolveClass (dump : Dump) (name : Text) (entries : Selection) :
    Except SchemaError SchemaClass :=
  match dump.find name with
  | none => .error (.missingClass name)
  | some dumped => do
      let schemaClass ← newClass dump name
      let fields ← selectFields dump name dumped.fields (selected dumped.fields entries)
      checkMethods name [] fields
      pure { schemaClass with fields := fields }

/-- The manifest's classes, and every base of one as a class that selects nothing. -/
def wantedClasses (dump : Dump) (manifest : Manifest) : List (Text × Selection) :=
  manifest.classes.foldl (fun wanted entry =>
    (baseClasses dump entry.1).foldl (fun wanted base =>
      if (wanted.map Prod.fst).contains base then wanted
      else wanted ++ [(base, .fields [])]) wanted)
    manifest.classes

def resolveEach (dump : Dump) : List (Text × Selection) → Except SchemaError (List SchemaClass)
  | [] => .ok []
  | (name, entries) :: rest => do
      let schemaClass ← resolveClass dump name entries
      let classes ← resolveEach dump rest
      pure (schemaClass :: classes)

def findClass (classes : List SchemaClass) (name : Text) : Option SchemaClass :=
  classes.find? fun schemaClass => schemaClass.name = name

/-- The classes that views return and nothing generates yet. -/
def missing (classes : List SchemaClass) : List Text :=
  (classes.flatMap SchemaClass.fields).filterMap fun field =>
    match field.kind with
    | .view viewClass _ => if (findClass classes viewClass).isNone then some viewClass else none
    | _ => none

def pull (dump : Dump) (classes : List SchemaClass) : List Text →
    Except SchemaError (List SchemaClass)
  | [] => .ok classes
  | name :: rest =>
      if (findClass classes name).isSome then pull dump classes rest
      else do
        let schemaClass ← newClass dump name
        pull dump (classes ++ [schemaClass]) rest

/-- The loop, bounded: what a turn pulls in selects nothing, so the second finds nothing missing. -/
def addViewClasses (dump : Dump) : Nat → List SchemaClass → Except SchemaError (List SchemaClass)
  | 0, classes => .ok classes
  | turns + 1, classes =>
      if missing classes = [] then .ok classes
      else do
        let classes ← pull dump classes
          ((missing classes).eraseDups.flatMap fun name => name :: baseClasses dump name)
        addViewClasses dump turns classes

def embeds (name : Text) (holder : SchemaClass) : Bool :=
  holder.fields.any fun field => field.kind = .view name true

/-- An embedded struct gets setters only when every class holding it is rooted in an entity. -/
def markEmbeddedInEntity (classes : List SchemaClass) : List SchemaClass :=
  classes.map fun schemaClass =>
    let owners := classes.filter (embeds schemaClass.name)
    { schemaClass with inEntity := owners ≠ [] && owners.all SchemaClass.isEntity }

def resolveClasses (dump : Dump) (manifest : Manifest) : Except SchemaError (List SchemaClass) := do
  let classes ← resolveEach dump (wantedClasses dump manifest)
  let classes ← addViewClasses dump 2 classes
  pure (markEmbeddedInEntity classes)

theorem baseOf_known (dump : Dump) (name : Text) (step : (baseOf dump name).isSome = true) :
    name ∈ dump.classes.map Prod.fst := by
  obtain ⟨base, step⟩ := Option.isSome_iff_exists.mp step
  obtain ⟨dumped, found, _⟩ := Option.bind_eq_some_iff.mp step
  obtain ⟨entry, found, _⟩ := Option.map_eq_some_iff.mp found
  have same := List.find?_some found
  exact List.mem_map.mpr ⟨entry, List.mem_of_find?_eq_some found, by simpa using same⟩

/-- The chain holds exactly the class's ancestors, wherever a dump's bases lead. -/
theorem mem_baseClasses (dump : Dump) (name base : Text) :
    base ∈ baseClasses dump name ↔ Relation.TransGen (Follows (baseOf dump)) name base := by
  have walked := Walk.mem_walk (baseOf_known dump) name base
  rwa [List.length_map] at walked

theorem baseClasses_head (dump : Dump) (name : Text) :
    (baseClasses dump name).head? = baseOf dump name :=
  Walk.walk_head ..

/-- What a class is made with, whatever it selects. -/
structure Made (dump : Dump) (schemaClass : SchemaClass) : Prop where
  dumped : ∃ dumped, dump.find schemaClass.name = some dumped
  base : schemaClass.base = baseOf dump schemaClass.name
  isEntity : schemaClass.isEntity = true ↔
    schemaClass.name = entityBase ∨ entityBase ∈ baseClasses dump schemaClass.name
  views : ∀ field ∈ schemaClass.fields, ∀ viewClass embedded,
    field.kind = .view viewClass embedded → (dump.find viewClass).isSome = true


section Made
variable {dump : Dump} {name : Text} {schemaClass : SchemaClass}

theorem newClass_made (new : newClass dump name = .ok schemaClass) :
    Made dump schemaClass ∧ schemaClass.name = name ∧ schemaClass.fields = [] := by
  unfold newClass at new
  split at new
  · cases new
  · next dumped found =>
      cases new
      refine ⟨⟨⟨dumped, found⟩, baseClasses_head dump name, ?_, nofun⟩, rfl, rfl⟩
      simp

theorem selectFields_views {dumped : List DumpedField} {entries : List Text}
    {fields : List SchemaField} (resolved : selectFields dump name dumped entries = .ok fields) :
    ∀ field ∈ fields, ∀ viewClass embedded, field.kind = .view viewClass embedded →
      (dump.find viewClass).isSome = true := by
  induction entries generalizing fields with
  | nil =>
      cases resolved
      exact nofun
  | cons entry rest ih =>
      simp only [selectFields] at resolved
      split at resolved
      · cases resolved
      · next dumpedField found =>
          simp only [bind_ok_iff] at resolved
          obtain ⟨first, one, others, more, same⟩ := resolved
          cases same
          intro field member viewClass embedded view
          rcases List.mem_cons.mp member with rfl | later
          · exact resolveField_view one view
          · exact ih more field later viewClass embedded view

theorem resolveClass_made {entries : Selection}
    (resolved : resolveClass dump name entries = .ok schemaClass) : Made dump schemaClass := by
  unfold resolveClass at resolved
  split at resolved
  · cases resolved
  · next dumped found =>
      simp only [bind_ok_iff] at resolved
      obtain ⟨empty, new, fields, selected, _, _, same⟩ := resolved
      cases same
      obtain ⟨made, _, _⟩ := newClass_made new
      exact { made with views := selectFields_views selected }

theorem resolveEach_made {wanted : List (Text × Selection)} {classes : List SchemaClass}
    (resolved : resolveEach dump wanted = .ok classes) :
    ∀ schemaClass ∈ classes, Made dump schemaClass := by
  induction wanted generalizing classes with
  | nil =>
      cases resolved
      exact nofun
  | cons entry rest ih =>
      simp only [resolveEach, bind_ok_iff] at resolved
      obtain ⟨first, one, others, more, same⟩ := resolved
      cases same
      intro schemaClass member
      rcases List.mem_cons.mp member with rfl | later
      · exact resolveClass_made one
      · exact ih more schemaClass later

/-- A class derives from an entity only where it is one. -/
theorem derived_isEntity {base : SchemaClass} (made : Made dump schemaClass)
    (above : Made dump base) (derives : schemaClass.base = some base.name)
    (entity : base.isEntity = true) : schemaClass.isEntity = true := by
  have step : baseOf dump schemaClass.name = some base.name := made.base.symm.trans derives
  rw [made.isEntity, mem_baseClasses, Walk.transGen_of_follows step]
  rw [above.isEntity, mem_baseClasses] at entity
  exact Or.inr (entity.imp_left Eq.symm)

end Made

section ViewClasses
variable {dump : Dump} {classes after : List SchemaClass}

theorem findClass_isSome {name : Text} :
    (findClass classes name).isSome = true ↔ ∃ schemaClass ∈ classes, schemaClass.name = name := by
  simp [findClass]

structure Pulled (dump : Dump) (classes : List SchemaClass) (names : List Text)
    (after : List SchemaClass) : Prop where
  kept : ∀ schemaClass ∈ classes, schemaClass ∈ after
  found : ∀ name ∈ names, (findClass after name).isSome = true
  new : ∀ schemaClass ∈ after, schemaClass ∈ classes ∨
    Made dump schemaClass ∧ schemaClass.fields = []

theorem pull_pulled {names : List Text} (pulled : pull dump classes names = .ok after) :
    Pulled dump classes names after := by
  induction names generalizing classes with
  | nil =>
      cases pulled
      exact ⟨fun _ member => member, nofun, fun _ member => Or.inl member⟩
  | cons name rest ih =>
      simp only [pull] at pulled
      split at pulled
      · next here =>
          have result := ih pulled
          refine ⟨result.kept, fun wanted member => ?_, result.new⟩
          rcases List.mem_cons.mp member with rfl | later
          · obtain ⟨schemaClass, inside, same⟩ := findClass_isSome.mp here
            exact findClass_isSome.mpr ⟨schemaClass, result.kept _ inside, same⟩
          · exact result.found wanted later
      · obtain ⟨schemaClass, new, more⟩ := (bind_ok_iff ..).mp pulled
        obtain ⟨made, named, empty⟩ := newClass_made new
        have result := ih more
        refine ⟨fun old member => result.kept old (List.mem_append_left _ member),
          fun wanted member => ?_, fun other member => ?_⟩
        · rcases List.mem_cons.mp member with rfl | later
          · exact findClass_isSome.mpr ⟨schemaClass, result.kept _ (by simp), named⟩
          · exact result.found wanted later
        · rcases result.new other member with old | new
          · rcases List.mem_append.mp old with old | last
            · exact Or.inl old
            · rw [List.mem_singleton.mp last]
              exact Or.inr ⟨made, empty⟩
          · exact Or.inr new

theorem mem_missing {viewClass : Text} : viewClass ∈ missing classes ↔
    (findClass classes viewClass).isSome = false ∧ ∃ schemaClass ∈ classes,
      ∃ field ∈ schemaClass.fields, ∃ embedded, field.kind = .view viewClass embedded := by
  simp only [missing, List.mem_filterMap, List.mem_flatMap]
  constructor
  · rintro ⟨field, ⟨schemaClass, member, selected⟩, lacking⟩
    split at lacking
    · next name embedded view =>
        obtain ⟨absent, same⟩ := Option.ite_none_right_eq_some.mp lacking
        cases same
        exact ⟨by simpa using absent, schemaClass, member, field, selected, embedded, view⟩
    · cases lacking
  · rintro ⟨absent, schemaClass, member, field, selected, embedded, view⟩
    exact ⟨field, ⟨schemaClass, member, selected⟩, by simpa [view] using absent⟩

/-- What is pulled in selects nothing, so nothing is missing after a turn. -/
theorem missing_pulled
    (pulled : pull dump classes
      ((missing classes).eraseDups.flatMap fun name => name :: baseClasses dump name) =
        .ok after) : missing after = [] := by
  have result := pull_pulled pulled
  apply List.eq_nil_iff_forall_not_mem.mpr
  intro viewClass lacking
  obtain ⟨absent, schemaClass, member, field, selected, embedded, view⟩ := mem_missing.mp lacking
  rcases result.new schemaClass member with old | ⟨_, empty⟩
  · have present : (findClass after viewClass).isSome = true := by
      cases before : (findClass classes viewClass).isSome with
      | true =>
          obtain ⟨other, inside, same⟩ := findClass_isSome.mp before
          exact findClass_isSome.mpr ⟨other, result.kept other inside, same⟩
      | false =>
          refine result.found viewClass (List.mem_flatMap.mpr ⟨viewClass, ?_, by simp⟩)
          exact List.mem_eraseDups.mpr
            (mem_missing.mpr ⟨before, schemaClass, old, field, selected, embedded, view⟩)
    rw [present] at absent
    cases absent
  · rw [empty] at selected
    cases selected

/-- Two turns of the loop are all there are. -/
theorem addViewClasses_turns (turns : Nat) (classes : List SchemaClass) :
    addViewClasses dump (turns + 2) classes = addViewClasses dump 2 classes := by
  rw [addViewClasses, addViewClasses]
  split
  · rfl
  · cases pulled : pull dump classes
        ((missing classes).eraseDups.flatMap fun name => name :: baseClasses dump name) with
    | error failure => rfl
    | ok after =>
        show addViewClasses dump (turns + 1) after = addViewClasses dump 1 after
        simp [addViewClasses, missing_pulled pulled]

theorem addViewClasses_complete (added : addViewClasses dump 2 classes = .ok after)
    (made : ∀ schemaClass ∈ classes, Made dump schemaClass) :
    missing after = [] ∧ ∀ schemaClass ∈ after, Made dump schemaClass := by
  rw [addViewClasses] at added
  split at added
  · next complete =>
      cases added
      exact ⟨complete, made⟩
  · obtain ⟨middle, pulled, added⟩ := (bind_ok_iff ..).mp added
    have complete := missing_pulled pulled
    rw [addViewClasses, if_pos complete] at added
    cases added
    refine ⟨complete, fun schemaClass member => ?_⟩
    rcases (pull_pulled pulled).new schemaClass member with old | ⟨new, _⟩
    · exact made schemaClass old
    · exact new

end ViewClasses

/-- What the generator renders. -/
structure Resolved (dump : Dump) (classes : List SchemaClass) : Prop where
  made : ∀ schemaClass ∈ classes, Made dump schemaClass
  complete : missing classes = []
  inEntity : ∀ schemaClass ∈ classes, schemaClass.inEntity = true ↔
    (∃ holder ∈ classes, embeds schemaClass.name holder = true) ∧
      ∀ holder ∈ classes, embeds schemaClass.name holder = true → holder.isEntity = true

theorem resolveClasses_resolved {dump : Dump} {manifest : Manifest} {classes : List SchemaClass}
    (resolved : resolveClasses dump manifest = .ok classes) : Resolved dump classes := by
  simp only [resolveClasses, bind_ok_iff] at resolved
  obtain ⟨chosen, each, all, added, same⟩ := resolved
  cases same
  obtain ⟨complete, made⟩ := addViewClasses_complete added (resolveEach_made each)
  refine ⟨?_, List.eq_nil_iff_forall_not_mem.mpr fun viewClass lacking => ?_, ?_⟩
  · intro marked member
    obtain ⟨schemaClass, inside, rfl⟩ := List.mem_map.mp member
    exact { made schemaClass inside with }
  · obtain ⟨absent, marked, member, field, selected, embedded, view⟩ := mem_missing.mp lacking
    obtain ⟨schemaClass, inside, rfl⟩ := List.mem_map.mp member
    refine List.eq_nil_iff_forall_not_mem.mp complete viewClass
      (mem_missing.mpr ⟨?_, schemaClass, inside, field, selected, embedded, view⟩)
    simpa [findClass, markEmbeddedInEntity] using absent
  · intro marked member
    obtain ⟨schemaClass, inside, rfl⟩ := List.mem_map.mp member
    rw [Bool.and_eq_true, decide_eq_true_iff, List.all_eq_true]
    refine and_congr ⟨fun some => ?_, ?_⟩ ⟨fun each => ?_, fun each owner inside => ?_⟩
    · obtain ⟨owner, inside⟩ := List.exists_mem_of_ne_nil _ some
      obtain ⟨old, holds⟩ := List.mem_filter.mp inside
      exact ⟨_, List.mem_map_of_mem old, holds⟩
    · rintro ⟨holder, member, holds⟩
      obtain ⟨owner, old, rfl⟩ := List.mem_map.mp member
      exact List.ne_nil_of_mem (List.mem_filter.mpr ⟨old, holds⟩)
    · intro holder member holds
      obtain ⟨owner, old, rfl⟩ := List.mem_map.mp member
      exact each owner (List.mem_filter.mpr ⟨old, holds⟩)
    · obtain ⟨old, holds⟩ := List.mem_filter.mp inside
      have entity := each _ (List.mem_map.mpr ⟨owner, old, rfl⟩) holds
      exact entity

end VoltMod.SchemaGen
