import VoltMod.SchemaViews

/-! Whether every write through a generated view reaches the entity that owns the field. Which
classes get setters is decided over the whole dump; which entity a view notifies travels with it.
The two agree where no struct kept for entities is reached behind a pointer. -/
namespace VoltMod.SchemaGen
open MigrationText (Text)
open Relation (ReflTransGen)

section Promise
variable (classes : List SchemaClass) (memory : Memory)

/-- An object that lies in an entity by value: its bases and the structs embedded in it. -/
inductive Within (entity : Int) : SchemaClass → Int → Prop where
  | self {schemaClass : SchemaClass} (isEntity : schemaClass.isEntity = true) :
      Within entity schemaClass entity
  | toBase {schemaClass base : SchemaClass} {address : Int} {name : Text}
      (within : Within entity schemaClass address) (derives : schemaClass.base = some name)
      (found : findClass classes name = some base) : Within entity base address
  | embedded {schemaClass part : SchemaClass} {address : Int} {field : SchemaField}
      {viewClass : Text} (within : Within entity schemaClass address)
      (selected : field ∈ schemaClass.fields) (kind : field.kind = .view viewClass true)
      (found : findClass classes viewClass = some part) :
      Within entity part (address + field.offset.toInt)

/-- A notice that reaches the field's owner: the entity its class's link points at, with the
field's offset in the component, or the entity it lies in, with the offset there. -/
inductive Tells (schemaClass : SchemaClass) (base address : Int) : Notice → Prop where
  | link (linked : schemaClass.linked = true) :
      Tells schemaClass base address ⟨memory.pointer (schemaClass.link base),
        BitVec.ofInt 32 (address - base), some (memory.pathIndex (schemaClass.link base + 0x20))⟩
  | entity (unlinked : schemaClass.linked = false) (entity : Int)
      (within : Within classes entity schemaClass base) :
      Tells schemaClass base address ⟨entity, BitVec.ofInt 32 (address - entity), none⟩

/-- Every owner link points at an entity. -/
def LinksPoint : Prop :=
  ∀ schemaClass view, Reached classes memory schemaClass view → view.base ≠ 0 →
    schemaClass.linked = true → memory.pointer (schemaClass.link view.base) ≠ 0

/-- Every write of a networked field is told to its owner, and a class that is reached with no
owner has no setters. -/
structure Replicated : Prop where
  told : ∀ memory, LinksPoint classes memory → ∀ schemaClass view,
    Reached classes memory schemaClass view → view.base ≠ 0 →
    ∀ field ∈ schemaClass.fields, field.networked = true →
    ∀ code setter, accessorCode schemaClass field = some code → code.setter = some setter →
    ∀ index, setter.write.passes index = true →
      ∃ address notice, setter.run memory view index = ⟨some address, some notice⟩ ∧
        Tells classes memory schemaClass view.base address notice
  owned : ∀ memory schemaClass view, Reached classes memory schemaClass view → view.base ≠ 0 →
    view.owner = 0 → schemaClass.linked = false →
    ∀ field ∈ schemaClass.fields, ∀ code, accessorCode schemaClass field = some code →
      code.setter = none

end Promise

section Behind
variable (classes : List SchemaClass)

/-- A base of the class, or a struct it embeds and hands out. -/
def Part (whole part : SchemaClass) : Prop :=
  (∃ name, whole.base = some name ∧ findClass classes name = some part) ∨
    ∃ field ∈ whole.fields, ∃ viewClass, field.kind = .view viewClass true ∧
      findClass classes viewClass = some part ∧ part.isEntity = false

def Points (holder target : SchemaClass) : Prop :=
  ∃ field ∈ holder.fields, ∃ viewClass, field.kind = .view viewClass false ∧
    findClass classes viewClass = some target

def Reachable (schemaClass : SchemaClass) : Prop :=
  ∃ entity ∈ classes, entity.isEntity = true ∧
    ReflTransGen (fun holder other => Part classes holder other ∨ Points classes holder other)
      entity schemaClass

/-- It can lie behind a pointer, in an object that is no entity. -/
def Behind (schemaClass : SchemaClass) : Prop :=
  ∃ holder target, Reachable classes holder ∧ Points classes holder target ∧
    target.isEntity = false ∧ ReflTransGen (Part classes) target schemaClass

/-- No struct that selects a field to assign, has no owner link and is embedded in entities, and in
nothing else, can lie behind a pointer. -/
def KeptByValue : Prop :=
  ∀ schemaClass, Behind classes schemaClass → schemaClass.linked = false →
    (∃ holder ∈ classes, embeds schemaClass.name holder = true) →
    (∀ holder ∈ classes, embeds schemaClass.name holder = true → holder.isEntity = true) →
    ∀ field ∈ schemaClass.fields, writeOf field = none

end Behind

section Views
variable {dump : Dump} {classes : List SchemaClass} {memory : Memory} {schemaClass : SchemaClass}
  {view : View}

/-- What a view of a class with an owner knows of it. -/
structure Owned (classes : List SchemaClass) (schemaClass : SchemaClass) (view : View) : Prop where
  there : view.owner ≠ 0
  within : Within classes view.owner schemaClass view.base
  offset : view.ownerOffset = BitVec.ofInt 32 (view.base - view.owner)
  reachable : Reachable classes schemaClass

theorem Reachable.next {holder other : SchemaClass} (reachable : Reachable classes holder)
    (step : Part classes holder other ∨ Points classes holder other) : Reachable classes other := by
  obtain ⟨entity, member, isEntity, path⟩ := reachable
  exact ⟨entity, member, isEntity, path.tail step⟩

theorem Reachable.member (reachable : Reachable classes schemaClass) : schemaClass ∈ classes := by
  obtain ⟨entity, member, _, path⟩ := reachable
  cases path with
  | refl => exact member
  | tail _ step =>
      rcases step with (⟨_, _, found⟩ | ⟨_, _, _, _, found, _⟩) | ⟨_, _, _, _, found⟩
      · exact (findClass_mem found).1
      · exact (findClass_mem found).1
      · exact (findClass_mem found).1

theorem Behind.part {whole part : SchemaClass} (behind : Behind classes whole)
    (step : Part classes whole part) : Behind classes part := by
  obtain ⟨holder, target, reachable, points, plain, path⟩ := behind
  exact ⟨holder, target, reachable, points, plain, path.tail step⟩

theorem Behind.reachable (behind : Behind classes schemaClass) : Reachable classes schemaClass := by
  obtain ⟨holder, target, reachable, points, _, path⟩ := behind
  have start := reachable.next (Or.inr points)
  clear points
  induction path with
  | refl => exact start
  | tail _ step ih => exact ih.next (Or.inl step)

theorem part_plain {whole part : SchemaClass} (resolved : Resolved dump classes)
    (member : whole ∈ classes) (plain : whole.isEntity = false) (step : Part classes whole part) :
    part ∈ classes ∧ part.isEntity = false := by
  rcases step with ⟨name, derives, found⟩ | ⟨field, _, viewClass, _, found, plain⟩
  · obtain ⟨inside, rfl⟩ := findClass_mem found
    refine ⟨inside, Bool.eq_false_iff.mpr fun entity => ?_⟩
    have entity := derived_isEntity (resolved.made whole member) (resolved.made part inside)
      derives entity
    rw [plain] at entity
    cases entity
  · exact ⟨(findClass_mem found).1, plain⟩

theorem behind_plain (resolved : Resolved dump classes) (behind : Behind classes schemaClass) :
    schemaClass ∈ classes ∧ schemaClass.isEntity = false := by
  obtain ⟨holder, target, _, ⟨field, _, viewClass, _, found⟩, plain, path⟩ := behind
  induction path with
  | refl => exact ⟨(findClass_mem found).1, plain⟩
  | tail _ step ih => exact part_plain resolved ih.1 ih.2 step

theorem offset_inside (offset : view.ownerOffset = BitVec.ofInt 32 (view.base - view.owner))
    (constant : Offset) : (view.inside constant).ownerOffset =
      BitVec.ofInt 32 ((view.inside constant).base - (view.inside constant).owner) := by
  have apart : view.base + constant.toInt - view.owner =
      view.base - view.owner + constant.toInt := by omega
  rw [View.inside, apart, BitVec.ofInt_add, BitVec.ofInt_toInt, offset]

theorem owned_construct (member : schemaClass ∈ classes) (isEntity : schemaClass.isEntity = true)
    (address : Int) (there : address ≠ 0) :
    Owned classes schemaClass (schemaClass.construct address) := by
  rw [SchemaClass.construct, if_pos isEntity]
  exact ⟨there, .self isEntity, by simp, schemaClass, member, isEntity, .refl⟩

/-- A view is null, or knows its owner, or was reached behind a pointer. -/
theorem reached_cases
    (reached : Reached classes memory schemaClass view) :
    view.base = 0 ∨ Owned classes schemaClass view ∨
      view.owner = 0 ∧ Behind classes schemaClass := by
  induction reached with
  | entity member isEntity address =>
      by_cases there : address = 0
      · exact Or.inl (by simp [SchemaClass.construct, isEntity, there])
      · exact Or.inr (Or.inl (owned_construct member isEntity address there))
  | @toBase derived base view name reached derives found ih =>
      have part : Part classes derived base := Or.inl ⟨name, derives, found⟩
      refine ih.imp_right (Or.imp (fun owned => ?_) (And.imp_right fun behind => behind.part part))
      exact ⟨owned.there, owned.within.toBase derives found, owned.offset,
        owned.reachable.next (Or.inl part)⟩
  | @accessor holder target view next field code reached selected generated ran ih =>
      obtain ⟨viewClass, embedded, kind, found, plain, rfl⟩ :=
        handsOut_iff.mp ⟨code, generated, ran⟩
      by_cases null : view.base = 0
      · exact Or.inl (by simp [handedOut, null, View.null])
      · have ih := ih.resolve_left null
        cases embedded with
        | true =>
            have part : Part classes holder target :=
              Or.inr ⟨field, selected, viewClass, kind, found, plain rfl⟩
            simp only [handedOut, null, if_false, if_true]
            refine Or.inr (ih.imp (fun owned => ?_) (And.imp_right fun behind => behind.part part))
            refine ⟨owned.there, owned.within.embedded selected kind found, ?_,
              owned.reachable.next (Or.inl part)⟩
            exact offset_inside owned.offset field.offset
        | false =>
            have points : Points classes holder target :=
              ⟨field, selected, viewClass, kind, found⟩
            have reachable : Reachable classes holder :=
              ih.elim (fun owned => owned.reachable) fun behind => behind.2.reachable
            simp only [handedOut, null, if_false, Bool.false_eq_true]
            by_cases there : memory.pointer (view.base + field.offset.toInt) = 0
            · apply Or.inl
              rw [there, SchemaClass.construct]
              split <;> rfl
            · cases isEntity : target.isEntity with
              | true =>
                  exact Or.inr (Or.inl (owned_construct (findClass_mem found).1 isEntity _ there))
              | false =>
                  rw [SchemaClass.construct, if_neg (by simp [isEntity])]
                  exact Or.inr (Or.inr ⟨rfl, holder, target, reachable, points, isEntity, .refl⟩)

/-- A write lands, and its offset is told to the entity the view owns up to. -/
theorem owned_told {setter : SetterCode} {index : Nat} (owned : Owned classes schemaClass view)
    (there : view.base ≠ 0) (unlinked : schemaClass.linked = false)
    (notify : setter.notify = some .entity) (passes : setter.write.passes index = true) :
    ∃ address notice, setter.run memory view index = ⟨some address, some notice⟩ ∧
      Tells classes memory schemaClass view.base address notice := by
  refine ⟨view.base + setter.write.reach index, ⟨view.owner, _, none⟩, ?_,
    .entity unlinked view.owner owned.within⟩
  have apart : view.base + setter.write.reach index - view.owner =
      view.base - view.owner + setter.write.reach index := by omega
  simp [SetterCode.run, there, passes, notify, Notify.run, notifyEntity, owned.there, apart,
    BitVec.ofInt_add, offset_reach, owned.offset]

theorem linked_told {setter : SetterCode} {index : Nat} (there : view.base ≠ 0)
    (linked : schemaClass.linked = true)
    (points : memory.pointer (schemaClass.link view.base) ≠ 0)
    (notify : setter.notify = some (.componentOwner schemaClass.ownerLinkOffset))
    (passes : setter.write.passes index = true) :
    ∃ address notice, setter.run memory view index = ⟨some address, some notice⟩ ∧
      Tells classes memory schemaClass view.base address notice := by
  refine ⟨view.base + setter.write.reach index, _, ?_, .link linked⟩
  have forward : ¬schemaClass.ownerLinkOffset.toInt < 0 := by
    simpa [SchemaClass.linked] using linked
  rw [SchemaClass.link] at points
  have apart : view.base + setter.write.reach index - view.base = setter.write.reach index := by
    omega
  simp [SetterCode.run, there, passes, notify, Notify.run, notifyComponentOwner, forward, points,
    SchemaClass.link, apart, offset_reach]

/-- A setter is for a class that is written to, through a field that is assigned. -/
theorem setter_generated {field : SchemaField} {code : AccessorCode} {setter : SetterCode}
    (generated : accessorCode schemaClass field = some code) (has : code.setter = some setter) :
    schemaClass.writable = true ∧ writeOf field = some setter.write ∧
      setter.notify = notifyStatement schemaClass field := by
  obtain ⟨read, _, rfl⟩ := Option.map_eq_some_iff.mp generated
  obtain ⟨writable, written⟩ := Option.ite_none_right_eq_some.mp has
  obtain ⟨write, assigned, rfl⟩ := Option.map_eq_some_iff.mp written
  exact ⟨writable, assigned, rfl⟩

/-- Behind a pointer and with no owner link, only a struct that entities alone embed is written. -/
theorem behind_unwritten (resolved : Resolved dump classes) (kept : KeptByValue classes)
    (behind : Behind classes schemaClass) (unlinked : schemaClass.linked = false)
    {field : SchemaField} (selected : field ∈ schemaClass.fields) {code : AccessorCode}
    (generated : accessorCode schemaClass field = some code) : code.setter = none := by
  obtain ⟨member, plain⟩ := behind_plain resolved behind
  cases has : code.setter with
  | none => rfl
  | some setter =>
      obtain ⟨writable, assigned, _⟩ := setter_generated generated has
      rw [SchemaClass.writable, plain, unlinked, Bool.false_or, Bool.false_or,
        resolved.inEntity schemaClass member] at writable
      rw [kept schemaClass behind unlinked writable.1 writable.2 field selected] at assigned
      cases assigned

theorem replicated_of_kept (resolved : Resolved dump classes) (kept : KeptByValue classes) :
    Replicated classes where
  told memory links schemaClass view reached there field selected networked code setter generated
      has index passes := by
    obtain ⟨_, _, notify⟩ := setter_generated generated has
    rw [notifyStatement, networked] at notify
    cases linked : schemaClass.linked with
    | true =>
        rw [linked] at notify
        exact linked_told there linked (links schemaClass view reached there linked) notify passes
    | false =>
        rw [linked] at notify
        rcases (reached_cases reached).resolve_left there with owned | ⟨_, behind⟩
        · exact owned_told owned there linked notify passes
        · rw [behind_unwritten resolved kept behind linked selected generated] at has
          cases has
  owned memory schemaClass view reached there nobody unlinked field selected code generated := by
    rcases (reached_cases reached).resolve_left there with owned | ⟨_, behind⟩
    · exact absurd nobody owned.there
    · exact behind_unwritten resolved kept behind unlinked selected generated

end Views

section Flat
variable {dump : Dump} {classes : List SchemaClass}

/-- Every pointer is one address. -/
def flat (address : Int) : Memory := ⟨fun _ => address, fun _ => 0⟩

/-- Wherever high enough everything points, a view of the class is reached. -/
def Everywhere (classes : List SchemaClass) (schemaClass : SchemaClass) (owner : Int → Prop) :
    Prop :=
  ∃ shift bound : Int, ∀ address, bound < address → ∃ view,
    Reached classes (flat address) schemaClass view ∧ view.base = address + shift ∧
      0 < view.base ∧ owner view.owner

theorem everywhere_part {whole part : SchemaClass} {owner : Int → Prop}
    (reached : Everywhere classes whole owner) (step : Part classes whole part) :
    Everywhere classes part owner := by
  obtain ⟨shift, bound, reached⟩ := reached
  rcases step with ⟨name, derives, found⟩ | ⟨field, selected, viewClass, kind, found, plain⟩
  · refine ⟨shift, bound, fun address high => ?_⟩
    obtain ⟨view, reached, placed⟩ := reached address high
    exact ⟨view, reached.toBase derives found, placed⟩
  · refine ⟨shift + field.offset.toInt, max bound (-(shift + field.offset.toInt)),
      fun address high => ?_⟩
    obtain ⟨view, reached, placed, there, owned⟩ := reached address (by omega)
    have null : view.base ≠ 0 := by omega
    refine ⟨_, reached.handedOut selected kind found fun _ => plain, ?_⟩
    simp only [handedOut, null, if_false, if_true, View.inside]
    exact ⟨by omega, by omega, owned⟩

theorem everywhere_pointed {holder target : SchemaClass} {owner : Int → Prop}
    (reached : Everywhere classes holder owner) (points : Points classes holder target) :
    Everywhere classes target fun owner => target.isEntity = false → owner = 0 := by
  obtain ⟨shift, bound, reached⟩ := reached
  obtain ⟨field, selected, viewClass, kind, found⟩ := points
  refine ⟨0, max bound 0, fun address high => ?_⟩
  obtain ⟨view, reached, placed, there, _⟩ := reached address (by omega)
  have null : view.base ≠ 0 := by omega
  have above : 0 < address := by omega
  refine ⟨_, reached.handedOut selected kind found fun held => absurd held Bool.false_ne_true, ?_⟩
  simp only [handedOut, null, if_false, Bool.false_eq_true, flat, SchemaClass.construct]
  cases isEntity : target.isEntity with
  | true =>
      rw [if_pos rfl]
      exact ⟨(Int.add_zero address).symm, above, fun plain => absurd plain.symm Bool.false_ne_true⟩
  | false =>
      rw [if_neg Bool.false_ne_true]
      exact ⟨(Int.add_zero address).symm, above, fun _ => rfl⟩

theorem reachable_everywhere {schemaClass : SchemaClass}
    (reachable : Reachable classes schemaClass) :
    Everywhere classes schemaClass fun _ => True := by
  obtain ⟨entity, member, isEntity, path⟩ := reachable
  induction path with
  | refl =>
      refine ⟨0, 0, fun address high => ⟨_, .entity member isEntity address, ?_⟩⟩
      simp [SchemaClass.construct, isEntity, high]
  | tail _ step ih =>
      rcases step with part | points
      · exact everywhere_part ih part
      · obtain ⟨shift, bound, reached⟩ := everywhere_pointed ih points
        refine ⟨shift, bound, fun address high => ?_⟩
        obtain ⟨view, reached, placed, there, _⟩ := reached address high
        exact ⟨view, reached, placed, there, trivial⟩

theorem behind_everywhere {schemaClass : SchemaClass} (behind : Behind classes schemaClass) :
    Everywhere classes schemaClass fun owner => owner = 0 := by
  obtain ⟨holder, target, reachable, points, plain, path⟩ := behind
  induction path with
  | refl =>
      obtain ⟨shift, bound, reached⟩ :=
        everywhere_pointed (reachable_everywhere reachable) points
      refine ⟨shift, bound, fun address high => ?_⟩
      obtain ⟨view, reached, placed, there, owner⟩ := reached address high
      exact ⟨view, reached, placed, there, owner plain⟩
  | tail _ step ih => exact everywhere_part ih step

theorem writeOf_generated {schemaClass : SchemaClass} {field : SchemaField} {write : Write}
    (assigned : writeOf field = some write) (writable : schemaClass.writable = true) :
    ∃ code, accessorCode schemaClass field = some code ∧ code.setter ≠ none := by
  have described : (readOf field).isSome = true := by
    cases kind : field.kind with
    | view viewClass embedded => simp [writeOf, kind] at assigned
    | _ => simp_all [writeOf, readOf]
  obtain ⟨read, described⟩ := Option.isSome_iff_exists.mp described
  exact ⟨_, by rw [accessorCode, described, Option.map_some], by simp [writable, assigned]⟩

theorem kept_of_replicated (resolved : Resolved dump classes) (replicated : Replicated classes) :
    KeptByValue classes := by
  intro schemaClass behind unlinked embedded rooted field selected
  obtain ⟨member, _⟩ := behind_plain resolved behind
  obtain ⟨shift, bound, reached⟩ := behind_everywhere behind
  obtain ⟨view, reached, placed, there, nobody⟩ := reached (bound + 1) (by omega)
  have writable : schemaClass.writable = true := by
    rw [SchemaClass.writable, (resolved.inEntity schemaClass member).mpr ⟨embedded, rooted⟩,
      Bool.or_true]
  cases assigned : writeOf field with
  | none => rfl
  | some write =>
      obtain ⟨code, generated, has⟩ := writeOf_generated assigned writable
      exact absurd (replicated.owned _ schemaClass view reached (by omega) nobody unlinked field
        selected code generated) has

end Flat

/-- For every dump and manifest the generator takes: every write through a view reaches the
field's owner exactly where no such struct lies behind a pointer. -/
theorem replicated_iff_kept {dump : Dump} {manifest : Manifest} {classes : List SchemaClass}
    (resolved : resolveClasses dump manifest = .ok classes) :
    Replicated classes ↔ KeptByValue classes :=
  ⟨kept_of_replicated (resolveClasses_resolved resolved),
    replicated_of_kept (resolveClasses_resolved resolved)⟩

section Spotted

/-- A pawn holds one spotted state by value and points at another. -/
def spottedDump : Dump where
  classes :=
    [("CEntityInstance".toList, ⟨48, [], -1, []⟩),
      ("CCSPlayerPawn".toList, ⟨1192, "CEntityInstance".toList, -1,
        [⟨"m_entitySpottedState".toList, 300, 24, true,
            ⟨"EntitySpottedState_t".toList, .declaredClass, [], 0, none⟩⟩,
          ⟨"m_pLastSpotted".toList, 400, 8, false,
            ⟨"EntitySpottedState_t*".toList, .pointer, "EntitySpottedState_t".toList, 0, none⟩⟩]⟩),
      ("EntitySpottedState_t".toList, ⟨24, [], -1,
        [⟨"m_bSpotted".toList, 8, 1, true, ⟨"bool".toList, .builtin, [], 0, none⟩⟩]⟩)]
  distinct := by decide

def spottedManifest (fields : List Text) : Manifest where
  classes :=
    [("CCSPlayerPawn".toList, .fields fields),
      ("EntitySpottedState_t".toList, .fields ["m_bSpotted".toList])]
  distinct := by
    show ["CCSPlayerPawn".toList, "EntitySpottedState_t".toList].Nodup
    decide

def entityInstance : SchemaClass := ⟨"CEntityInstance".toList, 48, -1, none, true, false, []⟩

def flagField : SchemaField :=
  ⟨"m_bSpotted".toList, "Spotted".toList, 8, 1, .value "bool".toList, "bool".toList, true⟩

def spottedState : SchemaClass :=
  ⟨"EntitySpottedState_t".toList, 24, -1, none, false, true, [flagField]⟩

def spottedField : SchemaField :=
  ⟨"m_entitySpottedState".toList, "EntitySpottedState".toList, 300, 24,
    .view "EntitySpottedState_t".toList true, "EntitySpottedState_t".toList, true⟩

def lastSpottedField : SchemaField :=
  ⟨"m_pLastSpotted".toList, "LastSpotted".toList, 400, 8,
    .view "EntitySpottedState_t".toList false, "EntitySpottedState_t*".toList, false⟩

def spottedPawn (fields : List SchemaField) : SchemaClass :=
  ⟨"CCSPlayerPawn".toList, 1192, -1, some "CEntityInstance".toList, true, false, fields⟩

/-- A pawn that only embeds its state tells itself of every write to it. -/
theorem embedded_replicated :
    Replicated [spottedPawn [spottedField], spottedState, entityInstance] := by
  have resolved : resolveClasses spottedDump (spottedManifest ["m_entitySpottedState".toList]) =
      .ok [spottedPawn [spottedField], spottedState, entityInstance] := by rfl
  apply (replicated_iff_kept resolved).mpr
  intro schemaClass behind
  obtain ⟨holder, target, reachable, ⟨field, selected, viewClass, kind, _⟩, _⟩ := behind
  -- No class of the three selects a pointer.
  rcases List.mem_cons.mp reachable.member with rfl | member
  · cases List.mem_singleton.mp selected
    cases kind
  rcases List.mem_cons.mp member with rfl | member
  · cases List.mem_singleton.mp selected
    cases kind
  cases List.mem_singleton.mp member
  cases selected

/-- A write through the pawn's other state, behind a pointer, lands and is told to nobody. -/
theorem behind_pointer_untold :
    ∃ classes, resolveClasses spottedDump
        (spottedManifest ["m_entitySpottedState".toList, "m_pLastSpotted".toList]) = .ok classes ∧
      Reached classes (flat 4096) spottedState ⟨4096, 0, 0⟩ ∧
      flagField.networked = true ∧
      ((accessorCode spottedState flagField).bind AccessorCode.setter).map
        (SetterCode.run (flat 4096) ⟨4096, 0, 0⟩ 0) = some ⟨some 4104, none⟩ ∧
      ¬Replicated classes := by
  have reached : Reached [spottedPawn [spottedField, lastSpottedField], spottedState,
      entityInstance] (flat 4096) spottedState ⟨4096, 0, 0⟩ := by
    have pawn : Reached [spottedPawn [spottedField, lastSpottedField], spottedState,
        entityInstance] (flat 4096) (spottedPawn [spottedField, lastSpottedField])
        ⟨4096, 4096, 0⟩ :=
      .entity (by simp) rfl 4096
    exact pawn.handedOut (List.mem_cons_of_mem _ List.mem_cons_self) rfl rfl nofun
  refine ⟨_, by rfl, reached, rfl, by decide, fun replicated => ?_⟩
  have unset := replicated.owned (flat 4096) spottedState _ reached (by decide) rfl (by decide)
    flagField List.mem_cons_self _ rfl
  cases unset

end Spotted

end VoltMod.SchemaGen
