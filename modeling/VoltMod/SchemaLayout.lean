import VoltMod.Decimals
import VoltMod.Result
import VoltMod.SchemaDump
import VoltMod.SchemaViews

/-! The layout that schemagen/generate.py writes beside the accessors, the host's comparison of it
with the live schema (Host/Schema/SchemaCheck.cpp) and what App/Plugin.cpp asks of that. -/
namespace VoltMod.SchemaLayout
open MigrationText (Text)
open SchemaGen SchemaDump
open Decimals (signed)
open Relation (TransGen)
open Walk (Follows)

structure LayoutRow where
  className : Text
  fieldName : Text
  offset : Offset
  size : Int
  deriving DecidableEq, Repr

def isGenerated (field : SchemaField) : Bool :=
  match field.kind with
  | .skipped _ => false
  | _ => true

def fieldRow (schemaClass : SchemaClass) (field : SchemaField) : LayoutRow :=
  ⟨schemaClass.name, field.engineName, field.offset, field.size⟩

def linkRow (schemaClass : SchemaClass) (dumped : DumpedField) : LayoutRow :=
  ⟨schemaClass.name, dumped.name, dumped.offset, dumped.size⟩

/-- Every generated field, plus the owner link where the class declares one. -/
def classRows (schemaClass : SchemaClass) (dumped : DumpedClass) : List LayoutRow :=
  (schemaClass.fields.filter isGenerated).map (fieldRow schemaClass) ++
    (dumped.fields.filter fun field => field.name = chainField).map (linkRow schemaClass)

def rowsOf (dump : Dump) : List SchemaClass → Except SchemaError (List LayoutRow)
  | [] => .ok []
  | schemaClass :: rest =>
      match dump.find schemaClass.name with
      | none => .error (.noKey schemaClass.name)
      | some dumped => do
          let rows ← rowsOf dump rest
          pure (classRows schemaClass dumped ++ rows)

def layoutRows (dump : Dump) (classes : List SchemaClass) : Except SchemaError (List LayoutRow) :=
  rowsOf dump (classes.mergeSort fun first second => first.name ≤ second.name)

def rowText (row : LayoutRow) : Text :=
  List.intercalate [' ']
    [row.className, row.fieldName, signed row.offset.toInt, signed row.size]

def layoutText (rows : List LayoutRow) : Text := List.intercalate ['\n'] (rows.map rowText)

/-- `digest` is the first eight bytes of the text's SHA-256. -/
def layoutStamp (digest : Text → UInt64) (rows : List LayoutRow) : UInt64 :=
  digest (layoutText rows)

/-- `ISchemaSystem`; there is no server scope before the schema is ready. -/
structure Schema where
  server : Option Scope
  global : Option Scope

def drifted (want : LayoutRow) (what : Text) : Text :=
  want.className ++ "::".toList ++ want.fieldName ++ ": ".toList ++ what

def moved (what : String) (old new : Int) : Text :=
  what.toList ++ signed old ++ " -> ".toList ++ signed new

/-- A size is compared where the live type tells it. -/
def drift (live : Text → Option LiveClass) (want : LayoutRow) : Option Text :=
  match (live want.className).bind fun klass => findField klass want.fieldName with
  | none => some (drifted want "gone".toList)
  | some found =>
      if found.offset ≠ want.offset then
        some (drifted want (moved "offset " want.offset.toInt found.offset.toInt))
      else
        (found.size.filter (· ≠ want.size)).map fun size =>
          drifted want (moved "size " want.size size)

def driftMessage (generatedFrom gameBuild : Text) (lines : List Text) : Text :=
  "schema drift (accessors generated from game build ".toList ++ generatedFrom ++
    ", server is ".toList ++ gameBuild ++ ("); load a plugin into a running map to write the " ++
    "dump, then regenerate with voltmod framework schemagen:").toList ++
    lines.flatMap fun line => "\n  ".toList ++ line

def verifySchemaLayout (generatedFrom gameBuild : Text) (layout : List LayoutRow)
    (schema : Schema) : Status :=
  match schema.server with
  | none => .error (Error.notReady "the server schema scope is not ready")
  | some server =>
      match layout.filterMap (drift (SchemaDump.findClass schema.global server)) with
      | [] => .ok ()
      | lines =>
          .error (Error.invalid (String.ofList (driftMessage generatedFrom gameBuild lines)))

/-- What the registry tells plugins of the host's check, and whether there was a schema to check. -/
structure SchemaCheck where
  schemaLoaded : Bool
  layoutStamp : UInt64
  verified : Bool
  deriving DecidableEq, Repr

/-- Zero until the host has checked its own layout. -/
def unchecked : SchemaCheck := ⟨false, 0, false⟩

inductive Event where
  | start (schema : Schema)
  | serverStartup (schema : Schema)

def Event.schema : Event → Schema
  | .start schema | .serverStartup schema => schema

/-- The layout baked into the host, with its stamp. -/
structure Baked where
  generatedFrom : Text
  rows : List LayoutRow
  stamp : UInt64

def check (baked : Baked) (gameBuild : Text) (schema : Schema) : SchemaCheck :=
  match verifySchemaLayout baked.generatedFrom gameBuild baked.rows schema with
  | .ok () => ⟨true, baked.stamp, true⟩
  | .error error => ⟨error.code ≠ .notReady, baked.stamp, false⟩

/-- The first map is the next chance when the schema scope was not there at host load. -/
def step (baked : Baked) (gameBuild : Text) (before : SchemaCheck) : Event → SchemaCheck
  | .start schema => check baked gameBuild schema
  | .serverStartup schema => if before.schemaLoaded then before else check baked gameBuild schema

/-- Sixteen digits in capitals. -/
def hex16 (stamp : UInt64) : String :=
  let digits := (Nat.toDigits 16 stamp.toNat).map Char.toUpper
  String.ofList (List.replicate (16 - digits.length) '0' ++ digits)

/-- The host's one check covers a plugin only when both baked the same layout. -/
def checkSchema (host : SchemaCheck) (plugin : UInt64) : Status :=
  if host.layoutStamp ≠ plugin then
    .error (Error.invalid ("this plugin was built against another schema layout (plugin " ++
      hex16 plugin ++ ", host " ++ hex16 host.layoutStamp ++
      "); rebuild it against this VoltMod"))
  else if !host.verified then
    .error (Error.invalid "the host found schema drift; its log names every field")
  else .ok ()

section Closed
variable {dump : Dump} {classes after : List SchemaClass}

/-- With every name go the bases above it. -/
def Closed (dump : Dump) (names : List Text) : Prop :=
  ∀ name ∈ names, ∀ base, TransGen (Follows (baseOf dump)) name base → base ∈ names

theorem mem_addBases {bases : List Text} {wanted : List (Text × Selection)} {name : Text} :
    name ∈ (bases.foldl (fun wanted base =>
      if (wanted.map Prod.fst).contains base then wanted
      else wanted ++ [(base, .fields [])]) wanted).map Prod.fst ↔
      name ∈ wanted.map Prod.fst ∨ name ∈ bases := by
  induction bases generalizing wanted with
  | nil => simp
  | cons base rest ih =>
      rw [List.foldl_cons, ih, List.mem_cons]
      split
      · next held =>
          rw [List.contains_iff_mem] at held
          constructor
          · exact Or.imp_right .inr
          · rintro (old | rfl | later)
            · exact .inl old
            · exact .inl held
            · exact .inr later
      · rw [List.map_append, List.mem_append, List.map_singleton, List.mem_singleton, or_assoc]

theorem mem_wanted {chosen wanted : List (Text × Selection)} {name : Text} :
    name ∈ (chosen.foldl (fun wanted entry =>
      (baseClasses dump entry.1).foldl (fun wanted base =>
        if (wanted.map Prod.fst).contains base then wanted
        else wanted ++ [(base, .fields [])]) wanted) wanted).map Prod.fst ↔
      name ∈ wanted.map Prod.fst ∨ ∃ own ∈ chosen.map Prod.fst, name ∈ baseClasses dump own := by
  induction chosen generalizing wanted with
  | nil => simp
  | cons entry rest ih =>
      rw [List.foldl_cons, ih, mem_addBases, List.map_cons, List.exists_mem_cons_iff, or_assoc]

theorem wanted_closed (manifest : Manifest) :
    Closed dump ((wantedClasses dump manifest).map Prod.fst) := by
  intro name member base above
  rw [wantedClasses, mem_wanted] at member ⊢
  rcases member with own | ⟨own, chosen, between⟩
  · exact .inr ⟨name, own, (mem_baseClasses ..).mpr above⟩
  · have further := (mem_baseClasses ..).mp between
    exact .inr ⟨own, chosen, (mem_baseClasses ..).mpr (further.trans above)⟩

theorem resolveClass_name {name : Text} {entries : Selection} {schemaClass : SchemaClass}
    (resolved : resolveClass dump name entries = .ok schemaClass) : schemaClass.name = name := by
  unfold resolveClass at resolved
  split at resolved
  · cases resolved
  · simp only [bind_ok_iff] at resolved
    obtain ⟨empty, new, fields, selected, _, _, same⟩ := resolved
    cases same
    exact (newClass_made new).2.1

theorem resolveEach_names {wanted : List (Text × Selection)}
    (resolved : resolveEach dump wanted = .ok classes) :
    classes.map SchemaClass.name = wanted.map Prod.fst := by
  induction wanted generalizing classes with
  | nil =>
      cases resolved
      rfl
  | cons entry rest ih =>
      simp only [resolveEach, bind_ok_iff] at resolved
      obtain ⟨first, one, others, more, same⟩ := resolved
      cases same
      rw [List.map_cons, List.map_cons, ih more, resolveClass_name one]

theorem pull_names {names : List Text} (pulled : pull dump classes names = .ok after)
    {name : Text} : name ∈ after.map SchemaClass.name ↔
      name ∈ classes.map SchemaClass.name ∨ name ∈ names := by
  induction names generalizing classes with
  | nil =>
      cases pulled
      simp
  | cons wanted rest ih =>
      simp only [pull] at pulled
      split at pulled
      · next here =>
          obtain ⟨held, member, called⟩ := findClass_isSome.mp here
          rw [ih pulled, List.mem_cons]
          constructor
          · exact Or.imp_right .inr
          · rintro (old | rfl | later)
            · exact .inl old
            · exact .inl (List.mem_map.mpr ⟨held, member, called⟩)
            · exact .inr later
      · obtain ⟨schemaClass, new, more⟩ := (bind_ok_iff ..).mp pulled
        rw [ih more, List.map_append, List.mem_append, List.map_singleton, List.mem_singleton,
          (newClass_made new).2.1, List.mem_cons, or_assoc]

theorem pulled_closed (closed : Closed dump (classes.map SchemaClass.name)) {names : List Text}
    (pulled : pull dump classes (names.flatMap fun name => name :: baseClasses dump name) =
      .ok after) : Closed dump (after.map SchemaClass.name) := by
  intro name member base above
  rw [pull_names pulled] at member ⊢
  rcases member with old | new
  · exact .inl (closed name old base above)
  · obtain ⟨own, among, here⟩ := List.mem_flatMap.mp new
    refine .inr (List.mem_flatMap.mpr ⟨own, among, List.mem_cons_of_mem _ ?_⟩)
    rw [mem_baseClasses]
    rcases List.mem_cons.mp here with rfl | between
    · exact above
    · exact ((mem_baseClasses ..).mp between).trans above

theorem added_closed {turns : Nat} (closed : Closed dump (classes.map SchemaClass.name))
    (added : addViewClasses dump turns classes = .ok after) :
    Closed dump (after.map SchemaClass.name) := by
  induction turns generalizing classes with
  | zero =>
      cases added
      exact closed
  | succ turns ih =>
      rw [addViewClasses] at added
      split at added
      · cases added
        exact closed
      · obtain ⟨middle, pulled, more⟩ := (bind_ok_iff ..).mp added
        exact ih (pulled_closed closed pulled) more

/-- A class is generated with every class above it. -/
theorem resolved_closed {manifest : Manifest}
    (resolved : resolveClasses dump manifest = .ok classes) :
    Closed dump (classes.map SchemaClass.name) := by
  simp only [resolveClasses, bind_ok_iff] at resolved
  obtain ⟨chosen, each, all, added, same⟩ := resolved
  cases same
  have start : Closed dump (chosen.map SchemaClass.name) := by
    rw [resolveEach_names each]
    exact wanted_closed manifest
  have names : (markEmbeddedInEntity all).map SchemaClass.name = all.map SchemaClass.name := by
    rw [markEmbeddedInEntity, List.map_map]
    rfl
  rw [names]
  exact added_closed start added

end Closed

section Rows
variable {dump : Dump} {classes : List SchemaClass} {rows : List LayoutRow}

theorem mem_rowsOf (made : rowsOf dump classes = .ok rows) {row : LayoutRow} :
    row ∈ rows ↔ ∃ schemaClass ∈ classes, ∃ dumped, dump.find schemaClass.name = some dumped ∧
      row ∈ classRows schemaClass dumped := by
  induction classes generalizing rows with
  | nil =>
      cases made
      simp
  | cons schemaClass rest ih =>
      rw [rowsOf] at made
      split at made
      · cases made
      · next dumped found =>
          obtain ⟨others, more, same⟩ := (bind_ok_iff ..).mp made
          cases same
          rw [List.mem_append, ih more, List.exists_mem_cons_iff]
          simp [found]

theorem mem_layoutRows (made : layoutRows dump classes = .ok rows) {row : LayoutRow} :
    row ∈ rows ↔ ∃ schemaClass ∈ classes, ∃ dumped, dump.find schemaClass.name = some dumped ∧
      row ∈ classRows schemaClass dumped := by
  rw [layoutRows] at made
  simp only [mem_rowsOf made, List.mem_mergeSort]

/-- A name that stands in the layout's text alone. -/
def Plain (row : LayoutRow) : Prop :=
  ∀ c ∈ row.className ++ row.fieldName, c ≠ ' ' ∧ c ≠ '\n'

theorem rowText_injective {first second : LayoutRow} (plain : Plain first) (also : Plain second)
    (same : rowText first = rowText second) : first = second := by
  have split {row : LayoutRow} (plain : Plain row) : (rowText row).splitOn ' ' =
      [row.className, row.fieldName, signed row.offset.toInt, signed row.size] := by
    apply List.splitOn_intercalate
    · intro word member blank
      simp only [List.mem_cons, List.not_mem_nil, or_false] at member
      rcases member with rfl | rfl | rfl | rfl
      · exact (plain _ (List.mem_append_left _ blank)).1 rfl
      · exact (plain _ (List.mem_append_right _ blank)).1 rfl
      · exact Decimals.signed_apart _ (by decide) (by decide) blank
      · exact Decimals.signed_apart _ (by decide) (by decide) blank
    · simp
  have words := (split plain).symm.trans (same ▸ split also)
  simp only [List.cons.injEq, and_true] at words
  obtain ⟨className, fieldName, offset, size⟩ := words
  have offset := BitVec.toInt_inj.mp (Decimals.signed_injective offset)
  have size := Decimals.signed_injective size
  obtain ⟨_, _, _, _⟩ := first
  obtain ⟨_, _, _, _⟩ := second
  simp_all

theorem rowText_spelled (row : LayoutRow) : rowText row = row.className ++ ' ' ::
    (row.fieldName ++ ' ' :: (signed row.offset.toInt ++ ' ' :: signed row.size)) := by
  simp [rowText, List.intercalate]

theorem rowText_line {row : LayoutRow} (plain : Plain row) : '\n' ∉ rowText row := by
  rw [rowText_spelled]
  simp only [List.mem_append, List.mem_cons, not_or]
  refine ⟨fun line => (plain _ (List.mem_append_left _ line)).2 rfl, by decide,
    fun line => (plain _ (List.mem_append_right _ line)).2 rfl, by decide, ?_, by decide, ?_⟩
  · exact Decimals.signed_apart _ (by decide) (by decide)
  · exact Decimals.signed_apart _ (by decide) (by decide)

theorem lines_split {rows : List LayoutRow} (plain : ∀ row ∈ rows, Plain row) (some_ : rows ≠ []) :
    (layoutText rows).splitOn '\n' = rows.map rowText := by
  apply List.splitOn_intercalate
  · intro line member
    obtain ⟨row, listed, rfl⟩ := List.mem_map.mp member
    exact rowText_line (plain row listed)
  · simpa using some_

theorem layoutText_some {rows : List LayoutRow} (plain : ∀ row ∈ rows, Plain row)
    (some_ : rows ≠ []) : layoutText rows ≠ [] := by
  intro none_
  have lines := lines_split plain some_
  rw [none_, List.splitOn_nil] at lines
  obtain ⟨row, rest, rfl⟩ := List.exists_cons_of_ne_nil some_
  rw [List.map_cons, rowText_spelled] at lines
  simp at lines

/-- The text that is hashed tells the layout. -/
theorem layoutText_injective {first second : List LayoutRow} (plain : ∀ row ∈ first, Plain row)
    (also : ∀ row ∈ second, Plain row) (same : layoutText first = layoutText second) :
    first = second := by
  by_cases none_ : first = []
  · by_cases other : second = []
    · rw [none_, other]
    · subst none_
      exact absurd same.symm (layoutText_some also other)
  · by_cases other : second = []
    · subst other
      exact absurd same (layoutText_some plain none_)
    · have lines : first.map rowText = second.map rowText := by
        rw [← lines_split plain none_, same, lines_split also other]
      clear same none_ other
      induction first generalizing second with
      | nil => exact (List.map_eq_nil_iff.mp lines.symm).symm
      | cons row rest ih =>
          cases second with
          | nil => simp at lines
          | cons head tail =>
              rw [List.map_cons, List.map_cons, List.cons.injEq] at lines
              rw [rowText_injective (plain _ (by simp)) (also _ (by simp)) lines.1,
                ih (fun row member => plain row (.tail _ member))
                  (fun row member => also row (.tail _ member)) lines.2]

end Rows

section Check
variable {baked : Baked} {gameBuild : Text}

/-- Where the schema has a field. -/
def Schema.find (schema : Schema) (className fieldName : Text) : Option LiveField :=
  schema.server.bind fun server =>
    (SchemaDump.findClass schema.global server className).bind fun klass =>
      findField klass fieldName

/-- The field is where the row has it, as long as the row says, as far as its type tells. -/
def Matches (schema : Schema) (row : LayoutRow) : Prop :=
  ∃ found, schema.find row.className row.fieldName = some found ∧ found.offset = row.offset ∧
    ∀ size, found.size = some size → size = row.size

theorem drift_none {schema : Schema} {server : Scope} (ready : schema.server = some server)
    (want : LayoutRow) : drift (SchemaDump.findClass schema.global server) want = none ↔
      Matches schema want := by
  simp only [Matches, Schema.find, ready, Option.bind_some, drift]
  cases held : (SchemaDump.findClass schema.global server want.className).bind fun klass =>
      findField klass want.fieldName with
  | none => simp
  | some found =>
      by_cases same : found.offset = want.offset
      · simp [same]
      · simp [same]

/-- The layout passes where there is a schema and every row matches it. -/
theorem verify_iff {generatedFrom : Text} {layout : List LayoutRow} {schema : Schema} :
    verifySchemaLayout generatedFrom gameBuild layout schema = .ok () ↔
      schema.server.isSome ∧ ∀ row ∈ layout, Matches schema row := by
  unfold verifySchemaLayout
  cases ready : schema.server with
  | none => simp
  | some server =>
      have none_ : layout.filterMap (drift (SchemaDump.findClass schema.global server)) = [] ↔
          ∀ row ∈ layout, Matches schema row := by
        simp only [List.filterMap_eq_nil_iff, drift_none ready]
      dsimp only
      rw [← none_]
      cases layout.filterMap (drift (SchemaDump.findClass schema.global server)) with
      | nil => simp
      | cons line lines => simp

/-- What was recorded as verified matched a schema that was there. -/
structure Honest (baked : Baked) (seen : List Schema) (host : SchemaCheck) : Prop where
  stamped : host.verified = true → host.layoutStamp = baked.stamp
  matched : host.verified = true → ∃ schema ∈ seen, ∀ row ∈ baked.rows, Matches schema row

theorem check_honest (schema : Schema) {seen : List Schema} (among : schema ∈ seen) :
    Honest baked seen (check baked gameBuild schema) := by
  unfold check
  split
  · next passed =>
      exact ⟨fun _ => rfl, fun _ => ⟨schema, among, (verify_iff.mp passed).2⟩⟩
  · exact ⟨nofun, nofun⟩

theorem run_honest {seen : List Schema} {host : SchemaCheck} (honest : Honest baked seen host)
    (events : List Event) : Honest baked (seen ++ events.map Event.schema)
      (events.foldl (step baked gameBuild) host) := by
  induction events generalizing seen host with
  | nil => simpa using honest
  | cons event rest ih =>
      have among : event.schema ∈ seen ++ [event.schema] := by simp
      have kept : Honest baked (seen ++ [event.schema]) host := by
        refine ⟨honest.stamped, fun verified => ?_⟩
        obtain ⟨schema, here, all⟩ := honest.matched verified
        exact ⟨schema, List.mem_append_left _ here, all⟩
      have next : Honest baked (seen ++ [event.schema]) (step baked gameBuild host event) := by
        cases event with
        | start schema => exact check_honest schema among
        | serverStartup schema =>
            show Honest baked _ (if host.schemaLoaded then host else check baked gameBuild schema)
            split
            · exact kept
            · exact check_honest schema among
      rw [List.foldl_cons, List.map_cons, List.append_cons]
      exact ih next

end Check

/-- Where in the object an accessor reads. -/
def readOffset : Read → Offset
  | .address constant | .embedded _ constant | .pointer _ constant | .charBuf _ constant
  | .element _ _ constant | .value _ constant => constant

/-- Where in the object a setter assigns, or its first element. -/
def writeOffset : Write → Offset
  | .element _ _ constant | .value _ constant => constant

/-- The accessor reads and writes where the live schema has the field. -/
def Fits (schema : Schema) (schemaClass : SchemaClass) (field : SchemaField)
    (code : AccessorCode) : Prop :=
  ∃ found, schema.find schemaClass.name field.engineName = some found ∧
    readOffset code.read = found.offset ∧
    (∀ setter, code.setter = some setter → writeOffset setter.write = found.offset) ∧
    ∀ size, found.size = some size → size = field.size

/-- A class that notifies through an owner link has it where the live schema has the link of the
class, or of the base it inherits the link from. -/
def LinkFits (schema : Schema) (dump : Dump) (schemaClass : SchemaClass) : Prop :=
  schemaClass.linked = true → ∃ holder found,
    (holder = schemaClass.name ∨ holder ∈ baseClasses dump schemaClass.name) ∧
    schema.find holder chainField = some found ∧ found.offset = schemaClass.ownerLinkOffset

section Attached
variable {schema : Schema} {dump : Dump} {classes : List SchemaClass} {schemaClass : SchemaClass}
  {field : SchemaField} {code : AccessorCode} {rows : List LayoutRow}

theorem readOf_offset {read : Read} (described : readOf field = some read) :
    readOffset read = field.offset := by
  unfold readOf at described
  split at described
  · cases described
  all_goals
    cases described
    rfl

theorem writeOf_offset {write : Write} (described : writeOf field = some write) :
    writeOffset write = field.offset := by
  unfold writeOf at described
  split at described
  all_goals
    cases described
    try rfl

theorem readOf_generated {read : Read} (described : readOf field = some read) :
    isGenerated field = true := by
  unfold readOf at described
  unfold isGenerated
  split at described
  · cases described
  all_goals simp [*]

theorem accessor_fits (generated : accessorCode schemaClass field = some code)
    (matched : Matches schema (fieldRow schemaClass field)) :
    Fits schema schemaClass field code := by
  obtain ⟨read, described, same⟩ := Option.map_eq_some_iff.mp generated
  cases same
  obtain ⟨found, here, offset, size⟩ := matched
  refine ⟨found, here, (readOf_offset described).trans offset.symm, fun setter made => ?_, size⟩
  dsimp only at made
  split at made
  · obtain ⟨write, written, same⟩ := Option.map_eq_some_iff.mp made
    cases same
    exact (writeOf_offset written).trans offset.symm
  · cases made

/-- What the generator knows of a class's owner link. -/
def LinkDumped (dump : Dump) (schemaClass : SchemaClass) : Prop :=
  ∃ dumped, dump.find schemaClass.name = some dumped ∧
    schemaClass.ownerLinkOffset = dumped.chainOffset

theorem newClass_link {name : Text} (new : newClass dump name = .ok schemaClass) :
    LinkDumped dump schemaClass := by
  unfold newClass at new
  split at new
  · cases new
  · next dumped found =>
      cases new
      exact ⟨dumped, found, rfl⟩

theorem resolveEach_links {wanted : List (Text × Selection)}
    (resolved : resolveEach dump wanted = .ok classes) :
    ∀ schemaClass ∈ classes, LinkDumped dump schemaClass := by
  induction wanted generalizing classes with
  | nil =>
      cases resolved
      exact nofun
  | cons entry rest ih =>
      simp only [resolveEach, bind_ok_iff] at resolved
      obtain ⟨first, one, others, more, same⟩ := resolved
      cases same
      intro schemaClass member
      rcases List.mem_cons.mp member with rfl | later
      · unfold resolveClass at one
        split at one
        · cases one
        · simp only [bind_ok_iff] at one
          obtain ⟨empty, new, fields, selected, _, _, same⟩ := one
          cases same
          obtain ⟨dumped, found, offset⟩ := newClass_link new
          exact ⟨dumped, found, offset⟩
      · exact ih more schemaClass later

theorem pull_links {names : List Text} {after : List SchemaClass}
    (held : ∀ schemaClass ∈ classes, LinkDumped dump schemaClass)
    (pulled : pull dump classes names = .ok after) :
    ∀ schemaClass ∈ after, LinkDumped dump schemaClass := by
  induction names generalizing classes with
  | nil =>
      cases pulled
      exact held
  | cons name rest ih =>
      simp only [pull] at pulled
      split at pulled
      · exact ih held pulled
      · obtain ⟨fresh, new, more⟩ := (bind_ok_iff ..).mp pulled
        refine ih (fun schemaClass member => ?_) more
        rcases List.mem_append.mp member with old | last
        · exact held schemaClass old
        · rw [List.mem_singleton.mp last]
          exact newClass_link new

theorem resolved_links {manifest : Manifest}
    (resolved : resolveClasses dump manifest = .ok classes) :
    ∀ schemaClass ∈ classes, LinkDumped dump schemaClass := by
  simp only [resolveClasses, bind_ok_iff] at resolved
  obtain ⟨chosen, each, all, added, same⟩ := resolved
  cases same
  have links {turns : Nat} {before after : List SchemaClass}
      (held : ∀ schemaClass ∈ before, LinkDumped dump schemaClass)
      (added : addViewClasses dump turns before = .ok after) :
      ∀ schemaClass ∈ after, LinkDumped dump schemaClass := by
    induction turns generalizing before with
    | zero =>
        cases added
        exact held
    | succ turns ih =>
        rw [addViewClasses] at added
        split at added
        · cases added
          exact held
        · obtain ⟨middle, pulled, more⟩ := (bind_ok_iff ..).mp added
          exact ih (pull_links held pulled) more
  intro marked member
  obtain ⟨schemaClass, inside, rfl⟩ := List.mem_map.mp member
  exact links (resolveEach_links each) added schemaClass inside

theorem link_fits {networked : Text → Text → Bool} {global : Option Scope} {server : Scope}
    {manifest : Manifest} (rooted : Rooted (SchemaDump.findClass global server))
    (resolved : resolveClasses (writeDump networked global server) manifest = .ok classes)
    (listed : layoutRows (writeDump networked global server) classes = .ok rows)
    (matched : ∀ row ∈ rows, Matches schema row) (member : schemaClass ∈ classes) :
    LinkFits schema (writeDump networked global server) schemaClass := by
  intro linked
  obtain ⟨dumped, known, offset⟩ := resolved_links resolved schemaClass member
  rw [writeDump_find] at known
  obtain ⟨klass, found, same⟩ := Option.map_eq_some_iff.mp known
  cases same
  cases link : findField klass chainField with
  | none =>
      simp [SchemaClass.linked, offset, describeClass, link] at linked
  | some held =>
      have place : held.offset = schemaClass.ownerLinkOffset := by
        rw [offset]
        simp [describeClass, link]
      obtain ⟨holder, reached, dumped, described, field, among, called, told⟩ :=
        @link_declared networked _ _ _ rooted _ found _ link
      have generated : holder ∈ classes.map SchemaClass.name := by
        rcases reached with rfl | above
        · exact List.mem_map_of_mem member
        · exact resolved_closed resolved _ (List.mem_map_of_mem member) _ above
      obtain ⟨owner, inside, rfl⟩ := List.mem_map.mp generated
      have row : linkRow owner field ∈ rows := by
        refine (mem_layoutRows listed).mpr ⟨owner, inside, dumped, described, ?_⟩
        refine List.mem_append_right _ (List.mem_map_of_mem (List.mem_filter.mpr ⟨among, ?_⟩))
        simpa using called
      obtain ⟨live, here, same, _⟩ := matched _ row
      refine ⟨owner.name, live, reached.imp_right (mem_baseClasses ..).mpr, ?_, ?_⟩
      · rw [← called]
        exact here
      · exact same.trans (told.trans place)

/-- A plugin whose layout has the host's stamp attaches only after the host has compared that very
layout with a live schema: there every accessor reads and writes where its field is, and every
owner link lies where the schema has it. -/
theorem attached_offsets_live {digest : Text → UInt64} {networked : Text → Text → Bool}
    {global : Option Scope} {server : Scope} {manifest : Manifest} {baked : Baked}
    {gameBuild : Text} {events : List Event}
    (rooted : Rooted (SchemaDump.findClass global server))
    (resolved : resolveClasses (writeDump networked global server) manifest = .ok classes)
    (listed : layoutRows (writeDump networked global server) classes = .ok rows)
    (plain : ∀ row ∈ rows ++ baked.rows, Plain row)
    (stamped : baked.stamp = layoutStamp digest baked.rows)
    (apart : digest (layoutText baked.rows) = digest (layoutText rows) →
      layoutText baked.rows = layoutText rows)
    (attached : checkSchema (events.foldl (step baked gameBuild) unchecked)
      (layoutStamp digest rows) = .ok ()) :
    ∃ schema ∈ events.map Event.schema, ∀ schemaClass ∈ classes,
      (∀ field ∈ schemaClass.fields, ∀ code, accessorCode schemaClass field = some code →
        Fits schema schemaClass field code) ∧
      LinkFits schema (writeDump networked global server) schemaClass := by
  have honest := @run_honest baked gameBuild [] unchecked ⟨nofun, nofun⟩ events
  unfold checkSchema at attached
  split_ifs at attached with other unverified
  · have verified : (events.foldl (step baked gameBuild) unchecked).verified = true := by
      simpa using unverified
    have same : baked.rows = rows := by
      have stamps := (honest.stamped verified).symm.trans (not_not.mp other)
      rw [stamped] at stamps
      exact layoutText_injective (fun row member => plain row (List.mem_append_right _ member))
        (fun row member => plain row (List.mem_append_left _ member)) (apart stamps)
    obtain ⟨schema, among, matched⟩ := honest.matched verified
    rw [same] at matched
    refine ⟨schema, by simpa using among, fun schemaClass member => ⟨?_, ?_⟩⟩
    · intro field selected code generated
      refine accessor_fits generated (matched _ ?_)
      obtain ⟨dumped, known, _⟩ := resolved_links resolved schemaClass member
      obtain ⟨read, described, _⟩ := Option.map_eq_some_iff.mp generated
      refine (mem_layoutRows listed).mpr ⟨schemaClass, member, dumped, known, ?_⟩
      exact List.mem_append_left _ (List.mem_map_of_mem
        (List.mem_filter.mpr ⟨selected, readOf_generated described⟩))
    · exact link_fits rooted resolved listed matched member

end Attached

def int32Type : DumpedType := ⟨"int32".toList, .builtin, [], 0, none⟩
def linkType : DumpedType := ⟨"CEntityInstance*".toList, .pointer, entityBase, 0, none⟩

/-- An entity class with a health and an owner link. -/
def healthScope : Scope where
  classes := [
    { name := some "A".toList, size := 24, bases := [⟨some entityBase, 8, []⟩],
      fields := [⟨some "m_iHealth".toList, 8, some 4, int32Type⟩,
        ⟨some chainField, 16, some 8, linkType⟩] },
    { name := some entityBase, size := 8, fields := [], bases := [] }]
  distinct := by decide

def healthDump : Dump := writeDump (fun _ _ => true) none healthScope

def healthManifest : Manifest where
  classes := [("A".toList, .fields ["m_iHealth".toList])]
  distinct := by decide

def healthRows : List LayoutRow :=
  [⟨"A".toList, "m_iHealth".toList, 8, 4⟩, ⟨"A".toList, chainField, 16, 8⟩]

def healthClasses : List SchemaClass := [
  { name := "A".toList, size := 24, ownerLinkOffset := 16, base := some entityBase,
    isEntity := true, inEntity := false, fields := [
      ⟨"m_iHealth".toList, "Health".toList, 8, 4, .value "int32_t".toList, "int32".toList, true⟩] },
  { name := entityBase, size := 8, ownerLinkOffset := -1, base := none,
    isEntity := true, inEntity := false, fields := [] }]

theorem healthDump_classes : healthDump = ⟨[("A".toList, ⟨24, entityBase, 16, [
    ⟨"m_iHealth".toList, 8, 4, true, int32Type⟩, ⟨chainField, 16, 8, true, linkType⟩]⟩),
    (entityBase, ⟨8, [], -1, []⟩)], by decide⟩ := by
  have sorted : healthDump.classes = mergeScope (fun _ _ => true) healthScope [] :=
    List.mergeSort_of_pairwise (by decide)
  simp only [healthDump, writeDump] at sorted ⊢
  congr 1

theorem healthScope_rooted : Rooted (SchemaDump.findClass none healthScope) := by
  intro name klass found base above bases
  have declared : healthScope.findDeclaredClass name = some klass := by
    simpa [SchemaDump.findClass] using found
  obtain ⟨member, called⟩ := findDeclaredClass_iff.mp declared
  simp only [healthScope, List.mem_cons, List.not_mem_nil, or_false] at member
  rcases member with rfl | rfl
  · cases bases
    exact ⟨entityBase, rfl, by decide, rfl⟩
  · cases bases

/-- A plugin that reads the health where the host found it. -/
theorem health_attached : ∃ schema ∈ [Event.start ⟨some healthScope, none⟩].map Event.schema,
    ∀ schemaClass ∈ healthClasses,
      (∀ field ∈ schemaClass.fields, ∀ code, accessorCode schemaClass field = some code →
        Fits schema schemaClass field code) ∧ LinkFits schema healthDump schemaClass := by
  have resolved : resolveClasses healthDump healthManifest = .ok healthClasses := by
    rw [healthDump_classes]
    decide +kernel
  have listed : layoutRows healthDump healthClasses = .ok healthRows := by
    rw [healthDump_classes, layoutRows, List.mergeSort_of_pairwise (by decide)]
    decide +kernel
  have plain : ∀ row ∈ healthRows ++ healthRows, Plain row := by
    have spelled : (healthRows ++ healthRows).all (fun row =>
        (row.className ++ row.fieldName).all fun c => c != ' ' && c != '\n') = true := by decide
    intro row member c among
    simpa using List.all_eq_true.mp (List.all_eq_true.mp spelled row member) c among
  exact @attached_offsets_live healthClasses healthRows (fun _ => 0x272E6CFBE98D8A19) _ none
    healthScope healthManifest ⟨"1".toList, healthRows, 0x272E6CFBE98D8A19⟩ "1".toList
    [.start ⟨some healthScope, none⟩] healthScope_rooted resolved listed plain rfl (fun _ => rfl)
    rfl

end VoltMod.SchemaLayout
