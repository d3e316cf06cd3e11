import Mathlib.Data.Char
import Mathlib.Data.List.Lex
import VoltMod.KeyValues
import VoltMod.Lists
import VoltMod.OrderedDict
import VoltMod.Result

/-! cli/voltmod/framework/eventgen.py: the event structs made of the `.gameevents` texts, up to
the templates. `upper` is what `str.upper` makes of one character. -/
namespace VoltMod.EventGen
open MigrationText (Text)
open KeyValues OrderedDict
open SchemaChanges (CharRules)

structure EventField where
  name : Text
  cppType : Text
  getter : Text
  default : Text
  comment : Text
  deriving DecidableEq, Repr

structure GameEvent where
  key : Text
  name : Text
  comment : Text
  fields : List EventField
  skipped : List Text
  deriving DecidableEq, Repr

/-- A C++ type, its getter before and behind the key, and its default. -/
structure Spec where
  cppType : Text
  before : Text
  behind : Text
  default : Text
  deriving DecidableEq, Repr

def Spec.ofStrings (cppType before behind default : String) : Spec :=
  ⟨cppType.toList, before.toList, behind.toList, default.toList⟩

def flagKeys : List Text := ["local".toList, "reliable".toList]

def playerTypes : List Text := ["player_controller".toList, "player_controller_and_pawn".toList]

def number : Spec := .ofStrings "int" "e.GetInt(\"" "\")" "0"

def valueTypes : List (Text × Spec) := [
  ("string".toList, .ofStrings "std::string" "e.GetString(\"" "\", \"\")" ""),
  ("bool".toList, .ofStrings "bool" "e.GetBool(\"" "\")" "false"),
  ("byte".toList, number),
  ("short".toList, number),
  ("long".toList, number),
  ("int".toList, number),
  ("float".toList, .ofStrings "float" "e.GetFloat(\"" "\")" "0.0f"),
  ("uint64".toList, .ofStrings "uint64_t" "e.GetUint64(\"" "\")" "0")]

def team : Spec :=
  .ofStrings "VoltMod::Team" "static_cast<VoltMod::Team>(e.GetInt(\"" "\"))" "VoltMod::Team::None"

def typedKeys : List (Text × Spec) := [
  ("team".toList, team),
  ("oldteam".toList, team),
  ("hitgroup".toList, .ofStrings "VoltMod::HitGroup"
    "static_cast<VoltMod::HitGroup>(e.GetInt(\"" "\"))" "VoltMod::HitGroup::Generic")]

def handWritten : List Text := ["bullet_impact".toList]

variable (rules : CharRules) (upper : Char → Text)

/-- A word with its first character in capitals. -/
def capital : Text → Text
  | [] => []
  | first :: rest => upper first ++ rest

def pascalCase (name : Text) : Text :=
  (name.splitOnP fun c => c == '_' || c == '-').flatMap (capital upper)

/-- The field a pair stands for, where its type is one the framework reads. -/
def fieldOf (key gameType comment : Text) : Option EventField :=
  if gameType ∈ playerTypes then
    some {
      name := if key = "userid".toList then "Slot".toList
        else pascalCase upper key ++ "Slot".toList
      cppType := "int".toList
      getter := "e.GetPlayerSlot(\"".toList ++ key ++ "\").Get()".toList
      default := "-1".toList
      comment }
  else match (lookup key typedKeys).or (lookup gameType valueTypes) with
    | some spec => some {
        name := pascalCase upper key
        cppType := spec.cppType
        getter := spec.before ++ key ++ spec.behind
        default := spec.default
        comment }
    | none => none

/-- The names no member may have: the struct's own ones. -/
def reserved (key : Text) : List Text :=
  ["EventName".toList, "From".toList, pascalCase upper key]

def addEntry (event : Text) (held : List EventField × List Text) : Entry →
    List EventField × List Text
  | .block .. => held
  | .pair key gameType comment =>
      if key ∈ flagKeys then held
      else match fieldOf upper key gameType comment with
        | none => (held.1, held.2 ++ [key ++ ": ".toList ++ gameType])
        | some field =>
            if field.name ∈ reserved upper event ++ held.1.map EventField.name then
              (held.1, held.2 ++
                [key ++ ": its name ".toList ++ field.name ++ " is taken".toList])
            else (held.1 ++ [field], held.2)

def eventModel (key : Text) (body : List Entry) (comment : Text) : GameEvent :=
  let held := body.foldl (addEntry upper key) ([], [])
  { key, name := pascalCase upper key, comment, fields := held.1, skipped := held.2 }

abbrev Events := List (Text × List Entry × Text)

/-- `events[key] = (body, comment)` for a block, which may replace an earlier one. -/
def define (events : Events) : Entry → Events
  | .pair .. => events
  | .block key body comment => alter key ([], []) (fun _ => (body, comment)) events

/-- The entries of a file's events block. -/
def eventsBlock (text : Text) : Except Failure (List Entry) := do
  match ← parseKeyvalues rules text with
  | .block _ body _ :: _ => return body
  | _ => throw .noBlock

def byKey (first second : Text × List Entry × Text) : Bool := first.1 ≤ second.1

def eventModels (events : Events) : List GameEvent :=
  ((events.mergeSort byKey).filter fun event => event.1 ∉ handWritten).map fun event =>
    eventModel upper event.1 event.2.1 event.2.2

def collectEvents (texts : List Text) : Except Failure (List GameEvent) := do
  let events ← texts.foldlM (fun events text => do
    let body ← eventsBlock rules text
    return body.foldl define events) ([] : Events)
  return eventModels upper events

section Fields
variable {event : Text} {body : List Entry}

/-- The pairs that say something of a field. -/
def described : Entry → Bool
  | .block .. => false
  | .pair key _ _ => key ∉ flagKeys

def candidate : Entry → Option EventField
  | .block .. => none
  | .pair key gameType comment =>
      if key ∈ flagKeys then none else fieldOf upper key gameType comment

/-- The first candidate of each free name is a field, and every described pair is told once. -/
structure Modelled (event : Text) (done : List Entry) (held : List EventField × List Text) :
    Prop where
  distinct : (held.1.map EventField.name).Nodup
  free : ∀ field ∈ held.1, field.name ∉ reserved upper event
  picked : held.1.Sublist (done.filterMap (candidate upper))
  first : ∀ before field after, done.filterMap (candidate upper) = before ++ field :: after →
    field.name ∉ reserved upper event → field.name ∉ before.map EventField.name → field ∈ held.1
  counted : held.1.length + held.2.length = done.countP described

variable {upper} {done : List Entry} {held : List EventField × List Text} {entry : Entry}

theorem modelled_nil : Modelled upper event [] ([], []) where
  distinct := List.nodup_nil
  free _ member := absurd member List.not_mem_nil
  picked := List.Sublist.refl _
  first before _ _ split := by
    cases before <;> cases split
  counted := rfl

theorem Modelled.passed (modelled : Modelled upper event done held) (entry : Entry)
    (lines : List Text) (none_ : candidate upper entry = none)
    (counts : lines.length = [entry].countP described) :
    Modelled upper event (done ++ [entry]) (held.1, held.2 ++ lines) := by
  have same : (done ++ [entry]).filterMap (candidate upper) = done.filterMap (candidate upper) := by
    rw [List.filterMap_append, List.filterMap_cons_none none_, List.filterMap_nil, List.append_nil]
  refine ⟨modelled.distinct, modelled.free, same ▸ modelled.picked, ?_, ?_⟩
  · rw [same]
    exact modelled.first
  · rw [List.countP_append, ← counts, ← modelled.counted, List.length_append, Nat.add_assoc]

theorem described_of_candidate {field : EventField} (some_ : candidate upper entry = some field) :
    described entry = true := by
  cases entry with
  | block => cases some_
  | pair key gameType comment =>
      rw [candidate] at some_
      split at some_
      · cases some_
      · simpa [described]

theorem Modelled.taken (modelled : Modelled upper event done held) {field : EventField}
    (some_ : candidate upper entry = some field)
    (taken : field.name ∈ reserved upper event ++ held.1.map EventField.name) (line : Text) :
    Modelled upper event (done ++ [entry]) (held.1, held.2 ++ [line]) := by
  have more : (done ++ [entry]).filterMap (candidate upper) =
      done.filterMap (candidate upper) ++ [field] := by
    rw [List.filterMap_append, List.filterMap_cons_some some_, List.filterMap_nil]
  refine ⟨modelled.distinct, modelled.free, ?_, ?_, ?_⟩
  · rw [more]
    exact modelled.picked.trans (List.sublist_append_left _ _)
  · intro before other after split free fresh
    rw [more] at split
    rcases Lists.split_last split with ⟨rfl, rfl⟩ | ⟨rest, earlier⟩
    · rcases List.mem_append.mp taken with own | shown
      · exact absurd own free
      · obtain ⟨shown, member, named⟩ := List.mem_map.mp shown
        exact absurd (List.mem_map.mpr ⟨shown, modelled.picked.subset member, named⟩) fresh
    · exact modelled.first before other rest earlier free fresh
  · rw [List.countP_append, ← modelled.counted, List.length_append, Nat.add_assoc,
      List.countP_singleton, described_of_candidate some_]
    rfl

theorem Modelled.added (modelled : Modelled upper event done held) {field : EventField}
    (some_ : candidate upper entry = some field)
    (untaken : field.name ∉ reserved upper event ++ held.1.map EventField.name) :
    Modelled upper event (done ++ [entry]) (held.1 ++ [field], held.2) := by
  have more : (done ++ [entry]).filterMap (candidate upper) =
      done.filterMap (candidate upper) ++ [field] := by
    rw [List.filterMap_append, List.filterMap_cons_some some_, List.filterMap_nil]
  rw [List.mem_append, not_or] at untaken
  refine ⟨?_, ?_, ?_, ?_, ?_⟩
  · rw [List.map_append, List.map_singleton, List.nodup_append]
    refine ⟨modelled.distinct, List.nodup_singleton _, ?_⟩
    intro name inside other last same
    obtain rfl := List.mem_singleton.mp last
    exact untaken.2 (same ▸ inside)
  · intro other member
    rcases List.mem_append.mp member with earlier | last
    · exact modelled.free other earlier
    · obtain rfl := List.mem_singleton.mp last
      exact untaken.1
  · rw [more]
    exact modelled.picked.append (List.Sublist.refl _)
  · intro before other after split free fresh
    rw [more] at split
    rcases Lists.split_last split with ⟨rfl, _⟩ | ⟨rest, earlier⟩
    · exact List.mem_append_right _ List.mem_cons_self
    · exact List.mem_append_left _ (modelled.first before other rest earlier free fresh)
  · rw [List.countP_append, ← modelled.counted, List.length_append, List.countP_singleton,
      described_of_candidate some_, List.length_singleton, if_pos rfl]
    exact Nat.add_right_comm ..

theorem addEntry_modelled (modelled : Modelled upper event done held) (entry : Entry) :
    Modelled upper event (done ++ [entry]) (addEntry upper event held entry) := by
  cases entry with
  | block key body comment =>
      have passed := modelled.passed (.block key body comment) [] rfl rfl
      rwa [List.append_nil] at passed
  | pair key gameType comment =>
      rw [addEntry]
      split
      · rename_i flag
        have passed := modelled.passed (.pair key gameType comment) []
          (by rw [candidate, if_pos flag]) (by simp [described, flag])
        rwa [List.append_nil] at passed
      · rename_i plain
        have asked : candidate upper (.pair key gameType comment) =
            fieldOf upper key gameType comment := by rw [candidate, if_neg plain]
        cases found : fieldOf upper key gameType comment with
        | none =>
            exact modelled.passed _ _ (asked.trans found) (by simp [described, plain])
        | some field =>
            simp only
            split
            · exact modelled.taken (asked.trans found) ‹_› _
            · exact modelled.added (asked.trans found) ‹_›

theorem body_modelled (modelled : Modelled upper event done held) (body : List Entry) :
    Modelled upper event (done ++ body) (body.foldl (addEntry upper event) held) := by
  induction body generalizing done held with
  | nil => rwa [List.append_nil]
  | cons entry body ih =>
      have further := ih (addEntry_modelled modelled entry)
      rwa [List.append_assoc, List.singleton_append] at further

end Fields

section Collecting
variable {rules} {entries : List Entry} {events : Events} {key comment : Text} {body : List Entry}

/-- The last block of that key. -/
def Latest (entries : List Entry) (key : Text) (body : List Entry) (comment : Text) : Prop :=
  ∃ before after, entries = before ++ .block key body comment :: after ∧
    ∀ other said, .block key other said ∉ after

theorem latest_cons {entry : Entry} : Latest (entry :: entries) key body comment ↔
    Latest entries key body comment ∨
      entry = .block key body comment ∧ ∀ other said, .block key other said ∉ entries := by
  constructor
  · rintro ⟨before, after, split, none_⟩
    cases before with
    | nil =>
        obtain ⟨rfl, rfl⟩ := List.cons.inj split
        exact .inr ⟨rfl, none_⟩
    | cons first before =>
        obtain ⟨rfl, rfl⟩ := List.cons.inj split
        exact .inl ⟨before, after, rfl, none_⟩
  · rintro (⟨before, after, rfl, none_⟩ | ⟨rfl, none_⟩)
    · exact ⟨entry :: before, after, rfl, none_⟩
    · exact ⟨[], entries, rfl, none_⟩

theorem lookup_define (entry : Entry) : lookup key (define events entry) = some (body, comment) ↔
    entry = .block key body comment ∨
      (∀ other said, entry ≠ .block key other said) ∧ lookup key events = some (body, comment) := by
  cases entry with
  | pair => simp [define]
  | block named held said =>
      rw [define, lookup_alter]
      by_cases same : named = key
      · subst same
        simp
      · simp [same]

theorem lookup_defines : lookup key (entries.foldl define events) = some (body, comment) ↔
    Latest entries key body comment ∨
      (∀ other said, .block key other said ∉ entries) ∧
        lookup key events = some (body, comment) := by
  induction entries generalizing events with
  | nil => simp [Latest]
  | cons entry entries ih =>
      rw [List.foldl_cons, ih, latest_cons, lookup_define]
      simp only [List.mem_cons, not_or]
      constructor
      · rintro (latest | ⟨none_, rfl | ⟨other, held⟩⟩)
        · exact .inl (.inl latest)
        · exact .inl (.inr ⟨rfl, none_⟩)
        · exact .inr ⟨fun held said => ⟨fun same => other held said same.symm, none_ held said⟩,
            held⟩
      · rintro ((latest | ⟨rfl, none_⟩) | ⟨none_, held⟩)
        · exact .inl latest
        · exact .inr ⟨none_, .inl rfl⟩
        · exact .inr ⟨fun other said => (none_ other said).2,
            .inr ⟨fun other said same => (none_ other said).1 same.symm, held⟩⟩

theorem defines_distinct (distinct : (keys events).Nodup) :
    (keys (entries.foldl define events)).Nodup := by
  induction entries generalizing events with
  | nil => exact distinct
  | cons entry entries ih =>
      apply ih
      cases entry with
      | pair => exact distinct
      | block => exact alter_distinct distinct

/-- Each text has its events block at the top. -/
def Blocks (rules : CharRules) (texts : List Text) (bodies : List (List Entry)) : Prop :=
  List.Forall₂ (fun text body => ∃ key comment rest,
    parseKeyvalues rules text = .ok (.block key body comment :: rest)) texts bodies

theorem eventsBlock_ok {text : Text} : eventsBlock rules text = .ok body ↔
    ∃ key comment rest, parseKeyvalues rules text = .ok (.block key body comment :: rest) := by
  rw [eventsBlock]
  cases parsed : parseKeyvalues rules text with
  | error failure => simp [bind, Except.bind]
  | ok top =>
      cases top with
      | nil => simp [bind, Except.bind, throw, throwThe, MonadExceptOf.throw]
      | cons first rest =>
          cases first with
          | pair => simp [bind, Except.bind, throw, throwThe, MonadExceptOf.throw]
          | block => simp [bind, Except.bind, pure, Except.pure]

theorem fold_ok {texts : List Text} {made : Events} :
    texts.foldlM (fun events text => do
      let body ← eventsBlock rules text
      return body.foldl define events) events = .ok made ↔
    ∃ bodies, Blocks rules texts bodies ∧ made = bodies.flatten.foldl define events := by
  induction texts generalizing events with
  | nil =>
      constructor
      · intro same
        cases same
        exact ⟨[], .nil, rfl⟩
      · rintro ⟨bodies, blocks, rfl⟩
        cases blocks
        rfl
  | cons text texts ih =>
      rw [List.foldlM_cons, bind_ok_iff]
      constructor
      · rintro ⟨next, here, later⟩
        obtain ⟨body, read, same⟩ := (bind_ok_iff ..).mp here
        cases same
        obtain ⟨bodies, blocks, rfl⟩ := ih.mp later
        refine ⟨body :: bodies, .cons (eventsBlock_ok.mp read) blocks, ?_⟩
        rw [List.flatten_cons, List.foldl_append]
      · rintro ⟨bodies, blocks, rfl⟩
        cases blocks with
        | @cons _ body _ bodies read blocks =>
            refine ⟨body.foldl define events,
              (bind_ok_iff ..).mpr ⟨body, eventsBlock_ok.mpr read, rfl⟩, ih.mpr ⟨bodies, blocks, ?_⟩⟩
            rw [List.flatten_cons, List.foldl_append]

/-- Sorting by keys that differ puts them in strict order. -/
theorem sorted_strict (distinct : (keys events).Nodup) :
    (events.mergeSort byKey).Pairwise fun first second => first.1 < second.1 := by
  have trans : ∀ a b c, byKey a b = true → byKey b c = true → byKey a c = true := by
    intro a b c
    simpa [byKey] using le_trans
  have total : ∀ a b, (byKey a b || byKey b a) = true := by
    intro a b
    simpa [byKey] using le_total a.1 b.1
  have apart : (events.mergeSort byKey).Pairwise fun first second => first.1 ≠ second.1 := by
    have same := ((List.mergeSort_perm events byKey).map Prod.fst).nodup_iff.mpr distinct
    exact List.pairwise_map.mp same
  have both := (List.pairwise_mergeSort trans total events).and apart
  refine both.imp ?_
  intro first second ordered
  exact lt_of_le_of_ne (by simpa [byKey] using ordered.1) ordered.2

def Ordered (events : List GameEvent) : Prop :=
  events.Pairwise fun first second => first.key < second.key

theorem ordered_unique {first second : List GameEvent} (one : Ordered first) (two : Ordered second)
    (same : ∀ event, event ∈ first ↔ event ∈ second) : first = second := by
  have distinct : ∀ {events}, Ordered events → events.Nodup := by
    intro events ordered
    exact ordered.imp fun less equal => absurd (equal ▸ less) (lt_irrefl _)
  apply List.Perm.eq_of_pairwise _ one two
    ((List.perm_ext_iff_of_nodup (distinct one) (distinct two)).mpr same)
  intro a b _ _ less more
  exact absurd (lt_trans less more) (lt_irrefl _)

theorem models_ordered (upper : Char → Text) (distinct : (keys events).Nodup) :
    Ordered (eventModels upper events) :=
  List.pairwise_map.mpr ((sorted_strict distinct).filter _)

theorem mem_models (upper : Char → Text) (distinct : (keys events).Nodup) (event : GameEvent) :
    event ∈ eventModels upper events ↔ event.key ∉ handWritten ∧ ∃ body comment,
      lookup event.key events = some (body, comment) ∧
        event = eventModel upper event.key body comment := by
  rw [eventModels, List.mem_map]
  constructor
  · rintro ⟨⟨key, body, comment⟩, member, rfl⟩
    obtain ⟨held, plain⟩ := List.mem_filter.mp member
    have machine : key ∉ handWritten := by simpa using plain
    exact ⟨machine, body, comment,
      (lookup_mem distinct).mpr ((List.mergeSort_perm events byKey).mem_iff.mp held), rfl⟩
  · rintro ⟨plain, body, comment, found, same⟩
    refine ⟨(event.key, body, comment), List.mem_filter.mpr ⟨?_, by simpa using plain⟩, same.symm⟩
    exact (List.mergeSort_perm events byKey).mem_iff.mpr ((lookup_mem distinct).mp found)

/-- The events of some texts are, in the order of their names, the last definition of each name
that is not written by hand; they are collected just where every text has its block. -/
theorem events_collected (rules : CharRules) (upper : Char → Text) (texts : List Text)
    (events : List GameEvent) :
    collectEvents rules upper texts = .ok events ↔
      ∃ bodies, Blocks rules texts bodies ∧ Ordered events ∧
        ∀ event, event ∈ events ↔ event.key ∉ handWritten ∧ ∃ body comment,
          Latest bodies.flatten event.key body comment ∧
            event = eventModel upper event.key body comment := by
  have distinct : ∀ entries : List Entry, (keys (entries.foldl define ([] : Events))).Nodup :=
    fun entries => defines_distinct List.nodup_nil
  have latest : ∀ (entries : List Entry) key body comment,
      lookup key (entries.foldl define ([] : Events)) = some (body, comment) ↔
        Latest entries key body comment := by
    intro entries key body comment
    rw [lookup_defines, or_iff_left]
    rintro ⟨_, found⟩
    cases found
  rw [collectEvents, bind_ok_iff]
  constructor
  · rintro ⟨made, folded, same⟩
    cases same
    obtain ⟨bodies, blocks, rfl⟩ := fold_ok.mp folded
    refine ⟨bodies, blocks, models_ordered upper (distinct _), fun event => ?_⟩
    simp only [mem_models upper (distinct _), latest]
  · rintro ⟨bodies, blocks, ordered, members⟩
    refine ⟨_, fold_ok.mpr ⟨bodies, blocks, rfl⟩, congrArg Except.ok ?_⟩
    apply ordered_unique (models_ordered upper (distinct _)) ordered
    intro event
    simp only [mem_models upper (distinct _), latest, members]

end Collecting

end VoltMod.EventGen
