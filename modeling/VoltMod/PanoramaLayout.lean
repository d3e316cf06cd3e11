import Mathlib.Data.Char
import Mathlib.Data.List.Lex
import Mathlib.Data.List.Nodup
import Mathlib.Data.List.TakeWhile
import VoltMod.Decimals
import VoltMod.OrderedDict

/-!
cli/voltmod/panorama/layout.py and the names screen.hpp.j2 spells: the repeated blocks of a
screen, found in its numbered ids and variables, and all the rest flat.
-/

namespace VoltMod.PanoramaLayout

open MigrationText (Text digit decimal)
open OrderedDict

/-- `[a-z_]` -/
def blockChar (c : Char) : Bool := 'a' ≤ c && c ≤ 'z' || c == '_'

/-- What Python takes for `\d`, with the value `int` reads, and for `\w`. -/
structure CharClasses where
  digitValue : Char → Option Nat
  word : Char → Bool
  ascii : ∀ c, digit c = true → digitValue c = some (c.toNat - '0'.toNat)
  letter : ∀ c, blockChar c = true → digitValue c = none

/-- A block's index: the digits of a name as `int` reads them. -/
def CharClasses.number (classes : CharClasses) (digits : Text) : Nat :=
  digits.foldl (fun value c => 10 * value + (classes.digitValue c).getD 0) 0

/-- `$`: the end, or a line break before it. -/
def atEnd (text : Text) : Bool := text == [] || text == ['\n']

def suffixOf (classes : CharClasses) : Text → Option Text
  | '_' :: after =>
      let suffix := after.takeWhile classes.word
      if suffix ≠ [] ∧ atEnd (after.dropWhile classes.word) then some suffix else none
  | after => if atEnd after then some [] else none

/-- The pattern `^([a-z][a-z_]*?)(\d+)(?:_(\w+))?$`: a block's name ends where digits begin, and
those go on as far as they can. -/
def indexedName (classes : CharClasses) (name : Text) : Option (Text × Nat × Text) :=
  let block := name.takeWhile blockChar
  let numbered := name.dropWhile blockChar
  let digits := numbered.takeWhile fun c => (classes.digitValue c).isSome
  let after := numbered.dropWhile fun c => (classes.digitValue c).isSome
  if block.head?.any (· ≠ '_') ∧ digits ≠ [] then
    (suffixOf classes after).map fun suffix => (block, classes.number digits, suffix)
  else none

structure RepeatedBlock where
  name : Text
  count : Nat
  idSuffixes : List Text
  variableSuffixes : List Text
  deriving DecidableEq, Repr

structure Screen where
  name : Text
  ids : List Text
  «variables» : List Text

def withSuffix (base suffix : Text) : Text := if suffix = [] then base else base ++ '_' :: suffix

def variableName (block : Text) (index : Nat) (suffix : Text) : Text :=
  withSuffix (block ++ Decimals.spelled index) suffix

def idName (screen block : Text) (index : Nat) (suffix : Text) : Text :=
  withSuffix (screen ++ '_' :: block ++ Decimals.spelled index) suffix

def RepeatedBlock.ids (block : RepeatedBlock) (screen : Text) (index : Nat) : List Text :=
  block.idSuffixes.map (idName screen block.name index)

def RepeatedBlock.variables (block : RepeatedBlock) (index : Nat) : List Text :=
  block.variableSuffixes.map (variableName block.name index)

def removePrefix (front text : Text) : Text :=
  if front.isPrefixOf text then text.drop front.length else text

/-- Suffixes of ids and of variables by index. -/
abbrev Copies := List (Nat × (List Text × List Text))

def addId (suffix : Text) (held : List Text × List Text) : List Text × List Text :=
  (held.1 ++ [suffix], held.2)

def addVariable (suffix : Text) (held : List Text × List Text) : List Text × List Text :=
  (held.1, held.2 ++ [suffix])

/-- `add`, for one of the two slots. -/
def add (append : Text → List Text × List Text → List Text × List Text)
    (read : Text → Option (Text × Nat × Text)) (copies : List (Text × Copies)) (name : Text) :
    List (Text × Copies) :=
  match read name with
  | none => copies
  | some (block, index, suffix) => alter block [] (alter index ([], []) (append suffix)) copies

def readId (classes : CharClasses) (screen identifier : Text) : Option (Text × Nat × Text) :=
  indexedName classes (removePrefix (screen ++ ['_']) identifier)

def indexedNames (classes : CharClasses) (screen : Screen) : List (Text × Copies) :=
  screen.variables.foldl (add addVariable (indexedName classes))
    (screen.ids.foldl (add addId (readId classes screen.name)) [])

/-- `sorted` -/
def sorted (texts : List Text) : List Text := texts.mergeSort fun first second => first ≤ second

def findBlock (name : Text) (byIndex : Copies) : Option RepeatedBlock :=
  if byIndex.length < 2 ∨ (keys byIndex).mergeSort ≠ List.range byIndex.length then none
  else
    (lookup 0 byIndex).bind fun first =>
      if byIndex.all fun copy =>
          sorted copy.2.1 == sorted first.1 && sorted copy.2.2 == sorted first.2 then
        some ⟨name, byIndex.length, first.1, first.2⟩
      else none

def findBlocks (classes : CharClasses) (screen : Screen) : List RepeatedBlock :=
  (indexedNames classes screen).filterMap fun entry => findBlock entry.1 entry.2

/-- What the blocks' arrays spell, row by row. -/
def blockIds (classes : CharClasses) (screen : Screen) : List Text :=
  (findBlocks classes screen).flatMap fun block =>
    (List.range block.count).flatMap (block.ids screen.name)

def blockVariables (classes : CharClasses) (screen : Screen) : List Text :=
  (findBlocks classes screen).flatMap fun block =>
    (List.range block.count).flatMap block.variables

def flatIds (classes : CharClasses) (screen : Screen) : List Text :=
  screen.ids.filter fun name => !(blockIds classes screen).contains name

def flatVariables (classes : CharClasses) (screen : Screen) : List Text :=
  screen.variables.filter fun name => !(blockVariables classes screen).contains name

def headerIds (classes : CharClasses) (screen : Screen) : List Text :=
  flatIds classes screen ++ blockIds classes screen

def headerVariables (classes : CharClasses) (screen : Screen) : List Text :=
  flatVariables classes screen ++ blockVariables classes screen

section Spelling
variable (blocks : List RepeatedBlock) (suffixes : RepeatedBlock → List Text)
  (read : Text → Option (Text × Nat × Text)) (spell : Text → Nat → Text → Text)
  (names : List Text)

/-- The suffix of a name that is read as one of the block's copy. -/
def copySuffix (block : Text) (index : Nat) (name : Text) : Option Text :=
  (read name).bind fun (found, copy, suffix) =>
    if found = block ∧ copy = index then some suffix else none

def suffixesOf (block : Text) (index : Nat) : List Text :=
  names.filterMap (copySuffix read block index)

def spelledBy : List Text :=
  blocks.flatMap fun block =>
    (List.range block.count).flatMap fun index =>
      (suffixes block).map (spell block.name index)

/-- The blocks' copies are what the names are read as, and what is read can be spelled. -/
structure Grouped : Prop where
  distinct : (blocks.map RepeatedBlock.name).Nodup
  repeated : ∀ block ∈ blocks, 0 < block.count
  copies : ∀ block ∈ blocks, ∀ index < block.count,
    (suffixesOf read names block.name index).Perm (suffixes block)
  inside : ∀ block ∈ blocks, ∀ name ∈ names, ∀ index suffix,
    read name = some (block.name, index, suffix) → index < block.count
  reads : ∀ name ∈ names, ∀ block index suffix, read name = some (block, index, suffix) →
    ∀ copy, read (spell block copy suffix) = some (block, copy, suffix)

/-- Each name stands once, and in a block as the block spells it. -/
structure Plain : Prop where
  once : names.Nodup
  spelling : ∀ name ∈ names, ∀ block ∈ blocks, ∀ index suffix,
    read name = some (block.name, index, suffix) → name = spell block.name index suffix

/-- The blocks spell names that there are, and every name is spelled once, flat or by a block. -/
structure Exact : Prop where
  stands : ∀ name ∈ spelledBy blocks suffixes spell, name ∈ names
  once : ∀ name ∈ names,
    (names.filter (fun name => !(spelledBy blocks suffixes spell).contains name) ++
      spelledBy blocks suffixes spell).count name = 1

variable {blocks suffixes read spell names} {block : RepeatedBlock} {name other : Text}
  {index : Nat} {suffix : Text}

theorem copySuffix_iff {found : Text} :
    copySuffix read found index name = some suffix ↔ read name = some (found, index, suffix) := by
  rw [copySuffix, Option.bind_eq_some_iff]
  constructor
  · rintro ⟨⟨block, copy, suffix⟩, ran, chosen⟩
    simp only [Option.ite_none_right_eq_some, Option.some.injEq] at chosen
    obtain ⟨⟨rfl, rfl⟩, rfl⟩ := chosen
    exact ran
  · intro ran
    exact ⟨_, ran, if_pos ⟨rfl, rfl⟩⟩

theorem mem_suffixesOf {found : Text} : suffix ∈ suffixesOf read names found index ↔
    ∃ name ∈ names, read name = some (found, index, suffix) := by
  simp only [suffixesOf, List.mem_filterMap, copySuffix_iff]

theorem mem_spelledBy : name ∈ spelledBy blocks suffixes spell ↔
    ∃ block ∈ blocks, ∃ index < block.count, ∃ suffix ∈ suffixes block,
      spell block.name index suffix = name := by
  simp only [spelledBy, List.mem_flatMap, List.mem_range, List.mem_map]

/-- A suffix a block has is that of a name, so that its spelling is read back. -/
theorem spelled_reads (grouped : Grouped blocks suffixes read spell names)
    (listed : block ∈ blocks) (held : suffix ∈ suffixes block) (index : Nat) :
    read (spell block.name index suffix) = some (block.name, index, suffix) := by
  have first := grouped.copies block listed 0 (grouped.repeated block listed)
  obtain ⟨name, among, ran⟩ := mem_suffixesOf.mp (first.mem_iff.mpr held)
  exact grouped.reads name among block.name 0 suffix ran index

theorem spelled_sublist (listed : block ∈ blocks) (inside : index < block.count) :
    ((suffixes block).map (spell block.name index)).Sublist
      (spelledBy blocks suffixes spell) := by
  have row : ((suffixes block).map (spell block.name index)).Sublist
      ((List.range block.count).flatMap fun index =>
        (suffixes block).map (spell block.name index)) :=
    List.sublist_flatten_of_mem (List.mem_map.mpr ⟨index, List.mem_range.mpr inside, rfl⟩)
  exact row.trans (List.sublist_flatten_of_mem (List.mem_map.mpr ⟨block, listed, rfl⟩))

/-- What reads the same copy and suffix is counted there. -/
theorem suffixes_count (grouped : Grouped blocks suffixes read spell names)
    (listed : block ∈ blocks) (inside : index < block.count) :
    (suffixes block).count suffix =
      names.countP fun name => copySuffix read block.name index name == some suffix := by
  rw [← (grouped.copies block listed index inside).count_eq, suffixesOf, List.count_filterMap]

theorem spelled_count (grouped : Grouped blocks suffixes read spell names)
    (listed : block ∈ blocks) (inside : index < block.count) (suffix : Text) :
    (names.countP fun name => copySuffix read block.name index name == some suffix) ≤
      (spelledBy blocks suffixes spell).count (spell block.name index suffix) := by
  rw [← suffixes_count grouped listed inside]
  exact List.count_le_count_map.trans ((spelled_sublist listed inside).count_le _)

theorem countP_two (chosen : Text → Bool) (one : name ∈ names) (two : other ∈ names)
    (first : chosen name = true) (second : chosen other = true) (apart : name ≠ other) :
    2 ≤ names.countP chosen := by
  have both := List.countP_eq_length_filter (p := chosen) (l := names)
  rw [both]
  have here := List.mem_filter.mpr ⟨one, first⟩
  have there := List.mem_filter.mpr ⟨two, second⟩
  by_contra short
  obtain ⟨only, same⟩ := List.length_eq_one_iff.mp
    (by have := List.length_pos_of_mem here; omega : (names.filter chosen).length = 1)
  rw [same, List.mem_singleton] at here there
  exact apart (here.trans there.symm)

/-- One name of a copy alone has a suffix, where names are spelled once. -/
theorem exact_plain (grouped : Grouped blocks suffixes read spell names)
    (exact : Exact blocks suffixes spell names) : Plain blocks read spell names where
  once := by
    rw [List.nodup_iff_count_le_one]
    intro name
    by_cases listed : name ∈ names
    · have once := exact.once name listed
      rw [List.count_append] at once
      by_cases spelled : name ∈ spelledBy blocks suffixes spell
      · obtain ⟨block, among, index, inside, suffix, held, rfl⟩ := mem_spelledBy.mp spelled
        have ran := spelled_reads grouped among held index
        have fewer : names.count (spell block.name index suffix) ≤
            names.countP fun name => copySuffix read block.name index name == some suffix := by
          apply List.countP_mono_left
          intro name _ same
          obtain rfl := beq_iff_eq.mp same
          exact beq_iff_eq.mpr (copySuffix_iff.mpr ran)
        have bound := spelled_count grouped among inside suffix
        omega
      · rw [List.count_filter (by simpa using spelled)] at once
        omega
    · rw [List.count_eq_zero_of_not_mem listed]
      exact Nat.zero_le _
  spelling := by
    intro name listed block among index suffix ran
    by_contra apart
    have inside := grouped.inside block among name listed index suffix ran
    have held : suffix ∈ suffixes block :=
      (grouped.copies block among index inside).mem_iff.mp (mem_suffixesOf.mpr ⟨name, listed, ran⟩)
    have spelled : spell block.name index suffix ∈ spelledBy blocks suffixes spell :=
      mem_spelledBy.mpr ⟨block, among, index, inside, suffix, held, rfl⟩
    have stands := exact.stands _ spelled
    have again := spelled_reads grouped among held index
    have two := countP_two (fun name => copySuffix read block.name index name == some suffix)
      listed stands (beq_iff_eq.mpr (copySuffix_iff.mpr ran))
      (beq_iff_eq.mpr (copySuffix_iff.mpr again)) apart
    have bound := spelled_count grouped among inside suffix
    have once := exact.once _ stands
    rw [List.count_append] at once
    omega

/-- The names read as one copy, where each is spelled as its block spells it. -/
theorem suffixes_spelled (plain : Plain blocks read spell names) (listed : block ∈ blocks) :
    (suffixesOf read names block.name index).map (spell block.name index) =
      names.filter fun name => (copySuffix read block.name index name).isSome := by
  rw [suffixesOf, List.map_filterMap, ← List.filterMap_eq_filter]
  apply List.filterMap_congr
  intro name among
  cases found : copySuffix read block.name index name with
  | none => simp [Option.guard, found]
  | some suffix =>
      have spelled := plain.spelling name among block listed index suffix (copySuffix_iff.mp found)
      simp [Option.guard, found, ← spelled]

theorem spelled_once (grouped : Grouped blocks suffixes read spell names)
    (plain : Plain blocks read spell names) : (spelledBy blocks suffixes spell).Nodup := by
  rw [spelledBy, List.nodup_flatMap]
  constructor
  · intro block listed
    rw [List.nodup_flatMap]
    constructor
    · intro index inside
      have copies := grouped.copies block listed index (List.mem_range.mp inside)
      rw [← (copies.map _).nodup_iff, suffixes_spelled plain listed]
      exact plain.once.filter _
    · apply List.nodup_range.imp_of_mem
      intro one two _ _ apart
      rw [Function.onFun_apply, List.disjoint_left]
      intro name first second
      obtain ⟨suffix, held, rfl⟩ := List.mem_map.mp first
      obtain ⟨other, also, same⟩ := List.mem_map.mp second
      have read := spelled_reads grouped listed held one
      rw [← same, spelled_reads grouped listed also _] at read
      cases read
      exact apart rfl
  · apply (List.pairwise_map.mp grouped.distinct).imp_of_mem
    intro one two first second apart
    rw [Function.onFun_apply, List.disjoint_left]
    intro name here there
    obtain ⟨index, -, here⟩ := List.mem_flatMap.mp here
    obtain ⟨suffix, held, rfl⟩ := List.mem_map.mp here
    obtain ⟨copy, -, there⟩ := List.mem_flatMap.mp there
    obtain ⟨other, also, same⟩ := List.mem_map.mp there
    have read := spelled_reads grouped first held index
    rw [← same, spelled_reads grouped second also _] at read
    exact apart (congrArg Prod.fst (Option.some.inj read)).symm

theorem plain_exact (grouped : Grouped blocks suffixes read spell names)
    (plain : Plain blocks read spell names) : Exact blocks suffixes spell names where
  stands := by
    intro name spelled
    obtain ⟨block, listed, index, inside, suffix, held, rfl⟩ := mem_spelledBy.mp spelled
    have copies := grouped.copies block listed index inside
    obtain ⟨name, among, ran⟩ := mem_suffixesOf.mp (copies.mem_iff.mpr held)
    rw [← plain.spelling name among block listed index suffix ran]
    exact among
  once := by
    intro name listed
    rw [List.count_append]
    by_cases spelled : name ∈ spelledBy blocks suffixes spell
    · rw [List.count_eq_one_of_mem (spelled_once grouped plain) spelled,
        List.count_eq_zero_of_not_mem]
      simp [spelled]
    · rw [List.count_eq_zero_of_not_mem spelled, List.count_filter (by simpa using spelled),
        List.count_eq_one_of_mem plain.once listed]

end Spelling

section Reading
variable {classes : CharClasses} {block suffix : Text} {index : Nat}

/-- What the pattern takes for a block's name. -/
structure Named (block : Text) : Prop where
  opens : block.head?.any (· ≠ '_') = true
  letters : ∀ c ∈ block, blockChar c = true

theorem suffixOf_word {after : Text} (found : suffixOf classes after = some suffix) :
    ∀ c ∈ suffix, classes.word c = true := by
  unfold suffixOf at found
  split at found
  · simp only [Option.ite_none_right_eq_some, Option.some.injEq] at found
    obtain ⟨-, rfl⟩ := found
    exact fun c inside => List.mem_takeWhile_imp inside
  · simp only [Option.ite_none_right_eq_some, Option.some.injEq] at found
    obtain ⟨-, rfl⟩ := found
    exact List.forall_mem_nil _

theorem indexedName_named {name : Text}
    (read : indexedName classes name = some (block, index, suffix)) :
    Named block ∧ ∀ c ∈ suffix, classes.word c = true := by
  unfold indexedName at read
  simp only [Option.ite_none_right_eq_some, Option.map_eq_some_iff, Prod.mk.injEq] at read
  obtain ⟨⟨opens, -⟩, found, spells, rfl, -, rfl⟩ := read
  exact ⟨⟨opens, fun c inside => List.mem_takeWhile_imp inside⟩, suffixOf_word spells⟩

theorem takeWhile_front {accepts : Char → Bool} {front back : Text}
    (inside : ∀ c ∈ front, accepts c = true) (stops : ∀ c ∈ back.head?, accepts c = false) :
    (front ++ back).takeWhile accepts = front ∧ (front ++ back).dropWhile accepts = back := by
  rw [List.takeWhile_append_of_pos inside, List.dropWhile_append_of_pos inside]
  cases back with
  | nil => simp
  | cons c rest =>
      have refused := stops c rfl
      simp [refused]

theorem number_spelled (classes : CharClasses) (index : Nat) :
    classes.number (Decimals.spelled index) = index := by
  have same : classes.number (Decimals.spelled index) = decimal (Decimals.spelled index) := by
    apply List.foldl_ext
    intro value c inside
    rw [classes.ascii c (List.all_eq_true.mp (Decimals.spelled_digits index) c inside)]
    rfl
  rw [same, Decimals.decimal_spelled]

/-- A suffix behind its underscore, or nothing. -/
def tail (suffix : Text) : Text := if suffix = [] then [] else '_' :: suffix

theorem withSuffix_tail (base suffix : Text) : withSuffix base suffix = base ++ tail suffix := by
  unfold withSuffix tail
  split <;> simp

theorem suffixOf_tail (word : ∀ c ∈ suffix, classes.word c = true) :
    suffixOf classes (tail suffix) = some suffix := by
  unfold tail
  split
  · next empty =>
      subst empty
      rfl
  · next some_ =>
      have whole := @takeWhile_front _ _ [] word nofun
      rw [List.append_nil] at whole
      simp only [suffixOf, whole.1, whole.2]
      exact if_pos ⟨some_, rfl⟩

theorem digit_letter (classes : CharClasses) {c : Char} (isDigit : digit c = true) :
    blockChar c = false := by
  by_contra letter
  have value := classes.ascii c isDigit
  rw [classes.letter c (Bool.not_eq_false _ ▸ letter)] at value
  cases value

/-- What a block spells is read back. -/
theorem indexedName_spelled (named : Named block) (word : ∀ c ∈ suffix, classes.word c = true) :
    indexedName classes (variableName block index suffix) = some (block, index, suffix) := by
  have digits : ∀ c ∈ Decimals.spelled index, digit c = true :=
    List.all_eq_true.mp (Decimals.spelled_digits index)
  have stops : ∀ c ∈ (Decimals.spelled index ++ tail suffix).head?, blockChar c = false := by
    obtain ⟨first, rest, spelled⟩ := List.exists_cons_of_ne_nil (Decimals.spelled_some index)
    rw [spelled] at digits ⊢
    rintro c ⟨⟩
    exact digit_letter classes (digits first List.mem_cons_self)
  have values : ∀ c ∈ Decimals.spelled index, (classes.digitValue c).isSome = true := by
    intro c inside
    rw [classes.ascii c (digits c inside)]
    rfl
  have ends : ∀ c ∈ (tail suffix).head?, (classes.digitValue c).isSome = false := by
    unfold tail
    split
    · exact nofun
    · rintro c ⟨⟩
      rw [classes.letter '_' rfl]
      rfl
  obtain ⟨front, back⟩ := takeWhile_front named.letters stops
  obtain ⟨number, after⟩ := takeWhile_front values ends
  have text : variableName block index suffix =
      block ++ (Decimals.spelled index ++ tail suffix) := by
    rw [variableName, withSuffix_tail, List.append_assoc]
  rw [indexedName, text]
  simp only [front, back, number, after]
  rw [if_pos ⟨named.opens, Decimals.spelled_some index⟩, suffixOf_tail word, number_spelled]
  rfl

theorem readId_spelled (screen : Text) (named : Named block)
    (word : ∀ c ∈ suffix, classes.word c = true) :
    readId classes screen (idName screen block index suffix) = some (block, index, suffix) := by
  have text : idName screen block index suffix =
      (screen ++ ['_']) ++ variableName block index suffix := by
    simp only [idName, variableName, withSuffix_tail, List.append_assoc, List.cons_append,
      List.nil_append]
  have cut : removePrefix (screen ++ ['_']) (idName screen block index suffix) =
      variableName block index suffix := by
    rw [removePrefix, text, if_pos (List.isPrefixOf_iff_prefix.mpr (List.prefix_append _ _)),
      List.drop_left]
  rw [readId, cut, indexedName_spelled named word]

end Reading

section Copies
variable (append : Text → List Text × List Text → List Text × List Text)
  (read : Text → Option (Text × Nat × Text)) {copies : List (Text × Copies)}
  {held : Text → Nat → List Text × List Text}

/-- The suffixes of a block's copy, where the dictionaries have any. -/
def copyAt (copies : List (Text × Copies)) (block : Text) (index : Nat) :
    Option (List Text × List Text) := (lookup block copies).bind (lookup index)

/-- The dictionaries hold the suffixes of every copy that has one, and no other copy. -/
structure Counted (copies : List (Text × Copies)) (held : Text → Nat → List Text × List Text) :
    Prop where
  distinct : (keys copies).Nodup
  inner : ∀ block byIndex, lookup block copies = some byIndex → (keys byIndex).Nodup
  found : ∀ block index, copyAt copies block index =
    if held block index = ([], []) then none else some (held block index)

theorem copyAt_alter {block other : Text} {index copy : Nat}
    {change : List Text × List Text → List Text × List Text} :
    copyAt (alter block [] (alter index ([], []) change) copies) other copy =
      if block = other ∧ index = copy then
        some (change ((copyAt copies other copy).getD ([], [])))
      else copyAt copies other copy := by
  unfold copyAt
  rw [lookup_alter]
  by_cases here : block = other
  · subst here
    rw [if_pos rfl, Option.bind_some, lookup_alter]
    cases lookup block copies with
    | none => simp [lookup]
    | some byIndex =>
        by_cases there : index = copy
        · subst there
          simp
        · simp [there]
  · rw [if_neg here, if_neg fun both => here both.1]

theorem add_counted (fills : ∀ suffix held, append suffix held ≠ ([], []))
    (counted : Counted copies held) (name : Text) :
    Counted (add append read copies name) fun block index =>
      match copySuffix read block index name with
      | none => held block index
      | some suffix => append suffix (held block index) := by
  unfold add
  cases ran : read name with
  | none =>
      simp only [copySuffix, ran, Option.bind_none]
      exact counted
  | some found =>
      obtain ⟨block, index, suffix⟩ := found
      refine ⟨alter_distinct counted.distinct, ?_, ?_⟩
      · intro other byIndex looked
        rw [lookup_alter] at looked
        split at looked
        · obtain rfl := Option.some.inj looked
          apply alter_distinct
          cases before : lookup block copies with
          | none => exact List.nodup_nil
          | some byIndex => exact counted.inner block byIndex before
        · exact counted.inner other byIndex looked
      · intro other copy
        have before : (copyAt copies other copy).getD ([], []) = held other copy := by
          rw [counted.found]
          split
          · next empty => exact empty.symm
          · rfl
        rw [copyAt_alter, before]
        simp only [copySuffix, ran, Option.bind_some]
        by_cases here : block = other ∧ index = copy
        · rw [if_pos here, if_pos here]
          exact (if_neg (fills _ _)).symm
        · rw [if_neg here, if_neg here]
          exact counted.found other copy

theorem adds_counted (fills : ∀ suffix held, append suffix held ≠ ([], []))
    (counted : Counted copies held) (names : List Text) :
    Counted (names.foldl (add append read) copies) fun block index =>
      (suffixesOf read names block index).foldl (fun held suffix => append suffix held)
        (held block index) := by
  induction names generalizing copies held with
  | nil => exact counted
  | cons name rest hypothesis =>
      have onward := hypothesis (add_counted append read fills counted name)
      have same : (fun block index =>
          (suffixesOf read (name :: rest) block index).foldl (fun held suffix => append suffix held)
            (held block index)) = fun block index =>
          (suffixesOf read rest block index).foldl (fun held suffix => append suffix held)
            (match copySuffix read block index name with
            | none => held block index
            | some suffix => append suffix (held block index)) := by
        funext block index
        rw [suffixesOf, List.filterMap_cons]
        cases copySuffix read block index name <;> rfl
      rw [same]
      exact onward

theorem addIds (suffixes : List Text) (held : List Text × List Text) :
    suffixes.foldl (fun held suffix => addId suffix held) held = (held.1 ++ suffixes, held.2) := by
  induction suffixes generalizing held with
  | nil => simp
  | cons suffix rest hypothesis =>
      rw [List.foldl_cons, hypothesis]
      simp [addId]

theorem addVariables (suffixes : List Text) (held : List Text × List Text) :
    suffixes.foldl (fun held suffix => addVariable suffix held) held =
      (held.1, held.2 ++ suffixes) := by
  induction suffixes generalizing held with
  | nil => simp
  | cons suffix rest hypothesis =>
      rw [List.foldl_cons, hypothesis]
      simp [addVariable]

/-- The suffixes of the ids and of the variables numbered `index` of the block. -/
def copySuffixes (classes : CharClasses) (screen : Screen) (block : Text) (index : Nat) :
    List Text × List Text :=
  (suffixesOf (readId classes screen.name) screen.ids block index,
    suffixesOf (indexedName classes) screen.variables block index)

theorem indexedNames_counted (classes : CharClasses) (screen : Screen) :
    Counted (indexedNames classes screen) (copySuffixes classes screen) := by
  have empty : Counted [] fun _ _ => (([] : List Text), ([] : List Text)) :=
    ⟨List.nodup_nil, nofun, fun _ _ => rfl⟩
  have ids := adds_counted addId (readId classes screen.name) (by simp [addId]) empty screen.ids
  have both := adds_counted addVariable (indexedName classes) (by simp [addVariable]) ids
    screen.variables
  simp only [addIds, addVariables, List.nil_append] at both
  exact both

end Copies

section Blocks
variable {classes : CharClasses} {screen : Screen} {block : RepeatedBlock} {byIndex : Copies}
  {name : Text}

theorem mergeSort_perm_iff {Value : Type} {le : Value → Value → Bool} {first second : List Value}
    (trans : ∀ a b c, le a b = true → le b c = true → le a c = true)
    (total : ∀ a b, (le a b || le b a) = true)
    (antisymm : ∀ a b, le a b = true → le b a = true → a = b) :
    first.mergeSort le = second.mergeSort le ↔ first.Perm second := by
  constructor
  · intro same
    have one := List.mergeSort_perm first le
    rw [same] at one
    exact one.symm.trans (List.mergeSort_perm second le)
  · intro same
    apply List.Perm.eq_of_pairwise (fun a b _ _ => antisymm a b)
      (List.pairwise_mergeSort trans total first) (List.pairwise_mergeSort trans total second)
    exact (List.mergeSort_perm _ _).trans (same.trans (List.mergeSort_perm _ _).symm)

theorem sorted_iff {first second : List Text} :
    sorted first = sorted second ↔ first.Perm second := by
  apply mergeSort_perm_iff
  · intro a b c
    simpa using le_trans
  · intro a b
    simpa using le_total a b
  · intro a b
    simpa using le_antisymm

theorem indices_sorted {indices : List Nat} {count : Nat} :
    indices.mergeSort = List.range count ↔ indices.Perm (List.range count) := by
  have range : (List.range count).mergeSort = List.range count := by
    apply List.mergeSort_of_pairwise
    simpa using List.pairwise_le_range
  rw [← range, mergeSort_perm_iff, range]
  · intro a b c
    simpa using Nat.le_trans
  · intro a b
    simpa using Nat.le_total a b
  · intro a b
    simpa using Nat.le_antisymm

/-- A block is one name's copies 0 to N - 1, N at least 2, that hold the same suffixes. -/
theorem findBlock_some (found : findBlock name byIndex = some block) :
    block.name = name ∧ 2 ≤ block.count ∧ (keys byIndex).Perm (List.range block.count) ∧
      ∀ index held, lookup index byIndex = some held →
        held.1.Perm block.idSuffixes ∧ held.2.Perm block.variableSuffixes := by
  unfold findBlock at found
  split at found
  · cases found
  · next counted =>
      rw [not_or, Nat.not_lt, not_not] at counted
      obtain ⟨first, -, found⟩ := Option.bind_eq_some_iff.mp found
      simp only [Option.ite_none_right_eq_some, Option.some.injEq] at found
      obtain ⟨alike, rfl⟩ := found
      refine ⟨rfl, counted.1, ?_, ?_⟩
      · rw [← counted.2]
        exact (List.mergeSort_perm _ _).symm
      · intro index held looked
        have same := List.all_eq_true.mp alike _ (mem_of_lookup looked)
        rw [Bool.and_eq_true, beq_iff_eq, beq_iff_eq] at same
        exact ⟨sorted_iff.mp same.1, sorted_iff.mp same.2⟩

theorem blocks_distinct (entries : List (Text × Copies)) :
    ((entries.filterMap fun entry => findBlock entry.1 entry.2).map RepeatedBlock.name).Sublist
      (keys entries) := by
  induction entries with
  | nil => exact .slnil
  | cons entry rest hypothesis =>
      rw [List.filterMap_cons]
      cases found : findBlock entry.1 entry.2 with
      | none => exact hypothesis.cons _
      | some block =>
          rw [keys_cons, ← (findBlock_some found).1]
          exact hypothesis.cons_cons _

/-- The suffixes that ids, or variables, have by block and index, out of both. -/
theorem blocks_grouped {suffixes : RepeatedBlock → List Text} {spell : Text → Nat → Text → Text}
    {read : Text → Option (Text × Nat × Text)} {names : List Text}
    (side : List Text × List Text → List Text) (empty : side ([], []) = [])
    (held : ∀ block index, side (copySuffixes classes screen block index) =
      suffixesOf read names block index)
    (alike : ∀ block held, held.1.Perm block.idSuffixes ∧ held.2.Perm block.variableSuffixes →
      (side held).Perm (suffixes block))
    (reads : ∀ name ∈ names, ∀ block index suffix, read name = some (block, index, suffix) →
      ∀ copy, read (spell block copy suffix) = some (block, copy, suffix)) :
    Grouped (findBlocks classes screen) suffixes read spell names := by
  have counted := indexedNames_counted classes screen
  have entry : ∀ block ∈ findBlocks classes screen, ∃ byIndex,
      lookup block.name (indexedNames classes screen) = some byIndex ∧
        findBlock block.name byIndex = some block := by
    intro block listed
    obtain ⟨⟨name, byIndex⟩, among, found⟩ := List.mem_filterMap.mp listed
    obtain rfl := (findBlock_some found).1
    exact ⟨byIndex, (lookup_mem counted.distinct).mpr among, found⟩
  have copy : ∀ block ∈ findBlocks classes screen, ∀ index,
      (index < block.count ↔ (copyAt (indexedNames classes screen) block.name index).isSome) := by
    intro block listed index
    obtain ⟨byIndex, looked, found⟩ := entry block listed
    rw [copyAt, looked, Option.bind_some, lookup_isSome,
      (findBlock_some found).2.2.1.mem_iff, List.mem_range]
  refine ⟨(blocks_distinct _).nodup counted.distinct, ?_, ?_, ?_, reads⟩
  · intro block listed
    obtain ⟨byIndex, -, found⟩ := entry block listed
    exact Nat.lt_of_lt_of_le Nat.zero_lt_two (findBlock_some found).2.1
  · intro block listed index inside
    obtain ⟨byIndex, looked, found⟩ := entry block listed
    obtain ⟨pair, here⟩ := Option.isSome_iff_exists.mp ((copy block listed index).mp inside)
    have counts := counted.found block.name index
    rw [here] at counts
    split at counts
    · cases counts
    · obtain rfl := Option.some.inj counts
      rw [copyAt, looked, Option.bind_some] at here
      rw [← held]
      exact alike block _ ((findBlock_some found).2.2.2 index _ here)
  · intro block listed name among index suffix ran
    rw [copy block listed, counted.found]
    split
    · next nothing =>
        have member : suffix ∈ suffixesOf read names block.name index :=
          mem_suffixesOf.mpr ⟨name, among, ran⟩
        rw [← held, nothing, empty] at member
        cases member
    · rfl

theorem ids_grouped (classes : CharClasses) (screen : Screen) :
    Grouped (findBlocks classes screen) RepeatedBlock.idSuffixes (readId classes screen.name)
      (idName screen.name) screen.ids := by
  refine blocks_grouped Prod.fst rfl (fun _ _ => rfl) (fun _ _ both => both.1) ?_
  intro name _ block index suffix ran copy
  obtain ⟨named, word⟩ := indexedName_named ran
  exact readId_spelled screen.name named word

theorem variables_grouped (classes : CharClasses) (screen : Screen) :
    Grouped (findBlocks classes screen) RepeatedBlock.variableSuffixes (indexedName classes)
      variableName screen.variables := by
  refine blocks_grouped Prod.snd rfl (fun _ _ => rfl) (fun _ _ both => both.2) ?_
  intro name _ block index suffix ran copy
  obtain ⟨named, word⟩ := indexedName_named ran
  exact indexedName_spelled named word

variable (classes screen) in
/-- The block is numbered from 0 to N - 1, N at least 2, and its copies are alike. -/
def Repeats (block : Text) : Prop :=
  ∃ count, 2 ≤ count ∧ (∀ index, copySuffixes classes screen block index ≠ ([], []) ↔ index < count) ∧
    ∀ index < count,
      (copySuffixes classes screen block index).1.Perm (copySuffixes classes screen block 0).1 ∧
        (copySuffixes classes screen block index).2.Perm (copySuffixes classes screen block 0).2

theorem copies_found {block : Text} (looked : lookup block (indexedNames classes screen) = some byIndex)
    (index : Nat) : lookup index byIndex =
      if copySuffixes classes screen block index = ([], []) then none
      else some (copySuffixes classes screen block index) := by
  have found := (indexedNames_counted classes screen).found block index
  rw [copyAt, looked, Option.bind_some] at found
  exact found

/-- What is found are the blocks that repeat. -/
theorem repeats_iff {name : Text} :
    Repeats classes screen name ↔ ∃ block ∈ findBlocks classes screen, block.name = name := by
  have counted := indexedNames_counted classes screen
  constructor
  · rintro ⟨count, enough, copies, alike⟩
    have first := counted.found name 0
    have some_ : copySuffixes classes screen name 0 ≠ ([], []) := (copies 0).mpr (by omega)
    rw [if_neg some_] at first
    obtain ⟨byIndex, looked, -⟩ := Option.bind_eq_some_iff.mp first
    -- The copies are numbered without a gap, so the table's indices are just their numbers.
    have indices : (keys byIndex).Perm (List.range count) := by
      apply (List.perm_ext_iff_of_nodup (counted.inner name byIndex looked) List.nodup_range).mpr
      intro index
      rw [← lookup_isSome, copies_found looked, List.mem_range, ← copies index]
      split
      · next nothing => simp [nothing]
      · next some_ => simp [some_]
    have long : byIndex.length = count := by
      have same := indices.length_eq
      rw [List.length_range, keys, List.length_map] at same
      exact same
    have found : findBlock name byIndex = some ⟨name, byIndex.length,
        (copySuffixes classes screen name 0).1, (copySuffixes classes screen name 0).2⟩ := by
      rw [findBlock, if_neg, copies_found looked, if_neg some_, Option.bind_some, if_pos]
      · rw [List.all_eq_true]
        rintro ⟨index, held⟩ listed
        have here := (lookup_mem (counted.inner name byIndex looked)).mpr listed
        rw [copies_found looked] at here
        split at here
        · cases here
        · next present =>
            obtain rfl := Option.some.inj here
            obtain ⟨ids, names⟩ := alike index ((copies index).mp present)
            rw [Bool.and_eq_true, beq_iff_eq, beq_iff_eq]
            exact ⟨sorted_iff.mpr ids, sorted_iff.mpr names⟩
      · rw [not_or, Nat.not_lt, not_not, long]
        exact ⟨enough, indices_sorted.mpr indices⟩
    exact ⟨_, List.mem_filterMap.mpr ⟨(name, byIndex),
      (lookup_mem counted.distinct).mp looked, found⟩, rfl⟩
  · rintro ⟨block, listed, rfl⟩
    obtain ⟨⟨name, byIndex⟩, among, found⟩ := List.mem_filterMap.mp listed
    obtain ⟨rfl, many, indices, alike⟩ := findBlock_some found
    have looked := (lookup_mem counted.distinct).mpr among
    have copies : ∀ index, copySuffixes classes screen block.name index ≠ ([], []) ↔
        index < block.count := by
      intro index
      rw [← List.mem_range, ← indices.mem_iff, ← lookup_isSome, copies_found looked]
      split
      · next nothing => simp [nothing]
      · next some_ => simp [some_]
    have held : ∀ index < block.count,
        (copySuffixes classes screen block.name index).1.Perm block.idSuffixes ∧
          (copySuffixes classes screen block.name index).2.Perm block.variableSuffixes := by
      intro index inside
      apply alike index
      rw [copies_found looked, if_neg ((copies index).mpr inside)]
    refine ⟨block.count, many, copies, fun index inside => ?_⟩
    obtain ⟨ids, names⟩ := held index inside
    obtain ⟨firstIds, firstNames⟩ := held 0 (by omega)
    exact ⟨ids.trans firstIds.symm, names.trans firstNames.symm⟩

end Blocks

/-- The ids and variables a header spells are the screen's, each once. -/
structure Spelled (classes : CharClasses) (screen : Screen) : Prop where
  ids : ∀ name ∈ blockIds classes screen, name ∈ screen.ids
  idsOnce : ∀ name ∈ screen.ids, (headerIds classes screen).count name = 1
  «variables» : ∀ name ∈ blockVariables classes screen, name ∈ screen.variables
  variablesOnce : ∀ name ∈ screen.variables, (headerVariables classes screen).count name = 1

/-- No id or variable stands twice, and what is numbered for a block that repeats is spelled
with the screen's name before it and with its index in plain digits. -/
structure Regular (classes : CharClasses) (screen : Screen) : Prop where
  ids : screen.ids.Nodup
  idSpelling : ∀ name ∈ screen.ids, ∀ block index suffix,
    readId classes screen.name name = some (block, index, suffix) →
      Repeats classes screen block → name = idName screen.name block index suffix
  «variables» : screen.variables.Nodup
  variableSpelling : ∀ name ∈ screen.variables, ∀ block index suffix,
    indexedName classes name = some (block, index, suffix) →
      Repeats classes screen block → name = variableName block index suffix

theorem plain_spelling {classes : CharClasses} {screen : Screen}
    {read : Text → Option (Text × Nat × Text)} {spell : Text → Nat → Text → Text}
    {names : List Text} :
    Plain (findBlocks classes screen) read spell names ↔
      names.Nodup ∧ ∀ name ∈ names, ∀ block index suffix,
        read name = some (block, index, suffix) → Repeats classes screen block →
          name = spell block index suffix := by
  constructor
  · rintro ⟨once, spelling⟩
    refine ⟨once, fun name listed block index suffix ran found => ?_⟩
    obtain ⟨repeated, among, rfl⟩ := repeats_iff.mp found
    exact spelling name listed repeated among index suffix ran
  · rintro ⟨once, spelling⟩
    refine ⟨once, fun name listed block among index suffix ran => ?_⟩
    exact spelling name listed block.name index suffix ran (repeats_iff.mpr ⟨block, among, rfl⟩)

/-- A header spells the screen's names exactly where its numbered names are regular. -/
theorem header_exact_iff (classes : CharClasses) (screen : Screen) :
    Spelled classes screen ↔ Regular classes screen := by
  have idsGrouped := ids_grouped classes screen
  have variablesGrouped := variables_grouped classes screen
  constructor
  · intro spelled
    obtain ⟨once, ids⟩ := plain_spelling.mp (exact_plain idsGrouped ⟨spelled.ids, spelled.idsOnce⟩)
    obtain ⟨also, names⟩ := plain_spelling.mp
      (exact_plain variablesGrouped ⟨spelled.variables, spelled.variablesOnce⟩)
    exact ⟨once, ids, also, names⟩
  · intro regular
    have ids := plain_exact idsGrouped (plain_spelling.mpr ⟨regular.ids, regular.idSpelling⟩)
    have names := plain_exact variablesGrouped
      (plain_spelling.mpr ⟨regular.variables, regular.variableSpelling⟩)
    exact ⟨ids.stands, ids.once, names.stands, names.once⟩

/-- ASCII digits and letters. -/
def asciiClasses : CharClasses where
  digitValue c := if digit c then some (c.toNat - '0'.toNat) else none
  word c := blockChar c || digit c || 'A' ≤ c && c ≤ 'Z'
  ascii c isDigit := by rw [if_pos isDigit]
  letter c isLetter := by
    apply if_neg
    intro isDigit
    simp only [blockChar, digit, Bool.or_eq_true, Bool.and_eq_true, decide_eq_true_eq,
      beq_iff_eq] at isLetter isDigit
    rcases isLetter with small | rfl
    · exact absurd (Char.le_trans small.1 isDigit.2) (by decide)
    · exact absurd isDigit.2 (by decide)

def padded : Screen := ⟨"hud".toList, ["hud_row00".toList, "hud_row01".toList], []⟩

/-- Two rows with padded numbers are spelled as rows that there are not, and once more flat. -/
theorem padded_respelled :
    headerIds asciiClasses padded =
        ["hud_row00".toList, "hud_row01".toList, "hud_row0".toList, "hud_row1".toList] ∧
      ¬Spelled asciiClasses padded := by
  have names : indexedNames asciiClasses padded =
      [("row".toList, [(0, ([[]], [])), (1, ([[]], []))])] := by rfl
  have blocks : findBlocks asciiClasses padded = [⟨"row".toList, 2, [[]], []⟩] := by
    rw [findBlocks, names]
    have indices : [0, 1].mergeSort = List.range 2 := indices_sorted.mpr (List.Perm.refl _)
    simp [findBlock, keys, lookup, indices]
  have header : blockIds asciiClasses padded = ["hud_row0".toList, "hud_row1".toList] := by
    rw [blockIds, blocks]
    rfl
  refine ⟨?_, fun spelled => ?_⟩
  · rw [headerIds, flatIds, header]
    decide
  · have stands := spelled.ids "hud_row0".toList (by rw [header]; exact List.mem_cons_self)
    exact absurd stands (by decide)

end VoltMod.PanoramaLayout
