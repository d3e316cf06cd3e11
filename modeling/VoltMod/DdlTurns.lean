import Mathlib.Data.List.Infix
import VoltMod.DdlColumns

/-! What one change makes of the items before it, as text and as tables. -/
namespace VoltMod.DdlLayout
open MigrationText Regex Patterns SchemaChanges SqlTables

section Finding
variable {table : Name} {items first rest : List Item} {create : Create}

/-- The first CREATE TABLE of a name stands behind others. -/
theorem findCreate_some (found : findCreate table.text items = some (first, create, rest)) :
    items = first ++ .create create :: rest ∧ sameName table.text create.name.text = true ∧
      ∀ other, .create other ∈ first → sameName table.text other.name.text = false := by
  induction items generalizing first with
  | nil => cases found
  | cons item items ih =>
      cases item with
      | note comment =>
          rw [findCreate, Option.map_eq_some_iff] at found
          obtain ⟨⟨front, later⟩, here, same⟩ := found
          obtain ⟨rfl, rfl⟩ := Prod.mk.inj same
          obtain ⟨split, named, apart⟩ := ih here
          refine ⟨by rw [split, List.cons_append], named, ?_⟩
          intro other member
          rcases List.mem_cons.mp member with same | inside
          · cases same
          · exact apart other inside
      | create made =>
          rw [findCreate] at found
          cases named : sameName table.text made.name.text with
          | true =>
              rw [named, if_pos rfl] at found
              obtain ⟨rfl, rfl, rfl⟩ := found
              exact ⟨rfl, named, fun other member => absurd member List.not_mem_nil⟩
          | false =>
              rw [named, if_neg Bool.false_ne_true, Option.map_eq_some_iff] at found
              obtain ⟨⟨front, later⟩, here, same⟩ := found
              obtain ⟨rfl, rfl⟩ := Prod.mk.inj same
              obtain ⟨split, named_, apart⟩ := ih here
              refine ⟨by rw [split, List.cons_append], named_, ?_⟩
              intro other member
              rcases List.mem_cons.mp member with same | inside
              · rw [Item.create.inj same]
                exact named
              · exact apart other inside

theorem itemsText_append (first rest : List Item) :
    itemsText (first ++ rest) = itemsText first ++ itemsText rest := List.flatMap_append

theorem itemsText_create (create : Create) (rest : List Item) :
    itemsText (.create create :: rest) = create.own ++ (noteText create.closing ++ itemsText rest) := by
  rw [itemsText, List.flatMap_cons, Item.text, List.append_assoc]
  rfl

end Finding

section Turning
variable (rules : CharRules)

theorem alone_facts {table front own back : Text} (alone_ : alone rules table front own back = true) :
    (∀ early late, front = early ++ late → late ≠ [] →
      ∀ found ∈ (createPattern rules table (late ++ (own ++ back))).head?,
        found.matched.length ≤ late.length) ∧
    ∀ early late, back = early ++ late → createPattern rules table late = [] := by
  rw [alone, Bool.and_eq_true, List.all_eq_true, List.all_eq_true] at alone_
  constructor
  · intro early late split some_ found member
    have here := alone_.1 late ((List.mem_tails _ _).mpr ⟨early, split.symm⟩)
    rw [Bool.or_eq_true, List.isEmpty_iff, Option.all_eq_true] at here
    have bound := here.resolve_left some_ found member
    simpa using bound
  · intro early late split
    have here := alone_.2 late ((List.mem_tails _ _).mpr ⟨early, split.symm⟩)
    exact List.isEmpty_iff.mp here

/-- The CREATE TABLE that a change finds in front of it. -/
theorem create_found (table : Name) {first rest : List Item} {create : Create}
    (same : sameName table.text create.name.text = true)
    (alone_ : alone rules table.text (itemsText first) create.own
      (noteText create.closing ++ itemsText rest) = true) :
    (findAll (createPattern rules table.text) [] 0
      (itemsText (first ++ .create create :: rest))).getLast? =
        some ⟨itemsText first, create.own, [(0, create.head), (1, create.body)],
          noteText create.closing ++ itemsText rest⟩ := by
  obtain ⟨within, behind⟩ := alone_facts rules alone_
  have some_ : create.own ≠ [] := by
    obtain ⟨more, same⟩ := head_begins create
    rw [Create.own, same]
    simp
  rw [itemsText_append, itemsText_create]
  exact findAll_last (create_reads rules table create same (itemsText rest)) rfl some_ within behind

/-- No other CREATE TABLE of the name stands behind the one found. -/
theorem create_last (table : Name) {first rest : List Item} {create : Create}
    (alone_ : alone rules table.text (itemsText first) create.own
      (noteText create.closing ++ itemsText rest) = true) :
    ∀ other, .create other ∈ rest → sameName table.text other.name.text = false := by
  intro other member
  rw [Bool.eq_false_iff]
  intro same
  obtain ⟨front, back, rfl⟩ := List.append_of_mem member
  -- its own text would be a match behind the one found
  have reads := create_reads rules table other same (itemsText back)
  have none_ := (alone_facts rules alone_).2 (noteText create.closing ++ itemsText front)
    (itemsText (.create other :: back)) (by rw [itemsText_append, List.append_assoc])
  rw [itemsText_create] at none_
  rw [none_] at reads
  cases reads

/-- A CREATE TABLE with another body, its head and its end as they were. -/
theorem own_altered {create other : Create} (head : other.head = create.head)
    (closing : other.closing = create.closing) :
    create.head ++ other.body ++ create.own.drop (create.head.length + create.body.length) =
      other.own := by
  have split : create.own = (create.head ++ create.body) ++
      (['\n', ')', ';'] ++ ending create.closing) := by simp [Create.own]
  rw [split, ← List.length_append, List.drop_left, Create.own, head, closing]
  simp

theorem drop_keeps (create : Create) (column : Text) :
    (create.drop rules column).head = create.head ∧
      (create.drop rules column).closing = create.closing := by
  rw [Create.drop]
  cases behind column create.lines <;> exact ⟨rfl, rfl⟩

theorem foldChange_found {change create : Occurrence Char} {table : Text}
    (named : textOf change.found (if (change.found.group 1).isSome then 1 else 5) = table)
    (found : (findAll (createPattern rules table) [] 0 change.before).getLast? = some create) :
    foldChange rules change =
      if (change.found.group 5).isSome then
        .ok (create.before ++ create.found.rest ++ change.found.rest)
      else
        (alterColumn rules (textOf create.found 1) table (textOf change.found 2)
          (textOf change.found 3) (textOf change.found 4)).map fun altered =>
            create.before ++ textOf create.found 0 ++ altered ++ create.found.matched.drop
              ((textOf create.found 0).length + (textOf create.found 1).length) ++
                create.found.rest ++ change.found.rest := by
  rw [foldChange]
  simp only [named, found]

/-- An ALTER TABLE is folded into the body of its CREATE TABLE. -/
theorem alter_turn (table : Name) {first rest : List Item} {create other : Create}
    {action column definition : Text} (matched behind : Text)
    (same : sameName table.text create.name.text = true)
    (alone_ : alone rules table.text (itemsText first) create.own
      (noteText create.closing ++ itemsText rest) = true)
    (altered : alterColumn rules create.body table.text action column definition = .ok other.body)
    (head : other.head = create.head) (closing : other.closing = create.closing) :
    foldChange rules ⟨itemsText (first ++ .create create :: rest), matched,
      [(1, table.text), (2, action), (3, column), (4, definition)], behind⟩ =
        .ok (itemsText (first ++ .create other :: rest) ++ behind) := by
  have creates := create_found rules table same alone_
  have text : itemsText (first ++ .create other :: rest) = itemsText first ++
      (create.head ++ other.body ++ create.own.drop (create.head.length + create.body.length)) ++
        (noteText create.closing ++ itemsText rest) := by
    rw [own_altered head closing, itemsText_append, itemsText_create, closing]
    simp
  let change : Occurrence Char := ⟨itemsText (first ++ .create create :: rest), matched,
    [(1, table.text), (2, action), (3, column), (4, definition)], behind⟩
  have named : textOf change.found (if (change.found.group 1).isSome then 1 else 5) =
      table.text := rfl
  have dropped : (change.found.group 5).isSome = false := rfl
  have spelled : textOf change.found 2 = action ∧ textOf change.found 3 = column ∧
      textOf change.found 4 = definition := ⟨rfl, rfl, rfl⟩
  have parts : textOf (⟨create.own, [(0, create.head), (1, create.body)],
      noteText create.closing ++ itemsText rest⟩ : Match Char) 0 = create.head ∧
    textOf (⟨create.own, [(0, create.head), (1, create.body)],
      noteText create.closing ++ itemsText rest⟩ : Match Char) 1 = create.body := ⟨rfl, rfl⟩
  have turned := foldChange_found rules named creates
  rw [dropped, if_neg Bool.false_ne_true, spelled.1, spelled.2.1, spelled.2.2, parts.1, parts.2,
    altered] at turned
  rw [turned, text]
  simp [Except.map, change]

/-- A change is folded into the text as into the items. -/
theorem turn (items : List Item) (alteration : Alteration) (matched behind : Text)
    (meets_ : meets rules items alteration = true)
    (held : ∀ table column, alteration = .dropColumn table column →
      ∀ first create rest, findCreate table.text items = some (first, create, rest) →
        (create.lines.any fun line => sameName column.text line.name.text) = true) :
    foldChange rules ⟨itemsText items, matched, alteration.groups, behind⟩ =
      .ok (itemsText (fold rules items alteration) ++ behind) := by
  rw [meets] at meets_
  cases found : findCreate alteration.table.text items with
  | none => simp [found] at meets_
  | some place =>
      obtain ⟨first, create, rest⟩ := place
      rw [found, Bool.and_eq_true] at meets_
      obtain ⟨alone_, fits⟩ := meets_
      obtain ⟨rfl, same, -⟩ := findCreate_some found
      rw [fold, found]
      simp only [List.append_assoc]
      cases alteration with
      | addColumn table column definition =>
          have altered := alter_add rules create table column definition fits
          exact alter_turn rules table matched behind same alone_ altered rfl rfl
      | dropColumn table column =>
          have altered := alter_drop rules create table column (held table column rfl _ _ _ found) fits
          obtain ⟨head, closing⟩ := drop_keeps rules create column.text
          exact alter_turn rules table matched behind same alone_ altered head closing
      | dropTable table =>
          have creates := create_found rules table same alone_
          let change : Occurrence Char := ⟨itemsText (first ++ .create create :: rest), matched,
            [(5, table.text)], behind⟩
          have named : textOf change.found (if (change.found.group 1).isSome then 1 else 5) =
              table.text := rfl
          have dropped : (change.found.group 5).isSome = true := rfl
          have turned := foldChange_found rules named creates
          rw [dropped, if_pos rfl] at turned
          have left : itemsText (notes create.closing) = noteText create.closing := by
            cases create.closing with
            | none => rfl
            | some comment => simp [notes, itemsText, Item.text, noteText]
          rw [Alteration.groups, turned, Alteration.edit, itemsText_append, itemsText_append, left]

end Turning

section Meaning
variable (rules : CharRules)

theorem creates_append (first rest : List Item) :
    creates (first ++ rest) = creates first ++ creates rest := List.filterMap_append

theorem mem_creates {items : List Item} {statement : CreateTable}
    (member : statement ∈ creates items) :
    ∃ create, .create create ∈ items ∧ create.meaning = statement := by
  obtain ⟨item, inside, same⟩ := List.mem_filterMap.mp member
  cases item with
  | create create => exact ⟨create, inside, Option.some.inj same⟩
  | note comment => cases same

theorem alteration_table (alteration : Alteration) :
    alteration.meaning.table = alteration.table.text := by
  cases alteration <;> rfl

theorem trimLast_columns (lines : List Line) :
    (trimLast rules lines).map Line.column = lines.map Line.column := by
  rcases List.eq_nil_or_concat' lines with rfl | ⟨lines, last, rfl⟩
  · rfl
  · rw [trimLast_append, List.map_append, List.map_append]
    rfl

/-- Where no two columns share a name, a column's row is the only one of its name. -/
theorem filter_split (column : Text) (lines : List Line)
    (distinct : (lines.map fun line => line.name.text.map Char.toLower).Nodup) :
    (lines.filter fun line => !sameName column line.name.text) =
      before column lines ++ behind column lines := by
  induction lines with
  | nil => rfl
  | cons line lines ih =>
      rw [List.map_cons, List.nodup_cons] at distinct
      rw [before, behind] at ih ⊢
      cases same : sameName column line.name.text with
      | false =>
          rw [List.filter_cons_of_pos (by simp [same]), List.takeWhile_cons_of_pos (by simp [same]),
            List.dropWhile_cons_of_pos (by simp [same]), ih distinct.2, List.cons_append]
      | true =>
          rw [List.filter_cons_of_neg (by simp [same]), List.takeWhile_cons_of_neg (by simp [same]),
            List.dropWhile_cons_of_neg (by simp [same]), List.nil_append, List.tail_cons]
          apply List.filter_eq_self.mpr
          intro other inside
          rw [Bool.not_eq_true', Bool.eq_false_iff]
          intro again
          rw [sameName, beq_iff_eq] at same again
          exact distinct.1 (List.mem_map.mpr ⟨other, inside, by rw [← again, same]⟩)

theorem drop_columns (create : Create) (column : Text)
    (distinct : (create.meaning.table.columns.map fun held => held.1.map Char.toLower).Nodup) :
    (create.drop rules column).meaning.table.columns =
      create.meaning.table.columns.filter fun held => !sameName column held.1 := by
  have names : (create.lines.map fun line => line.name.text.map Char.toLower).Nodup := by
    rw [Create.meaning, List.map_map] at distinct
    exact distinct
  have left : (create.drop rules column).lines.map Line.column =
      (before column create.lines ++ behind column create.lines).map Line.column := by
    rw [Create.drop]
    cases behind column create.lines with
    | nil => rw [List.append_nil]
    | cons line rest => rw [List.map_append, trimLast_columns, ← List.map_append]
  rw [Create.meaning, Create.meaning, left, ← filter_split column create.lines names, List.filter_map]
  rfl

/-- What a change leaves of a CREATE TABLE is what it makes of the table. -/
theorem edit_means (create : Create) (alteration : Alteration) {edited : List Table}
    (distinct : (create.meaning.table.columns.map fun held => held.1.map Char.toLower).Nodup)
    (ran : alteration.meaning.edit create.meaning.table = some edited) :
    creates (alteration.edit rules create) = edited.map (CreateTable.mk create.ifNotExists) := by
  cases alteration with
  | addColumn table column definition =>
      simp only [Alteration.meaning, Change.edit, Option.ite_none_left_eq_some,
        Option.some.injEq] at ran
      obtain ⟨-, rfl⟩ := ran
      simp [Alteration.edit, creates, Create.add, Create.meaning, Line.column]
  | dropColumn table column =>
      simp only [Alteration.meaning, Change.edit, Option.ite_none_right_eq_some,
        Option.some.injEq] at ran
      obtain ⟨-, rfl⟩ := ran
      rw [← drop_columns rules create column.text distinct]
      have head : (create.drop rules column.text).ifNotExists = create.ifNotExists ∧
          (create.drop rules column.text).name = create.name := by
        rw [Create.drop]
        cases behind column.text create.lines <;> exact ⟨rfl, rfl⟩
      have only : creates ((Alteration.dropColumn table column).edit rules create) =
          [(create.drop rules column.text).meaning] := rfl
      rw [only, Create.meaning, head.1, head.2]
      rfl
  | dropTable table =>
      obtain rfl := Option.some.inj ran
      cases here : create.closing <;> simp [Alteration.edit, notes, here, creates]

/-- The column that a change drops is there to be dropped. -/
theorem column_held {create : Create} {table column : Name} {edited : List Table}
    (ran : (Alteration.dropColumn table column).meaning.edit create.meaning.table = some edited) :
    (create.lines.any fun line => sameName column.text line.name.text) = true := by
  simp only [Alteration.meaning, Change.edit, Option.ite_none_right_eq_some] at ran
  simpa [Create.meaning, Line.column] using ran.1

/-- The tables that the items define after a change is folded in are those the change leaves. -/
theorem turn_means {items : List Item} {alteration : Alteration} {before after : Catalog}
    (meets_ : meets rules items alteration = true) (defined : runAll [] (creates items) = some before)
    (changed : alteration.meaning.run before = some after) :
    runAll [] (creates (fold rules items alteration)) = some after ∧
      ∀ first create rest, findCreate alteration.table.text items = some (first, create, rest) →
        ∃ edited, alteration.meaning.edit create.meaning.table = some edited := by
  rw [meets] at meets_
  cases found : findCreate alteration.table.text items with
  | none => simp [found] at meets_
  | some place =>
      obtain ⟨first, create, rest⟩ := place
      rw [found, Bool.and_eq_true] at meets_
      obtain ⟨rfl, same, apart⟩ := findCreate_some found
      -- The create statement that is edited is the only one of its name, in front and behind.
      have named : sameName alteration.meaning.table create.meaning.table.name = true := by
        rw [alteration_table]
        exact same
      have later : ∀ other ∈ creates rest,
          sameName alteration.meaning.table other.table.name = false := by
        intro other member
        obtain ⟨made, inside, rfl⟩ := mem_creates member
        rw [alteration_table]
        exact create_last rules alteration.table meets_.1 made inside
      have earlier : ∀ other ∈ creates first,
          sameName alteration.meaning.table other.table.name = false := by
        intro other member
        obtain ⟨made, inside, rfl⟩ := mem_creates member
        rw [alteration_table]
        exact apart made inside
      have split : creates (first ++ .create create :: rest) =
          creates first ++ create.meaning :: creates rest := by
        rw [creates_append]
        rfl
      rw [split, runAll_append] at defined
      obtain ⟨catalog, here, there⟩ := Option.bind_eq_some_iff.mp defined
      have fresh : catalog.has create.meaning.table.name = false := by
        have none_ := runAll_find earlier here
        rw [List.find?_nil, List.find?_eq_none] at none_
        rw [← has_same named, Catalog.has, List.any_eq_false]
        exact none_
      obtain ⟨edited, ran, folded⟩ := change_folded fresh named later there changed
      have distinct : (create.meaning.table.columns.map fun held => held.1.map Char.toLower).Nodup := by
        rw [runAll, List.foldlM_cons] at there
        obtain ⟨between, made, -⟩ := Option.bind_eq_some_iff.mp there
        rcases create_cases made with ⟨held, -⟩ | ⟨-, distinct, -⟩
        · rw [fresh] at held
          cases held
        · exact distinct
      constructor
      · rw [fold, found]
        simp only [creates_append]
        rw [edit_means rules create alteration distinct ran, List.append_assoc, runAll_append, here]
        exact folded
      · intro _ _ _ same
        obtain ⟨rfl, rfl, rfl⟩ := same
        exact ⟨edited, ran⟩

end Meaning

end VoltMod.DdlLayout
