import VoltMod.DdlTurns

/-! The fold over a whole text in the layout, and the tables its CREATE TABLE statements define
when they are read as SQL. -/
namespace VoltMod.DdlLayout
open MigrationText Regex Patterns SchemaChanges SqlTables

section Lexing

theorem scan_blank {c : Char} (blank_ : SqlTables.blank c = true) (ends : letter c = false)
    (rest : Text) : scan .plain (c :: rest) = scan .plain rest := by
  have quote : c ≠ '\'' := by rintro rfl; cases blank_
  have dash : c ≠ '-' := by rintro rfl; cases blank_
  have here : step .plain c = (.plain, []) := by
    rw [step, start, ends, if_neg Bool.false_ne_true, if_neg quote, if_neg dash, if_pos blank_]
  rw [scan, here, List.nil_append]

theorem scan_break (rest : Text) : scan .plain ('\n' :: rest) = scan .plain rest :=
  scan_blank (by decide) (by decide) rest

theorem scan_space (rest : Text) : scan .plain (' ' :: rest) = scan .plain rest :=
  scan_blank (by decide) (by decide) rest

/-- A name ends at what is no letter. -/
theorem scan_named {name rest : Text} {c : Char} (letters : ∀ c ∈ name, letter c = true)
    (present : name ≠ []) (ends : letter c = false) :
    scan .plain (name ++ c :: rest) =
      ((scan .plain (c :: rest)).1, .word name :: (scan .plain (c :: rest)).2) := by
  rw [scan_append, scan_name letters present, scan_calm rfl ends]
  rfl

theorem scan_spaced {name : Text} (letters : ∀ c ∈ name, letter c = true) (present : name ≠ [])
    (rest : Text) :
    scan .plain (spaced name rest) = ((scan .plain rest).1, .word name :: (scan .plain rest).2) := by
  rw [spaced, scan_named letters present (by decide), scan_space]

/-- A comment that begins after blanks is passed with its line. -/
theorem scan_noted (comment : Option Comment) (rest : Text) :
    scan .plain (commentText comment ++ '\n' :: rest) = scan .plain rest := by
  cases comment with
  | none => exact scan_break rest
  | some comment =>
      have gap : ∀ gap : Text, (∀ c ∈ gap, c = ' ' ∨ c = '\t') → ∀ more,
          scan .plain (gap ++ more) = scan .plain more := by
        intro gap blanks more
        induction gap with
        | nil => rfl
        | cons c gap ih =>
            rw [List.cons_append]
            have later := ih fun d inside => blanks d (List.mem_cons_of_mem _ inside)
            rcases blanks c List.mem_cons_self with rfl | rfl
            · rw [scan_space, later]
            · rw [scan_blank (by decide) (by decide), later]
      have split : commentText (some comment) ++ '\n' :: rest =
          comment.gap ++ ('-' :: '-' :: (comment.body ++ '\n' :: rest)) := by
        simp [commentText, Comment.text]
      have opens : scan .plain ('-' :: '-' :: (comment.body ++ '\n' :: rest)) =
          scan .comment (comment.body ++ '\n' :: rest) := rfl
      rw [split, gap comment.gap comment.blanks, opens, scan_append, scan_comment comment.line]
      rfl

/-- The comment's line behind a calm text. -/
theorem scan_ended {mode : Mode} (calm : mode.calm = true) (comment : Option Comment) (rest : Text) :
    scan mode (commentText comment ++ '\n' :: rest) =
      ((scan .plain rest).1, mode.close ++ (scan .plain rest).2) := by
  have split : ∃ c more, commentText comment ++ '\n' :: rest = c :: more ∧ letter c = false := by
    cases comment with
    | none => exact ⟨'\n', rest, rfl, by decide⟩
    | some comment =>
        rw [commentText, Comment.text]
        cases gap : comment.gap with
        | nil => exact ⟨'-', _, rfl, by decide⟩
        | cons c gap =>
            refine ⟨c, _, rfl, ?_⟩
            rcases comment.blanks c (by rw [gap]; exact List.mem_cons_self) with rfl | rfl <;> decide
  have noted := scan_noted comment rest
  obtain ⟨c, more, same, ends⟩ := split
  rw [same] at noted ⊢
  rw [scan_calm calm ends, noted]

theorem scan_row (line : Line) (comma : Bool) (rest : Text) :
    scan .plain (line.row comma ++ '\n' :: rest) = ((scan .plain rest).1,
      .word line.name.text :: (lex line.definition.text ++
        ((if comma then [.mark ','] else []) ++ (scan .plain rest).2))) := by
  obtain ⟨definition, same⟩ := List.head?_eq_some_iff.mp line.definition.first
  have split : line.row comma ++ '\n' :: rest =
      ' ' :: ' ' :: (line.name.text ++ (line.definition.text ++ ((if comma then [','] else []) ++
        (commentText line.comment ++ '\n' :: rest)))) := by simp [Line.row]
  have behind : scan (scan .plain line.definition.text).1 ((if comma then [','] else []) ++
      (commentText line.comment ++ '\n' :: rest)) = ((scan .plain rest).1,
        (scan .plain line.definition.text).1.close ++
          ((if comma then [.mark ','] else []) ++ (scan .plain rest).2)) := by
    cases comma with
    | false => exact scan_ended line.definition.calm line.comment rest
    | true =>
        have noted := scan_noted line.comment rest
        have first : scan .plain (',' :: (commentText line.comment ++ '\n' :: rest)) =
            ((scan .plain rest).1, .mark ',' :: (scan .plain rest).2) := by
          rw [← noted]
          rfl
        rw [if_pos rfl, List.singleton_append, scan_calm line.definition.calm (by decide), first]
        rfl
  have named : scan .plain (line.name.text ++ (line.definition.text ++ ((if comma then [','] else []) ++
      (commentText line.comment ++ '\n' :: rest)))) =
        ((scan .plain (line.definition.text ++ ((if comma then [','] else []) ++
          (commentText line.comment ++ '\n' :: rest)))).1, .word line.name.text ::
            (scan .plain (line.definition.text ++ ((if comma then [','] else []) ++
              (commentText line.comment ++ '\n' :: rest)))).2) := by
    rw [same]
    exact scan_named line.name.letters line.name.present (by decide)
  rw [split, scan_space, scan_space, named, scan_append, behind, lex]
  simp

theorem scan_rows (lines : List Line) (rest : Text) :
    scan .plain (broken (rows lines) ++ rest) = ((scan .plain rest).1,
      listed (lines.map Line.column) ++ (scan .plain rest).2) := by
  induction lines with
  | nil => rfl
  | cons line lines ih =>
      cases lines with
      | nil =>
          have split : broken (rows [line]) ++ rest = line.row false ++ '\n' :: rest := by
            simp [rows, broken]
          rw [split, scan_row]
          simp [listed, Line.column]
      | cons next lines =>
          have split : broken (rows (line :: next :: lines)) ++ rest =
              line.row true ++ '\n' :: (broken (rows (next :: lines)) ++ rest) := by
            simp [rows, broken]
          rw [split, scan_row, ih]
          simp [listed, Line.column]

theorem scan_lead (opening : Opening) (rest : Text) :
    scan .plain (broken opening.lead ++ rest) = scan .plain rest := by
  cases opening with
  | bare => exact scan_break rest
  | commented comment =>
      have noted := scan_noted (some comment) rest
      simpa [Opening.lead, broken, commentText] using noted
  | glued => rfl

theorem scan_body (create : Create) (rest : Text) :
    scan .plain (create.body ++ '\n' :: rest) = ((scan .plain rest).1,
      listed create.meaning.table.columns ++ (scan .plain rest).2) := by
  have whole : scan .plain (broken create.segments ++ rest) = ((scan .plain rest).1,
      listed create.meaning.table.columns ++ (scan .plain rest).2) := by
    rw [Create.segments, broken, List.flatMap_append, List.append_assoc]
    have lead := scan_lead create.opening (broken (rows create.lines) ++ rest)
    rw [broken, broken] at lead
    rw [lead]
    exact scan_rows create.lines rest
  have split : create.body ++ '\n' :: rest = (create.body ++ ['\n']) ++ rest := by simp
  rw [split, Create.body]
  cases here : create.segments with
  | nil =>
      rw [here] at whole
      rw [← whole]
      exact scan_break rest
  | cons first more =>
      rw [lined_broken, ← here]
      exact whole

theorem scan_head (create : Create) (rest : Text) :
    scan .plain (create.head ++ rest) = ((scan .plain rest).1,
      .word "CREATE".toList :: .word "TABLE".toList :: ((if create.ifNotExists then
        [.word "IF".toList, .word "NOT".toList, .word "EXISTS".toList] else []) ++
          .word create.name.text :: .mark '(' :: (scan .plain rest).2)) := by
  have plain : ∀ (letters : String), letters.toList.all letter = true →
      ∀ c ∈ letters.toList, letter c = true := fun _ all => List.all_eq_true.mp all
  have opens : scan .plain ('(' :: rest) = ((scan .plain rest).1, .mark '(' :: (scan .plain rest).2) :=
    rfl
  rw [Create.head, spaced_append, spaced_append, scan_spaced (plain "CREATE" (by decide)) (by decide),
    scan_spaced (plain "TABLE" (by decide)) (by decide)]
  cases create.ifNotExists with
  | false =>
      rw [if_neg Bool.false_ne_true, if_neg Bool.false_ne_true, spaced_append, List.singleton_append,
        scan_spaced create.name.letters create.name.present, opens, List.nil_append]
  | true =>
      rw [if_pos rfl, if_pos rfl, spaced_append, spaced_append, spaced_append, spaced_append,
        List.singleton_append, scan_spaced (plain "IF" (by decide)) (by decide),
        scan_spaced (plain "NOT" (by decide)) (by decide),
        scan_spaced (plain "EXISTS" (by decide)) (by decide),
        scan_spaced create.name.letters create.name.present, opens]
      rfl

def Item.tokens : Item → List Token
  | .create made => made.meaning.tokens ++ [.mark ';']
  | .note _ => []

theorem scan_item (item : Item) (rest : Text) :
    scan .plain (item.text ++ rest) =
      ((scan .plain rest).1, item.tokens ++ (scan .plain rest).2) := by
  cases item with
  | note comment =>
      have noted := scan_noted (some { comment with gap := [], blanks := by simp }) rest
      simpa [Item.text, Comment.row, commentText, Comment.text, Item.tokens] using noted
  | create made =>
      have closed : scan .plain (')' :: ';' :: (commentText made.closing ++ '\n' :: rest)) =
          ((scan .plain rest).1, .mark ')' :: .mark ';' :: (scan .plain rest).2) := by
        rw [← scan_noted made.closing rest]
        rfl
      have ending_ := ending_note made.closing
      have split : (Item.create made).text ++ rest = made.head ++ (made.body ++ '\n' ::
          (')' :: ';' :: (commentText made.closing ++ '\n' :: rest))) := by
        calc
          made.own ++ noteText made.closing ++ rest = made.head ++ (made.body ++ '\n' ::
              (')' :: ';' :: ((ending made.closing ++ noteText made.closing) ++ rest))) := by
            simp [Create.own]
          _ = _ := by
            rw [ending_]
            simp
      rw [split, scan_head, scan_body, closed, Item.tokens, CreateTable.tokens]
      simp only [List.cons_append, List.append_assoc, List.nil_append]
      rfl

end Lexing

section Reading
variable {columns : List (List Char × List Token)}

theorem listed_one (defined : ∀ column ∈ columns, Defined column) : .mark ';' ∉ listed columns := by
  induction columns with
  | nil => exact List.not_mem_nil
  | cons column columns ih =>
      have here := enclosed_one (defined column List.mem_cons_self).1
      have later := ih fun other inside => defined other (List.mem_cons_of_mem _ inside)
      cases columns with
      | nil => simpa [listed] using here
      | cons next columns =>
          rw [listed]
          simp [here, later]

theorem columns_defined (create : Create) :
    ∀ column ∈ create.meaning.table.columns, Defined column := by
  intro column member
  obtain ⟨line, -, rfl⟩ := List.mem_map.mp member
  exact ⟨line.definition.inside, line.definition.present⟩

theorem meaning_one (create : Create) : .mark ';' ∉ create.meaning.tokens := by
  have listed_ := listed_one (columns_defined create)
  rw [CreateTable.tokens]
  cases create.meaning.ifNotExists <;> simp [listed_]

/-- Read as SQL, the items define what their CREATE TABLE statements define in order. -/
theorem tables_read (items : List Item) : tablesOf (itemsText items) = runAll [] (creates items) := by
  have scanned : ∀ items : List Item,
      scan .plain (itemsText items) = (.plain, items.flatMap Item.tokens) := by
    intro items
    induction items with
    | nil => rfl
    | cons item items ih =>
        rw [itemsText, List.flatMap_cons, ← itemsText, scan_item, ih, List.flatMap_cons]
  have ran : ∀ (items : List Item) (catalog : Catalog),
      runTokens catalog [] (items.flatMap Item.tokens) = runAll catalog (creates items) := by
    intro items
    induction items with
    | nil => exact fun _ => rfl
    | cons item items ih =>
        intro catalog
        cases item with
        | note comment => exact ih catalog
        | create made =>
            have split : (Item.create made :: items).flatMap Item.tokens =
                made.meaning.tokens ++ .mark ';' :: items.flatMap Item.tokens := by
              simp [Item.tokens]
            have first : creates (Item.create made :: items) = made.meaning :: creates items := rfl
            rw [split, first, runTokens_statement (meaning_one made), List.nil_append,
              run_tokens catalog made.meaning (columns_defined made), runAll, List.foldlM_cons]
            exact congrArg _ (funext ih)
  rw [tablesOf, lex, scanned]
  have whole := ran items []
  simpa [Mode.close] using whole

end Reading

section Runs
variable (rules : CharRules)

theorem ddl_cons (statement : Statement) (rest : List Statement) :
    ddl (statement :: rest) = statement.text ++ ddl rest := List.flatMap_cons

theorem itemsText_notes (comment : Option Comment) : itemsText (notes comment) = noteText comment := by
  cases comment with
  | none => rfl
  | some comment => simp [notes, itemsText, Item.text, noteText]

theorem search_change {items : List Item} {alteration : Alteration} (comment : Option Comment)
    (rest : Text) (meets_ : meets rules items alteration = true) :
    search (schemaChange rules)
      (itemsText items ++ ((Statement.change alteration comment).text ++ rest)) =
        some ⟨itemsText items, alteration.text ++ ';' :: ending comment, alteration.groups,
          noteText comment ++ rest⟩ := by
  have single : ∀ table column definition, alteration = .addColumn table column definition →
      ';' ∉ definition.text := by
    rintro table column definition rfl inside
    rw [meets] at meets_
    split at meets_
    · cases meets_
    · rw [Bool.and_eq_true, Alteration.fits, Bool.and_eq_true] at meets_
      simp [inside] at meets_
  have reads := change_reads rules alteration comment rest single
  have split : (Statement.change alteration comment).text ++ rest =
      alteration.text ++ ';' :: (ending comment ++ (noteText comment ++ rest)) := by
    simp [Statement.text]
  rw [search_items, split]
  exact searchLines_found reads

/-- The fold of a text goes on from what stands to its end, and leaves the tables that running
the statements leaves. -/
theorem run_folded {items : List Item} {statements : List Statement} {before after : Catalog}
    (defined : runAll [] (creates items) = some before) (ran : run before statements = some after)
    (guard : guarded rules items statements = true) :
    ∃ left, runAll [] (creates left) = some after ∧
      ∀ fuel, statements.length < fuel →
        applySchemaChanges rules fuel (itemsText items ++ ddl statements) =
          some (.ok (itemsText left)) := by
  induction statements generalizing items before with
  | nil =>
      obtain rfl := Option.some.inj ran
      refine ⟨items, defined, ?_⟩
      intro fuel enough
      have ends : itemsText items ++ ddl [] = itemsText items := List.append_nil _
      cases fuel with
      | zero => cases enough
      | succ fuel =>
          rw [ends]
          exact loop_done rules (search_end rules items) fuel
  | cons statement statements ih =>
      rw [run, List.foldlM_cons] at ran
      obtain ⟨between, here, later⟩ := Option.bind_eq_some_iff.mp ran
      cases statement with
      -- What is no change joins the items in front, and costs no turn.
      | item item =>
          have stands : runAll [] (creates (items ++ [item])) = some between := by
            rw [creates_append, runAll_append, defined, Option.bind_some]
            cases item with
            | note comment => exact here
            | create made =>
                have one : creates [Item.create made] = [made.meaning] := rfl
                rw [one, runAll, List.foldlM_cons]
                exact Option.bind_eq_some_iff.mpr ⟨between, here, rfl⟩
          obtain ⟨left, means, folds⟩ := ih stands later guard
          refine ⟨left, means, ?_⟩
          intro fuel enough
          rw [List.length_cons] at enough
          have whole := folds fuel (by omega)
          have split : itemsText (items ++ [item]) ++ ddl statements =
              itemsText items ++ ddl (.item item :: statements) := by
            rw [itemsText_append, ddl_cons, List.append_assoc]
            simp [itemsText, Statement.text]
          rwa [split] at whole
      | change alteration comment =>
          rw [guarded, Bool.and_eq_true] at guard
          obtain ⟨means, held⟩ := turn_means rules guard.1 defined here
          have stands : runAll [] (creates (fold rules items alteration ++ notes comment)) =
              some between := by
            have none_ : creates (notes comment) = [] := by cases comment <;> rfl
            rw [creates_append, none_, List.append_nil, means]
          obtain ⟨left, means, folds⟩ := ih stands later guard.2
          refine ⟨left, means, ?_⟩
          have found := search_change rules comment (ddl statements) guard.1
          have turned := turn rules items alteration (alteration.text ++ ';' :: ending comment)
            (noteText comment ++ ddl statements) guard.1 (by
              rintro table column rfl first create rest place
              obtain ⟨edited, edits⟩ := held first create rest place
              exact column_held edits)
          intro fuel enough
          cases fuel with
          | zero => cases enough
          | succ fuel =>
              have whole := folds fuel (Nat.lt_of_succ_lt_succ enough)
              rw [itemsText_append, itemsText_notes, List.append_assoc] at whole
              rw [ddl_cons, loop_turn rules found turned, whole]

/-- The fold of a text ends, and where each change meets what stands before it, the CREATE TABLE
statements that are left define the tables that running the statements leaves. -/
theorem folded_tables {statements : List Statement} {catalog : Catalog}
    (ran : run [] statements = some catalog) :
    ∃ outcome, (∀ fuel, (ddl statements).length < fuel →
      applySchemaChanges rules fuel (ddl statements) = some outcome) ∧
        (guarded rules [] statements = true →
          ∃ text, outcome = .ok text ∧ tablesOf text = some catalog) := by
  obtain ⟨outcome, ends⟩ := applySchemaChanges_ends rules (ddl statements)
  refine ⟨outcome, ends, ?_⟩
  intro guard
  have start : runAll [] (creates []) = some [] := rfl
  obtain ⟨left, means, folds⟩ := run_folded rules start ran guard
  have one := ends ((ddl statements).length + statements.length + 1) (by omega)
  have other := folds ((ddl statements).length + statements.length + 1) (by omega)
  rw [itemsText, List.flatMap_nil, List.nil_append, one, Option.some.injEq] at other
  exact ⟨itemsText left, other, (tables_read left).trans means⟩

def tName : Name := nameOf "t".toList (by decide)

def aName : Name := nameOf "a".toList (by decide)

def bName : Name := nameOf "b".toList (by decide)

def intType : Definition where
  text := " INT".toList
  line := by simp
  first := by decide
  last := by decide
  calm := by decide
  inside := by decide
  present := by decide

def textType : Definition where
  text := " TEXT DEFAULT '[]'".toList
  line := by simp
  first := by decide
  last := by decide
  calm := by decide
  inside := by decide
  present := by decide

def firstNote : Comment where
  gap := [' ']
  body := " first".toList
  blanks := by simp
  line := by simp

/-- A table of one column, another added, and the first dropped. -/
def exchange : List Statement := [
  .item (.create ⟨true, tName, .bare, [⟨aName, intType, none⟩], some firstNote⟩),
  .change (.addColumn tName bName textType) (some firstNote),
  .change (.dropColumn tName aName) none]

theorem exchange_folds : ∃ outcome, (∀ fuel, (ddl exchange).length < fuel →
    applySchemaChanges asciiRules fuel (ddl exchange) = some outcome) ∧
      ∃ text, outcome = .ok text ∧
        tablesOf text = some [⟨"t".toList, [("b".toList, lex " TEXT DEFAULT '[]'".toList)]⟩] := by
  have ran : run [] exchange =
      some [⟨"t".toList, [("b".toList, lex " TEXT DEFAULT '[]'".toList)]⟩] := by decide +kernel
  have guard : guarded asciiRules [] exchange = true := by decide +kernel
  obtain ⟨outcome, ends, means⟩ := folded_tables asciiRules ran
  exact ⟨outcome, ends, means guard⟩

/-- A table whose last row is commented, and a column added to it. -/
def commented : List Statement := [
  .item (.create ⟨false, tName, .bare, [⟨aName, intType, some firstNote⟩], none⟩),
  .change (.addColumn tName bName intType) none]

/-- The comma for the added column ends up in the comment, and one column is left of two. -/
theorem comment_takes_comma :
    ddl commented =
      "CREATE TABLE t (\n  a INT -- first\n);\nALTER TABLE t ADD COLUMN b INT;\n".toList ∧
    run [] commented =
      some [⟨"t".toList, [("a".toList, lex " INT".toList), ("b".toList, lex " INT".toList)]⟩] ∧
    applySchemaChanges asciiRules 2 (ddl commented) =
      some (.ok "CREATE TABLE t (\n  a INT -- first,\n  b INT\n);\n".toList) ∧
    tablesOf "CREATE TABLE t (\n  a INT -- first,\n  b INT\n);\n".toList ≠ run [] commented := by
  decide +kernel

end Runs

end VoltMod.DdlLayout
