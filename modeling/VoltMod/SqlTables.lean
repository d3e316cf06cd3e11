import Mathlib.Data.List.Nodup

/-! The tables that CREATE TABLE statements define, read from the text of the statements, and
what ALTER TABLE and DROP TABLE make of them. Names are compared as SQL does, ignoring case. -/
namespace VoltMod.SqlTables

inductive Token where
  | word (text : List Char)
  | literal (text : List Char)
  | mark (c : Char)
  deriving DecidableEq

/-- Where the lexer stands: `dash` is behind one `-`, two of which start a comment. -/
inductive Mode where
  | plain
  | word (taken : List Char)
  | dash
  | comment
  | literal (taken : List Char)
  deriving DecidableEq

def blank (c : Char) : Bool := c == ' ' || ('\t' ≤ c && c ≤ '\r')

def letter (c : Char) : Bool := c.isAlphanum || c == '_'

def start (c : Char) : Mode × List Token :=
  if letter c then (.word [c], [])
  else if c = '\'' then (.literal [], [])
  else if c = '-' then (.dash, [])
  else if blank c then (.plain, [])
  else (.plain, [.mark c])

def step : Mode → Char → Mode × List Token
  | .plain, c => start c
  | .word taken, c =>
      if letter c then (.word (taken ++ [c]), []) else ((start c).1, .word taken :: (start c).2)
  | .dash, c => if c = '-' then (.comment, []) else ((start c).1, .mark '-' :: (start c).2)
  | .comment, c => if c = '\n' then (.plain, []) else (.comment, [])
  | .literal taken, c =>
      if c = '\'' then (.plain, [.literal taken]) else (.literal (taken ++ [c]), [])

def scan : Mode → List Char → Mode × List Token
  | mode, [] => (mode, [])
  | mode, c :: rest =>
      ((scan (step mode c).1 rest).1, (step mode c).2 ++ (scan (step mode c).1 rest).2)

/-- What is open at the end. -/
def Mode.close : Mode → List Token
  | .word taken => [.word taken]
  | .dash => [.mark '-']
  | .literal taken => [.literal taken]
  | .plain | .comment => []

def lex (text : List Char) : List Token :=
  (scan .plain text).2 ++ (scan .plain text).1.close

structure Table where
  name : List Char
  columns : List (List Char × List Token)
  deriving DecidableEq

abbrev Catalog := List Table

def sameName (one other : List Char) : Bool := one.map Char.toLower == other.map Char.toLower

def Catalog.has (catalog : Catalog) (name : List Char) : Bool :=
  catalog.any fun table => sameName name table.name

structure CreateTable where
  ifNotExists : Bool
  table : Table

/-- None where the database refuses. -/
def CreateTable.run (catalog : Catalog) (statement : CreateTable) : Option Catalog :=
  if catalog.has statement.table.name then
    if statement.ifNotExists then some catalog else none
  else if (statement.table.columns.map fun column => column.1.map Char.toLower).Nodup then
    some (catalog ++ [statement.table])
  else none

inductive Change where
  | addColumn (table column : List Char) (definition : List Token)
  | dropColumn (table column : List Char)
  | dropTable (table : List Char)

def Change.table : Change → List Char
  | .addColumn table _ _ | .dropColumn table _ | .dropTable table => table

/-- What a change makes of the table it names. -/
def Change.edit : Change → Table → Option (List Table)
  | .addColumn _ column definition, table =>
      if table.columns.any fun other => sameName column other.1 then none
      else some [{ table with columns := table.columns ++ [(column, definition)] }]
  | .dropColumn _ column, table =>
      if table.columns.any fun other => sameName column other.1 then
        some [{ table with columns := table.columns.filter fun other => !sameName column other.1 }]
      else none
  | .dropTable _, _ => some []

/-- The catalog with a table replaced. -/
def Catalog.replace (catalog : Catalog) (name : List Char) (edited : List Table) : Catalog :=
  catalog.flatMap fun table => if sameName name table.name then edited else [table]

def Change.run (catalog : Catalog) (change : Change) : Option Catalog :=
  (catalog.find? fun table => sameName change.table table.name).bind fun table =>
    (change.edit table).map (catalog.replace change.table)

/-- The parts between the commas of a column list, up to the closing parenthesis that ends
the statement. -/
def items : Nat → List Token → List Token → Option (List (List Token))
  | _, _, [] => none
  | depth, current, token :: rest =>
      if token = .mark '(' then items (depth + 1) (current ++ [token]) rest
      else if token = .mark ')' then
        if 0 < depth then items (depth - 1) (current ++ [token]) rest
        else if rest = [] then some [current]
        else none
      else if token = .mark ',' ∧ depth = 0 then (items 0 [] rest).map (current :: ·)
      else items depth (current ++ [token]) rest

/-- Tokens that stay inside one part: no comma and no closing parenthesis but those of
parentheses of their own, and no end of the statement. -/
def enclosed : Nat → List Token → Bool
  | depth, [] => depth == 0
  | depth, token :: rest =>
      if token = .mark '(' then enclosed (depth + 1) rest
      else if token = .mark ')' then 0 < depth && enclosed (depth - 1) rest
      else !(token == .mark ',' && depth == 0) && token != .mark ';' && enclosed depth rest

def column : List Token → Option (List Char × List Token)
  | .word name :: token :: rest => some (name, token :: rest)
  | _ => none

/-- A table's name and what its parentheses hold. -/
def table : List Token → Option Table
  | .word name :: .mark '(' :: rest =>
      (items 0 [] rest).bind fun parts =>
        if parts = [[]] then some ⟨name, []⟩
        else (parts.mapM column).map fun columns => ⟨name, columns⟩
  | _ => none

/-- What stands behind CREATE TABLE. -/
def createTable : List Token → Option CreateTable
  | .word first :: .word second :: .word third :: rest =>
      if sameName "IF".toList first && sameName "NOT".toList second &&
          sameName "EXISTS".toList third then
        (table rest).map fun defined => ⟨true, defined⟩
      else none
  | tokens => (table tokens).map fun defined => ⟨false, defined⟩

/-- A statement that is no CREATE TABLE defines no table. -/
def runStatement (catalog : Catalog) : List Token → Option Catalog
  | .word first :: .word second :: rest =>
      if sameName "CREATE".toList first && sameName "TABLE".toList second then
        (createTable rest).bind (CreateTable.run catalog)
      else some catalog
  | _ => some catalog

def runTokens : Catalog → List Token → List Token → Option Catalog
  | catalog, current, [] => runStatement catalog current
  | catalog, current, token :: rest =>
      if token = .mark ';' then
        (runStatement catalog current).bind fun next => runTokens next [] rest
      else runTokens catalog (current ++ [token]) rest

/-- The tables that a text's CREATE TABLE statements define. -/
def tablesOf (text : List Char) : Option Catalog := runTokens [] [] (lex text)

def listed : List (List Char × List Token) → List Token
  | [] => []
  | [column] => .word column.1 :: column.2
  | column :: next :: rest => .word column.1 :: column.2 ++ .mark ',' :: listed (next :: rest)

def CreateTable.tokens (statement : CreateTable) : List Token :=
  .word "CREATE".toList :: .word "TABLE".toList ::
    ((if statement.ifNotExists then
      [.word "IF".toList, .word "NOT".toList, .word "EXISTS".toList] else []) ++
      .word statement.table.name :: .mark '(' :: (listed statement.table.columns ++ [.mark ')']))

section Lexing
variable {mode : Mode} {text rest : List Char} {c : Char}

theorem scan_append (mode : Mode) (text rest : List Char) :
    scan mode (text ++ rest) = ((scan (scan mode text).1 rest).1,
      (scan mode text).2 ++ (scan (scan mode text).1 rest).2) := by
  induction text generalizing mode with
  | nil => rfl
  | cons c text ih =>
      rw [List.cons_append, scan, scan, ih]
      simp

theorem scan_word (letters : ∀ c ∈ text, letter c = true) (taken : List Char) :
    scan (.word taken) text = (.word (taken ++ text), []) := by
  induction text generalizing taken with
  | nil => simp [scan]
  | cons c text ih =>
      have here : step (.word taken) c = (.word (taken ++ [c]), []) := by
        rw [step, if_pos (letters c List.mem_cons_self)]
      rw [scan, here, ih fun other inside => letters other (List.mem_cons_of_mem _ inside)]
      simp

theorem scan_name (letters : ∀ c ∈ text, letter c = true) (some_ : text ≠ []) :
    scan .plain text = (.word text, []) := by
  obtain ⟨c, text, rfl⟩ := List.exists_cons_of_ne_nil some_
  have here : step .plain c = (.word [c], []) := by
    rw [step, start, if_pos (letters c List.mem_cons_self)]
  rw [scan, here, scan_word fun other inside => letters other (List.mem_cons_of_mem _ inside)]
  simp

/-- No literal, no comment and no dash is open. -/
def Mode.calm : Mode → Bool
  | .plain | .word _ => true
  | .dash | .comment | .literal _ => false

/-- What is no letter ends a word before it is read itself. -/
theorem scan_calm (calm : mode.calm = true) (apart : letter c = false) :
    scan mode (c :: rest) =
      ((scan .plain (c :: rest)).1, mode.close ++ (scan .plain (c :: rest)).2) := by
  cases mode with
  | plain => rfl
  | word taken => simp [scan, step, apart, Mode.close]
  | dash => cases calm
  | comment => cases calm
  | literal taken => cases calm

theorem scan_comment (line : '\n' ∉ text) : scan .comment text = (.comment, []) := by
  induction text with
  | nil => rfl
  | cons c text ih =>
      obtain ⟨here, later⟩ := List.ne_and_not_mem_of_not_mem_cons line
      rw [scan, step, if_neg (Ne.symm here), ih later]
      rfl

end Lexing

section Reading
variable {depth : Nat} {current tokens rest : List Token} {catalog : Catalog}
  {columns : List (List Char × List Token)}

theorem items_enclosed (inside : enclosed depth tokens = true) :
    items depth current (tokens ++ rest) = items 0 (current ++ tokens) rest := by
  induction tokens generalizing depth current with
  | nil =>
      obtain rfl : depth = 0 := by simpa [enclosed] using inside
      simp
  | cons token tokens ih =>
      rw [enclosed] at inside
      rw [List.cons_append, items]
      split at inside
      · next opens =>
          rw [if_pos opens, ih inside, List.append_assoc, List.singleton_append]
      · next opens =>
          rw [if_neg opens]
          split at inside
          · next closes =>
              rw [Bool.and_eq_true, decide_eq_true_eq] at inside
              rw [if_pos closes, if_pos inside.1, ih inside.2, List.append_assoc,
                List.singleton_append]
          · next closes =>
              simp only [Bool.and_eq_true] at inside
              have comma : ¬(token = .mark ',' ∧ depth = 0) := by
                rintro ⟨rfl, rfl⟩
                simp at inside
              rw [if_neg closes, if_neg comma, ih inside.2, List.append_assoc,
                List.singleton_append]

theorem enclosed_one (inside : enclosed depth tokens = true) : .mark ';' ∉ tokens := by
  induction tokens generalizing depth with
  | nil => exact List.not_mem_nil
  | cons token tokens ih =>
      rw [List.mem_cons, not_or]
      rw [enclosed] at inside
      split at inside
      · next opens =>
          rw [opens]
          exact ⟨by decide, ih inside⟩
      · split at inside
        · next closes =>
            rw [Bool.and_eq_true] at inside
            rw [closes]
            exact ⟨by decide, ih inside.2⟩
        · simp only [Bool.and_eq_true, bne_iff_ne, ne_eq] at inside
          exact ⟨fun same => inside.1.2 same.symm, ih inside.2⟩

/-- A column's definition can stand in a column list. -/
def Defined (column : List Char × List Token) : Prop :=
  enclosed 0 column.2 = true ∧ column.2 ≠ []

theorem items_listed (defined : ∀ column ∈ columns, Defined column) (some_ : columns ≠ []) :
    items 0 [] (listed columns ++ [.mark ')']) =
      some (columns.map fun column => .word column.1 :: column.2) := by
  have part : ∀ (column : List Char × List Token) (rest : List Token), Defined column →
      items 0 [] (.word column.1 :: (column.2 ++ rest)) =
        items 0 (.word column.1 :: column.2) rest := by
    intro column rest here
    have word : items 0 [] (.word column.1 :: (column.2 ++ rest)) =
        items 0 [.word column.1] (column.2 ++ rest) := by simp [items]
    rw [word, items_enclosed here.1, List.singleton_append]
  induction columns with
  | nil => exact absurd rfl some_
  | cons column columns ih =>
      have here := defined column List.mem_cons_self
      cases columns with
      | nil =>
          rw [listed, List.cons_append, part column _ here]
          simp [items]
      | cons next columns =>
          have later := ih (fun other inside => defined other (List.mem_cons_of_mem _ inside))
            (by simp)
          rw [listed, List.cons_append, List.cons_append, List.append_assoc, part column _ here,
            List.cons_append, items]
          simp [later]

theorem table_listed (name : List Char) (defined : ∀ column ∈ columns, Defined column) :
    table (.word name :: .mark '(' :: (listed columns ++ [.mark ')'])) = some ⟨name, columns⟩ := by
  cases columns with
  | nil => simp [table, listed, items]
  | cons first columns =>
      have parsed : (((first :: columns).map fun column =>
          Token.word column.1 :: column.2).mapM column) = some (first :: columns) := by
        generalize first :: columns = all at defined
        induction all with
        | nil => rfl
        | cons head all ih =>
            obtain ⟨token, rest, more⟩ :=
              List.exists_cons_of_ne_nil (defined head List.mem_cons_self).2
            have here : column (.word head.1 :: head.2) = some head := by
              rw [more, column, ← more]
            rw [List.map_cons, List.mapM_cons, here,
              ih fun other inside => defined other (List.mem_cons_of_mem _ inside)]
            rfl
      rw [table, items_listed defined (by simp), Option.bind_some, parsed]
      simp

/-- A CREATE TABLE is read as it is spelled. -/
theorem run_tokens (catalog : Catalog) (statement : CreateTable)
    (defined : ∀ column ∈ statement.table.columns, Defined column) :
    runStatement catalog statement.tokens = statement.run catalog := by
  obtain ⟨ifNotExists, ⟨name, columns⟩⟩ := statement
  have read := table_listed name defined
  have keywords : (sameName "CREATE".toList "CREATE".toList &&
      sameName "TABLE".toList "TABLE".toList) = true := by decide
  cases ifNotExists with
  | false =>
      have plain : createTable (.word name :: .mark '(' :: (listed columns ++ [.mark ')'])) =
          some ⟨false, name, columns⟩ := by
        rw [createTable, read]
        · rfl
        · simp
      simp only [CreateTable.tokens, Bool.false_eq_true, if_false, List.nil_append, runStatement,
        keywords, if_true, plain, Option.bind_some]
  | true =>
      have guarded : (sameName "IF".toList "IF".toList && sameName "NOT".toList "NOT".toList &&
          sameName "EXISTS".toList "EXISTS".toList) = true := by decide
      simp only [CreateTable.tokens, if_true, runStatement, keywords, List.cons_append,
        List.nil_append, createTable, guarded, read, Option.map_some, Option.bind_some]

theorem runTokens_statement (one : .mark ';' ∉ tokens) :
    runTokens catalog current (tokens ++ .mark ';' :: rest) =
      (runStatement catalog (current ++ tokens)).bind fun next => runTokens next [] rest := by
  induction tokens generalizing current with
  | nil => simp [runTokens]
  | cons token tokens ih =>
      rw [List.mem_cons, not_or] at one
      rw [List.cons_append, runTokens, if_neg (Ne.symm one.1), ih one.2]
      simp

end Reading

/-- Statements run one after the other. -/
def runAll (catalog : Catalog) (statements : List CreateTable) : Option Catalog :=
  statements.foldlM CreateTable.run catalog

section Altering
variable {catalog before after : Catalog} {name other : List Char} {edited : List Table}
  {statement : CreateTable} {change : Change}

theorem sameName_trans (first : sameName name other = true) (one : List Char) :
    sameName name one = sameName other one := by
  rw [sameName, beq_iff_eq] at first
  rw [sameName, sameName, first]

theorem has_same (same : sameName name other = true) : catalog.has name = catalog.has other := by
  rw [Catalog.has, Catalog.has]
  congr 1
  exact funext fun table => sameName_trans same table.name

theorem runAll_append (catalog : Catalog) (first second : List CreateTable) :
    runAll catalog (first ++ second) =
      (runAll catalog first).bind fun between => runAll between second := List.foldlM_append

theorem create_cases (ran : statement.run before = some after) :
    (before.has statement.table.name = true ∧ after = before) ∨
    (before.has statement.table.name = false ∧
      (statement.table.columns.map fun column => column.1.map Char.toLower).Nodup ∧
      after = before ++ [statement.table]) := by
  rw [CreateTable.run] at ran
  cases held : before.has statement.table.name with
  | true =>
      simp only [held, if_true, Option.ite_none_right_eq_some, Option.some.injEq] at ran
      exact .inl ⟨rfl, ran.2.symm⟩
  | false =>
      simp only [held, Bool.false_eq_true, if_false, Option.ite_none_right_eq_some,
        Option.some.injEq] at ran
      exact .inr ⟨rfl, ran.1, ran.2.symm⟩

theorem create_fresh (fresh : before.has statement.table.name = false)
    (distinct : (statement.table.columns.map fun column => column.1.map Char.toLower).Nodup) :
    statement.run before = some (before ++ [statement.table]) := by
  rw [CreateTable.run, fresh, if_neg (by simp), if_pos distinct]

/-- A table put in another's place is no other name's. -/
theorem has_replace (named : ∀ table ∈ edited, sameName name table.name = true)
    (apart : sameName name other = false) :
    (catalog.replace name edited).has other = catalog.has other := by
  have never : ∀ table : Table, sameName name table.name = true →
      sameName other table.name = false := by
    intro table here
    rw [Bool.eq_false_iff]
    intro there
    rw [sameName, beq_iff_eq] at here there
    rw [sameName, here, ← there, beq_self_eq_true] at apart
    cases apart
  rw [Catalog.has, Catalog.replace, List.any_flatMap, Catalog.has]
  congr 1
  funext table
  cases here : sameName name table.name with
  | true =>
      rw [if_pos rfl, never table here, List.any_eq_false]
      exact fun inside member => by simp [never inside (named inside member)]
  | false => simp

theorem create_replace (named : ∀ table ∈ edited, sameName name table.name = true)
    (apart : sameName name statement.table.name = false) (ran : statement.run before = some after) :
    statement.run (before.replace name edited) = some (after.replace name edited) := by
  have same : (before.replace name edited).has statement.table.name =
      before.has statement.table.name := has_replace named apart
  rcases create_cases ran with ⟨held, rfl⟩ | ⟨fresh, distinct, rfl⟩
  · rw [CreateTable.run, held, if_pos rfl] at ran
    rw [CreateTable.run, same, held, if_pos rfl]
    split at ran
    · next guarded => rw [if_pos guarded]
    · cases ran
  · rw [create_fresh (same.trans fresh) distinct, Catalog.replace, Catalog.replace,
      List.flatMap_append, List.flatMap_singleton, if_neg (by simp [apart])]

theorem runAll_replace (named : ∀ table ∈ edited, sameName name table.name = true)
    {statements : List CreateTable}
    (apart : ∀ statement ∈ statements, sameName name statement.table.name = false)
    (ran : runAll before statements = some after) :
    runAll (before.replace name edited) statements = some (after.replace name edited) := by
  induction statements generalizing before with
  | nil =>
      obtain rfl := Option.some.inj ran
      rfl
  | cons statement statements ih =>
      rw [runAll, List.foldlM_cons] at ran
      obtain ⟨between, here, later⟩ := Option.bind_eq_some_iff.mp ran
      have moved := create_replace named (apart statement List.mem_cons_self) here
      rw [runAll, List.foldlM_cons, moved]
      exact ih (fun other inside => apart other (List.mem_cons_of_mem _ inside)) later

theorem runAll_find {statements : List CreateTable}
    (apart : ∀ statement ∈ statements, sameName name statement.table.name = false)
    (ran : runAll before statements = some after) :
    (after.find? fun table => sameName name table.name) =
      before.find? fun table => sameName name table.name := by
  induction statements generalizing before with
  | nil =>
      obtain rfl := Option.some.inj ran
      rfl
  | cons statement statements ih =>
      rw [runAll, List.foldlM_cons] at ran
      obtain ⟨between, here, later⟩ := Option.bind_eq_some_iff.mp ran
      rw [ih (fun other inside => apart other (List.mem_cons_of_mem _ inside)) later]
      rcases create_cases here with ⟨-, rfl⟩ | ⟨-, -, rfl⟩
      · rfl
      · simp [List.find?_append, apart statement List.mem_cons_self]

theorem edit_named {table : Table} (named : sameName change.table table.name = true)
    (ran : change.edit table = some edited) :
    ∀ other ∈ edited, sameName change.table other.name = true := by
  cases change with
  | addColumn _ column definition =>
      simp only [Change.edit, Option.ite_none_left_eq_some, Option.some.injEq] at ran
      obtain ⟨-, rfl⟩ := ran
      simpa using named
  | dropColumn _ column =>
      simp only [Change.edit, Option.ite_none_right_eq_some, Option.some.injEq] at ran
      obtain ⟨-, rfl⟩ := ran
      simpa using named
  | dropTable _ =>
      obtain rfl := Option.some.inj ran
      simp

theorem edit_one {table : Table} (ran : change.edit table = some edited) :
    edited = [] ∨ ∃ other, edited = [other] := by
  cases change with
  | addColumn _ column definition =>
      simp only [Change.edit, Option.ite_none_left_eq_some, Option.some.injEq] at ran
      exact .inr ⟨_, ran.2.symm⟩
  | dropColumn _ column =>
      simp only [Change.edit, Option.ite_none_right_eq_some, Option.some.injEq] at ran
      exact .inr ⟨_, ran.2.symm⟩
  | dropTable _ => exact .inl (Option.some.inj ran).symm

theorem edit_distinct {table : Table} (ran : change.edit table = some edited)
    (distinct : (table.columns.map fun column => column.1.map Char.toLower).Nodup) :
    ∀ other ∈ edited, (other.columns.map fun column => column.1.map Char.toLower).Nodup := by
  cases change with
  | addColumn _ column definition =>
      simp only [Change.edit, Option.ite_none_left_eq_some, Option.some.injEq] at ran
      obtain ⟨fresh, rfl⟩ := ran
      simp only [List.mem_singleton, forall_eq, List.map_append, List.map_singleton]
      rw [List.nodup_append]
      refine ⟨distinct, List.nodup_singleton _, ?_⟩
      rintro spelled member _ new rfl
      rw [List.mem_singleton] at new
      obtain ⟨held, inside, rfl⟩ := List.mem_map.mp member
      apply fresh
      rw [List.any_eq_true]
      exact ⟨held, inside, by rw [sameName, beq_iff_eq, new]⟩
  | dropColumn _ column =>
      simp only [Change.edit, Option.ite_none_right_eq_some, Option.some.injEq] at ran
      obtain ⟨-, rfl⟩ := ran
      simp only [List.mem_singleton, forall_eq]
      exact distinct.sublist (List.filter_sublist.map _)
  | dropTable _ =>
      obtain rfl := Option.some.inj ran
      simp

/-- A change folded into the one CREATE TABLE of its table leaves what the change leaves. -/
theorem change_folded {later : List CreateTable} (fresh : catalog.has statement.table.name = false)
    (named : sameName change.table statement.table.name = true)
    (apart : ∀ other ∈ later, sameName change.table other.table.name = false)
    (ran : runAll catalog (statement :: later) = some before)
    (changed : change.run before = some after) :
    ∃ edited, change.edit statement.table = some edited ∧
      runAll catalog (edited.map (CreateTable.mk statement.ifNotExists) ++ later) = some after := by
  rw [runAll, List.foldlM_cons] at ran
  obtain ⟨between, here, later_⟩ := Option.bind_eq_some_iff.mp ran
  rcases create_cases here with ⟨held, -⟩ | ⟨-, distinct, rfl⟩
  · rw [fresh] at held
    cases held
  have absent : ∀ table ∈ catalog, sameName change.table table.name = false := by
    intro table inside
    rw [sameName_trans named]
    exact Bool.eq_false_iff.mpr fun same =>
      absurd (List.any_eq_true.mpr ⟨table, inside, same⟩) (by simpa [Catalog.has] using fresh)
  have found : (before.find? fun table => sameName change.table table.name) =
      some statement.table := by
    rw [runAll_find apart later_, List.find?_append,
      List.find?_eq_none.mpr fun table inside => by simp [absent table inside]]
    simp [named]
  rw [Change.run, found, Option.bind_some, Option.map_eq_some_iff] at changed
  obtain ⟨edited, ran, rfl⟩ := changed
  refine ⟨edited, ran, ?_⟩
  have names := edit_named named ran
  have moved := runAll_replace names apart later_
  have kept : Catalog.replace (catalog ++ [statement.table]) change.table edited =
      catalog ++ edited := by
    rw [Catalog.replace, List.flatMap_append, List.flatMap_singleton, if_pos named]
    congr 1
    rw [List.flatMap_congr fun table inside => if_neg (by simp [absent table inside])]
    exact List.flatMap_singleton' _
  rw [kept] at moved
  rw [runAll_append]
  have first : runAll catalog (edited.map (CreateTable.mk statement.ifNotExists)) =
      some (catalog ++ edited) := by
    have distincts := edit_distinct ran distinct
    rcases edit_one ran with rfl | ⟨table, rfl⟩
    · simp [runAll]
    · have free : catalog.has table.name = false := by
        have same := names table List.mem_cons_self
        rwa [← has_same same, has_same named]
      have alone : (CreateTable.mk statement.ifNotExists table).run catalog =
          some (catalog ++ [table]) := create_fresh free (distincts table List.mem_cons_self)
      simp [runAll, alone]
  rw [first]
  exact moved

end Altering

end VoltMod.SqlTables
