import Mathlib.Data.List.DropRight
import VoltMod.MigrationPlaceholders
import VoltMod.Patterns
import VoltMod.Strip

/-! cli/voltmod/database/migrations.py: the ALTER TABLE and DROP TABLE statements of a DDL text,
folded into the CREATE TABLE before them. -/
namespace VoltMod.SchemaChanges
open MigrationText Regex Patterns

def ascii (c : Char) : Bool := c.toNat < 128

def asciiSpace (c : Char) : Bool :=
  c == ' ' || ('\t' ≤ c && c ≤ '\r') || ('\x1c' ≤ c && c ≤ '\x1f')

def asciiWord (c : Char) : Bool := c.isAlphanum || c == '_'

/-- What `re` and `str` read in a character. Unicode's tables are left open. -/
structure CharRules where
  space : Char → Bool
  word : Char → Bool
  /-- A pattern's letter and a text's one, as `re.I` compares them. -/
  alike : Char → Char → Bool
  spaces : ∀ c, ascii c = true → space c = asciiSpace c
  words : ∀ c, ascii c = true → word c = asciiWord c
  cases : ∀ c d, ascii c = true → ascii d = true → alike c d = (c.toLower == d.toLower)

def asciiRules : CharRules where
  space := asciiSpace
  word := asciiWord
  alike c d := c.toLower == d.toLower
  spaces _ _ := rfl
  words _ _ := rfl
  cases _ _ _ _ := rfl

variable (rules : CharRules)

def keyword (letters : String) : Pattern Char := word rules.alike letters.toList

/-- `\s*` and `\s+` -/
def blanks : Pattern Char := many rules.space

def blanks1 : Pattern Char := many1 rules.space

/-- `[^\S\n]*\n?` -/
def lineEnd : Pattern Char :=
  seq (many fun c => rules.space c && c != '\n') (maybe (one (· == '\n')))

/-- `IF\s+(?:NOT\s+)?EXISTS\s+` -/
def ifExists : Pattern Char :=
  seq (keyword rules "IF") (seq (blanks1 rules) (seq
    (maybe (seq (keyword rules "NOT") (blanks1 rules)))
    (seq (keyword rules "EXISTS") (blanks1 rules))))

/-- The groups `table`, `action`, `column` and `definition`, by their numbers. -/
def alterColumnPattern : Pattern Char :=
  seq (keyword rules "ALTER") (seq (blanks1 rules) (seq (keyword rules "TABLE")
    (seq (blanks1 rules) (seq (group 1 (many1 rules.word)) (seq (blanks1 rules)
      (seq (group 2 (either (keyword rules "ADD") (keyword rules "DROP")))
        (seq (blanks1 rules) (seq (keyword rules "COLUMN") (seq (blanks1 rules)
          (seq (maybe (ifExists rules)) (seq (group 3 (many1 rules.word))
            (group 4 (many (· != ';'))))))))))))))

/-- The group `dropped` is number 5. -/
def dropTablePattern : Pattern Char :=
  seq (keyword rules "DROP") (seq (blanks1 rules) (seq (keyword rules "TABLE")
    (seq (blanks1 rules) (seq
      (maybe (seq (keyword rules "IF") (seq (blanks1 rules)
        (seq (keyword rules "EXISTS") (blanks1 rules)))))
      (seq (group 5 (many1 rules.word)) (blanks rules))))))

/-- `_SCHEMA_CHANGE` from where its line starts. -/
def schemaChange : Pattern Char :=
  seq (blanks rules) (seq (either (alterColumnPattern rules) (dropTablePattern rules))
    (seq (one (· == ';')) (lineEnd rules)))

/-- `CREATE\s+TABLE\s+(?:IF\s+NOT\s+EXISTS\s+)?{table}\s*\(` -/
def createHead (table : Text) : Pattern Char :=
  seq (keyword rules "CREATE") (seq (blanks1 rules) (seq (keyword rules "TABLE")
    (seq (blanks1 rules) (seq
      (maybe (seq (keyword rules "IF") (seq (blanks1 rules) (seq (keyword rules "NOT")
        (seq (blanks1 rules) (seq (keyword rules "EXISTS") (blanks1 rules)))))))
      (seq (word rules.alike table) (seq (blanks rules) (one (· == '('))))))))

/-- `\n\);[^\S\n]*\n?` -/
def createEnd : Pattern Char :=
  seq (one (· == '\n')) (seq (one (· == ')')) (seq (one (· == ';')) (lineEnd rules)))

/-- The CREATE TABLE of a table, its body as group 1. Group 0 is what stands before the body. -/
def createPattern (table : Text) : Pattern Char :=
  seq (group 0 (createHead rules table)) (seq (group 1 (few fun _ => true)) (createEnd rules))

/-- `^\s*{column}\s[^\n]*\n?` from where its line starts. -/
def columnLine (column : Text) : Pattern Char :=
  seq (blanks rules) (seq (word rules.alike column) (seq (one rules.space)
    (seq (many (· != '\n')) (maybe (one (· == '\n'))))))

def rstrip (text : Text) : Text := text.rdropWhile rules.space

def search (pattern : Pattern Char) (text : Text) : Option (Occurrence Char) :=
  searchLines (· == '\n') pattern [] true text

def missingColumn (table column : Text) : String :=
  "DROP COLUMN names a column " ++ String.ofList table ++ " does not have: " ++
    String.ofList column

def missingTable (change table : Text) : String :=
  String.ofList (Strip.strip rules.space change) ++
    " names a table with no CREATE TABLE before it: " ++ String.ofList table

/-- `_alter_column` -/
def alterColumn (body table action column definition : Text) : Except String Text :=
  if action.map Char.toUpper = "ADD".toList then
    .ok (rstrip rules body ++ ",\n  ".toList ++ column ++ rstrip rules definition)
  else
    match search (columnLine rules column) body with
    | none => .error (missingColumn table column)
    | some line =>
        -- The dropped column may have been the last one.
        .ok (MigrationPlaceholders.removeSuffix [','] (rstrip rules (line.before ++ line.found.rest)))

def textOf (found : Match Char) (number : Nat) : Text := (found.group number).getD []

/-- One turn of the loop: the text with the change folded in. -/
def foldChange (change : Occurrence Char) : Except String Text :=
  let table := textOf change.found (if (change.found.group 1).isSome then 1 else 5)
  match (findAll (createPattern rules table) [] 0 change.before).getLast? with
  | none => .error (missingTable rules change.found.matched table)
  | some create =>
      if (change.found.group 5).isSome then
        .ok (create.before ++ create.found.rest ++ change.found.rest)
      else
        let head := textOf create.found 0
        let body := textOf create.found 1
        (alterColumn rules body table (textOf change.found 2) (textOf change.found 3)
          (textOf change.found 4)).map fun altered =>
            create.before ++ head ++ altered ++
              create.found.matched.drop (head.length + body.length) ++ create.found.rest ++
                change.found.rest

/-- None where the fuel ends first. -/
def applySchemaChanges : Nat → Text → Option (Except String Text)
  | 0, _ => none
  | fuel + 1, ddl =>
      match search (schemaChange rules) ddl with
      | none => some (.ok ddl)
      | some change =>
          match foldChange rules change with
          | .error message => some (.error message)
          | .ok folded => applySchemaChanges fuel folded

section Ending

theorem keyword_measured (letters : String) :
    Measured letters.toList.length (keyword rules letters) := word_measured _ _

theorem blanks1_plain : Plain (blanks1 rules) := seq_plain (one_plain _) (many_plain _)

theorem name_plain : Plain (many1 rules.word) := seq_plain (one_plain _) (many_plain _)

theorem lineEnd_plain : Plain (lineEnd rules) :=
  seq_plain (many_plain _) (maybe_plain (one_plain _))

theorem ifExists_plain : Plain (ifExists rules) :=
  seq_plain (word_plain _ _) (seq_plain (blanks1_plain rules) (seq_plain
    (maybe_plain (seq_plain (word_plain _ _) (blanks1_plain rules)))
      (seq_plain (word_plain _ _) (blanks1_plain rules))))

theorem keyword_before {least : Nat} (letters : String) {next : Pattern Char}
    (measured : Measured least next) :
    Measured (letters.toList.length + least)
      (seq (keyword rules letters) (seq (blanks1 rules) next)) := by
  have blank := seq_measured (blanks1_plain rules).measured measured
  rw [Nat.zero_add] at blank
  exact seq_measured (keyword_measured rules letters) blank

theorem alterColumn_measured : Measured 10 (alterColumnPattern rules) := by
  have column : Measured 0 (seq (maybe (ifExists rules)) (seq (group 3 (many1 rules.word))
      (group 4 (many (· != ';'))))) :=
    seq_measured (maybe_plain (ifExists_plain rules)).measured
      (seq_measured (group_measured (name_plain rules)) (group_measured (many_plain _)))
  have named := keyword_before rules "COLUMN" column
  have action : Measured 0 (group 2 (either (keyword rules "ADD") (keyword rules "DROP"))) :=
    group_measured (either_plain (word_plain _ _) (word_plain _ _))
  have acted := seq_measured action (seq_measured (blanks1_plain rules).measured named)
  have name : Measured 0 (group 1 (many1 rules.word)) := group_measured (name_plain rules)
  have table := seq_measured name (seq_measured (blanks1_plain rules).measured acted)
  exact (keyword_before rules "ALTER" (keyword_before rules "TABLE" table)).less (by decide)

theorem dropTable_measured : Measured 9 (dropTablePattern rules) := by
  have guard : Plain (maybe (seq (keyword rules "IF") (seq (blanks1 rules)
      (seq (keyword rules "EXISTS") (blanks1 rules))))) :=
    maybe_plain (seq_plain (word_plain _ _) (seq_plain (blanks1_plain rules)
      (seq_plain (word_plain _ _) (blanks1_plain rules))))
  have name : Measured 0 (group 5 (many1 rules.word)) := group_measured (name_plain rules)
  have table := seq_measured guard.measured
    (seq_measured name (many_plain rules.space).measured)
  exact keyword_before rules "DROP" (keyword_before rules "TABLE" table)

/-- A change is longer than what it adds. -/
theorem schemaChange_measured : Measured 5 (schemaChange rules) := by
  have change : Measured 5 (either (alterColumnPattern rules) (dropTablePattern rules)) :=
    either_measured ((alterColumn_measured rules).less (by decide))
      ((dropTable_measured rules).less (by decide))
  have ends : Plain (seq (one (· == ';')) (lineEnd rules)) :=
    seq_plain (one_plain _) (lineEnd_plain rules)
  exact (seq_measured (many_plain rules.space).measured (seq_measured change ends.measured)).less
    (by decide)

theorem createHead_plain (table : Text) : Plain (createHead rules table) := by
  have blank := blanks1_plain rules
  have guard : Plain (maybe (seq (keyword rules "IF") (seq (blanks1 rules) (seq (keyword rules "NOT")
      (seq (blanks1 rules) (seq (keyword rules "EXISTS") (blanks1 rules))))))) :=
    maybe_plain (seq_plain (word_plain _ _) (seq_plain blank (seq_plain (word_plain _ _)
      (seq_plain blank (seq_plain (word_plain _ _) blank)))))
  exact seq_plain (word_plain _ _) (seq_plain blank (seq_plain (word_plain _ _) (seq_plain blank
    (seq_plain guard (seq_plain (word_plain _ _) (seq_plain (many_plain _) (one_plain _)))))))

theorem createEnd_plain : Plain (createEnd rules) :=
  seq_plain (one_plain _) (seq_plain (one_plain _) (seq_plain (one_plain _) (lineEnd_plain rules)))

theorem create_measured (table : Text) : Measured 0 (createPattern rules table) :=
  seq_measured (group_measured (createHead_plain rules table))
    (seq_measured (group_measured (few_plain _)) (createEnd_plain rules).measured)

theorem rstrip_front (text : Text) : rstrip rules text <+: text := List.rdropWhile_prefix _ _

theorem removeSuffix_front (suffix text : Text) :
    MigrationPlaceholders.removeSuffix suffix text <+: text := by
  rw [MigrationPlaceholders.removeSuffix]
  split
  · exact List.take_prefix _ _
  · exact List.prefix_rfl

theorem columnLine_plain (column : Text) : Plain (columnLine rules column) :=
  seq_plain (many_plain _) (seq_plain (word_plain _ _) (seq_plain (one_plain _)
    (seq_plain (many_plain _) (maybe_plain (one_plain _)))))

/-- A body grows by no more than the column that is added to it. -/
theorem alterColumn_bounded {body table action column definition altered : Text}
    (ok : alterColumn rules body table action column definition = .ok altered) :
    altered.length ≤ body.length + (column.length + definition.length + 4) := by
  rw [alterColumn] at ok
  split at ok
  · obtain rfl := Except.ok.inj ok
    have stripped := (rstrip_front rules body).length_le
    have shorter := (rstrip_front rules definition).length_le
    simp only [List.length_append]
    have comma : ",\n  ".toList.length = 4 := by decide
    omega
  · split at ok
    · cases ok
    · next line found =>
        obtain rfl := Except.ok.inj ok
        obtain ⟨split, -⟩ := searchLines_split (columnLine_plain rules column).measured found
        have whole := congrArg List.length split
        have stripped := (rstrip_front rules (line.before ++ line.found.rest)).length_le
        have cut := (removeSuffix_front [','] (rstrip rules (line.before ++ line.found.rest))).length_le
        simp only [List.length_append, List.nil_append] at whole stripped
        omega

theorem of_map_ok {Value Next : Type} {first : Except String Value} {next : Value → Next}
    {result : Next} (ok : first.map next = .ok result) :
    ∃ value, first = .ok value ∧ next value = result := by
  cases first with
  | error message => cases ok
  | ok value => exact ⟨value, rfl, Except.ok.inj ok⟩

/-- A turn leaves a shorter text. -/
theorem foldChange_shorter {ddl folded : Text} {change : Occurrence Char}
    (found : search (schemaChange rules) ddl = some change)
    (ok : foldChange rules change = .ok folded) : folded.length < ddl.length := by
  obtain ⟨split, heavy⟩ := searchLines_split (schemaChange_measured rules) found
  have whole := congrArg List.length split
  simp only [List.length_append, List.nil_append] at whole
  rw [foldChange] at ok
  split at ok
  · cases ok
  · next create last =>
      obtain ⟨place, behind, inside⟩ :=
        findAll_split (create_measured rules _) (List.mem_of_getLast? last)
      have parts := congrArg List.length place
      have bodies := groups_weight create.found (show 0 ≠ 1 by decide)
      have bound := (create_measured rules _ behind create.found inside).2
      -- an ADD puts in two groups of the change and four symbols, the change has five and more
      have columns := groups_weight change.found (show 3 ≠ 4 by decide)
      simp only [List.length_append, List.nil_append] at parts
      split at ok
      · obtain rfl := Except.ok.inj ok
        simp only [List.length_append]
        omega
      · obtain ⟨altered, alters, rfl⟩ := of_map_ok ok
        have grown := alterColumn_bounded rules alters
        simp only [textOf] at grown ⊢
        simp only [List.length_append, List.length_drop]
        omega

theorem loop_done {ddl : Text} (none_ : search (schemaChange rules) ddl = none) (fuel : Nat) :
    applySchemaChanges rules (fuel + 1) ddl = some (.ok ddl) := by
  rw [applySchemaChanges, none_]

theorem loop_failed {ddl : Text} {change : Occurrence Char} {message : String}
    (found : search (schemaChange rules) ddl = some change)
    (failed : foldChange rules change = .error message) (fuel : Nat) :
    applySchemaChanges rules (fuel + 1) ddl = some (.error message) := by
  rw [applySchemaChanges, found]
  simp only [failed]

theorem loop_turn {ddl folded : Text} {change : Occurrence Char}
    (found : search (schemaChange rules) ddl = some change)
    (ok : foldChange rules change = .ok folded) (fuel : Nat) :
    applySchemaChanges rules (fuel + 1) ddl = applySchemaChanges rules fuel folded := by
  rw [applySchemaChanges, found]
  simp only [ok]

/-- The loop ends on every text. -/
theorem applySchemaChanges_ends (ddl : Text) :
    ∃ outcome, ∀ fuel, ddl.length < fuel → applySchemaChanges rules fuel ddl = some outcome := by
  have whole : ∃ outcome, ∀ fuel, ddl.length ≤ fuel →
      applySchemaChanges rules (fuel + 1) ddl = some outcome := by
    -- by the text's length, which every turn lowers
    induction length : ddl.length using Nat.strong_induction_on generalizing ddl with
    | _ length ih =>
        cases found : search (schemaChange rules) ddl with
        | none => exact ⟨.ok ddl, fun fuel _ => loop_done rules found fuel⟩
        | some change =>
            cases turned : foldChange rules change with
            | error message => exact ⟨.error message, fun fuel _ => loop_failed rules found turned fuel⟩
            | ok folded =>
                have shorter := foldChange_shorter rules found turned
                obtain ⟨outcome, ends⟩ := ih folded.length (by omega) folded rfl
                refine ⟨outcome, ?_⟩
                intro fuel enough
                cases fuel with
                | zero => omega
                | succ fuel =>
                    rw [loop_turn rules found turned]
                    exact ends fuel (by omega)
  obtain ⟨outcome, ends⟩ := whole
  refine ⟨outcome, ?_⟩
  intro fuel enough
  cases fuel with
  | zero => omega
  | succ fuel => exact ends fuel (by omega)

example : applySchemaChanges asciiRules 2
    "CREATE TABLE t (\n  a INT\n);\nALTER TABLE t DROP COLUMN b;\n".toList =
      some (.error (missingColumn "t".toList "b".toList)) := by
  decide +kernel

end Ending

end VoltMod.SchemaChanges
