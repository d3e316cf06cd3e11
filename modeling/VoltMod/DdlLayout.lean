import VoltMod.SchemaChanges
import VoltMod.SqlTables

/-! The layout of the DDL texts that the fold is for: a CREATE TABLE has one column definition
a line and its closing line on its own, any line may end in a comment, and the changes stand
between. What the fold makes of such a text is again one, but for the first column behind a
dropped one, which may stand on the opening line. -/
namespace VoltMod.DdlLayout
open MigrationText SchemaChanges SqlTables

/-- A bare name, no keyword that a line or a change's IF EXISTS begins with. -/
structure Name where
  text : Text
  letters : ∀ c ∈ text, letter c = true
  present : text ≠ []
  plain : ∀ reserved ∈ ["ALTER", "DROP", "IF"], sameName reserved.toList text = false

def isName (text : Text) : Bool :=
  text.all letter && !text.isEmpty &&
    ["ALTER", "DROP", "IF"].all fun reserved => !sameName reserved.toList text

theorem isName_facts {text : Text} (fits : isName text = true) :
    (∀ c ∈ text, letter c = true) ∧ text ≠ [] ∧
      ∀ reserved ∈ ["ALTER", "DROP", "IF"], sameName reserved.toList text = false := by
  simp only [isName, Bool.and_eq_true, List.all_eq_true, Bool.not_eq_true'] at fits
  exact ⟨fits.1.1, List.isEmpty_eq_false_iff.mp fits.1.2, fits.2⟩

def nameOf (text : Text) (fits : isName text = true) : Name where
  text := text
  letters := (isName_facts fits).1
  present := (isName_facts fits).2.1
  plain := (isName_facts fits).2.2

def solid (c : Char) : Bool := '!' ≤ c && c ≤ '~' && c != ','

/-- What stands behind a column's name. -/
structure Definition where
  text : Text
  line : '\n' ∉ text
  first : text.head? = some ' '
  last : text.getLast?.any solid = true
  calm : (scan .plain text).1.calm = true
  inside : enclosed 0 (lex text) = true
  present : lex text ≠ []

structure Comment where
  gap : Text
  body : Text
  blanks : ∀ c ∈ gap, c = ' ' ∨ c = '\t'
  line : '\n' ∉ body

def Comment.text (comment : Comment) : Text := comment.gap ++ '-' :: '-' :: comment.body

/-- A comment that begins its line. -/
def Comment.row (comment : Comment) : Text := '-' :: '-' :: comment.body ++ ['\n']

def commentText : Option Comment → Text
  | none => []
  | some comment => comment.text

structure Line where
  name : Name
  definition : Definition
  comment : Option Comment

def Line.row (comma : Bool) (line : Line) : Text :=
  ' ' :: ' ' :: (line.name.text ++ line.definition.text ++ (if comma then [','] else []) ++
    commentText line.comment)

def rows : List Line → List Text
  | [] => []
  | [line] => [line.row false]
  | line :: next :: rest => line.row true :: rows (next :: rest)

/-- What follows the opening parenthesis on its line. -/
inductive Opening where
  | bare
  | commented (comment : Comment)
  /-- The first column. -/
  | glued

structure Create where
  ifNotExists : Bool
  name : Name
  opening : Opening
  lines : List Line
  closing : Option Comment

def below (rows : List Text) : Text := rows.flatMap ('\n' :: ·)

/-- Rows with the breaks between them. -/
def lined : List Text → Text
  | [] => []
  | row :: rows => row ++ below rows

/-- What the opening line holds of the body, where that is no column's row. -/
def Opening.lead : Opening → List Text
  | .bare => [[]]
  | .commented comment => [comment.text]
  | .glued => []

def Create.segments (create : Create) : List Text := create.opening.lead ++ rows create.lines

def Create.body (create : Create) : Text := lined create.segments

/-- A word, a blank and what follows. -/
def spaced (word rest : Text) : Text := word ++ ' ' :: rest

def Create.head (create : Create) : Text :=
  spaced "CREATE".toList (spaced "TABLE".toList
    (if create.ifNotExists then
      spaced "IF".toList (spaced "NOT".toList (spaced "EXISTS".toList
        (spaced create.name.text ['('])))
    else spaced create.name.text ['(']))

/-- The blanks that end a statement's line, with its break where no comment follows. -/
def ending : Option Comment → Text
  | none => ['\n']
  | some comment => comment.gap

def noteText : Option Comment → Text
  | none => []
  | some comment => comment.row

/-- The statement up to the comment on its closing line. -/
def Create.own (create : Create) : Text :=
  create.head ++ (create.body ++ ['\n', ')', ';'] ++ ending create.closing)

inductive Item where
  | create (create : Create)
  /-- What a change leaves of its line. -/
  | note (comment : Comment)

def Item.text : Item → Text
  | .create made => made.own ++ noteText made.closing
  | .note comment => comment.row

def itemsText (items : List Item) : Text := items.flatMap Item.text

inductive Alteration where
  | addColumn (table column : Name) (definition : Definition)
  | dropColumn (table column : Name)
  | dropTable (table : Name)

def Alteration.table : Alteration → Name
  | .addColumn table _ _ | .dropColumn table _ | .dropTable table => table

def Alteration.text : Alteration → Text
  | .addColumn table column definition =>
      spaced "ALTER".toList (spaced "TABLE".toList (spaced table.text (spaced "ADD".toList
        (spaced "COLUMN".toList (column.text ++ definition.text)))))
  | .dropColumn table column =>
      spaced "ALTER".toList (spaced "TABLE".toList (spaced table.text (spaced "DROP".toList
        (spaced "COLUMN".toList column.text))))
  | .dropTable table => spaced "DROP".toList (spaced "TABLE".toList table.text)

inductive Statement where
  | item (item : Item)
  | change (alteration : Alteration) (comment : Option Comment)

def Statement.text : Statement → Text
  | .item standing => standing.text
  | .change alteration comment =>
      alteration.text ++ [';'] ++ ending comment ++ noteText comment

def ddl (statements : List Statement) : Text := statements.flatMap Statement.text

section Meaning

def Line.column (line : Line) : List Char × List Token := (line.name.text, lex line.definition.text)

def Create.meaning (create : Create) : CreateTable :=
  ⟨create.ifNotExists, create.name.text, create.lines.map Line.column⟩

def Alteration.meaning : Alteration → Change
  | .addColumn table column definition => .addColumn table.text column.text (lex definition.text)
  | .dropColumn table column => .dropColumn table.text column.text
  | .dropTable table => .dropTable table.text

def creates (items : List Item) : List CreateTable :=
  items.filterMap fun
    | .create create => some create.meaning
    | .note _ => none

def Statement.run (catalog : Catalog) : Statement → Option Catalog
  | .item (.create create) => create.meaning.run catalog
  | .item (.note _) => some catalog
  | .change alteration _ => alteration.meaning.run catalog

/-- The statements run in order. -/
def run (catalog : Catalog) (statements : List Statement) : Option Catalog :=
  statements.foldlM Statement.run catalog

end Meaning

section Folding
variable (rules : CharRules)

/-- What is left of a comment that ends a table's body. -/
def Comment.trim (comment : Comment) : Comment where
  gap := comment.gap
  body := MigrationPlaceholders.removeSuffix [','] (rstrip rules comment.body)
  blanks := comment.blanks
  line inside := comment.line
    (((removeSuffix_front _ _).trans (rstrip_front rules _)).subset inside)

/-- The comment that takes up the comma for an added column. -/
def Comment.comma (comment : Comment) : Comment where
  gap := comment.gap
  body := rstrip rules comment.body ++ [',']
  blanks := comment.blanks
  line inside := by
    rcases List.mem_append.mp inside with kept | comma
    · exact comment.line ((rstrip_front rules _).subset kept)
    · exact absurd (List.mem_singleton.mp comma) (by decide)

def trimLast : List Line → List Line
  | [] => []
  | [line] => [{ line with comment := line.comment.map (Comment.trim rules) }]
  | line :: next :: rest => line :: trimLast (next :: rest)

def Opening.trim : Opening → Opening
  | .commented comment => .commented (comment.trim rules)
  | opening => opening

/-- The opening line in front of the first added column. -/
def Opening.comma : List Line → Opening → Opening
  | [], .commented comment => .commented (comment.comma rules)
  | _, opening => opening

def Create.add (create : Create) (line : Line) : Create :=
  { create with
    opening := create.opening.comma rules create.lines
    lines := create.lines ++ [line] }

def before (column : Text) (lines : List Line) : List Line :=
  lines.takeWhile fun line => !sameName column line.name.text

def behind (column : Text) (lines : List Line) : List Line :=
  (lines.dropWhile fun line => !sameName column line.name.text).tail

/-- Before the first column there is only the line's break, and it goes with the column. -/
def openingOf (opening : Opening) (before : List Line) : Opening :=
  match opening, before with
  | .bare, [] => .glued
  | opening, _ => opening

def Create.drop (create : Create) (column : Text) : Create :=
  let first := before column create.lines
  let opening := openingOf create.opening first
  match behind column create.lines with
  | [] => { create with
      opening := if first.isEmpty then opening.trim rules else opening
      lines := first }
  | line :: rest => { create with opening, lines := first ++ trimLast rules (line :: rest) }

/-- A table's first CREATE TABLE, with the items around it. -/
def findCreate (table : Text) : List Item → Option (List Item × Create × List Item)
  | [] => none
  | .note comment :: rest =>
      (findCreate table rest).map fun found => (.note comment :: found.1, found.2)
  | .create create :: rest =>
      if sameName table create.name.text then some ([], create, rest)
      else (findCreate table rest).map fun found => (.create create :: found.1, found.2)

def notes (comment : Option Comment) : List Item := (comment.map Item.note).toList

def Alteration.edit (create : Create) : Alteration → List Item
  | .addColumn _ column definition => [.create (create.add rules ⟨column, definition, none⟩)]
  | .dropColumn _ column => [.create (create.drop rules column.text)]
  | .dropTable _ => notes create.closing

/-- The layout with a change folded in. -/
def fold (items : List Item) (alteration : Alteration) : List Item :=
  match findCreate alteration.table.text items with
  | none => items
  | some (first, create, rest) => first ++ alteration.edit rules create ++ rest

/-- The statement `own` is read as the table's last CREATE TABLE: no text in front of it that
reads as one reaches over its start, and none behind it reads as one. -/
def alone (table front own back : Text) : Bool :=
  (front.tails.all fun late => late.isEmpty ||
    (createPattern rules table (late ++ (own ++ back))).head?.all fun found =>
      found.matched.length ≤ late.length) &&
    back.tails.all fun late => (createPattern rules table late).isEmpty

/-- A column can be added where no comment takes the comma up, or where the first line's does;
the last column can go where no comment hides the comma before it. -/
def Alteration.fits (create : Create) : Alteration → Bool
  | .addColumn _ _ definition =>
      !definition.text.contains ';' &&
        match create.lines.getLast?, create.opening with
        | some line, _ => line.comment.isNone
        | none, .commented _ => true
        | none, _ => false
  | .dropColumn _ column =>
      !(behind column.text create.lines).isEmpty ||
        match (before column.text create.lines).getLast? with
        | some line => line.comment.isNone
        | none => true
  | .dropTable _ => true

/-- What a change asks of the layout it is folded into. -/
def meets (items : List Item) (alteration : Alteration) : Bool :=
  match findCreate alteration.table.text items with
  | none => false
  | some (first, create, rest) =>
      alone rules alteration.table.text (itemsText first) create.own
        (noteText create.closing ++ itemsText rest) && alteration.fits create

/-- Every change meets what it is folded into. -/
def guarded : List Item → List Statement → Bool
  | _, [] => true
  | items, .item item :: rest => guarded (items ++ [item]) rest
  | items, .change alteration comment :: rest =>
      meets rules items alteration &&
        guarded (fold rules items alteration ++ notes comment) rest

end Folding

end VoltMod.DdlLayout
