import VoltMod.DdlReading

/-! The rows a text in the layout is printed in: no change begins one, and a CREATE TABLE is read
from its first row to its last. -/
namespace VoltMod.DdlLayout
open MigrationText Regex Patterns SchemaChanges SqlTables

section Printing
variable {rowsOf : List Text} {row : Text}

/-- The rows a text is printed in, each with its break. -/
def broken (rowsOf : List Text) : Text := rowsOf.flatMap (· ++ ['\n'])

theorem below_broken (rowsOf : List Text) : below rowsOf ++ ['\n'] = '\n' :: broken rowsOf := by
  rw [below, broken]
  induction rowsOf with
  | nil => rfl
  | cons row rowsOf ih => simp [ih]

theorem lined_broken (first : Text) (rest : List Text) :
    lined (first :: rest) ++ ['\n'] = broken (first :: rest) := by
  rw [lined, List.append_assoc, below_broken, broken, broken, List.flatMap_cons,
    List.append_assoc, List.singleton_append]

/-- The opening line with what it holds, and the column rows under it. -/
def Create.opened (create : Create) : List Text :=
  match create.segments with
  | [] => [create.head]
  | first :: rest => (create.head ++ first) :: rest

def Create.closed (create : Create) : Text := ')' :: ';' :: commentText create.closing

def Item.printed : Item → List Text
  | .create made => made.opened ++ [made.closed]
  | .note comment => ['-' :: '-' :: comment.body]

theorem ending_note (comment : Option Comment) :
    ending comment ++ noteText comment = commentText comment ++ ['\n'] := by
  cases comment with
  | none => rfl
  | some comment => simp [ending, noteText, commentText, Comment.row, Comment.text]

theorem opened_broken (create : Create) :
    create.head ++ (create.body ++ ['\n']) = broken create.opened := by
  rw [Create.body, Create.opened]
  cases create.segments with
  | nil => simp [lined, broken]
  | cons first rest =>
      rw [lined_broken]
      simp [broken]

theorem item_printed (item : Item) : item.text = broken item.printed := by
  cases item with
  | note comment => simp [Item.text, Item.printed, broken, Comment.row]
  | create create =>
      have opened := opened_broken create
      have closed := ending_note create.closing
      calc
        create.own ++ noteText create.closing =
            create.head ++ (create.body ++ ['\n']) ++
              (')' :: ';' :: (ending create.closing ++ noteText create.closing)) := by
          simp [Create.own]
        _ = broken create.opened ++ broken [create.closed] := by
          rw [opened, closed]
          simp [broken, Create.closed]
        _ = broken (create.opened ++ [create.closed]) := List.flatMap_append.symm

theorem items_printed (items : List Item) :
    itemsText items = broken (items.flatMap Item.printed) := by
  rw [itemsText, broken, List.flatMap_assoc]
  exact List.flatMap_congr fun item _ => item_printed item

theorem mem_rows {lines : List Line} (member : row ∈ rows lines) :
    ∃ line ∈ lines, ∃ comma, row = line.row comma := by
  induction lines with
  | nil => cases member
  | cons line lines ih =>
      cases lines with
      | nil => exact ⟨line, List.mem_cons_self, false, List.mem_singleton.mp member⟩
      | cons next lines =>
          rcases List.mem_cons.mp member with rfl | later
          · exact ⟨line, List.mem_cons_self, true, rfl⟩
          · obtain ⟨found, inside, comma, same⟩ := ih later
            exact ⟨found, List.mem_cons_of_mem _ inside, comma, same⟩

theorem comment_line (comment : Option Comment) : '\n' ∉ commentText comment := by
  cases comment with
  | none => exact List.not_mem_nil
  | some comment =>
      have gap : '\n' ∉ comment.gap := fun inside => by
        rcases comment.blanks _ inside with same | same <;> revert same <;> decide
      simp [commentText, Comment.text, gap, comment.line]

theorem name_line {name : Text} (letters : ∀ c ∈ name, letter c = true) : '\n' ∉ name :=
  fun inside => absurd (letters _ inside) (by decide)

theorem row_line (line : Line) (comma : Bool) : '\n' ∉ line.row comma := by
  have name := name_line line.name.letters
  have comment := comment_line line.comment
  cases comma <;> simp [Line.row, name, line.definition.line, comment]

theorem lead_line (opening : Opening) : ∀ row ∈ opening.lead, '\n' ∉ row := by
  cases opening with
  | bare => simp [Opening.lead]
  | commented comment =>
      have line := comment_line (some comment)
      simpa [Opening.lead, commentText] using line
  | glued => simp [Opening.lead]

theorem segments_line (create : Create) : ∀ row ∈ create.segments, '\n' ∉ row := by
  intro row member
  rcases List.mem_append.mp member with lead | later
  · exact lead_line create.opening row lead
  · obtain ⟨line, -, comma, rfl⟩ := mem_rows later
    exact row_line line comma

/-- All rows of a body but the first are columns'. -/
theorem segments_tail (create : Create) : ∀ row ∈ create.segments.tail, row ∈ rows create.lines := by
  intro row member
  rw [Create.segments] at member
  cases here : create.opening with
  | bare => simpa [here, Opening.lead] using member
  | commented comment => simpa [here, Opening.lead] using member
  | glued =>
      rw [here, Opening.lead, List.nil_append] at member
      exact List.mem_of_mem_tail member

theorem head_begins (create : Create) : ∃ rest, create.head = 'C' :: rest := ⟨_, rfl⟩

theorem head_line (create : Create) : '\n' ∉ create.head := by
  have name := name_line create.name.letters
  rw [Create.head]
  split <;> simp [spaced, name]

theorem mem_opened {create : Create} (member : row ∈ create.opened) :
    (∃ first, '\n' ∉ first ∧ row = create.head ++ first) ∨ row ∈ rows create.lines := by
  have tail := segments_tail create
  have line := segments_line create
  rw [Create.opened] at member
  cases here : create.segments with
  | nil =>
      rw [here] at member
      exact .inl ⟨[], List.not_mem_nil, by rw [List.append_nil]; exact List.mem_singleton.mp member⟩
  | cons first rest =>
      rw [here] at member tail line
      rcases List.mem_cons.mp member with same | later
      · exact .inl ⟨first, line first List.mem_cons_self, same⟩
      · exact .inr (tail row later)

theorem printed_line (item : Item) : ∀ row ∈ item.printed, '\n' ∉ row := by
  intro row member
  cases item with
  | note comment =>
      obtain rfl := List.mem_singleton.mp member
      simp [comment.line]
  | create create =>
      rcases List.mem_append.mp member with opened | closed
      · rcases mem_opened opened with ⟨first, line, rfl⟩ | row_
        · rw [List.mem_append, not_or]
          exact ⟨head_line create, line⟩
        · obtain ⟨line, -, comma, rfl⟩ := mem_rows row_
          exact row_line line comma
      · obtain rfl := List.mem_singleton.mp closed
        simp [Create.closed, comment_line create.closing]

theorem printed_quiet (rules : CharRules) (item : Item) :
    ∀ row ∈ item.printed, ∀ rest, schemaChange rules (row ++ rest) = [] := by
  intro row member rest
  cases item with
  | note comment =>
      obtain rfl := List.mem_singleton.mp member
      exact quiet_symbol rules (by decide) (by decide) (by decide) _
  | create create =>
      rcases List.mem_append.mp member with opened | closed
      · rcases mem_opened opened with ⟨first, -, rfl⟩ | row_
        · obtain ⟨more, same⟩ := head_begins create
          rw [same]
          exact quiet_symbol rules (by decide) (by decide) (by decide) _
        · obtain ⟨line, -, comma, rfl⟩ := mem_rows row_
          exact quiet_row rules line comma rest
      · obtain rfl := List.mem_singleton.mp closed
        exact quiet_symbol rules (by decide) (by decide) (by decide) _

end Printing

section Searching
variable (rules : CharRules)

theorem not_break {row : Text} (line : '\n' ∉ row) : ∀ c ∈ row, (c == '\n') = false := by
  intro c inside
  rw [beq_eq_false_iff_ne]
  rintro rfl
  exact line inside

/-- No line of what stands is a change. -/
theorem search_items (items : List Item) (rest : Text) :
    search (schemaChange rules) (itemsText items ++ rest) =
      searchLines (· == '\n') (schemaChange rules) (itemsText items) true rest := by
  rw [search, items_printed, broken]
  have passed : searchLines (· == '\n') (schemaChange rules) [] true
      ((items.flatMap Item.printed).flatMap (· ++ ['\n']) ++ rest) =
        searchLines (· == '\n') (schemaChange rules)
          ([] ++ (items.flatMap Item.printed).flatMap (· ++ ['\n'])) true rest := by
    apply searchLines_rows (by decide)
    · intro row member
      obtain ⟨item, -, inside⟩ := List.mem_flatMap.mp member
      exact not_break (printed_line item row inside)
    · intro row member
      obtain ⟨item, -, inside⟩ := List.mem_flatMap.mp member
      exact printed_quiet rules item row inside
  exact passed

/-- Where no change is left, the search ends. -/
theorem search_end (items : List Item) : search (schemaChange rules) (itemsText items) = none := by
  have whole := search_items rules items []
  rw [List.append_nil] at whole
  rw [whole]
  rfl

end Searching

section Creating
variable (rules : CharRules)

/-- Behind every break comes a blank. -/
def indented : Text → Bool
  | [] => true
  | c :: rest => (c != '\n' || rest.head? == some ' ') && indented rest

theorem indented_append {text rest : Text} (line : '\n' ∉ text) :
    indented (text ++ rest) = indented rest := by
  induction text with
  | nil => rfl
  | cons c text ih =>
      obtain ⟨here, later⟩ := List.ne_and_not_mem_of_not_mem_cons line
      rw [List.cons_append, indented, ih later, bne_iff_ne.mpr (Ne.symm here)]
      rfl

theorem indented_suffix {text front back : Text} (whole : indented text = true)
    (split : text = front ++ back) : indented back = true := by
  induction front generalizing text with
  | nil => rwa [split] at whole
  | cons c front ih =>
      rw [split, List.cons_append, indented, Bool.and_eq_true] at whole
      exact ih whole.2 rfl

theorem below_indented {lines : List Text}
    (each : ∀ row ∈ lines, '\n' ∉ row ∧ row.head? = some ' ') : indented (below lines) = true := by
  induction lines with
  | nil => rfl
  | cons row lines ih =>
      obtain ⟨line, first⟩ := each row List.mem_cons_self
      obtain ⟨more, rfl⟩ := List.head?_eq_some_iff.mp first
      have later := ih fun other inside => each other (List.mem_cons_of_mem _ inside)
      rw [below, List.flatMap_cons, List.cons_append, indented]
      have rest : indented (' ' :: more ++ below lines) = indented (below lines) :=
        indented_append line
      rw [below] at later rest
      rw [rest, later]
      rfl

theorem body_indented (create : Create) : indented create.body = true := by
  have line := segments_line create
  have tail := segments_tail create
  rw [Create.body]
  cases here : create.segments with
  | nil => rfl
  | cons first rest =>
      rw [here] at line tail
      rw [lined, indented_append (line first List.mem_cons_self)]
      apply below_indented
      intro row member
      obtain ⟨found, -, comma, rfl⟩ := mem_rows (tail row member)
      exact ⟨row_line found comma, rfl⟩

/-- The end of a CREATE TABLE is nowhere inside its body. -/
theorem body_open (create : Create) {front back : Text} (after : Text)
    (split : create.body = front ++ back) (some_ : back ≠ []) :
    createEnd rules (back ++ after) = [] := by
  have inside := indented_suffix (body_indented create) split
  obtain ⟨c, back, rfl⟩ := List.exists_cons_of_ne_nil some_
  rw [indented, Bool.and_eq_true, Bool.or_eq_true, bne_iff_ne, beq_iff_eq] at inside
  by_cases break_ : c = '\n'
  · rcases inside.1 with other | blank_
    · exact absurd break_ other
    · obtain ⟨more, rfl⟩ := List.head?_eq_some_iff.mp blank_
      exact seq_one (by rw [break_]; rfl) (seq_none (one_none (by decide)))
  · exact seq_none (one_none (by simpa using break_))

theorem createEnd_reads (comment : Option Comment) (rest : Text) :
    (createEnd rules ('\n' :: ')' :: ';' :: (ending comment ++ (noteText comment ++ rest)))).head? =
      some ⟨'\n' :: ')' :: ';' :: ending comment, [], noteText comment ++ rest⟩ :=
  seq_first (one_first rfl) (seq_first (one_first rfl)
    (seq_first (one_first rfl) (lineEnd_reads rules comment rest)))

theorem named_reads (table : Name) (create : Create)
    (same : sameName table.text create.name.text = true) (rest : Text) :
    (seq (word rules.alike table.text) (seq (blanks rules) (one (· == '(')))
      (spaced create.name.text ('(' :: rest))).head? =
        some ⟨spaced create.name.text ['('], [], rest⟩ := by
  have blank_ : (blanks rules ([' '] ++ '(' :: rest)).head? = some ⟨[' '], [], '(' :: rest⟩ :=
    blanks_reads rules [' '] (by simpa using space_blank rules)
      ⟨'(', rest, rfl, solid_of_ascii rules (by decide) (by decide)⟩
  exact seq_first (word_first (alike_name table.letters create.name.letters same))
    (seq_first blank_ (one_first rfl))

theorem createHead_reads (table : Name) (create : Create)
    (same : sameName table.text create.name.text = true) (rest : Text) :
    (createHead rules table.text (create.head ++ rest)).head? = some ⟨create.head, [], rest⟩ := by
  have named := named_reads rules table create same rest
  have begins : Solid rules (spaced create.name.text ('(' :: rest)) :=
    solid_letters rules create.name.letters create.name.present _
  cases guarded : create.ifNotExists with
  | false =>
      have unguarded : (maybe (seq (keyword rules "IF") (seq (blanks1 rules) (seq
          (keyword rules "NOT") (seq (blanks1 rules) (seq (keyword rules "EXISTS")
            (blanks1 rules)))))) (spaced create.name.text ('(' :: rest))).head? =
              some ⟨[], [], spaced create.name.text ('(' :: rest)⟩ :=
        maybe_none (noIf_reads rules create.name (by decide) (by decide))
      have whole := keyword_then rules "CREATE" (by decide)
        (solid_keyword rules "TABLE" (by decide) (by decide) _)
        (keyword_then rules "TABLE" (by decide) begins (seq_first unguarded named))
      rw [Create.head, guarded]
      simp only [Bool.false_eq_true, if_false, spaced_append, List.singleton_append]
      exact whole
  | true =>
      have exists_ : (seq (keyword rules "EXISTS") (blanks1 rules)
          ("EXISTS".toList ++ ' ' :: spaced create.name.text ('(' :: rest))).head? =
            some ⟨"EXISTS".toList ++ [' '], [], spaced create.name.text ('(' :: rest)⟩ :=
        seq_first (keyword_reads rules "EXISTS" (by decide) _) (blank_reads rules begins)
      have exempt := maybe_first (keyword_then rules "IF" (by decide)
        (solid_keyword rules "NOT" (by decide) (by decide) _)
        (keyword_then rules "NOT" (by decide)
          (solid_keyword rules "EXISTS" (by decide) (by decide) _) exists_))
      have whole := keyword_then rules "CREATE" (by decide)
        (solid_keyword rules "TABLE" (by decide) (by decide) _)
        (keyword_then rules "TABLE" (by decide)
          (solid_keyword rules "IF" (by decide) (by decide) _) (seq_first exempt named))
      rw [Create.head, guarded]
      simp only [if_true, spaced_append, List.singleton_append]
      exact whole

/-- A table's CREATE TABLE is read as it is spelled, up to the comment on its closing line. -/
theorem create_reads (table : Name) (create : Create)
    (same : sameName table.text create.name.text = true) (rest : Text) :
    (createPattern rules table.text (create.own ++ (noteText create.closing ++ rest))).head? =
      some ⟨create.own, [(0, create.head), (1, create.body)],
        noteText create.closing ++ rest⟩ := by
  have head := createHead_reads rules table create same
    (create.body ++ ('\n' :: ')' :: ';' :: (ending create.closing ++
      (noteText create.closing ++ rest))))
  have body := few_first 1
    (fun front back split some_ => body_open rules create _ split some_)
    (createEnd_reads rules create.closing rest)
  have whole := seq_first (group_first 0 head) body
  have split : create.own ++ (noteText create.closing ++ rest) =
      create.head ++ (create.body ++ ('\n' :: ')' :: ';' :: (ending create.closing ++
        (noteText create.closing ++ rest)))) := by simp [Create.own]
  have own : create.own =
      create.head ++ (create.body ++ '\n' :: ')' :: ';' :: ending create.closing) := by
    simp [Create.own]
  rw [split, own]
  exact whole

end Creating

end VoltMod.DdlLayout
