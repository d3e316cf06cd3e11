import VoltMod.DdlLayout

/-! How the fold's three expressions read a text in its layout. -/
namespace VoltMod.DdlLayout
open MigrationText Regex Patterns SchemaChanges SqlTables

theorem letter_ascii {c : Char} (letter_ : letter c = true) : ascii c = true := by
  have spelled : (((decide ('A'.val ≤ c.val ∧ c.val ≤ 'Z'.val) ||
      (decide ('a'.val ≤ c.val) && decide (c.val ≤ 'z'.val))) ||
        (decide ('0'.val ≤ c.val) && decide (c.val ≤ '9'.val))) || c == '_') = true := letter_
  simp only [Bool.or_eq_true, Bool.and_eq_true, decide_eq_true_eq, beq_iff_eq] at spelled
  have small : c.toNat < 128 := by
    rcases spelled with ((upper | lower) | digit) | rfl
    · exact Nat.lt_of_le_of_lt upper.2 (by decide)
    · exact Nat.lt_of_le_of_lt lower.2 (by decide)
    · exact Nat.lt_of_le_of_lt digit.2 (by decide)
    · decide
  simpa [ascii] using small

theorem ascii_forall (holds : Char → Bool)
    (all : (List.range 128).all fun n => holds (Char.ofNat n)) {c : Char} (small : ascii c = true) :
    holds c = true := by
  have below : c.toNat < 128 := by simpa [ascii] using small
  have here := List.all_eq_true.mp all c.toNat (List.mem_range.mpr below)
  rwa [Char.ofNat_toNat] at here

theorem letter_blank {c : Char} (letter_ : letter c = true) : asciiSpace c = false := by
  have both := ascii_forall (fun c => !letter c || !asciiSpace c) (by decide)
    (letter_ascii letter_)
  simpa [letter_] using both

theorem lower_letter {c : Char} (small : ascii c = true) : letter c.toLower = letter c := by
  have both := ascii_forall (fun c => letter c.toLower == letter c) (by decide) small
  simpa using both

section Words
variable {rules : CharRules} {name spelled rest : Text} {c : Char}

theorem space_of_ascii (rules : CharRules) (small : ascii c = true) (blank_ : asciiSpace c = true) :
    rules.space c = true := (rules.spaces c small).trans blank_

theorem solid_of_ascii (rules : CharRules) (small : ascii c = true) (solid_ : asciiSpace c = false) :
    rules.space c = false := (rules.spaces c small).trans solid_

theorem letter_space (letter_ : letter c = true) : rules.space c = false :=
  solid_of_ascii rules (letter_ascii letter_) (letter_blank letter_)

theorem letter_word (letter_ : letter c = true) : rules.word c = true :=
  (rules.words c (letter_ascii letter_)).trans letter_

/-- Words that SQL takes for one name are alike. -/
theorem alike_name (letters : ∀ c ∈ name, letter c = true)
    (others : ∀ c ∈ spelled, letter c = true) (same : sameName name spelled = true) :
    List.Forall₂ (fun letter symbol => rules.alike letter symbol = true) name spelled := by
  rw [sameName, beq_iff_eq] at same
  induction name generalizing spelled with
  | nil =>
      obtain rfl := List.map_eq_nil_iff.mp same.symm
      exact .nil
  | cons first name ih =>
      cases spelled with
      | nil => cases same
      | cons symbol spelled =>
          rw [List.map_cons, List.map_cons, List.cons.injEq] at same
          refine .cons ?_ (ih (fun c inside => letters c (List.mem_cons_of_mem _ inside))
            (fun c inside => others c (List.mem_cons_of_mem _ inside)) same.2)
          rw [rules.cases _ _ (letter_ascii (letters _ List.mem_cons_self))
            (letter_ascii (others _ List.mem_cons_self)), beq_iff_eq]
          exact same.1

theorem same_of_alike (letters : ∀ c ∈ name, letter c = true) (small : ∀ c ∈ spelled, ascii c = true)
    (alike : List.Forall₂ (fun letter symbol => rules.alike letter symbol = true) name spelled) :
    sameName name spelled = true ∧ ∀ c ∈ spelled, letter c = true := by
  induction alike with
  | nil => exact ⟨rfl, nofun⟩
  | @cons first symbol name spelled takes _ ih =>
      have here := letters _ List.mem_cons_self
      have there := small _ List.mem_cons_self
      rw [rules.cases _ _ (letter_ascii here) there, beq_iff_eq] at takes
      obtain ⟨same, later⟩ := ih (fun c inside => letters c (List.mem_cons_of_mem _ inside))
        (fun c inside => small c (List.mem_cons_of_mem _ inside))
      rw [sameName, beq_iff_eq] at same ⊢
      refine ⟨by rw [List.map_cons, List.map_cons, takes, same], ?_⟩
      intro c inside
      rcases List.mem_cons.mp inside with rfl | behind
      · rw [← lower_letter there, ← takes, lower_letter (letter_ascii here), here]
      · exact later c behind

/-- A word followed by something that is no letter is read where it is that word, and otherwise
not at all, in front of a pattern that takes no letter. -/
theorem word_apart {next : Pattern Char} {word_ : Text} (letters : ∀ c ∈ word_, letter c = true)
    (others : ∀ c ∈ name, letter c = true) (apart : sameName word_ name = false)
    (small : ascii c = true) (ends : letter c = false)
    (stuck : ∀ c rest, letter c = true → next (c :: rest) = []) :
    seq (word rules.alike word_) next (name ++ c :: rest) = [] := by
  apply seq_stuck
  intro head member
  obtain ⟨spelled, split, alike⟩ := word_ways member
  rcases List.append_eq_append_iff.mp split with ⟨more, rfl, same⟩ | ⟨more, rfl, same⟩
  -- the word goes to the name's end or past it, over a symbol that is no letter
  · cases more with
    | nil =>
        rw [List.append_nil] at alike
        have one := (same_of_alike letters (fun c inside => letter_ascii (others c inside)) alike).1
        rw [one] at apart
        cases apart
    | cons first more =>
        obtain ⟨rfl, -⟩ := List.cons.inj same
        have later := List.forall₂_drop_append word_ name (c :: more) alike
        obtain ⟨first, behind, takes, -, whole⟩ := List.forall₂_cons_right_iff.mp later
        have inside : first ∈ word_ :=
          List.mem_of_mem_drop (by rw [whole]; exact List.mem_cons_self)
        rw [rules.cases _ _ (letter_ascii (letters first inside)) small, beq_iff_eq] at takes
        have both := letters first inside
        rw [← lower_letter (letter_ascii both), takes, lower_letter small, ends] at both
        cases both
  -- the word stops inside the name
  · cases more with
    | nil =>
        rw [List.append_nil] at others apart
        have one := (same_of_alike letters (fun c inside => letter_ascii (others c inside)) alike).1
        rw [one] at apart
        cases apart
    | cons first more =>
        rw [same, List.cons_append]
        exact stuck first _ (others first (by simp))

end Words

section Reading
variable (rules : CharRules) {c : Char} {name rest : Text}

theorem keyword_reads (letters : String) (plain : letters.toList.all letter = true) (rest : Text) :
    (keyword rules letters (letters.toList ++ rest)).head? = some ⟨letters.toList, [], rest⟩ := by
  have each := List.all_eq_true.mp plain
  exact word_first (alike_name each each (beq_self_eq_true _))

theorem keyword_stops (letters : String) {first : Char} {more : Text}
    (spelled : letters.toList = first :: more) (small : ascii first = true ∧ ascii c = true)
    (apart : first.toLower ≠ c.toLower) : keyword rules letters (c :: rest) = [] := by
  rw [keyword, spelled, word]
  apply seq_none
  apply one_none
  rw [rules.cases _ _ small.1 small.2, beq_eq_false_iff_ne]
  exact apart

/-- The text begins with no blank. -/
def Solid (text : Text) : Prop := ∃ c rest, text = c :: rest ∧ rules.space c = false

theorem solid_letters (letters : ∀ c ∈ name, letter c = true) (present : name ≠ []) (rest : Text) :
    Solid rules (name ++ rest) := by
  obtain ⟨first, more, rfl⟩ := List.exists_cons_of_ne_nil present
  exact ⟨first, more ++ rest, rfl, letter_space (letters first List.mem_cons_self)⟩

theorem solid_keyword (letters : String) (plain : letters.toList.all letter = true)
    (present : letters.toList ≠ []) (rest : Text) : Solid rules (letters.toList ++ rest) :=
  solid_letters rules (List.all_eq_true.mp plain) present rest

theorem space_blank : rules.space ' ' = true := space_of_ascii rules (by decide) (by decide)

theorem tab_blank : rules.space '\t' = true := space_of_ascii rules (by decide) (by decide)

theorem break_blank : rules.space '\n' = true := space_of_ascii rules (by decide) (by decide)

/-- Blanks in front of a symbol that is none. -/
theorem blanks_reads (gap : Text) (each : ∀ d ∈ gap, rules.space d = true)
    (solid_ : Solid rules rest) :
    (blanks rules (gap ++ rest)).head? = some ⟨gap, [], rest⟩ := by
  obtain ⟨c, rest, rfl, solid_⟩ := solid_
  exact many_run each (by simpa using solid_)

theorem blank_reads (solid_ : Solid rules rest) :
    (blanks1 rules (' ' :: rest)).head? = some ⟨[' '], [], rest⟩ := by
  have there := blanks_reads rules [] (by simp) solid_
  exact seq_first (one_first (space_blank rules)) there

theorem blank_stops (solid_ : rules.space c = false) : blanks1 rules (c :: rest) = [] :=
  seq_none (one_none solid_)

theorem no_blanks (solid_ : Solid rules rest) : (blanks rules rest).head? = some ⟨[], [], rest⟩ :=
  blanks_reads rules [] (by simp) solid_

theorem name_reads (letters : ∀ c ∈ name, letter c = true) (present : name ≠ [])
    (ends : rules.word c = false) :
    (many1 rules.word (name ++ c :: rest)).head? = some ⟨name, [], c :: rest⟩ := by
  obtain ⟨first, name, rfl⟩ := List.exists_cons_of_ne_nil present
  have each : ∀ d ∈ name, rules.word d = true := fun d inside =>
    letter_word (letters d (List.mem_cons_of_mem _ inside))
  have first_ : rules.word first = true := letter_word (letters first List.mem_cons_self)
  exact seq_first (one_first first_) (many_run each (by simpa using ends))

theorem nonword {c : Char} (small : ascii c = true) (ends : letter c = false) :
    rules.word c = false := (rules.words c small).trans ends

/-- The end of a statement's line, up to its comment. -/
theorem lineEnd_reads (comment : Option Comment) (rest : Text) :
    (lineEnd rules (ending comment ++ (noteText comment ++ rest))).head? =
      some ⟨ending comment, [], noteText comment ++ rest⟩ := by
  cases comment with
  | none =>
      have here : (many (fun c => rules.space c && c != '\n') ([] ++ '\n' :: rest)).head? =
          some ⟨[], [], '\n' :: rest⟩ := many_run (by simp) (by simp)
      exact seq_first here (maybe_first (one_first rfl))
  | some comment =>
      have each : ∀ d ∈ comment.gap, (rules.space d && d != '\n') = true := by
        intro d inside
        rcases comment.blanks d inside with rfl | rfl
        · rw [space_blank]
          rfl
        · rw [tab_blank]
          rfl
      have dash : rules.space '-' = false := solid_of_ascii rules (by decide) (by decide)
      have here : (many (fun c => rules.space c && c != '\n')
          (comment.gap ++ (comment.row ++ rest))).head? =
            some ⟨comment.gap, [], comment.row ++ rest⟩ := many_run each (by simp [Comment.row, dash])
      have there : (maybe (one (· == '\n')) (comment.row ++ rest)).head? =
          some ⟨[], [], comment.row ++ rest⟩ := maybe_none (one_none (by decide))
      have both := seq_first here there
      rw [Match.followed, List.append_nil] at both
      exact both

/-- What the groups of a change's expression hold. -/
def Alteration.groups : Alteration → List (Nat × Text)
  | .addColumn table column definition =>
      [(1, table.text), (2, "ADD".toList), (3, column.text), (4, definition.text)]
  | .dropColumn table column =>
      [(1, table.text), (2, "DROP".toList), (3, column.text), (4, [])]
  | .dropTable table => [(5, table.text)]

/-- A keyword, the blank behind it, and what follows. -/
theorem keyword_then (letters : String) {next : Pattern Char} {found : Match Char}
    (plain : letters.toList.all letter = true) (solid_ : Solid rules rest)
    (reads : (next rest).head? = some found) :
    (seq (keyword rules letters) (seq (blanks1 rules) next)
      (letters.toList ++ ' ' :: rest)).head? =
        some ⟨letters.toList ++ ' ' :: found.matched, found.groups, found.rest⟩ :=
  seq_first (keyword_reads rules letters plain _) (seq_first (blank_reads rules solid_) reads)

/-- No name begins the IF of an IF EXISTS. -/
theorem noIf_reads (name : Name) {next : Pattern Char} (small : ascii c = true)
    (ends : letter c = false) :
    seq (keyword rules "IF") (seq (blanks1 rules) next) (name.text ++ c :: rest) = [] := by
  apply word_apart (List.all_eq_true.mp (by decide)) name.letters _ small ends
  · intro first more letter_
    exact seq_none (blank_stops rules (letter_space letter_))
  · exact name.plain "IF" (by simp)

theorem name_head (name : Name) : ∃ first more, name.text = first :: more ∧ letter first = true := by
  obtain ⟨first, more, same⟩ := List.exists_cons_of_ne_nil name.present
  exact ⟨first, more, same, name.letters first (by rw [same]; exact List.mem_cons_self)⟩

/-- A name and its blank, as a group, and what follows. -/
theorem name_then (number : Nat) (name : Name) {next : Pattern Char} {found : Match Char}
    (solid_ : Solid rules rest) (reads : (next rest).head? = some found) :
    (seq (group number (many1 rules.word)) (seq (blanks1 rules) next)
      (name.text ++ ' ' :: rest)).head? =
        some ⟨name.text ++ ' ' :: found.matched, (number, name.text) :: found.groups,
          found.rest⟩ :=
  seq_first (group_first number (name_reads rules name.letters name.present
    (nonword rules (by decide) (by decide)))) (seq_first (blank_reads rules solid_) reads)

/-- A change's column with its definition, up to the end of the statement. -/
theorem column_reads (column : Name) {definition : Text} (one : ';' ∉ definition)
    (begins : ∀ c, definition.head? = some c → c = ' ') (rest : Text) :
    (seq (maybe (ifExists rules)) (seq (group 3 (many1 rules.word)) (group 4 (many (· != ';'))))
      (column.text ++ (definition ++ ';' :: rest))).head? =
        some ⟨column.text ++ definition, [(3, column.text), (4, definition)], ';' :: rest⟩ := by
  obtain ⟨c, more, split, small, ends⟩ : ∃ c more, definition ++ ';' :: rest = c :: more ∧
      ascii c = true ∧ letter c = false := by
    cases definition with
    | nil => exact ⟨';', rest, rfl, by decide, by decide⟩
    | cons c definition =>
        obtain rfl := begins c rfl
        exact ⟨' ', _, rfl, by decide, by decide⟩
  have plain : ∀ d ∈ definition, (d != ';') = true := by
    rintro d inside
    rw [bne_iff_ne]
    rintro rfl
    exact one inside
  have whole : (many (· != ';') (definition ++ ';' :: rest)).head? =
      some ⟨definition, [], ';' :: rest⟩ := many_run plain (by simp)
  have named : (many1 rules.word (column.text ++ c :: more)).head? =
      some ⟨column.text, [], c :: more⟩ :=
    name_reads rules column.letters column.present (nonword rules small ends)
  rw [← split] at named
  have unguarded : (maybe (ifExists rules) (column.text ++ (definition ++ ';' :: rest))).head? =
      some ⟨[], [], column.text ++ (definition ++ ';' :: rest)⟩ := by
    apply maybe_none
    rw [split]
    exact noIf_reads rules column small ends
  exact seq_first unguarded (seq_first (group_first 3 named) (group_first 4 whole))

/-- An ALTER TABLE up to the end of the statement. -/
theorem alterColumn_reads (action : String) {definition : Text} (table column : Name)
    (plain : action.toList.all letter = true) (present : action.toList ≠ [])
    (reads : ∀ rest, (either (keyword rules "ADD") (keyword rules "DROP")
      (action.toList ++ rest)).head? = some ⟨action.toList, [], rest⟩)
    (one : ';' ∉ definition) (begins : ∀ c, definition.head? = some c → c = ' ') (rest : Text) :
    (alterColumnPattern rules ("ALTER".toList ++ ' ' :: ("TABLE".toList ++ ' ' :: (table.text ++
      ' ' :: (action.toList ++ ' ' :: ("COLUMN".toList ++ ' ' ::
        (column.text ++ (definition ++ ';' :: rest)))))))).head? =
      some ⟨"ALTER".toList ++ ' ' :: ("TABLE".toList ++ ' ' :: (table.text ++ ' ' ::
        (action.toList ++ ' ' :: ("COLUMN".toList ++ ' ' :: (column.text ++ definition))))),
        [(1, table.text), (2, action.toList), (3, column.text), (4, definition)],
        ';' :: rest⟩ := by
  have named := column_reads rules column one begins rest
  have column_ := keyword_then rules "COLUMN" (by decide)
    (solid_letters rules column.letters column.present _) named
  have acted := seq_first (group_first 2 (reads _))
    (seq_first (blank_reads rules (solid_keyword rules "COLUMN" (by decide) (by decide) _)) column_)
  have table_ := name_then rules 1 table (solid_keyword rules action plain present _) acted
  exact keyword_then rules "ALTER" (by decide)
    (solid_keyword rules "TABLE" (by decide) (by decide) _)
    (keyword_then rules "TABLE" (by decide)
      (solid_letters rules table.letters table.present _) table_)

theorem dropTable_reads (table : Name) (rest : Text) :
    (dropTablePattern rules ("DROP".toList ++ ' ' :: ("TABLE".toList ++ ' ' ::
      (table.text ++ ';' :: rest)))).head? =
      some ⟨"DROP".toList ++ ' ' :: ("TABLE".toList ++ ' ' :: table.text), [(5, table.text)],
        ';' :: rest⟩ := by
  have unguarded : (maybe (seq (keyword rules "IF") (seq (blanks1 rules)
      (seq (keyword rules "EXISTS") (blanks1 rules)))) (table.text ++ ';' :: rest)).head? =
        some ⟨[], [], table.text ++ ';' :: rest⟩ :=
    maybe_none (noIf_reads rules table (by decide) (by decide))
  have named : (many1 rules.word (table.text ++ ';' :: rest)).head? =
      some ⟨table.text, [], ';' :: rest⟩ :=
    name_reads rules table.letters table.present (nonword rules (by decide) (by decide))
  have ends := seq_first (group_first 5 named)
    (no_blanks rules ⟨';', rest, rfl, solid_of_ascii rules (by decide) (by decide)⟩)
  have whole := keyword_then rules "DROP" (by decide)
    (solid_keyword rules "TABLE" (by decide) (by decide) _)
    (keyword_then rules "TABLE" (by decide)
      (solid_letters rules table.letters table.present _) (seq_first unguarded ends))
  rw [Match.followed, Match.followed, List.nil_append, List.nil_append, List.append_nil] at whole
  exact whole

theorem spaced_append (word more rest : Text) :
    spaced word more ++ rest = spaced word (more ++ rest) := by
  simp [spaced]

theorem definition_begins (definition : Definition) (c : Char)
    (first : definition.text.head? = some c) : c = ' ' := by
  rw [definition.first] at first
  exact (Option.some.inj first).symm

/-- A change is read as it is spelled, up to the comment on its line. -/
theorem change_reads (alteration : Alteration) (comment : Option Comment) (rest : Text)
    (single : ∀ table column definition, alteration = .addColumn table column definition →
      ';' ∉ definition.text) :
    (schemaChange rules (alteration.text ++ ';' :: (ending comment ++ (noteText comment ++
      rest)))).head? =
        some ⟨alteration.text ++ ';' :: ending comment, alteration.groups,
          noteText comment ++ rest⟩ := by
  have closes : (seq (one (· == ';')) (lineEnd rules)
      (';' :: (ending comment ++ (noteText comment ++ rest)))).head? =
        some ⟨';' :: ending comment, [], noteText comment ++ rest⟩ := by
    exact seq_first (one_first rfl) (lineEnd_reads rules comment rest)
  generalize ending comment ++ (noteText comment ++ rest) = behind at closes ⊢
  -- All three alterations begin with a keyword, so there is nothing to skip.
  have begins : Solid rules (alteration.text ++ ';' :: behind) := by
    cases alteration with
    | addColumn table column definition =>
        rw [Alteration.text, spaced_append]
        exact solid_keyword rules "ALTER" (by decide) (by decide) _
    | dropColumn table column =>
        rw [Alteration.text, spaced_append]
        exact solid_keyword rules "ALTER" (by decide) (by decide) _
    | dropTable table =>
        rw [Alteration.text, spaced_append]
        exact solid_keyword rules "DROP" (by decide) (by decide) _
  have reads : (either (alterColumnPattern rules) (dropTablePattern rules)
      (alteration.text ++ ';' :: behind)).head? =
        some ⟨alteration.text, alteration.groups, ';' :: behind⟩ := by
    cases alteration with
    | addColumn table column definition =>
        have whole := alterColumn_reads rules "ADD" table column (by decide) (by decide)
          (fun rest => either_first (keyword_reads rules "ADD" (by decide) rest))
          (single table column definition rfl) (definition_begins definition) behind
        rw [Alteration.text]
        simp only [spaced_append, List.append_assoc]
        exact either_first whole
    | dropColumn table column =>
        have drops : ∀ rest, (either (keyword rules "ADD") (keyword rules "DROP")
            ("DROP".toList ++ rest)).head? = some ⟨"DROP".toList, [], rest⟩ := by
          intro rest
          have other : keyword rules "ADD" ("DROP".toList ++ rest) = [] :=
            keyword_stops rules "ADD" rfl (by decide) (by decide)
          rw [either_second other]
          exact keyword_reads rules "DROP" (by decide) rest
        have whole := alterColumn_reads rules "DROP" table column (by decide) (by decide) drops
          List.not_mem_nil nofun behind
        rw [List.nil_append, List.append_nil] at whole
        rw [Alteration.text]
        simp only [spaced_append]
        exact either_first whole
    | dropTable table =>
        have other : alterColumnPattern rules ((Alteration.dropTable table).text ++
            ';' :: behind) = [] :=
          seq_none (keyword_stops rules "ALTER" rfl (by decide) (by decide))
        rw [either_second other, Alteration.text]
        simp only [spaced_append]
        exact dropTable_reads rules table behind
  have whole := seq_first (no_blanks rules begins) (seq_first reads closes)
  rw [followed_mk, followed_mk, List.nil_append, List.nil_append, List.append_nil] at whole
  exact whole

/-- Where a pattern fails behind blanks and at each of them, they cannot help it. -/
theorem gap_stuck (gap : Text) {next : Pattern Char}
    (blank_ : ∀ d ∈ gap, rules.space d = true ∧ ∀ rest, next (d :: rest) = [])
    (solid_ : rules.space c = false) (stuck : next (c :: rest) = []) :
    seq (blanks rules) next (gap ++ c :: rest) = [] := by
  have each : ∀ d ∈ gap, rules.space d = true := fun d inside => (blank_ d inside).1
  apply many_stuck
  · rw [List.takeWhile_append_of_pos each, List.takeWhile_cons_of_neg (by simp [solid_]),
      List.append_nil]
    exact fun d inside => (blank_ d inside).2
  · rw [List.dropWhile_append_of_pos each, List.dropWhile_cons_of_neg (by simp [solid_])]
    exact stuck

theorem change_stops (small : ascii c = true) (apart : 'a' ≠ c.toLower ∧ 'd' ≠ c.toLower)
    (next : Pattern Char) (rest : Text) :
    seq (either (alterColumnPattern rules) (dropTablePattern rules)) next (c :: rest) = [] := by
  apply seq_none
  have alter : alterColumnPattern rules (c :: rest) = [] :=
    seq_none (keyword_stops rules "ALTER" rfl ⟨by decide, small⟩ apart.1)
  have drop : dropTablePattern rules (c :: rest) = [] :=
    seq_none (keyword_stops rules "DROP" rfl ⟨by decide, small⟩ apart.2)
  rw [either_second alter, drop]

/-- A line that begins like no change is no change's. -/
theorem quiet_symbol (small : ascii c = true) (solid_ : asciiSpace c = false)
    (apart : 'a' ≠ c.toLower ∧ 'd' ≠ c.toLower) (rest : Text) :
    schemaChange rules (c :: rest) = [] :=
  gap_stuck rules [] (by simp) (solid_of_ascii rules small solid_)
    (change_stops rules small apart _ rest)

/-- What stands behind a column's name. -/
theorem row_split (line : Line) (comma : Bool) :
    ∃ more, line.row comma = ' ' :: ' ' :: (line.name.text ++ ' ' :: more) := by
  obtain ⟨definition, same⟩ := List.head?_eq_some_iff.mp line.definition.first
  refine ⟨definition ++ ((if comma then [','] else []) ++ commentText line.comment), ?_⟩
  rw [Line.row, same]
  simp

theorem quiet_row (line : Line) (comma : Bool) (rest : Text) :
    schemaChange rules (line.row comma ++ rest) = [] := by
  obtain ⟨more, split⟩ := row_split line comma
  obtain ⟨first, name, named, letter_⟩ := name_head line.name
  have apart : ∀ (reserved : String) (next : Pattern Char),
      reserved ∈ ["ALTER", "DROP", "IF"] → reserved.toList.all letter = true →
      seq (keyword rules reserved) (seq (blanks1 rules) next)
        (line.name.text ++ ' ' :: (more ++ rest)) = [] := by
    intro reserved next listed plain
    exact word_apart (List.all_eq_true.mp plain) line.name.letters
      (line.name.plain reserved listed) (by decide) (by decide)
      (fun first rest letter_ => seq_none (blank_stops rules (letter_space letter_)))
  have alter : alterColumnPattern rules (line.name.text ++ ' ' :: (more ++ rest)) = [] :=
    apart "ALTER" _ (by simp) (by decide)
  have drop : dropTablePattern rules (line.name.text ++ ' ' :: (more ++ rest)) = [] :=
    apart "DROP" _ (by simp) (by decide)
  have stuck : seq (either (alterColumnPattern rules) (dropTablePattern rules))
      (seq (one (· == ';')) (lineEnd rules)) (line.name.text ++ ' ' :: (more ++ rest)) = [] :=
    seq_none (by rw [either_second alter, drop])
  rw [named] at stuck split
  rw [split]
  have whole := gap_stuck rules [' ', ' '] (by
    intro d inside
    obtain rfl : d = ' ' := by simpa using inside
    exact ⟨space_blank rules, fun rest => change_stops rules (by decide) (by decide) _ rest⟩)
    (letter_space letter_) stuck
  rw [schemaChange]
  simpa using whole

end Reading

end VoltMod.DdlLayout
