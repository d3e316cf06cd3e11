import VoltMod.DdlRows

/-! The column that a change adds to a body or drops from it. -/
namespace VoltMod.DdlLayout
open MigrationText Regex Patterns SchemaChanges SqlTables

section Rows
variable {left post : List Line} {line : Line}

theorem lined_append (first : List Text) (row : Text) (rest : List Text) :
    lined (first ++ row :: rest) = broken first ++ lined (row :: rest) := by
  induction first with
  | nil => rfl
  | cons head first ih =>
      have step : below (first ++ row :: rest) = '\n' :: lined (first ++ row :: rest) := by
        cases first <;> rfl
      rw [List.cons_append, lined, step, ih]
      simp [broken]

theorem rows_split (left : List Line) (line : Line) (post : List Line) :
    rows (left ++ line :: post) =
      left.map (Line.row true) ++ line.row (!post.isEmpty) :: rows post := by
  induction left with
  | nil => cases post <;> rfl
  | cons first left ih =>
      have step : rows (first :: (left ++ line :: post)) =
          first.row true :: rows (left ++ line :: post) := by cases left <;> rfl
      rw [List.cons_append, step, ih, List.map_cons, List.cons_append]

theorem columns_split (column : Text) (lines : List Line)
    (held : lines.any fun line => sameName column line.name.text) :
    ∃ line, sameName column line.name.text = true ∧
      lines = before column lines ++ line :: behind column lines := by
  induction lines with
  | nil => cases held
  | cons line lines ih =>
      cases here : sameName column line.name.text with
      | true => exact ⟨line, here, by simp [before, behind, here]⟩
      | false =>
          rw [List.any_cons, here, Bool.false_or] at held
          obtain ⟨found, same, split⟩ := ih held
          refine ⟨found, same, ?_⟩
          rw [before, behind] at split ⊢
          rw [List.takeWhile_cons_of_pos (by simp [here]), List.dropWhile_cons_of_pos (by simp [here]),
            List.cons_append, ← split]

theorem before_apart (column : Text) (lines : List Line) :
    ∀ line ∈ before column lines, sameName column line.name.text = false := by
  intro line member
  have apart := List.mem_takeWhile_imp member
  simpa using apart

end Rows

section Reading
variable (rules : CharRules)

theorem word_stops (name : Name) {c : Char} (small : ascii c = true) (ends : letter c = false)
    (next : Pattern Char) (rest : Text) : seq (word rules.alike name.text) next (c :: rest) = [] := by
  obtain ⟨first, more, named, letter_⟩ := name_head name
  have apart : rules.alike first c = false := by
    rw [rules.cases _ _ (letter_ascii letter_) small, beq_eq_false_iff_ne]
    intro same
    rw [← lower_letter (letter_ascii letter_), same, lower_letter small, ends] at letter_
    cases letter_
  rw [named, word]
  exact seq_none (seq_none (one_none apart))

theorem blank_facts (name : Name) {c : Char} (blank_ : asciiSpace c = true ∧ ascii c = true)
    (ends : letter c = false) (next : Pattern Char) : rules.space c = true ∧
      ∀ rest, seq (word rules.alike name.text) next (c :: rest) = [] :=
  ⟨space_of_ascii rules blank_.2 blank_.1, word_stops rules name blank_.2 ends next⟩

/-- Another column's row, whatever break stands before it. -/
theorem other_row (column : Name) (line : Line) (comma : Bool)
    (apart : sameName column.text line.name.text = false) (gap : Text) (breaks : ∀ c ∈ gap, c = '\n')
    (rest : Text) : columnLine rules column.text (gap ++ (line.row comma ++ rest)) = [] := by
  obtain ⟨more, split⟩ := row_split line comma
  obtain ⟨first, name, named, letter_⟩ := name_head line.name
  have stuck : seq (word rules.alike column.text) (seq (one rules.space)
      (seq (many (· != '\n')) (maybe (one (· == '\n')))))
        (line.name.text ++ ' ' :: (more ++ rest)) = [] :=
    word_apart column.letters line.name.letters apart (by decide) (by decide)
      (fun first rest letter_ => seq_none (one_none (letter_space letter_)))
  rw [named] at stuck split
  have whole := gap_stuck rules (gap ++ [' ', ' ']) (by
    intro d inside
    rcases List.mem_append.mp inside with break_ | blank_
    · rw [breaks d break_]
      exact blank_facts rules column (by decide) (by decide) _
    · obtain rfl : d = ' ' := by simpa using blank_
      exact blank_facts rules column (by decide) (by decide) _)
    (letter_space letter_) stuck
  rw [split, columnLine]
  simpa using whole

theorem comment_apart (column : Name) (comment : Comment) (rest : Text) :
    columnLine rules column.text (comment.text ++ rest) = [] := by
  have dash : rules.space '-' = false := solid_of_ascii rules (by decide) (by decide)
  have whole := gap_stuck rules comment.gap (by
    intro d inside
    rcases comment.blanks d inside with rfl | rfl
    · exact blank_facts rules column (by decide) (by decide) _
    · exact blank_facts rules column (by decide) (by decide) _)
    dash (word_stops rules column (by decide) (by decide)
      (seq (one rules.space) (seq (many (· != '\n')) (maybe (one (· == '\n')))))
      ('-' :: comment.body ++ rest))
  rw [Comment.text, columnLine]
  simpa using whole

theorem lineRest_reads {text : Text} (line : '\n' ∉ text) (post : List Text) :
    ∃ taken, (seq (many (· != '\n')) (maybe (one (· == '\n'))) (text ++ below post)).head? =
      some ⟨taken, [], lined post⟩ := by
  have plain : ∀ c ∈ text, (c != '\n') = true := by
    intro c inside
    rw [bne_iff_ne]
    rintro rfl
    exact line inside
  cases post with
  | nil =>
      have whole : (many (· != '\n') (text ++ [])).head? = some ⟨text, [], []⟩ :=
        many_run plain (by simp)
      exact ⟨_, seq_first whole (maybe_none one_nil)⟩
  | cons row post =>
      have whole : (many (· != '\n') (text ++ '\n' :: lined (row :: post))).head? =
          some ⟨text, [], '\n' :: lined (row :: post)⟩ := many_run plain (by simp)
      exact ⟨_, seq_first whole (maybe_first (one_first rfl))⟩

/-- The row of the column itself, whatever break stands before it. -/
theorem own_row (column : Name) (line : Line) (comma : Bool)
    (same : sameName column.text line.name.text = true) (gap : Text) (breaks : ∀ c ∈ gap, c = '\n')
    (post : List Text) :
    ∃ taken, (columnLine rules column.text (gap ++ (line.row comma ++ below post))).head? =
      some ⟨taken, [], lined post⟩ := by
  obtain ⟨more, split⟩ := row_split line comma
  obtain ⟨first, name, named, letter_⟩ := name_head line.name
  have line_ := row_line line comma
  rw [split] at line_
  have rest : '\n' ∉ more := fun inside => line_ (by simp [inside])
  have each : ∀ d ∈ gap ++ [' ', ' '], rules.space d = true := by
    intro d inside
    rcases List.mem_append.mp inside with break_ | blank_
    · rw [breaks d break_]
      exact break_blank rules
    · obtain rfl : d = ' ' := by simpa using blank_
      exact space_blank rules
  have blank_ := blanks_reads rules (gap ++ [' ', ' ']) each
    ⟨first, name ++ ' ' :: (more ++ below post), rfl, letter_space letter_⟩
  obtain ⟨taken, ends⟩ := lineRest_reads rest post
  have word_ : (word rules.alike column.text (line.name.text ++ ' ' :: (more ++ below post))).head? =
      some ⟨line.name.text, [], ' ' :: (more ++ below post)⟩ :=
    word_first (alike_name column.letters line.name.letters same)
  have behind_ := seq_first word_ (seq_first (one_first (space_blank rules)) ends)
  rw [named] at split behind_
  have spelled : gap ++ (line.row comma ++ below post) =
      gap ++ [' ', ' '] ++ first :: (name ++ ' ' :: (more ++ below post)) := by
    rw [split]
    simp
  rw [spelled]
  exact ⟨_, seq_first blank_ behind_⟩

end Reading

section Searching
variable (rules : CharRules)

/-- Rows that are not the column's are passed, and its own is found. -/
theorem search_past (column : Name) (line : Line) (comma : Bool) (front : Text) (first : List Text)
    (same : sameName column.text line.name.text = true) (whole : ∀ row ∈ first, '\n' ∉ row)
    (quiet : ∀ row ∈ first, ∀ rest, columnLine rules column.text (row ++ rest) = [])
    (post : List Text) :
    ∃ taken, searchLines (· == '\n') (columnLine rules column.text) front true
      (broken first ++ lined (line.row comma :: post)) =
        some ⟨front ++ broken first, taken, [], lined post⟩ := by
  obtain ⟨taken, found⟩ := own_row rules column line comma same [] (by simp) post
  refine ⟨taken, ?_⟩
  have passed : searchLines (· == '\n') (columnLine rules column.text) front true
      (broken first ++ lined (line.row comma :: post)) =
        searchLines (· == '\n') (columnLine rules column.text) (front ++ broken first) true
          (lined (line.row comma :: post)) :=
    searchLines_rows (by decide) (fun row member => not_break (whole row member)) quiet
  rw [passed]
  exact searchLines_found found

/-- A break that begins a body is passed. -/
theorem search_break {column rest : Text} (stuck : columnLine rules column ('\n' :: rest) = []) :
    searchLines (· == '\n') (columnLine rules column) [] true ('\n' :: rest) =
      searchLines (· == '\n') (columnLine rules column) ['\n'] true rest := by
  have stepped : searchLines (· == '\n') (columnLine rules column) [] false ([] ++ '\n' :: rest) =
      searchLines (· == '\n') (columnLine rules column) ([] ++ [] ++ ['\n']) true rest :=
    searchLines_row (by simp) (by decide)
  rw [searchLines_missed stuck]
  exact stepped

/-- The search for a column in a body. -/
theorem search_column (column : Name) (opening : Opening) (left : List Line) (line : Line)
    (post : List Line) (same : sameName column.text line.name.text = true)
    (apart : ∀ other ∈ left, sameName column.text other.name.text = false) :
    ∃ taken, search (columnLine rules column.text)
      (lined (opening.lead ++ rows (left ++ line :: post))) =
        some ⟨broken ((openingOf opening left).lead ++ left.map (Line.row true)), taken, [],
          lined (rows post)⟩ := by
  have whole : ∀ row ∈ left.map (Line.row true), '\n' ∉ row := by
    intro row member
    obtain ⟨other, -, rfl⟩ := List.mem_map.mp member
    exact row_line other true
  have quiet : ∀ row ∈ left.map (Line.row true), ∀ rest,
      columnLine rules column.text (row ++ rest) = [] := by
    intro row member rest
    obtain ⟨other, inside, rfl⟩ := List.mem_map.mp member
    exact other_row rules column other true (apart other inside) [] (by simp) rest
  rw [search, rows_split]
  cases opening with
  | glued =>
      obtain ⟨taken, found⟩ := search_past rules column line (!post.isEmpty) []
        (left.map (Line.row true)) same whole quiet (rows post)
      refine ⟨taken, ?_⟩
      rw [Opening.lead, List.nil_append, lined_append, found]
      cases left <;> rfl
  | commented comment =>
      have line_ := comment_line (some comment)
      obtain ⟨taken, found⟩ := search_past rules column line (!post.isEmpty) []
        (comment.text :: left.map (Line.row true)) same
        (List.forall_mem_cons.mpr ⟨line_, whole⟩)
        (List.forall_mem_cons.mpr ⟨comment_apart rules column comment, quiet⟩) (rows post)
      refine ⟨taken, ?_⟩
      rw [Opening.lead, List.singleton_append, ← List.cons_append, lined_append, found]
      cases left <;> rfl
  -- The body begins with a break, which `\s*` runs over where the first row is the column's.
  | bare =>
      cases left with
      | nil =>
          obtain ⟨taken, found⟩ := own_row rules column line (!post.isEmpty) same ['\n'] (by simp)
            (rows post)
          exact ⟨taken, searchLines_found found⟩
      | cons other left =>
          obtain ⟨taken, found⟩ := search_past rules column line (!post.isEmpty) ['\n']
            ((other :: left).map (Line.row true)) same whole quiet (rows post)
          refine ⟨taken, ?_⟩
          have break_ : columnLine rules column.text ('\n' :: (broken ((other :: left).map
              (Line.row true)) ++ lined (line.row (!post.isEmpty) :: rows post))) = [] := by
            have stuck := other_row rules column other true (apart other List.mem_cons_self) ['\n']
              (by simp) ('\n' :: (broken (left.map (Line.row true)) ++
                lined (line.row (!post.isEmpty) :: rows post)))
            simpa [broken] using stuck
          have split : lined (Opening.bare.lead ++ ((other :: left).map (Line.row true) ++
              line.row (!post.isEmpty) :: rows post)) =
                '\n' :: (broken ((other :: left).map (Line.row true)) ++
                  lined (line.row (!post.isEmpty) :: rows post)) := by
            have whole_ := lined_append ([] :: (other :: left).map (Line.row true))
              (line.row (!post.isEmpty)) (rows post)
            simpa [Opening.lead, broken] using whole_
          rw [split, search_break rules break_, found]
          rfl

end Searching

section Tidying
variable (rules : CharRules) {front text : Text}

/-- What `_alter_column` makes of a body's end. -/
def tidy (text : Text) : Text := MigrationPlaceholders.removeSuffix [','] (rstrip rules text)

theorem solid_facts {c : Char} (solid_ : solid c = true) : rules.space c = false ∧ c ≠ ',' := by
  have small : ascii c = true := by
    simp only [solid, Bool.and_eq_true, decide_eq_true_eq] at solid_
    have below : c.toNat < 128 := Nat.lt_of_le_of_lt solid_.1.2 (by decide)
    simpa [ascii] using below
  have all := ascii_forall (fun c => !solid c || !asciiSpace c && c != ',') (by decide) small
  rw [solid_, Bool.not_true, Bool.false_or, Bool.and_eq_true, bne_iff_ne] at all
  exact ⟨solid_of_ascii rules small (by simpa using all.1), all.2⟩

theorem rstrip_nil : rstrip rules [] = [] := rfl

theorem rstrip_blank (text : Text) {c : Char} (blank_ : rules.space c = true) :
    rstrip rules (text ++ [c]) = rstrip rules text := List.rdropWhile_concat_pos _ _ _ blank_

theorem rstrip_end (text : Text) {c : Char} (solid_ : rules.space c = false) :
    rstrip rules (text ++ [c]) = text ++ [c] := List.rdropWhile_concat_neg _ _ _ (by simp [solid_])

theorem rstrip_append (front : Text) (some_ : rstrip rules text ≠ []) :
    rstrip rules (front ++ text) = front ++ rstrip rules text := by
  rw [rstrip, List.rdropWhile, Ne, List.reverse_eq_nil_iff, ← List.isEmpty_iff] at some_
  rw [rstrip, rstrip, List.rdropWhile, List.rdropWhile, List.reverse_append, List.dropWhile_append,
    if_neg some_, List.reverse_append, List.reverse_reverse]

theorem rstrip_behind (stays : rstrip rules front = front) (text : Text) :
    rstrip rules (front ++ text) = front ++ rstrip rules text := by
  by_cases none_ : rstrip rules text = []
  · have gone := none_
    rw [rstrip, List.rdropWhile, List.reverse_eq_nil_iff, ← List.isEmpty_iff] at gone
    rw [none_, List.append_nil]
    rw [rstrip, List.rdropWhile] at stays ⊢
    rw [List.reverse_append, List.dropWhile_append, if_pos gone, stays]
  · exact rstrip_append rules front none_

theorem removeSuffix_comma (text : Text) :
    MigrationPlaceholders.removeSuffix [','] (text ++ [',']) = text := by
  rw [MigrationPlaceholders.removeSuffix, if_pos (by simp [List.isSuffixOf_iff_suffix])]
  simp

theorem removeSuffix_end (text : Text) {c : Char} (other : c ≠ ',') :
    MigrationPlaceholders.removeSuffix [','] (text ++ [c]) = text ++ [c] := by
  rw [MigrationPlaceholders.removeSuffix, if_neg]
  rw [List.isSuffixOf_iff_suffix]
  rintro ⟨front, same⟩
  exact other (List.singleton_inj.mp (List.append_inj_right' same.symm rfl))

theorem removeSuffix_append (front : Text) (some_ : text ≠ []) :
    MigrationPlaceholders.removeSuffix [','] (front ++ text) =
      front ++ MigrationPlaceholders.removeSuffix [','] text := by
  obtain ⟨text, c, rfl⟩ := (List.eq_nil_or_concat' text).resolve_left some_
  rw [← List.append_assoc]
  by_cases comma : c = ','
  · rw [comma, removeSuffix_comma, removeSuffix_comma]
  · rw [removeSuffix_end _ comma, removeSuffix_end _ comma, List.append_assoc]

theorem tidy_break (text : Text) : tidy rules (text ++ ['\n']) = tidy rules text := by
  rw [tidy, tidy, rstrip_blank rules text (break_blank rules)]

theorem tidy_comma (text : Text) : tidy rules (text ++ [',']) = text := by
  rw [tidy, rstrip_end rules text (solid_of_ascii rules (by decide) (by decide)),
    removeSuffix_comma]

theorem tidy_append (front : Text) (some_ : rstrip rules text ≠ []) :
    tidy rules (front ++ text) = front ++ tidy rules text := by
  rw [tidy, tidy, rstrip_append rules front some_, removeSuffix_append front some_]

/-- A text that ends in a character of its own keeps it. -/
theorem tidy_behind (last : front.getLast?.any solid = true) (text : Text) :
    rstrip rules (front ++ text) = front ++ rstrip rules text ∧
      tidy rules (front ++ text) = front ++ tidy rules text := by
  obtain ⟨c, ends, solid_⟩ := (Option.any_eq_true _ _).mp last
  obtain ⟨front, rfl⟩ := List.getLast?_eq_some_iff.mp ends
  have facts := solid_facts rules solid_
  have behind := rstrip_behind rules (rstrip_end rules front facts.1) text
  refine ⟨behind, ?_⟩
  rw [tidy, tidy, behind]
  by_cases none_ : rstrip rules text = []
  · have nothing : MigrationPlaceholders.removeSuffix [','] [] = [] := by decide
    rw [none_, List.append_nil, removeSuffix_end front facts.2, nothing, List.append_nil]
  · exact removeSuffix_append _ none_

end Tidying

section Altering
variable (rules : CharRules)

theorem comment_ends (comment : Comment) (front : Text) :
    ((front ++ (comment.gap ++ ['-', '-'])).getLast?.any solid) = true := by
  have same : front ++ (comment.gap ++ ['-', '-']) = front ++ comment.gap ++ ['-'] ++ ['-'] := by
    simp
  rw [same, List.getLast?_concat]
  rfl

theorem comment_tidy (comment : Comment) :
    rstrip rules comment.text = comment.gap ++ '-' :: '-' :: rstrip rules comment.body ∧
      tidy rules comment.text = (comment.trim rules).text := by
  have both := tidy_behind rules (comment_ends comment []) comment.body
  have split : comment.text = [] ++ (comment.gap ++ ['-', '-']) ++ comment.body := by
    simp [Comment.text]
  have trimmed : (comment.trim rules).text =
      [] ++ (comment.gap ++ ['-', '-']) ++ tidy rules comment.body := by
    simp [Comment.text, Comment.trim, tidy]
  rw [trimmed, split]
  refine ⟨both.1.trans ?_, both.2⟩
  simp

def Line.trim (line : Line) : Line := { line with comment := line.comment.map (Comment.trim rules) }

def Line.bare (line : Line) : Text := ' ' :: ' ' :: (line.name.text ++ line.definition.text)

theorem row_bare (line : Line) : line.row false = line.bare ++ commentText line.comment := by
  simp [Line.row, Line.bare]

theorem bare_ends (line : Line) : line.bare.getLast?.any solid = true := by
  have ends := line.definition.last
  obtain ⟨definition, same⟩ := List.head?_eq_some_iff.mp line.definition.first
  have split : line.bare = (' ' :: ' ' :: line.name.text) ++ line.definition.text := rfl
  rw [split, List.getLast?_append_of_ne_nil _ (by rw [same]; simp)]
  exact ends

theorem row_strip (line : Line) :
    rstrip rules (line.row false) = line.bare ++ rstrip rules (commentText line.comment) := by
  rw [row_bare]
  exact (tidy_behind rules (bare_ends line) _).1

/-- A last row keeps its column, and loses what its comment ends in. -/
theorem row_tidy (line : Line) : tidy rules (line.row false) = (line.trim rules).row false := by
  rw [row_bare, row_bare, (tidy_behind rules (bare_ends line) _).2]
  rw [Line.trim, Line.bare, Line.bare]
  congr 1
  cases line.comment with
  | none => rfl
  | some comment => exact (comment_tidy rules comment).2

theorem row_present (line : Line) : rstrip rules (line.row false) ≠ [] := by
  rw [row_strip]
  simp [Line.bare]

theorem trimLast_append (lines : List Line) (last : Line) :
    trimLast rules (lines ++ [last]) = lines ++ [last.trim rules] := by
  induction lines with
  | nil => rfl
  | cons line lines ih =>
      have step : trimLast rules (line :: (lines ++ [last])) =
          line :: trimLast rules (lines ++ [last]) := by cases lines <;> rfl
      rw [List.cons_append, step, ih, List.cons_append]

theorem rows_last (lines : List Line) (last : Line) :
    rows (lines ++ [last]) = lines.map (Line.row true) ++ [last.row false] := rows_split lines last []

theorem lined_last (first : List Text) (row : Text) :
    lined (first ++ [row]) = broken first ++ row := by
  rw [lined_append]
  simp [lined, below]

theorem rows_append (left : List Line) {post : List Line} (some_ : post ≠ []) :
    rows (left ++ post) = left.map (Line.row true) ++ rows post := by
  obtain ⟨line, post, rfl⟩ := List.exists_cons_of_ne_nil some_
  have own := rows_split [] line post
  rw [List.nil_append, List.map_nil, List.nil_append] at own
  rw [rows_split, own]

/-- Rows that stay behind a dropped column's. -/
theorem rows_tidy (first : List Text) {lines : List Line} (some_ : lines ≠ []) :
    tidy rules (broken first ++ lined (rows lines)) =
      lined (first ++ rows (trimLast rules lines)) := by
  obtain ⟨lines, last, rfl⟩ := (List.eq_nil_or_concat' lines).resolve_left some_
  rw [rows_last, lined_last, trimLast_append, rows_last, ← List.append_assoc, ← List.append_assoc,
    lined_last, tidy_append rules _ (row_present rules last), row_tidy]
  simp [broken]

theorem row_comma {line : Line} (bare : line.comment = none) :
    line.row true = line.row false ++ [','] := by simp [Line.row, bare, commentText]

/-- Rows that stay before a dropped last column's. -/
theorem left_tidy (first : List Text) (lines : List Line) {last : Line} (bare : last.comment = none) :
    tidy rules (broken (first ++ (lines ++ [last]).map (Line.row true))) =
      lined (first ++ rows (lines ++ [last])) := by
  have split : broken (first ++ (lines ++ [last]).map (Line.row true)) =
      broken (first ++ lines.map (Line.row true)) ++ last.row false ++ [','] ++ ['\n'] := by
    simp [broken, row_comma bare]
  rw [split, tidy_break, tidy_comma, rows_last, ← List.append_assoc, lined_last]

/-- A dropped column leaves the body without it. -/
theorem alter_drop (create : Create) (table column : Name)
    (held : create.lines.any fun line => sameName column.text line.name.text)
    (fits : (Alteration.dropColumn table column).fits create = true) :
    alterColumn rules create.body table.text "DROP".toList column.text [] =
      .ok (create.drop rules column.text).body := by
  obtain ⟨line, same, split⟩ := columns_split column.text create.lines held
  obtain ⟨taken, found⟩ := search_column rules column create.opening
    (before column.text create.lines) line (behind column.text create.lines) same
    (before_apart column.text create.lines)
  rw [← split] at found
  have altered : alterColumn rules create.body table.text "DROP".toList column.text [] =
      .ok (tidy rules (broken ((openingOf create.opening (before column.text create.lines)).lead ++
        (before column.text create.lines).map (Line.row true)) ++
          lined (rows (behind column.text create.lines)))) := by
    rw [alterColumn, if_neg (by decide), Create.body, Create.segments, found]
    rfl
  rw [altered]
  congr 1
  rw [Alteration.fits] at fits
  rw [Create.body, Create.segments, Create.drop]
  generalize before column.text create.lines = left at fits ⊢
  cases here : behind column.text create.lines with
  | cons next post =>
      have more : trimLast rules (next :: post) ≠ [] := by cases post <;> simp [trimLast]
      rw [rows_tidy rules _ (by simp), List.append_assoc, ← rows_append left more]
  | nil =>
      rw [here] at fits
      have none_ : lined (rows []) = [] := rfl
      rw [none_, List.append_nil]
      rcases List.eq_nil_or_concat' left with rfl | ⟨left, last, rfl⟩
      -- the only column goes, and with it the break of a bare opening line
      · cases create.opening with
        | bare => rfl
        | glued => rfl
        | commented comment =>
            have only : broken ((openingOf (.commented comment) []).lead ++
                [].map (Line.row true)) = comment.text ++ ['\n'] := by
              simp [openingOf, Opening.lead, broken]
            rw [only, tidy_break, (comment_tidy rules comment).2]
            simp [openingOf, Opening.lead, Opening.trim, lined, below, rows]
      · have bare : last.comment = none := by simpa using fits
        rw [left_tidy rules _ left bare, if_neg (by simp)]

theorem definition_stays (definition : Definition) :
    rstrip rules definition.text = definition.text := by
  obtain ⟨c, ends, solid_⟩ := (Option.any_eq_true _ _).mp definition.last
  obtain ⟨front, same⟩ := List.getLast?_eq_some_iff.mp ends
  rw [same, rstrip_end rules front (solid_facts rules solid_).1]

/-- An added column stands on a row of its own behind the others. -/
theorem alter_add (create : Create) (table column : Name) (definition : Definition)
    (fits : (Alteration.addColumn table column definition).fits create = true) :
    alterColumn rules create.body table.text "ADD".toList column.text definition.text =
      .ok (create.add rules ⟨column, definition, none⟩).body := by
  have added : alterColumn rules create.body table.text "ADD".toList column.text definition.text =
      .ok (rstrip rules create.body ++ [','] ++ '\n' ::
        (Line.mk column definition none).row false) := by
    rw [alterColumn, if_pos (by decide), definition_stays]
    simp [Line.row, commentText]
  rw [added]
  congr 1
  rw [Alteration.fits, Bool.and_eq_true] at fits
  rw [Create.body, Create.body, Create.segments, Create.segments, Create.add]
  rcases List.eq_nil_or_concat' create.lines with none_ | ⟨lines, last, split⟩
  · rw [none_] at fits ⊢
    cases here : create.opening with
    | bare => simp [here] at fits
    | glued => simp [here] at fits
    | commented comment =>
        have only : lined ((Opening.commented comment).lead ++ rows []) = comment.text := by
          simp [Opening.lead, rows, lined, below]
        rw [only, (comment_tidy rules comment).1]
        simp [Opening.comma, Opening.lead, rows, lined, below, Comment.text, Comment.comma]
  · rw [split] at fits ⊢
    have bare : last.comment = none := by simpa using fits.2
    have opening : create.opening.comma rules (lines ++ [last]) = create.opening := by
      cases lines <;> rfl
    have row : rstrip rules (last.row false) = last.row false := by
      rw [row_strip, row_bare, bare, commentText, rstrip_nil]
    rw [opening, rows_last, rows_last, ← List.append_assoc, ← List.append_assoc, lined_last,
      lined_last, rstrip_append rules _ (row_present rules last), row]
    simp [broken, row_comma bare]

end Altering

end VoltMod.DdlLayout
