import Mathlib.Data.List.Forall2
import Mathlib.Data.List.TakeWhile
import VoltMod.MigrationText
import VoltMod.Strip

/-!
Database/Migrator.hpp: what the split into statements keeps of a migration's text. The text
is read as a sequence of pieces, the statements are the pieces between two separators, and
the statements put together again split the same way.
-/

namespace VoltMod.StatementSplit

open MigrationText

inductive Piece where
  | character (c : Char)
  | separator
  | literal (body : Text)
  /-- A literal that the text ends in. -/
  | unclosed (body : Text)
  | comment (body : Text)
  deriving DecidableEq

def quoted (body : Text) : Text := '\'' :: body ++ ['\'']

/-- What a piece leaves in its statement. -/
def Piece.kept : Piece → Text
  | .character c => [c]
  | .separator => []
  | .literal body => quoted body
  | .unclosed body => '\'' :: body
  | .comment _ => ['\n']

/-- The text spells the pieces: a comment goes on to the end of its line, a literal to the next
quote. -/
inductive Reads : Text → List Piece → Prop
  | nil : Reads [] []
  | character {c : Char} {text : Text} {pieces : List Piece} (plain : c ≠ ';' ∧ c ≠ '\'')
      (uncommented : ¬ (c = '-' ∧ text.head? = some '-')) (behind : Reads text pieces) :
      Reads (c :: text) (.character c :: pieces)
  | separator {text : Text} {pieces : List Piece} (behind : Reads text pieces) :
      Reads (';' :: text) (.separator :: pieces)
  | literal {body text : Text} {pieces : List Piece} (open_body : '\'' ∉ body)
      (behind : Reads text pieces) :
      Reads (quoted body ++ text) (.literal body :: pieces)
  | unclosed {body : Text} (open_body : '\'' ∉ body) : Reads ('\'' :: body) [.unclosed body]
  | comment {body text : Text} {pieces : List Piece} (one_line : '\n' ∉ body)
      (behind : Reads text pieces) :
      Reads ("--".toList ++ body ++ '\n' :: text) (.comment body :: pieces)
  | lastComment {body : Text} (one_line : '\n' ∉ body) :
      Reads ("--".toList ++ body) [.comment body]

/-- The pieces between the separators. -/
def sections (pieces : List Piece) : List (List Piece) := pieces.splitOn .separator

def written (pieces : List Piece) : Text := pieces.flatMap Piece.kept

/-- `statement` is the text without the blanks around it. -/
structure Trimmed (text statement : Text) : Prop where
  around : ∃ front back, text = front ++ statement ++ back ∧
    (∀ c ∈ front, blank c = true) ∧ ∀ c ∈ back, blank c = true
  first : ∀ c, statement.head? = some c → blank c = false
  last : ∀ c, statement.getLast? = some c → blank c = false

/-- The statements are the sections that are not blank, in order: comments became newlines,
and nothing else but the separators and the blanks around is gone. -/
def Sections (pieces : List Piece) (statements : List Text) : Prop :=
  List.Forall₂ Trimmed
    (((sections pieces).map written).filter fun text => text.any fun c => !blank c) statements

theorem quote_scan (current text : Text) :
    splitFrom .plain current ('\'' :: text) = splitFrom .literal (current ++ ['\'']) text := by
  rw [splitFrom, if_neg fun both => absurd both.1 (by decide), if_neg (by decide), if_pos rfl]

theorem literal_scan {body : Text} (open_body : '\'' ∉ body) (current text : Text) :
    splitFrom .literal current (body ++ '\'' :: text) =
      splitFrom .plain (current ++ body ++ ['\'']) text := by
  induction body generalizing current with
  | nil => simp [splitFrom]
  | cons c body hypothesis =>
      obtain ⟨here, later⟩ := List.ne_and_not_mem_of_not_mem_cons open_body
      rw [List.cons_append, splitFrom, if_neg (Ne.symm here), hypothesis later]
      simp

theorem unclosed_scan {body : Text} (open_body : '\'' ∉ body) (current : Text) :
    splitFrom .literal current body = flush (current ++ body) := by
  induction body generalizing current with
  | nil => simp [splitFrom]
  | cons c body hypothesis =>
      obtain ⟨here, later⟩ := List.ne_and_not_mem_of_not_mem_cons open_body
      rw [splitFrom, if_neg (Ne.symm here), hypothesis later]
      simp

theorem comment_scan {body : Text} (one_line : '\n' ∉ body) (current text : Text) :
    splitFrom .comment current (body ++ '\n' :: text) = splitFrom .plain current text := by
  induction body with
  | nil => simp [splitFrom]
  | cons c body hypothesis =>
      obtain ⟨here, later⟩ := List.ne_and_not_mem_of_not_mem_cons one_line
      rw [List.cons_append, splitFrom, if_neg (Ne.symm here), hypothesis later]

theorem lastComment_scan {body : Text} (one_line : '\n' ∉ body) (current : Text) :
    splitFrom .comment current body = flush current := by
  induction body with
  | nil => simp [splitFrom]
  | cons c body hypothesis =>
      obtain ⟨here, later⟩ := List.ne_and_not_mem_of_not_mem_cons one_line
      rw [splitFrom, if_neg (Ne.symm here), hypothesis later]

theorem quoted_append (body text : Text) :
    quoted body ++ text = '\'' :: (body ++ '\'' :: text) := by
  simp [quoted]

/-- A text up to the first `stop`. -/
theorem up_to (stop : Char) (text : Text) :
    ∃ body, stop ∉ body ∧ (text = body ∨ ∃ rest, text = body ++ stop :: rest) := by
  induction text with
  | nil => exact ⟨[], List.not_mem_nil, .inl rfl⟩
  | cons c text hypothesis =>
      by_cases here : c = stop
      · exact ⟨[], List.not_mem_nil, .inr ⟨text, by rw [here, List.nil_append]⟩⟩
      · obtain ⟨body, absent, whole⟩ := hypothesis
        refine ⟨c :: body, by simp [absent, Ne.symm here], ?_⟩
        rcases whole with rfl | ⟨rest, rfl⟩
        · exact .inl rfl
        · exact .inr ⟨rest, rfl⟩

/-- Every text can be read. -/
theorem reads_exists : ∀ text : Text, ∃ pieces, Reads text pieces
  | [] => ⟨[], .nil⟩
  | c :: rest => by
      by_cases separator : c = ';'
      · obtain ⟨pieces, behind⟩ := reads_exists rest
        subst separator
        exact ⟨_, Reads.separator behind⟩
      by_cases quote : c = '\''
      · subst quote
        obtain ⟨body, absent, rfl | ⟨text, whole⟩⟩ := up_to '\'' rest
        · exact ⟨_, Reads.unclosed absent⟩
        · have shorter : text.length < rest.length := by
            rw [whole, List.length_append, List.length_cons]
            omega
          obtain ⟨pieces, behind⟩ := reads_exists text
          have reads := Reads.literal absent behind
          rw [quoted_append, ← whole] at reads
          exact ⟨_, reads⟩
      by_cases comment : c = '-' ∧ rest.head? = some '-'
      · obtain ⟨dash, second⟩ := comment
        obtain ⟨line, opened⟩ := List.head?_eq_some_iff.mp second
        rw [dash, opened]
        obtain ⟨body, absent, rfl | ⟨text, whole⟩⟩ := up_to '\n' line
        · exact ⟨_, Reads.lastComment absent⟩
        · have shorter : text.length < rest.length := by
            rw [opened, whole, List.length_cons, List.length_append, List.length_cons]
            omega
          obtain ⟨pieces, behind⟩ := reads_exists text
          have reads := Reads.comment absent behind
          rw [List.append_assoc, ← whole] at reads
          exact ⟨_, reads⟩
      · obtain ⟨pieces, behind⟩ := reads_exists rest
        exact ⟨_, Reads.character ⟨separator, quote⟩ comment behind⟩
  termination_by text => text.length
  decreasing_by
    all_goals
      simp only [List.length_cons]
      omega

theorem sections_separator (pieces : List Piece) :
    sections (.separator :: pieces) = [] :: sections pieces := by
  rw [sections, List.splitOn_cons_eq_if_modifyHead, if_pos (beq_self_eq_true _), sections]

theorem sections_cons {piece : Piece} (kept : piece ≠ .separator) (pieces : List Piece) :
    sections (piece :: pieces) = (sections pieces).modifyHead (piece :: ·) := by
  rw [sections, List.splitOn_cons_eq_if_modifyHead, if_neg (by simpa using kept), sections]

/-- What the scan makes of the sections, `current` standing before the first. -/
def cutFrom (current : Text) : List (List Piece) → List Text
  | [] => []
  | first :: others =>
      flush (current ++ written first) ++ others.flatMap fun part => flush (written part)

theorem cutFrom_cons (piece : Piece) (kept : piece ≠ .separator) (current : Text)
    (pieces : List Piece) :
    cutFrom current (sections (piece :: pieces)) =
      cutFrom (current ++ piece.kept) (sections pieces) := by
  rw [sections_cons kept]
  cases sections pieces with
  | nil => rfl
  | cons first others => simp [cutFrom, written]

theorem cutFrom_separator (current : Text) (pieces : List Piece) :
    cutFrom current (sections (.separator :: pieces)) =
      flush current ++ cutFrom [] (sections pieces) := by
  rw [sections_separator]
  cases sections pieces with
  | nil => simp [cutFrom, written]
  | cons first others => simp [cutFrom, written]

theorem cutFrom_nil (current : Text) : cutFrom current (sections []) = flush current := by
  simp [sections, cutFrom, written]

/-- The scan cuts the reading at its separators. -/
theorem splitFrom_reads {text : Text} {pieces : List Piece} (reads : Reads text pieces)
    (current : Text) : splitFrom .plain current text = cutFrom current (sections pieces) := by
  induction reads generalizing current with
  | nil => rw [cutFrom_nil, splitFrom]
  | @character c text pieces plain uncommented _ hypothesis =>
      rw [splitFrom, if_neg uncommented, if_neg plain.1, if_neg plain.2, hypothesis,
        cutFrom_cons (.character c) nofun]
      rfl
  | separator _ hypothesis =>
      rw [splitFrom, if_neg fun both => absurd both.1 (by decide), if_pos rfl, hypothesis,
        cutFrom_separator]
  | @literal body text pieces open_body _ hypothesis =>
      rw [cutFrom_cons (.literal body) nofun, ← hypothesis, quoted_append, quote_scan,
        literal_scan open_body, List.append_assoc, List.append_assoc]
      rfl
  | @unclosed body open_body =>
      rw [cutFrom_cons (.unclosed body) nofun, cutFrom_nil, quote_scan, unclosed_scan open_body,
        List.append_assoc]
      rfl
  | @comment body text pieces one_line _ hypothesis =>
      have marked : "--".toList ++ body ++ '\n' :: text = '-' :: ('-' :: body ++ '\n' :: text) := rfl
      rw [cutFrom_cons (.comment body) nofun, ← hypothesis, marked, splitFrom,
        if_pos ⟨rfl, rfl⟩, comment_scan (by simpa using one_line)]
      rfl
  | @lastComment body one_line =>
      have marked : "--".toList ++ body = '-' :: ('-' :: body) := rfl
      rw [cutFrom_cons (.comment body) nofun, cutFrom_nil, marked, splitFrom,
        if_pos ⟨rfl, rfl⟩, lastComment_scan (by simpa using one_line)]
      rfl

theorem trim_strip (text : Text) : trim text = Strip.strip blank text := rfl

theorem trim_trimmed (text : Text) : Trimmed text (trim text) where
  around := Strip.strip_parts blank text
  first := Strip.strip_head
  last := Strip.strip_last

theorem flush_blank {text : Text} (blanks : ∀ c ∈ text, blank c = true) : flush text = [] :=
  if_pos (Strip.strip_nil_iff.mpr blanks)

theorem flush_written {text : Text} (present : trim text ≠ []) : flush text = [trim text] :=
  if_neg present

theorem flush_trimmed (texts : List Text) :
    List.Forall₂ Trimmed (texts.filter fun text => text.any fun c => !blank c)
      (texts.flatMap flush) := by
  induction texts with
  | nil => exact .nil
  | cons text texts hypothesis =>
      rw [List.flatMap_cons]
      by_cases empty : trim text = []
      · have blanks := Strip.strip_nil_iff.mp empty
        rw [flush_blank blanks, List.filter_cons_of_neg, List.nil_append]
        · exact hypothesis
        · simpa using blanks
      · rw [flush_written empty, List.filter_cons_of_pos]
        · exact .cons (trim_trimmed text) hypothesis
        · by_contra dull
          exact empty (Strip.strip_nil_iff.mpr (by simpa using dull))

theorem cutFrom_start (parts : List (List Piece)) :
    cutFrom [] parts = (parts.map written).flatMap flush := by
  cases parts with
  | nil => rfl
  | cons first others => simp [cutFrom, List.flatMap_map]

/-- What the scan makes of a text is what its reading says. -/
theorem splitStatements_reads {sql : Text} {pieces : List Piece} (reads : Reads sql pieces) :
    splitStatements sql = ((sections pieces).map written).flatMap flush := by
  rw [splitStatements, splitFrom_reads reads, cutFrom_start]

theorem statement_present {sql statement : Text} (listed : statement ∈ splitStatements sql) :
    ∃ text, statement = trim text ∧ trim text ≠ [] := by
  obtain ⟨pieces, reads⟩ := reads_exists sql
  rw [splitStatements_reads reads] at listed
  obtain ⟨text, -, flushed⟩ := List.mem_flatMap.mp listed
  by_cases empty : trim text = []
  · rw [flush_blank (Strip.strip_nil_iff.mp empty)] at flushed
    cases flushed
  · rw [flush_written empty] at flushed
    exact ⟨text, List.mem_singleton.mp flushed, empty⟩

/-- A terminated literal stands in its section's statement as it was written. -/
theorem literal_kept {front back : List Piece} {body : Text} :
    trim (written (front ++ .literal body :: back)) =
      (written front).dropWhile blank ++ quoted body ++ (written back).rdropWhile blank := by
  have parts : written (front ++ .literal body :: back) =
      written front ++ quoted body ++ written back := by
    simp [written, Piece.kept]
  rw [parts, trim_strip]
  apply Strip.strip_around (List.cons_ne_nil _ _)
  · rintro c first
    obtain rfl := Option.some.inj first
    decide
  · intro c last
    change ('\'' :: body ++ ['\'']).getLast? = some c at last
    rw [List.getLast?_concat] at last
    obtain rfl := Option.some.inj last
    decide

section Rejoined

/-- Whether the text leaves the scan inside a literal, where it has no separator and no comment
outside one. -/
def leaves : Bool → Text → Option Bool
  | inLiteral, [] => some inLiteral
  | true, c :: rest => leaves (c != '\'') rest
  | false, c :: rest =>
      if c = '-' ∧ rest.head? = some '-' then none
      else if c = ';' then none
      else leaves (c == '\'') rest

def state (inLiteral : Bool) : Scan := if inLiteral then .literal else .plain

/-- Texts that may be joined: only the last ends inside a literal. -/
def Steady : List Text → Prop
  | [] => True
  | [text] => ∃ inLiteral, leaves false text = some inLiteral
  | text :: others => leaves false text = some false ∧ Steady others

theorem leaves_plain {c : Char} {rest : Text} {after : Bool}
    (steady : leaves false (c :: rest) = some after) :
    ¬ (c = '-' ∧ rest.head? = some '-') ∧ c ≠ ';' ∧ leaves (c == '\'') rest = some after := by
  simp only [leaves] at steady
  split at steady
  · cases steady
  · next uncommented =>
      split at steady
      · cases steady
      · next uncut => exact ⟨uncommented, uncut, steady⟩

theorem leaves_scan {inLiteral after : Bool} {text : Text}
    (steady : leaves inLiteral text = some after) (current tail : Text)
    (apart : tail.head? ≠ some '-') :
    splitFrom (state inLiteral) current (text ++ tail) =
      splitFrom (state after) (current ++ text) tail := by
  induction text generalizing inLiteral current with
  | nil =>
      obtain rfl := Option.some.inj steady
      rw [List.append_nil, List.nil_append]
  | cons c rest hypothesis =>
      have onward : current ++ c :: rest = current ++ [c] ++ rest := by simp
      cases inLiteral with
      | true =>
          rw [onward, ← hypothesis steady]
          simp only [state, List.cons_append, if_true, splitFrom]
          by_cases closes : c = '\'' <;> simp [closes]
      | false =>
          obtain ⟨uncommented, uncut, steady⟩ := leaves_plain steady
          have apart_here : ¬ (c = '-' ∧ (rest ++ tail).head? = some '-') := by
            rintro ⟨dash, second⟩
            cases rest with
            | nil => exact apart second
            | cons d rest => exact uncommented ⟨dash, second⟩
          rw [onward, ← hypothesis steady]
          simp only [state, List.cons_append, Bool.false_eq_true, if_false, splitFrom,
            if_neg apart_here, if_neg uncut]
          by_cases opens : c = '\'' <;> simp [opens]

theorem leaves_append {inLiteral after : Bool} {front back : Text}
    (steady : leaves inLiteral (front ++ back) = some after) :
    ∃ between, leaves inLiteral front = some between ∧ leaves between back = some after := by
  induction front generalizing inLiteral with
  | nil => exact ⟨inLiteral, rfl, steady⟩
  | cons c rest hypothesis =>
      cases inLiteral with
      | true => exact hypothesis steady
      | false =>
          rw [List.cons_append] at steady
          obtain ⟨uncommented, uncut, steady⟩ := leaves_plain steady
          have apart : ¬ (c = '-' ∧ rest.head? = some '-') := by
            rintro ⟨dash, second⟩
            apply uncommented
            rw [List.head?_append, second]
            exact ⟨dash, rfl⟩
          rw [leaves, if_neg apart, if_neg uncut]
          exact hypothesis steady

theorem leaves_blanks {blanks : Text} (dull : ∀ c ∈ blanks, blank c = true) (inLiteral : Bool) :
    leaves inLiteral blanks = some inLiteral := by
  induction blanks with
  | nil => rfl
  | cons c rest hypothesis =>
      obtain ⟨here, later⟩ := List.forall_mem_cons.mp dull
      have unquoted : c ≠ '\'' := by rintro rfl; revert here; decide
      have uncut : c ≠ ';' := by rintro rfl; revert here; decide
      have undashed : c ≠ '-' := by rintro rfl; revert here; decide
      cases inLiteral with
      | true => rw [leaves, bne_iff_ne.mpr unquoted, hypothesis later]
      | false =>
          rw [leaves, if_neg fun both => undashed both.1, if_neg uncut,
            beq_eq_false_iff_ne.mpr unquoted, hypothesis later]

/-- The blanks around leave the scan where it is. -/
theorem leaves_trim {text : Text} {after : Bool} (steady : leaves false text = some after) :
    leaves false (trim text) = some after := by
  obtain ⟨front, back, whole, before, behind⟩ := Strip.strip_parts blank text
  rw [whole] at steady
  obtain ⟨between, start, ends⟩ := leaves_append steady
  obtain ⟨first, blanks, kept⟩ := leaves_append start
  rw [leaves_blanks before] at blanks
  rw [leaves_blanks behind] at ends
  obtain rfl := Option.some.inj blanks
  obtain rfl := Option.some.inj ends
  exact kept

theorem steady_cons {text : Text} {others : List Text} (here : leaves false text = some false)
    (later : Steady others) : Steady (text :: others) := by
  cases others with
  | nil => exact ⟨false, here⟩
  | cons second others => exact ⟨here, later⟩

theorem steady_flush {texts : List Text} (steady : Steady texts) :
    Steady (texts.flatMap flush) := by
  induction texts with
  | nil => exact trivial
  | cons text others hypothesis =>
      cases others with
      | nil =>
          obtain ⟨after, leaving⟩ := steady
          rw [List.flatMap_singleton]
          by_cases empty : trim text = []
          · rw [flush_blank (Strip.strip_nil_iff.mp empty)]
            exact trivial
          · rw [flush_written empty]
            exact ⟨after, leaves_trim leaving⟩
      | cons second others =>
          obtain ⟨leaving, later⟩ := steady
          have behind := hypothesis later
          rw [List.flatMap_cons]
          by_cases empty : trim text = []
          · rw [flush_blank (Strip.strip_nil_iff.mp empty)]
            exact behind
          · rw [flush_written empty]
            exact steady_cons (leaves_trim leaving) behind

theorem steady_head {text longer : Text} {others : List Text}
    (same : leaves false longer = leaves false text) (steady : Steady (text :: others)) :
    Steady (longer :: others) := by
  cases others with
  | nil => exact steady.imp fun _ leaving => same.trans leaving
  | cons second others => exact ⟨same.trans steady.1, steady.2⟩

theorem leaves_quote (text : Text) : leaves false ('\'' :: text) = leaves true text := by
  rw [leaves, if_neg fun both => absurd both.1 (by decide), if_neg (by decide)]
  rfl

theorem leaves_literal {body : Text} (open_body : '\'' ∉ body) (text : Text) :
    leaves false (quoted body ++ text) = leaves false text := by
  have inside : leaves true (body ++ '\'' :: text) = leaves false text := by
    induction body with
    | nil => rfl
    | cons c body hypothesis =>
        obtain ⟨here, later⟩ := List.ne_and_not_mem_of_not_mem_cons open_body
        rw [List.cons_append, leaves, bne_iff_ne.mpr (Ne.symm here), hypothesis later]
  rw [quoted_append, leaves_quote, inside]

theorem leaves_unclosed {body : Text} (open_body : '\'' ∉ body) :
    leaves true body = some true := by
  induction body with
  | nil => rfl
  | cons c body hypothesis =>
      obtain ⟨here, later⟩ := List.ne_and_not_mem_of_not_mem_cons open_body
      rw [leaves, bne_iff_ne.mpr (Ne.symm here), hypothesis later]

/-- A reading's sections may be joined. -/
theorem sections_steady {text : Text} {pieces : List Piece} (reads : Reads text pieces) :
    ∃ first others, sections pieces = first :: others ∧
      Steady (written first :: others.map written) ∧
      ((written first).head? = some '-' → text.head? = some '-') := by
  induction reads with
  | nil => exact ⟨[], [], rfl, ⟨false, rfl⟩, nofun⟩
  | @character c text pieces plain uncommented _ hypothesis =>
      obtain ⟨first, others, cut, steady, dash⟩ := hypothesis
      refine ⟨.character c :: first, others, ?_, steady_head ?_ steady, ?_⟩
      · rw [sections_cons (by exact nofun), cut]
        rfl
      · have apart : ¬ (c = '-' ∧ (written first).head? = some '-') := fun both =>
          uncommented ⟨both.1, dash both.2⟩
        change leaves false (c :: written first) = _
        rw [leaves, if_neg apart, if_neg plain.1, beq_eq_false_iff_ne.mpr plain.2]
      · exact id
  | separator _ hypothesis =>
      obtain ⟨first, others, cut, steady, -⟩ := hypothesis
      exact ⟨[], first :: others, by rw [sections_separator, cut], steady_cons rfl steady, nofun⟩
  | @literal body text pieces open_body _ hypothesis =>
      obtain ⟨first, others, cut, steady, -⟩ := hypothesis
      refine ⟨.literal body :: first, others, ?_, steady_head (leaves_literal open_body _) steady, ?_⟩
      · rw [sections_cons (by exact nofun), cut]
        rfl
      · intro dash
        cases dash
  | @unclosed body open_body =>
      refine ⟨[.unclosed body], [], rfl, ⟨true, ?_⟩, nofun⟩
      have whole : written [.unclosed body] = '\'' :: body := List.append_nil _
      rw [whole, leaves_quote, leaves_unclosed open_body]
  | @comment body text pieces one_line _ hypothesis =>
      obtain ⟨first, others, cut, steady, -⟩ := hypothesis
      refine ⟨.comment body :: first, others, ?_, steady_head ?_ steady, nofun⟩
      · rw [sections_cons (by exact nofun), cut]
        rfl
      · change leaves false ('\n' :: written first) = _
        rw [leaves, if_neg fun both => absurd both.1 (by decide), if_neg (by decide)]
        rfl
  | @lastComment body one_line =>
      exact ⟨[.comment body], [], rfl, ⟨false, rfl⟩, nofun⟩

/-- Statements that may be joined are split where they were joined. -/
theorem joined_split {statements : List Text} (steady : Steady statements)
    (trimmed : ∀ statement ∈ statements, ∃ text, statement = trim text ∧ trim text ≠ [])
    {current : Text} (dull : ∀ c ∈ current, blank c = true) :
    splitFrom .plain current (";\n".toList.intercalate statements) = statements := by
  induction statements generalizing current with
  | nil => exact flush_blank dull
  | cons statement others hypothesis =>
      obtain ⟨⟨text, rfl, present⟩, later⟩ := List.forall_mem_cons.mp trimmed
      have alone : flush (current ++ trim text) = [trim text] := by
        have kept : trim (current ++ trim text) = trim text := by
          rw [trim_strip, Strip.strip_blanks_append dull, trim_strip, Strip.strip_strip]
        rw [flush_written, kept]
        rw [kept]
        exact present
      cases others with
      | nil =>
          obtain ⟨after, leaving⟩ := steady
          have scan := leaves_scan leaving current [] (by decide)
          rw [List.append_nil] at scan
          rw [List.intercalate_singleton]
          exact scan.trans (by rw [splitFrom, alone])
      | cons second others =>
          obtain ⟨leaving, behind⟩ := steady
          have joined : ";\n".toList.intercalate (trim text :: second :: others) =
              trim text ++ ';' :: '\n' :: ";\n".toList.intercalate (second :: others) := by
            rw [List.intercalate_cons_cons, List.append_assoc]
            rfl
          have newline : ∀ c ∈ ['\n'], blank c = true := List.forall_mem_singleton.mpr rfl
          have scan (rest : Text) : splitFrom .plain current (trim text ++ ';' :: rest) =
              splitFrom .plain (current ++ trim text) (';' :: rest) :=
            leaves_scan leaving current (';' :: rest) (by simp)
          have separator (rest : Text) : splitFrom .plain (current ++ trim text) (';' :: rest) =
              flush (current ++ trim text) ++ splitFrom .plain [] rest := by
            simp [splitFrom]
          have line (rest : Text) :
              splitFrom .plain [] ('\n' :: rest) = splitFrom .plain ['\n'] rest := by
            simp [splitFrom]
          rw [joined, scan, separator, alone, line, hypothesis behind later newline]
          rfl

end Rejoined

/-- The statements of a text: its reading cut at the separators, and a text again that is split
the same way. -/
structure Split (sql : Text) (statements : List Text) : Prop where
  present : ∀ statement ∈ statements, ∃ c ∈ statement, blank c = false
  readable : ∃ pieces, Reads sql pieces
  cut : ∀ pieces, Reads sql pieces → Sections pieces statements
  literals : ∀ pieces, Reads sql pieces → ∀ front body back,
    front ++ .literal body :: back ∈ sections pieces →
      (written front).dropWhile blank ++ quoted body ++ (written back).rdropWhile blank ∈ statements
  again : splitStatements (";\n".toList.intercalate statements) = statements

theorem splitStatements_split (sql : Text) : Split sql (splitStatements sql) where
  present statement listed := by
    obtain ⟨text, rfl, present⟩ := statement_present listed
    by_contra dull
    apply present
    rw [trim_strip, ← Strip.strip_strip]
    apply Strip.strip_nil_iff.mpr
    rw [← trim_strip]
    simpa using dull
  readable := reads_exists sql
  cut pieces reads := by
    rw [splitStatements_reads reads]
    exact flush_trimmed _
  literals pieces reads front body back listed := by
    rw [splitStatements_reads reads]
    apply List.mem_flatMap.mpr
    refine ⟨_, List.mem_map_of_mem listed, ?_⟩
    have kept : trim (written (front ++ .literal body :: back)) = _ := literal_kept
    rw [← kept, flush_written]
    · exact List.mem_singleton_self _
    · rw [kept]
      simp [quoted]
  again := by
    obtain ⟨pieces, reads⟩ := reads_exists sql
    obtain ⟨first, others, cut, steady, -⟩ := sections_steady reads
    refine joined_split ?_ (fun _ => statement_present) (List.forall_mem_nil _)
    rw [splitStatements_reads reads, cut]
    exact steady_flush steady

end VoltMod.StatementSplit
