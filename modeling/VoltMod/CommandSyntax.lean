import VoltMod.MigrationText

/-!
Commands/CommandSyntax.cpp: a command line cut into tokens. The line is also read as
lexemes, each inside or outside quotes, and its words are what stands between the blanks
outside.
-/

namespace VoltMod.CommandSyntax

open MigrationText (Text)

/-- A token is added where something started one, be it a pair of quotes with nothing inside. -/
def finish (started : Bool) (current : Text) : List Text :=
  if started ∨ current ≠ [] then [current] else []

def tokenizeFrom (quoted started : Bool) (current : Text) : Text → List Text
  | [] => finish started current
  | '\\' :: '"' :: text => tokenizeFrom quoted true (current ++ ['"']) text
  | c :: text =>
      if c = '"' then tokenizeFrom (!quoted) true current text
      else if c = ' ' ∧ quoted = false then
        finish started current ++ tokenizeFrom false false [] text
      else tokenizeFrom quoted started (current ++ [c]) text

def tokenize (text : Text) : List Text := tokenizeFrom false false [] text

inductive Lexeme where
  /-- A quote behind a backslash. -/
  | escaped
  | quote
  | character (c : Char)
  deriving DecidableEq, Repr

def lex : Text → List Lexeme
  | [] => []
  | '\\' :: '"' :: text => .escaped :: lex text
  | c :: text => (if c = '"' then .quote else .character c) :: lex text

/-- A lexeme and whether it stands inside quotes. -/
abbrev Placed := Lexeme × Bool

def place : Bool → List Lexeme → List Placed
  | _, [] => []
  | quoted, lexeme :: rest =>
      (lexeme, quoted) :: place (if lexeme = .quote then !quoted else quoted) rest

def read (line : Text) : List Placed := place false (lex line)

def unquotedBlank : Placed := (.character ' ', false)

/-- Quoting and escaping characters are not kept, an escaped quote is. -/
def Lexeme.kept : Lexeme → Text
  | .escaped => ['"']
  | .quote => []
  | .character c => [c]

def spell (word : List Placed) : Text := word.flatMap fun placed => placed.1.kept

/-- What stands between the blanks outside quotes. -/
def wordsOf (placed : List Placed) : List (List Placed) :=
  (placed.splitOn unquotedBlank).filter (· ≠ [])

def words (line : Text) : List (List Placed) := wordsOf (read line)

def quotes (word : List Placed) : Nat := word.countP fun placed => placed.1 = .quote

/-- How many quotes no backslash stands right before, `previous` being the character before
the line. -/
def unescapedFrom (previous : Option Char) : Text → Nat
  | [] => 0
  | c :: text =>
      (if c = '"' ∧ previous ≠ some '\\' then 1 else 0) + unescapedFrom (some c) text

def unescapedQuotes (line : Text) : Nat := unescapedFrom none line

example : tokenize "set \"\"  x \"he said \\\"hi\\\"\"".toList =
    ["set".toList, [], "x".toList, "he said \"hi\"".toList] := by decide

/-- What the scan makes of the words, `current` standing before the first. -/
def tokensFrom (started : Bool) (current : Text) : List (List Placed) → List Text
  | [] => []
  | first :: others =>
      finish (started || first ≠ []) (current ++ spell first) ++ (others.filter (· ≠ [])).map spell

/-- A lexeme either starts its token or adds to it. -/
theorem tokensFrom_lexeme {started after : Bool} (placed : Placed) (current : Text)
    (parts : List (List Placed)) (starts : after = true ∨ placed.1.kept ≠ []) :
    tokensFrom started current (parts.modifyHead (placed :: ·)) =
      tokensFrom after (current ++ placed.1.kept) parts := by
  cases parts with
  | nil => rfl
  | cons first others =>
      have same : current ++ spell (placed :: first) =
          current ++ placed.1.kept ++ spell first := by
        simp [spell]
      simp only [List.modifyHead_cons, tokensFrom, same, finish]
      rw [if_pos, if_pos]
      · rcases starts with early | kept
        · simp [early]
        · simp [kept]
      · simp

theorem tokensFrom_words (parts : List (List Placed)) :
    tokensFrom false [] parts = (parts.filter (· ≠ [])).map spell := by
  cases parts with
  | nil => rfl
  | cons first others =>
      by_cases empty : first = []
      · simp [tokensFrom, finish, spell, empty]
      · simp [tokensFrom, finish, empty]

theorem tokensFrom_blank (started : Bool) (current : Text) (parts : List (List Placed)) :
    tokensFrom started current ([] :: parts) = finish started current ++ tokensFrom false [] parts := by
  rw [tokensFrom_words, tokensFrom]
  simp [spell]

theorem splitOn_lexeme {placed : Placed} (kept : placed ≠ unquotedBlank) (rest : List Placed) :
    (placed :: rest).splitOn unquotedBlank =
      (rest.splitOn unquotedBlank).modifyHead (placed :: ·) := by
  rw [List.splitOn_cons_eq_if_modifyHead, if_neg (by simpa using kept)]

/-- The scan's tokens are the spellings of the words. -/
theorem tokenizeFrom_words (quoted started : Bool) (current text : Text) :
    tokenizeFrom quoted started current text =
      tokensFrom started current ((place quoted (lex text)).splitOn unquotedBlank) := by
  induction quoted, started, current, text using tokenizeFrom.induct with
  | case1 quoted started current => simp [tokenizeFrom, lex, place, tokensFrom, spell]
  | case2 quoted started current text hypothesis =>
      have other : (Lexeme.escaped, quoted) ≠ unquotedBlank := by simp [unquotedBlank]
      rw [tokenizeFrom, lex, place, splitOn_lexeme other,
        tokensFrom_lexeme _ _ _ (.inl rfl), hypothesis]
      rfl
  | case3 quoted started current text unescaped hypothesis =>
      have other : (Lexeme.quote, quoted) ≠ unquotedBlank := by simp [unquotedBlank]
      rw [tokenizeFrom, if_pos rfl, lex, if_pos rfl, place, if_pos rfl, splitOn_lexeme other,
        tokensFrom_lexeme _ _ _ (.inl rfl), hypothesis, Lexeme.kept, List.append_nil]
      all_goals exact unescaped
  | case4 quoted started current c text unescaped unquoted blank hypothesis =>
      obtain ⟨rfl, rfl⟩ := blank
      rw [tokenizeFrom, if_neg unquoted, if_pos ⟨rfl, rfl⟩, lex, if_neg unquoted, place,
        if_neg (by exact nofun), List.splitOn_cons_eq_if_modifyHead, if_pos (by decide),
        tokensFrom_blank, hypothesis]
      all_goals exact unescaped
  | case5 quoted started current c text unescaped unquoted inside hypothesis =>
      have other : (Lexeme.character c, quoted) ≠ unquotedBlank := by
        intro same
        obtain ⟨lexeme, outside⟩ := Prod.mk.inj same
        exact inside ⟨Lexeme.character.inj lexeme, outside⟩
      have adds : (Lexeme.character c).kept ≠ [] := List.cons_ne_nil c []
      rw [tokenizeFrom, if_neg unquoted, if_neg inside, lex, if_neg unquoted, place,
        if_neg (by exact nofun), splitOn_lexeme other,
        tokensFrom_lexeme (.character c, quoted) _ _ (.inr adds), hypothesis]
      · rfl
      all_goals exact unescaped

/-- The tokens are the spellings of the words, in order. -/
theorem tokenize_words (line : Text) : tokenize line = (words line).map spell := by
  rw [tokenize, tokenizeFrom_words, tokensFrom_words]
  rfl

theorem splitOn_flatten (placed : List Placed) :
    (placed.splitOn unquotedBlank).flatten = placed.filter (· ≠ unquotedBlank) := by
  induction placed with
  | nil => rfl
  | cons first rest hypothesis =>
      by_cases blank : first = unquotedBlank
      · rw [List.splitOn_cons_eq_if_modifyHead, if_pos (by simpa using blank), List.flatten_cons,
          List.nil_append, hypothesis, List.filter_cons_of_neg (by simpa using blank)]
      · rw [splitOn_lexeme blank, List.filter_cons_of_pos (by simpa using blank), ← hypothesis]
        cases parts : rest.splitOn unquotedBlank with
        | nil => exact absurd parts (List.splitOn_ne_nil _ _)
        | cons part others => rfl

/-- Every lexeme but the blanks outside quotes stands in exactly one word, in order. -/
theorem words_flatten (line : Text) :
    (words line).flatten = (read line).filter (· ≠ unquotedBlank) := by
  rw [words, wordsOf, List.flatten_filter_ne_nil, splitOn_flatten]

/-- A quote is escaped exactly when a backslash stands right before it. -/
theorem unescapedFrom_lex (previous : Option Char) (line : Text)
    (apart : previous = some '\\' → line.head? ≠ some '"') :
    unescapedFrom previous line = (lex line).count .quote := by
  induction line using lex.induct generalizing previous with
  | case1 => rfl
  | case2 text hypothesis =>
      have behind := hypothesis (some '"') (by simp)
      simp [unescapedFrom, lex, behind]
  | case3 c text unescaped hypothesis =>
      have behind := hypothesis (some c) (by
        intro backslash quote
        obtain ⟨rest, rfl⟩ := List.head?_eq_some_iff.mp quote
        exact unescaped rest (Option.some.inj backslash) rfl)
      rw [unescapedFrom, lex, List.count_cons, behind]
      · by_cases quote : c = '"'
        · have counts : previous ≠ some '\\' := fun backslash =>
            apart backslash (by rw [quote]; rfl)
          simp [quote, counts, Nat.add_comm]
        · simp [quote]
      · exact unescaped

theorem unescapedQuotes_lex (line : Text) : unescapedQuotes line = (lex line).count .quote :=
  unescapedFrom_lex none line nofun

/-- Whether a quote is open behind the lexemes. -/
def openAfter (quoted : Bool) (lexemes : List Lexeme) : Bool :=
  lexemes.foldl (fun quoted lexeme => if lexeme = .quote then !quoted else quoted) quoted

theorem openAfter_count (quoted : Bool) (lexemes : List Lexeme) :
    openAfter quoted lexemes = if lexemes.count .quote % 2 = 0 then quoted else !quoted := by
  induction lexemes generalizing quoted with
  | nil => rfl
  | cons lexeme rest hypothesis =>
      rw [openAfter, List.foldl_cons, ← openAfter, hypothesis, List.count_cons]
      by_cases quote : lexeme = .quote
      · simp only [quote, if_true, beq_self_eq_true]
        by_cases even : rest.count .quote % 2 = 0
        · rw [if_pos even, if_neg (by omega)]
        · rw [if_neg even, if_pos (by omega), Bool.not_not]
      · simp [quote]

theorem place_append (quoted : Bool) (front back : List Lexeme) :
    place quoted (front ++ back) = place quoted front ++ place (openAfter quoted front) back := by
  induction front generalizing quoted with
  | nil => rfl
  | cons lexeme rest hypothesis => rw [List.cons_append, place, hypothesis]; rfl

theorem lex_blank (a b : Text) : lex (a ++ ' ' :: b) = lex a ++ .character ' ' :: lex b := by
  induction a using lex.induct with
  | case1 => rfl
  | case2 text hypothesis => exact congrArg (Lexeme.escaped :: ·) hypothesis
  | case3 c text unescaped hypothesis =>
      have unescaped_behind (rest : Text) (backslash : c = '\\')
          (quote : text ++ ' ' :: b = '"' :: rest) : False := by
        cases text with
        | nil => cases quote
        | cons d text =>
            obtain ⟨rfl, -⟩ := List.cons.inj quote
            exact unescaped text backslash rfl
      rw [List.cons_append, lex, lex, hypothesis, List.cons_append]
      · exact unescaped
      · exact unescaped_behind

/-- A line whose quotes are closed and one behind it, a blank between, are cut apart. -/
theorem words_blank {a : Text} (closed : unescapedQuotes a % 2 = 0) (b : Text) :
    words (a ++ ' ' :: b) = words a ++ words b := by
  rw [unescapedQuotes_lex] at closed
  have blank : place false (.character ' ' :: lex b) = unquotedBlank :: read b := rfl
  rw [words, read, lex_blank, place_append, openAfter_count, if_pos closed, blank, wordsOf,
    List.splitOn_append_cons_self, List.filter_append]
  rfl

/-- A part ends with its quotes closed, but for the last one. -/
theorem part_quotes (quoted : Bool) (lexemes : List Lexeme) (front : List (List Placed))
    (part : List Placed) {back : List (List Placed)}
    (parted : (place quoted lexemes).splitOn unquotedBlank = front ++ part :: back) :
    ((if front = [] then quoted.toNat else 0) + quotes part) % 2 =
      if back = [] then (quoted.toNat + lexemes.count .quote) % 2 else 0 := by
  -- On the lexemes and the quote they start in: only the first part may begin inside one.
  induction lexemes generalizing quoted front part with
  | nil =>
      cases front with
      | nil =>
          obtain ⟨rfl, rfl⟩ := List.cons.inj parted
          simp [quotes]
      | cons first front => simp [place] at parted
  | cons lexeme rest hypothesis =>
      by_cases blank : (lexeme, quoted) = unquotedBlank
      · obtain ⟨rfl, rfl⟩ := Prod.mk.inj blank
        rw [place, if_neg (by exact nofun), List.splitOn_cons_eq_if_modifyHead,
          if_pos (by decide)] at parted
        cases front with
        | nil =>
            obtain ⟨rfl, rfl⟩ := List.cons.inj parted
            simp [quotes]
        | cons first front =>
            have behind := hypothesis false front part (List.cons.inj parted).2
            simpa using behind
      · rw [place, splitOn_lexeme blank] at parted
        have flips : (if lexeme = .quote then !quoted else quoted).toNat % 2 =
            (quoted.toNat + [lexeme].count .quote) % 2 := by
          cases quoted <;> by_cases quote : lexeme = .quote <;> simp [quote]
        have more : (lexeme :: rest).count .quote = [lexeme].count .quote + rest.count .quote := by
          rw [← List.count_append, List.singleton_append]
        have adds (part : List Placed) :
            quotes ((lexeme, quoted) :: part) = [lexeme].count .quote + quotes part := by
          simp [quotes, List.countP_cons, List.count_singleton, Nat.add_comm]
        generalize (if lexeme = .quote then !quoted else quoted) = turned at parted flips
        cases parts : (place turned rest).splitOn unquotedBlank with
        | nil => exact absurd parts (List.splitOn_ne_nil _ _)
        | cons first others =>
            rw [parts, List.modifyHead_cons] at parted
            rw [more]
            cases front with
            | nil =>
                obtain ⟨rfl, rfl⟩ := List.cons.inj parted
                have behind := hypothesis turned [] first parts
                rw [if_pos rfl] at behind ⊢
                rw [adds]
                by_cases last : others = []
                · rw [if_pos last] at behind ⊢
                  omega
                · rw [if_neg last] at behind ⊢
                  omega
            | cons head front =>
                obtain ⟨rfl, rfl⟩ := List.cons.inj parted
                have behind := hypothesis turned (first :: front) part parts
                rw [if_neg (List.cons_ne_nil _ _)] at behind ⊢
                by_cases last : back = []
                · rw [if_pos last] at behind ⊢
                  omega
                · rw [if_neg last] at behind ⊢
                  exact behind

/-- The quotes of a word are closed, but for those of the last one. -/
theorem word_quotes {line : Text} {before after : List (List Placed)} {word : List Placed}
    (parted : words line = before ++ word :: after) :
    quotes word % 2 = 0 ∨ after = [] ∧ unescapedQuotes line % 2 = 1 := by
  obtain ⟨front, middle, whole, rfl, split⟩ := List.filter_eq_append_iff.mp parted
  obtain ⟨skipped, back, rfl, dull, -, rfl⟩ := List.filter_eq_cons_iff.mp split
  rw [← List.append_assoc] at whole
  have closed := part_quotes false (lex line) _ word whole
  rw [← unescapedQuotes_lex] at closed
  by_cases last : back = []
  · subst last
    simp only [Bool.toNat_false, ite_self, Nat.zero_add, if_true] at closed
    rcases Nat.mod_two_eq_zero_or_one (quotes word) with even | odd
    · exact .inl even
    · exact .inr ⟨rfl, closed ▸ odd⟩
  · simp only [Bool.toNat_false, ite_self, Nat.zero_add, if_neg last] at closed
    exact .inl closed

theorem spell_empty {word : List Placed} :
    spell word = [] ↔ ∀ placed ∈ word, placed.1 = .quote := by
  rw [spell, List.flatMap_eq_nil_iff]
  apply forall₂_congr
  rintro ⟨lexeme, quoted⟩ -
  cases lexeme <;> simp [Lexeme.kept]

/-- Pairs of quotes with nothing inside. -/
structure QuotedEmpty (word : List Placed) : Prop where
  only_quotes : ∀ placed ∈ word, placed.1 = .quote
  present : word ≠ []
  closed : quotes word % 2 = 0

/-- The line ends in quotes that are not closed and have nothing behind them. -/
structure LeftOpen (line : Text) (word : List Placed) (after : List (List Placed)) : Prop where
  only_quotes : ∀ placed ∈ word, placed.1 = .quote
  last : after = []
  open_quote : unescapedQuotes line % 2 = 1

/-- What the tokens keep of a line, where one may be empty, and how lines are put together. -/
theorem tokenize_exact (line : Text) :
    (tokenize line).flatten =
      ((read line).filter (· ≠ unquotedBlank)).flatMap (fun placed => placed.1.kept) ∧
    tokenize line = (words line).map spell ∧
    (∀ before word after, words line = before ++ word :: after → spell word = [] →
      QuotedEmpty word ∨ LeftOpen line word after) ∧
    ∀ b, unescapedQuotes line % 2 = 0 →
      tokenize (line ++ ' ' :: b) = tokenize line ++ tokenize b := by
  refine ⟨?_, tokenize_words line, ?_, ?_⟩
  · rw [tokenize_words, ← words_flatten]
    simp only [List.flatMap_def, List.map_flatten, List.flatten_flatten, List.map_map]
    rfl
  · intro before word after parted empty
    have only_quotes := spell_empty.mp empty
    have listed : word ∈ words line := parted ▸ List.mem_append_right _ List.mem_cons_self
    rcases word_quotes parted with even | ⟨last, odd⟩
    · exact .inl ⟨only_quotes, by simpa using (List.mem_filter.mp listed).2, even⟩
    · exact .inr ⟨only_quotes, last, odd⟩
  · intro b closed
    rw [tokenize_words, tokenize_words, tokenize_words, words_blank closed, List.map_append]

/-- A single quote is an empty token, with no quoted text at all. -/
theorem lone_quote_empty :
    tokenize ['"'] = [[]] ∧ ¬ ∀ word ∈ words ['"'], spell word = [] → QuotedEmpty word := by
  refine ⟨by decide, fun claimed => ?_⟩
  have closed := (claimed [(.quote, false)] (by decide) (by decide)).closed
  exact absurd closed (by decide)

end VoltMod.CommandSyntax
