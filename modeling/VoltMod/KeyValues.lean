import VoltMod.SchemaChanges

/-! cli/voltmod/framework/eventgen.py, `parse_keyvalues`: the tokens of a KeyValues text and the
nested block they spell. Python's recursion limit is left out. -/
namespace VoltMod.KeyValues
open MigrationText (Text)
open Regex Patterns SchemaChanges Strip

inductive Token where
  | comment (text : Text)
  | newline
  | opens
  | closes
  | word (text : Text)
  deriving DecidableEq, Repr

inductive Entry where
  | pair (key value comment : Text)
  | block (key : Text) (body : List Entry) (comment : Text)

def brace (c : Char) : Bool := c == '{' || c == '}'

/-- `[^\s{}"]` -/
def bare (rules : CharRules) (c : Char) : Bool := !(rules.space c || brace c || c == '"')

def commentPattern : Pattern Char :=
  seq (one (· == '/')) (seq (one (· == '/')) (group 1 (many (· != '\n'))))

def quotedPattern : Pattern Char :=
  seq (one (· == '"')) (seq (group 2 (many (· != '"'))) (one (· == '"')))

/-- The groups are `comment`, `quoted`, `brace`, `bare` and `newline`, in this order. -/
def pattern (rules : CharRules) : Pattern Char :=
  either commentPattern (either quotedPattern (either (group 3 (one brace))
    (either (group 4 (many1 (bare rules))) (group 5 (one (· == '\n'))))))

def tokenOf (rules : CharRules) (found : Match Char) : Token :=
  match found.group 1 with
  | some comment => .comment (strip rules.space comment)
  | none =>
      if (found.group 5).isSome then .newline
      else match found.group 3 with
        | some mark => if mark = ['{'] then .opens else .closes
        | none => .word (((found.group 2).or (found.group 4)).getD [])

def tokens (rules : CharRules) (text : Text) : List Token :=
  (findAll (pattern rules) [] 0 text).map fun occurrence => tokenOf rules occurrence.found

def noise : Token → Bool
  | .comment _ | .newline => true
  | _ => false

/-- What a token that is taken for a value is stored as. -/
def Token.text : Token → Text
  | .comment text => text
  | .newline => []
  | .opens => ['{']
  | .closes => ['}']
  | .word text => text

def trailingComment : List Token → Text × List Token
  | .comment text :: rest => (text, rest)
  | rest => ([], rest)

/-- `unread` says that the fuel is spent; `parseKeyvalues` never fails so. -/
inductive Failure where
  | indexError
  | noBlock
  | unread
  deriving DecidableEq, Repr

def block : Nat → List Token → Except Failure (List Entry × List Token)
  | _, [] => .ok ([], [])
  | 0, _ :: _ => .error .unread
  | fuel + 1, token :: rest =>
      match token with
      | .closes => .ok ([], rest)
      | .word key =>
          let said := trailingComment rest
          match said.2.dropWhile noise with
          | [] => .error .indexError
          | .opens :: inner => do
              let (body, behind) ← block fuel inner
              let (entries, left) ← block fuel behind
              return (.block key body said.1 :: entries, left)
          | value :: behind => do
              let own := if said.1 = [] then trailingComment behind else (said.1, behind)
              let (entries, left) ← block fuel own.2
              return (.pair key value.text own.1 :: entries, left)
      | _ => block fuel rest

def parseKeyvalues (rules : CharRules) (text : Text) : Except Failure (List Entry) :=
  (block (tokens rules text).length (tokens rules text)).map Prod.fst

/-- A block as it is written: line breaks and comments stand before a key, between a key and its
value, behind a brace and at the end. -/
inductive Written where
  | done (left : List Token)
  | pair (before : List Token) (key : Text) (gap : List Token) (value : Text) (next : Written)
  | block (before : List Token) (key : Text) (gap : List Token) (body next : Written)

def Written.Quiet : Written → Prop
  | .done left => left.all noise
  | .pair before _ gap _ next => before.all noise ∧ gap.all noise ∧ next.Quiet
  | .block before _ gap body next =>
      before.all noise ∧ gap.all noise ∧ body.Quiet ∧ next.Quiet

/-- The noise it begins with. -/
def Written.lead : Written → List Token
  | .done left => left
  | .pair before .. => before
  | .block before .. => before

def Written.tokens : Written → List Token
  | .done left => left
  | .pair before key gap value next => before ++ .word key :: (gap ++ .word value :: next.tokens)
  | .block before key gap body next =>
      before ++ .word key :: (gap ++ .opens :: (body.tokens ++ .closes :: next.tokens))

/-- The comment that stands right behind. -/
def told : List Token → Text
  | .comment text :: _ => text
  | _ => []

/-- A pair's comment is the one behind its key, or else the one behind its value. -/
def Written.entries : Written → List Entry
  | .done _ => []
  | .pair _ key gap value next =>
      .pair key value (if told gap = [] then told next.lead else told gap) :: next.entries
  | .block _ key gap body next => .block key body.entries (told gap) :: next.entries

section Parsing
variable {fuel : Nat} {gap rest tail left : List Token}

theorem dropWhile_noise (rest : List Token) (quiet : gap.all noise) {value : Token}
    (solid : noise value = false) :
    (gap ++ value :: rest).dropWhile noise = value :: rest := by
  rw [List.dropWhile_append_of_pos (List.all_eq_true.mp quiet),
    List.dropWhile_cons_of_neg (by simp [solid])]

theorem trailing_gap (value : Token) (rest : List Token) (quiet : gap.all noise)
    (solid : noise value = false) :
    (trailingComment (gap ++ value :: rest)).1 = told gap ∧
      (trailingComment (gap ++ value :: rest)).2.dropWhile noise = value :: rest := by
  have passed := dropWhile_noise rest quiet solid
  cases gap with
  | nil =>
      cases value with
      | comment => cases solid
      | newline => cases solid
      | opens => exact ⟨rfl, passed⟩
      | closes => exact ⟨rfl, passed⟩
      | word => exact ⟨rfl, passed⟩
  | cons token gap =>
      rw [List.all_cons, Bool.and_eq_true] at quiet
      cases token with
      | comment text => exact ⟨rfl, dropWhile_noise rest quiet.2 solid⟩
      | newline => exact ⟨rfl, passed⟩
      | opens => cases quiet.1
      | closes => cases quiet.1
      | word => cases quiet.1

theorem block_noise (quiet : gap.all noise) :
    block (gap.length + fuel) (gap ++ rest) = block fuel rest := by
  induction gap with
  | nil => rw [List.length_nil, Nat.zero_add, List.nil_append]
  | cons token gap ih =>
      rw [List.all_cons, Bool.and_eq_true] at quiet
      rw [List.length_cons, Nat.add_right_comm, List.cons_append, ← ih quiet.2]
      cases token with
      | comment => rfl
      | newline => rfl
      | opens => cases quiet.1
      | closes => cases quiet.1
      | word => cases quiet.1

/-- What is read behind a comment is what is read with it. -/
theorem block_trailing {result : Except Failure (List Entry × List Token)}
    (read : ∀ fuel, rest.length ≤ fuel → block fuel rest = result)
    (enough : rest.length ≤ fuel) : block fuel (trailingComment rest).2 = result := by
  cases rest with
  | nil => exact read fuel enough
  | cons token rest =>
      cases token with
      | comment text => exact read (fuel + 1) (Nat.le_succ_of_le enough)
      | newline => exact read fuel enough
      | opens => exact read fuel enough
      | closes => exact read fuel enough
      | word => exact read fuel enough

/-- Where a block ends, and what is left there. -/
def Ends (tail left : List Token) : Prop := tail = [] ∧ left = [] ∨ tail = .closes :: left

theorem block_ends (ends : Ends tail left) (enough : tail.length ≤ fuel) :
    block fuel tail = .ok ([], left) := by
  rcases ends with ⟨rfl, rfl⟩ | rfl
  · rw [block]
  · obtain ⟨fuel, rfl⟩ := Nat.exists_eq_add_of_le' enough
    rfl

theorem trailing_lead (written : Written) (quiet : written.Quiet) (ends : Ends tail left) :
    (trailingComment (written.tokens ++ tail)).1 = told written.lead := by
  cases written with
  | done gap =>
      rcases ends with ⟨rfl, rfl⟩ | rfl
      · rw [List.append_nil]
        show (trailingComment gap).1 = told gap
        cases gap with
        | nil => rfl
        | cons token gap => cases token <;> rfl
      · exact (trailing_gap .closes left quiet rfl).1
  | pair before key gap value next =>
      rw [Written.tokens, List.append_assoc]
      exact (trailing_gap (.word key) _ quiet.1 rfl).1
  | block before key gap body next =>
      rw [Written.tokens, List.append_assoc]
      exact (trailing_gap (.word key) _ quiet.1 rfl).1

/-- Every written block is read as what is written in it, up to where it ends. -/
theorem block_written (written : Written) (quiet : written.Quiet) (ends : Ends tail left)
    (enough : (written.tokens ++ tail).length ≤ fuel) :
    block fuel (written.tokens ++ tail) = .ok (written.entries, left) := by
  induction written generalizing fuel tail left with
  | done gap =>
      rw [Written.tokens, List.length_append] at enough
      obtain ⟨more, rfl⟩ := Nat.exists_eq_add_of_le (Nat.le_of_add_right_le enough)
      rw [Written.tokens, block_noise quiet, block_ends ends (by omega)]
      rfl
  | pair before key gap value next ih =>
      obtain ⟨quietBefore, quietGap, quietNext⟩ := quiet
      simp only [Written.tokens, List.length_append, List.length_cons] at enough
      obtain ⟨more, rfl⟩ := Nat.exists_eq_add_of_le (show before.length + 1 ≤ fuel by omega)
      have room : (next.tokens ++ tail).length ≤ more := by
        rw [List.length_append]
        omega
      rw [Written.tokens, List.append_assoc, Nat.add_assoc, block_noise quietBefore, Nat.add_comm 1]
      simp only [List.cons_append, List.append_assoc]
      obtain ⟨said, behind⟩ := trailing_gap (.word value) (next.tokens ++ tail) quietGap rfl
      have trailing := block_trailing (fun fuel enough => ih quietNext ends enough) room
      have plain := ih quietNext ends room
      simp only [block, said, behind, Written.entries]
      split
      · rw [trailing, trailing_lead next quietNext ends]
        rfl
      · rw [plain]
        rfl
  | block before key gap body next ihBody ihNext =>
      obtain ⟨quietBefore, quietGap, quietBody, quietNext⟩ := quiet
      simp only [Written.tokens, List.length_append, List.length_cons] at enough
      obtain ⟨more, rfl⟩ := Nat.exists_eq_add_of_le (show before.length + 1 ≤ fuel by omega)
      rw [Written.tokens, List.append_assoc, Nat.add_assoc, block_noise quietBefore, Nat.add_comm 1]
      simp only [List.cons_append, List.append_assoc]
      obtain ⟨said, behind⟩ := trailing_gap .opens
        (body.tokens ++ .closes :: (next.tokens ++ tail)) quietGap rfl
      have inner : block more (body.tokens ++ .closes :: (next.tokens ++ tail)) =
          .ok (body.entries, next.tokens ++ tail) :=
        ihBody quietBody (.inr rfl) (by simp only [List.length_append, List.length_cons]; omega)
      have plain : block more (next.tokens ++ tail) = .ok (next.entries, left) :=
        ihNext quietNext ends (by rw [List.length_append]; omega)
      simp only [block, said, behind, Written.entries, inner, bind, Except.bind, plain]
      rfl

theorem trailing_short (tokens : List Token) :
    (trailingComment tokens).2.length ≤ tokens.length := by
  rw [trailingComment.eq_def]
  split
  · exact Nat.le_succ _
  · exact Nat.le_refl _

/-- A reading whose fuel sufficed, and that left no more than `room` tokens. -/
def Read (room : Nat) (result : Except Failure (List Entry × List Token)) : Prop :=
  (∀ failure, result = .error failure → failure = .indexError) ∧
    ∀ entries left, result = .ok (entries, left) → left.length ≤ room

theorem read_ok {room : Nat} (entries : List Entry) (short : left.length ≤ room) :
    Read room (.ok (entries, left)) := by
  refine ⟨fun _ wrong => (by cases wrong), fun _ _ same => ?_⟩
  cases same
  exact short

theorem read_bind {room : Nat} {Value : Type} {first : Except Failure Value}
    {next : Value → Except Failure (List Entry × List Token)}
    (here : ∀ failure, first = .error failure → failure = .indexError)
    (later : ∀ value, first = .ok value → Read room (next value)) : Read room (first >>= next) := by
  cases first with
  | error failure =>
      refine ⟨fun other same => ?_, fun _ _ same => by cases same⟩
      cases same
      exact here failure rfl
  | ok value => exact later value rfl

/-- The length of a list is fuel enough for it, and no reading goes back in it. -/
theorem block_enough (tokens : List Token) (enough : tokens.length ≤ fuel) :
    Read tokens.length (block fuel tokens) := by
  -- Every call is given fewer tokens than the one before, so a step a token is enough.
  induction fuel generalizing tokens with
  | zero =>
      obtain rfl := List.eq_nil_of_length_eq_zero (Nat.le_zero.mp enough)
      rw [block]
      exact read_ok [] (Nat.le_refl _)
  | succ fuel ih =>
      cases tokens with
      | nil =>
          rw [block]
          exact read_ok [] (Nat.le_refl _)
      | cons token rest =>
          have room : rest.length ≤ fuel := Nat.le_of_succ_le_succ enough
          have passed : Read (token :: rest).length (block fuel rest) :=
            ⟨(ih rest room).1, fun entries left same =>
              Nat.le_succ_of_le ((ih rest room).2 entries left same)⟩
          cases token with
          | comment text => exact passed
          | newline => exact passed
          | opens => exact passed
          | closes => exact read_ok [] (Nat.le_succ _)
          | word key =>
              have short := trailing_short rest
              have shorter : ((trailingComment rest).2.dropWhile noise).length ≤
                  (trailingComment rest).2.length := (List.dropWhile_sublist noise).length_le
              simp only [block]
              split
              · exact ⟨fun _ same => by cases same; rfl, fun _ _ same => by cases same⟩
              · rename_i inner found
                rw [found, List.length_cons] at shorter
                obtain ⟨readBody, shortBody⟩ := ih inner (by omega)
                apply read_bind readBody
                rintro ⟨body, behind⟩ here
                have bound := shortBody body behind here
                obtain ⟨readNext, shortNext⟩ := ih behind (by omega)
                apply read_bind readNext
                rintro ⟨entries, left⟩ there
                have further := shortNext entries left there
                exact read_ok _ (by simp only [List.length_cons]; omega)
              · rename_i value behind _ found
                rw [found, List.length_cons] at shorter
                have own : ((if (trailingComment rest).1 = [] then trailingComment behind
                    else ((trailingComment rest).1, behind)).2).length ≤ behind.length := by
                  split
                  · exact trailing_short behind
                  · exact Nat.le_refl _
                obtain ⟨readNext, shortNext⟩ := ih _ (Nat.le_trans own (by omega))
                apply read_bind readNext
                rintro ⟨entries, left⟩ there
                have further := shortNext entries left there
                exact read_ok _ (by simp only [List.length_cons]; omega)

end Parsing

/-- The texts of a list of tokens. A comment ends with its line, a bare word before a blank, a
brace or a quotation mark, and other blanks stand where they like. -/
inductive Spells (rules : CharRules) : Text → List Token → Prop
  | nil : Spells rules [] []
  | blank {c : Char} {text : Text} {tokens : List Token} (space : rules.space c = true)
      (within : c ≠ '\n') (rest : Spells rules text tokens) : Spells rules (c :: text) tokens
  | newline {text : Text} {tokens : List Token} (rest : Spells rules text tokens) :
      Spells rules ('\n' :: text) (.newline :: tokens)
  | comment {body text : Text} {tokens : List Token} (line : '\n' ∉ body)
      (ends : ∀ c ∈ text.head?, c = '\n') (rest : Spells rules text tokens) :
      Spells rules ('/' :: '/' :: (body ++ text)) (.comment (strip rules.space body) :: tokens)
  | opens {text : Text} {tokens : List Token} (rest : Spells rules text tokens) :
      Spells rules ('{' :: text) (.opens :: tokens)
  | closes {text : Text} {tokens : List Token} (rest : Spells rules text tokens) :
      Spells rules ('}' :: text) (.closes :: tokens)
  | quoted {body text : Text} {tokens : List Token} (plain : '"' ∉ body)
      (rest : Spells rules text tokens) :
      Spells rules ('"' :: (body ++ '"' :: text)) (.word body :: tokens)
  | word {body text : Text} {tokens : List Token} (some_ : body ≠ [])
      (plain : ∀ c ∈ body, bare rules c = true) (apart : ¬ ['/', '/'] <+: body)
      (ends : ∀ c ∈ text.head?, bare rules c = false) (rest : Spells rules text tokens) :
      Spells rules (body ++ text) (.word body :: tokens)

section Lexing
variable (rules : CharRules) {body text before : Text} {c : Char}

theorem space_plain (plain : ascii c = true) (solid : asciiSpace c = false)
    (space : rules.space c = true) : False := by
  rw [rules.spaces c plain, solid] at space
  cases space

theorem findAll_match (before : Text) (found : Match Char) (some_ : found.matched ≠ [])
    (here : (pattern rules (found.matched ++ text)).head? = some found) :
    findAll (pattern rules) before 0 (found.matched ++ text) =
      ⟨before, found⟩ :: findAll (pattern rules) (before ++ found.matched) 0 text := by
  obtain ⟨c, more, same⟩ := List.exists_cons_of_ne_nil some_
  rw [same] at here ⊢
  rw [List.cons_append] at here ⊢
  rw [findAll, here]
  simp only [same, List.length_cons, Nat.add_sub_cancel]
  rw [findAll_skip, List.append_assoc, List.singleton_append]

/-- The tokens do not depend on what was searched before. -/
theorem findAll_before (other : Text) (skip : Nat) :
    ((findAll (pattern rules) before skip text).map fun occurrence =>
        tokenOf rules occurrence.found) =
      (findAll (pattern rules) other skip text).map fun occurrence =>
        tokenOf rules occurrence.found := by
  induction text generalizing before other skip with
  | nil => cases skip <;> rfl
  | cons c text ih =>
      cases skip with
      | succ skip => exact ih _ skip
      | zero =>
          rw [findAll, findAll]
          split
          · exact congrArg (_ :: ·) (ih _ _)
          · exact ih _ 0

theorem tokens_match (body text : Text) (groups : List (Nat × Text)) (some_ : body ≠ [])
    (here : (pattern rules (body ++ text)).head? = some ⟨body, groups, text⟩) :
    tokens rules (body ++ text) = tokenOf rules ⟨body, groups, text⟩ :: tokens rules text := by
  have found := findAll_match rules [] ⟨body, groups, text⟩ some_ here
  rw [tokens, found, List.map_cons, findAll_before rules []]
  rfl

theorem tokens_skip (none_ : pattern rules (c :: text) = []) :
    tokens rules (c :: text) = tokens rules text := by
  rw [tokens, findAll, none_, List.head?_nil]
  exact findAll_before rules [] 0

theorem comment_none (other : c ≠ '/') : commentPattern (c :: text) = [] :=
  seq_none (one_none (by simpa using other))

theorem quoted_none (other : c ≠ '"') : quotedPattern (c :: text) = [] :=
  seq_none (one_none (by simpa using other))

theorem group_none {number : Nat} {inner : Pattern Char} (none_ : inner text = []) :
    group number inner text = [] := by
  rw [group, none_, List.map_nil]

theorem word_none (space : rules.space c = true) :
    group 4 (many1 (bare rules)) (c :: text) = [] := by
  apply group_none
  rw [many1]
  exact seq_none (one_none (by simp [bare, space]))

theorem pattern_blank (space : rules.space c = true) (within : c ≠ '\n') :
    pattern rules (c :: text) = [] := by
  have apart : ∀ d, ascii d = true → asciiSpace d = false → c ≠ d := by
    rintro d plain solid rfl
    exact space_plain rules plain solid space
  have noBrace : brace c = false := by
    simp [brace, apart '{' (by decide) (by decide), apart '}' (by decide) (by decide)]
  rw [pattern, either_second (comment_none (apart '/' (by decide) (by decide))),
    either_second (quoted_none (apart '"' (by decide) (by decide))),
    either_second (group_none (one_none noBrace)),
    either_second (word_none rules space)]
  exact group_none (one_none (by simpa using within))

theorem pattern_newline :
    (pattern rules ('\n' :: text)).head? = some ⟨['\n'], [(5, ['\n'])], text⟩ := by
  have space : rules.space '\n' = true := (rules.spaces _ (by decide)).trans (by decide)
  rw [pattern, either_second (comment_none (by decide)), either_second (quoted_none (by decide)),
    either_second (group_none (one_none (by decide))),
    either_second (word_none rules space)]
  exact group_first 5 (one_first rfl)

theorem pattern_brace (mark : brace c = true) :
    (pattern rules (c :: text)).head? = some ⟨[c], [(3, [c])], text⟩ := by
  have other : ∀ d, brace d = false → c ≠ d := by
    rintro d plain rfl
    rw [mark] at plain
    cases plain
  rw [pattern, either_second (comment_none (other '/' (by decide))),
    either_second (quoted_none (other '"' (by decide)))]
  exact either_first (group_first 3 (one_first mark))

theorem pattern_comment (line : '\n' ∉ body) (ends : ∀ c ∈ text.head?, c = '\n') :
    (pattern rules ('/' :: '/' :: (body ++ text))).head? =
      some ⟨'/' :: '/' :: body, [(1, body)], text⟩ := by
  have run : (many (· != '\n') (body ++ text)).head? = some ⟨body, [], text⟩ := many_run
    (by rintro c member; exact bne_iff_ne.mpr (by rintro rfl; exact line member))
    (by intro c member; simp [ends c member])
  exact either_first (seq_first (one_first rfl) (seq_first (one_first rfl) (group_first 1 run)))

theorem pattern_quoted (text : Text) (plain : '"' ∉ body) :
    (pattern rules ('"' :: (body ++ '"' :: text))).head? =
      some ⟨'"' :: (body ++ ['"']), [(2, body)], text⟩ := by
  have run : (many (· != '"') (body ++ '"' :: text)).head? =
      some ⟨body, [], '"' :: text⟩ := many_run
    (by rintro c member; exact bne_iff_ne.mpr (by rintro rfl; exact plain member))
    (by intro c member; cases member; rfl)
  have whole : (seq (group 2 (many (· != '"'))) (one (· == '"')) (body ++ '"' :: text)).head? =
      some ⟨body ++ ['"'], [(2, body)], text⟩ := seq_first (group_first 2 run) (one_first rfl)
  rw [pattern, either_second (comment_none (by decide))]
  exact either_first (seq_first (one_first rfl) whole)

theorem pattern_word (some_ : body ≠ []) (plain : ∀ c ∈ body, bare rules c = true)
    (apart : ¬ ['/', '/'] <+: body) (ends : ∀ c ∈ text.head?, bare rules c = false) :
    (pattern rules (body ++ text)).head? = some ⟨body, [(4, body)], text⟩ := by
  obtain ⟨c, more, rfl⟩ := List.exists_cons_of_ne_nil some_
  have here := plain c List.mem_cons_self
  have parts : rules.space c = false ∧ brace c = false ∧ c ≠ '"' := by
    simpa [bare, and_assoc] using here
  have slash : bare rules '/' = true := by
    simp [bare, brace, rules.spaces '/' (by decide), asciiSpace]
  have run : (many (bare rules) (more ++ text)).head? = some ⟨more, [], text⟩ := many_run
    (fun d member => plain d (List.mem_cons_of_mem _ member)) ends
  -- a comment's second mark would stand in the word, or be a bare character behind it
  have noComment : commentPattern (c :: (more ++ text)) = [] := by
    by_cases first : c = '/'
    · subst first
      apply seq_one rfl
      apply seq_none
      cases more with
      | nil =>
          cases text with
          | nil => rfl
          | cons d text =>
              apply one_none
              rw [beq_eq_false_iff_ne]
              rintro rfl
              have stops := ends '/' rfl
              rw [slash] at stops
              cases stops
      | cons d more =>
          apply one_none
          rw [beq_eq_false_iff_ne]
          rintro rfl
          exact apart ⟨more, rfl⟩
    · exact comment_none first
  rw [List.cons_append, pattern, either_second noComment, either_second (quoted_none parts.2.2),
    either_second (group_none (one_none parts.2.1))]
  exact either_first (group_first 4 (seq_first (one_first here) run))

/-- A text is read as the tokens it spells. -/
theorem tokens_spelled {text : Text} {spelled : List Token} (spells : Spells rules text spelled) :
    tokens rules text = spelled := by
  induction spells with
  | nil => rfl
  | blank space within _ ih => rw [tokens_skip rules (pattern_blank rules space within), ih]
  | @newline text _ _ ih =>
      have read := tokens_match rules ['\n'] text _ (List.cons_ne_nil _ [])
        (pattern_newline rules)
      rw [List.singleton_append] at read
      rw [ih] at read
      exact read
  | @comment body text _ line ends _ ih =>
      have read := tokens_match rules ('/' :: '/' :: body) text _ (by simp)
        (pattern_comment rules line ends)
      rw [List.cons_append, List.cons_append, ih] at read
      exact read
  | @opens text _ _ ih =>
      have read := tokens_match rules ['{'] text _ (List.cons_ne_nil _ [])
        (pattern_brace rules rfl)
      rw [List.singleton_append] at read
      rw [ih] at read
      exact read
  | @closes text _ _ ih =>
      have read := tokens_match rules ['}'] text _ (List.cons_ne_nil _ [])
        (pattern_brace rules rfl)
      rw [List.singleton_append] at read
      rw [ih] at read
      exact read
  | @quoted body text _ plain _ ih =>
      have read := tokens_match rules ('"' :: (body ++ ['"'])) text [(2, body)] (by simp)
        (by simpa using pattern_quoted rules text plain)
      simp only [List.cons_append, List.append_assoc, ih] at read
      exact read
  | word some_ plain apart ends _ ih =>
      rw [tokens_match rules _ _ _ some_ (pattern_word rules some_ plain apart ends), ih]
      rfl

/-- Whatever its layout, a KeyValues text is read as the nested pairs and comments written in
it. -/
theorem parse_written (written : Written) (quiet : written.Quiet)
    (spells : Spells rules text written.tokens) :
    parseKeyvalues rules text = .ok written.entries := by
  have whole := block_written written quiet (.inl ⟨rfl, rfl⟩) (Nat.le_refl _)
  rw [List.append_nil] at whole
  rw [parseKeyvalues, tokens_spelled rules spells, whole]
  rfl

/-- Nothing but a key with no value behind it stops the parser. -/
theorem parse_stops {failure : Failure} (stops : parseKeyvalues rules text = .error failure) :
    failure = .indexError := by
  have read := block_enough (tokens rules text) (Nat.le_refl _)
  rw [parseKeyvalues] at stops
  cases whole : block (tokens rules text).length (tokens rules text) with
  | error other =>
      rw [whole] at stops
      cases stops
      exact read.1 _ whole
  | ok result =>
      rw [whole] at stops
      cases stops

end Lexing

/-- A block, its comment and a pair, in the layouts the game's files have. -/
theorem hurt_read : parseKeyvalues asciiRules "\"hurt\" // told\n\x7b\n userid short\n\x7d".toList =
    .ok [.block "hurt".toList [.pair "userid".toList "short".toList []] "told".toList] := by
  have short : Spells asciiRules "short\n\x7d".toList [.word "short".toList, .newline, .closes] :=
    @Spells.word _ "short".toList _ _ (by decide) (List.all_eq_true.mp (by decide)) (by decide)
      (by rintro _ ⟨⟩; decide) (.newline (.closes .nil))
  have pair : Spells asciiRules "userid short\n\x7d".toList
      [.word "userid".toList, .word "short".toList, .newline, .closes] :=
    @Spells.word _ "userid".toList _ _ (by decide) (List.all_eq_true.mp (by decide)) (by decide)
      (by rintro _ ⟨⟩; decide) (.blank rfl (by decide) short)
  have comment : Spells asciiRules "// told\n\x7b\n userid short\n\x7d".toList
      (.comment "told".toList :: .newline :: .opens :: .newline ::
        [.word "userid".toList, .word "short".toList, .newline, .closes]) :=
    @Spells.comment _ " told".toList _ _ (by decide) (by rintro _ ⟨⟩; rfl)
      (.newline (.opens (.newline (.blank rfl (by decide) pair))))
  have spells : Spells asciiRules "\"hurt\" // told\n\x7b\n userid short\n\x7d".toList
      (.word "hurt".toList :: .comment "told".toList :: .newline :: .opens :: .newline ::
        [.word "userid".toList, .word "short".toList, .newline, .closes]) :=
    @Spells.quoted _ "hurt".toList _ _ (by decide) (.blank rfl (by decide) comment)
  exact parse_written asciiRules (.block [] "hurt".toList [.comment "told".toList, .newline]
    (.pair [.newline] "userid".toList [] "short".toList (.done [.newline])) (.done []))
    ⟨rfl, rfl, ⟨rfl, rfl, rfl⟩, rfl⟩ spells

end VoltMod.KeyValues
