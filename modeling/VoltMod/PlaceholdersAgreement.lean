import VoltMod.MigrationPlaceholders
import VoltMod.Utf8
import Mathlib.Data.List.TakeWhile

/-! Two renderers of the dialect placeholders, the command line's over the characters of a
text and the runtime's over its bytes, compared through the reading of a text as a row of
pieces. -/
namespace VoltMod.MigrationPlaceholders
open MigrationText Regex Utf8

/-- A name, or a name with arguments in which neither mark occurs. -/
def Token (token : Text) : Prop :=
  ∃ name arguments, token = name ++ arguments ∧ name ≠ [] ∧ (∀ c ∈ name, nameChar c = true) ∧
    (arguments = [] ∨
      ∃ inner, arguments = '(' :: inner ++ [')'] ∧ ∀ c ∈ inner, notClosing c = true)

inductive Piece where
  | plain (c : Char)
  | token (name : Text)
  deriving DecidableEq, Repr

/-- How a text reads from the left: a mark that opens a token begins one, every other
character stands for itself. -/
inductive Reads : Text → List Piece → Prop where
  | nil : Reads [] []
  | token {name rest : Text} {pieces : List Piece} (grammar : Token name)
      (later : Reads rest pieces) : Reads ('@' :: name ++ '@' :: rest) (.token name :: pieces)
  | plain {c : Char} {rest : Text} {pieces : List Piece}
      (stray : c = '@' → ∀ name after, rest = name ++ '@' :: after → ¬Token name)
      (later : Reads rest pieces) : Reads (c :: rest) (.plain c :: pieces)

/-- Every token is spelled once, the rest stays as it is; an unknown one refuses all. -/
def render {Refusal : Type} (spelling : Text → Except Refusal Text) :
    List Piece → Except Refusal Text
  | [] => .ok []
  | .plain c :: rest => (render spelling rest).map (c :: ·)
  | .token name :: rest =>
      (spelling name).bind fun spelled => (render spelling rest).map (spelled ++ ·)

theorem takeWhile_stop {keep : Char → Bool} {first : Text} {c : Char}
    (kept : ∀ d ∈ first, keep d = true) (stops : keep c = false) (rest : Text) :
    (first ++ c :: rest).takeWhile keep = first ∧
      (first ++ c :: rest).dropWhile keep = c :: rest := by
  rw [List.takeWhile_append_of_pos kept, List.dropWhile_append_of_pos kept,
    List.takeWhile_cons_of_neg (by simp [stops]), List.dropWhile_cons_of_neg (by simp [stops])]
  exact ⟨List.append_nil first, rfl⟩

theorem withArguments_cases (name after : Text) :
    withArguments name after = (name, after) ∨
      ∃ inner rest, after = '(' :: inner ++ ')' :: rest ∧ (∀ c ∈ inner, notClosing c = true) ∧
        withArguments name after = (name ++ '(' :: inner ++ [')'], rest) := by
  unfold withArguments
  split
  · next inner =>
      split
      · next rest closed =>
          refine Or.inr ⟨inner.takeWhile notClosing, rest, ?_, ?_, rfl⟩
          · rw [List.cons_append, ← closed]
            exact congrArg ('(' :: ·) (List.takeWhile_append_dropWhile ..).symm
          · exact fun c member => List.mem_takeWhile_imp member
      · exact Or.inl rfl
  · exact Or.inl rfl

theorem behindMark_some {text rest : Text} (found : behindMark text = some rest) :
    text = '@' :: rest := by
  unfold behindMark at found
  split at found
  · cases found
    rfl
  · cases found

/-- The scanner finds the tokens of the grammar, and no others. -/
theorem placeholder_iff (text token after : Text) :
    placeholder text = some (token, after) ↔ Token token ∧ text = token ++ '@' :: after := by
  constructor
  · intro found
    by_cases some_ : text.takeWhile nameChar = []
    · rw [placeholder, if_pos some_] at found
      cases found
    · rw [placeholder_eq text some_] at found
      obtain ⟨rest, marked, same⟩ := Option.map_eq_some_iff.mp found
      have whole : text.takeWhile nameChar ++ text.dropWhile nameChar = text :=
        List.takeWhile_append_dropWhile ..
      have named : ∀ c ∈ text.takeWhile nameChar, nameChar c = true :=
        fun c member => List.mem_takeWhile_imp member
      have behind := behindMark_some marked
      rcases withArguments_cases (text.takeWhile nameChar) (text.dropWhile nameChar) with
        bare | ⟨inner, more, opened, closed, full⟩
      · rw [bare] at behind same
        cases same
        refine ⟨⟨_, [], (List.append_nil _).symm, some_, named, Or.inl rfl⟩, ?_⟩
        dsimp only at behind
        rw [← behind]
        exact whole.symm
      · rw [full] at behind same
        cases same
        dsimp only at behind
        subst behind
        refine ⟨⟨_, _, List.append_assoc .., some_, named, Or.inr ⟨inner, rfl, closed⟩⟩, ?_⟩
        apply whole.symm.trans
        rw [opened]
        simp
  · rintro ⟨⟨name, arguments, rfl, some_, named, bare | ⟨inner, rfl, closed⟩⟩, rfl⟩
    · subst bare
      obtain ⟨taken, left⟩ := takeWhile_stop named (c := '@') (by decide) after
      rw [List.append_nil, placeholder_eq _ (by rwa [taken]), taken, left]
      rfl
    · have shape : name ++ ('(' :: inner ++ [')']) ++ '@' :: after =
          name ++ '(' :: (inner ++ ')' :: '@' :: after) := by simp
      obtain ⟨taken, left⟩ := takeWhile_stop named (c := '(') (by decide)
        (inner ++ ')' :: '@' :: after)
      obtain ⟨inside, outside⟩ := takeWhile_stop closed (c := ')') (by decide) ('@' :: after)
      have parted : withArguments name ('(' :: (inner ++ ')' :: '@' :: after)) =
          (name ++ '(' :: inner ++ [')'], '@' :: after) := by
        unfold notClosing at inside outside
        simp only [withArguments, inside, outside]
      rw [shape, placeholder_eq _ (by rwa [taken]), taken, left, parted]
      simp [behindMark]

theorem placeholder_stray {rest : Text}
    (stray : ∀ name after, rest = name ++ '@' :: after → ¬Token name) :
    placeholder rest = none := by
  cases found : placeholder rest with
  | none => rfl
  | some answer =>
      obtain ⟨grammar, split⟩ := (placeholder_iff rest answer.1 answer.2).mp found
      exact absurd grammar (stray _ _ split)

/-- ResolveDialect over a reading of the text. -/
theorem resolve_reads (dialect : Dialect) {sql : Text} {pieces : List Piece}
    (reads : Reads sql pieces) :
    resolveFrom dialect sql.length sql = render (spell dialect) pieces := by
  induction reads with
  | nil => rfl
  | @token name rest pieces grammar later ih =>
      have found := (placeholder_iff (name ++ '@' :: rest) name rest).mpr ⟨grammar, rfl⟩
      have enough : rest.length ≤ (name ++ '@' :: rest).length := by
        simp only [List.length_append, List.length_cons]
        omega
      rw [List.cons_append, List.length_cons, resolveFrom, if_pos rfl, found, render]
      dsimp only
      cases spell dialect name with
      | error refusal => rfl
      | ok spelled =>
          dsimp only
          rw [resolve_enough dialect (Nat.le_refl rest.length) enough, ih]
          rfl
  | @plain c rest pieces stray later ih =>
      rw [List.length_cons, resolveFrom, render]
      by_cases marks : c = '@'
      · rw [if_pos marks, placeholder_stray (stray marks), ih]
      · rw [if_neg marks, ih]

/-- resolve_placeholders over a reading of the text. -/
theorem sub_reads {Refusal : Type} (spelling : Text → Except Refusal Text) {sql : Text}
    {pieces : List Piece} (reads : Reads sql pieces) :
    sub placeholderPattern (fun found => spelling ((found.group 1).getD [])) sql =
      render spelling pieces := by
  induction reads with
  | nil => exact sub_nil
  | @token name rest pieces grammar later ih =>
      have found := (placeholder_iff (name ++ '@' :: rest) name rest).mpr ⟨grammar, rfl⟩
      have first := pattern_at (name ++ '@' :: rest)
      rw [found, Option.map_some] at first
      rw [List.cons_append, sub_match first (List.cons_ne_nil _ _), ih]
      rfl
  | @plain c rest pieces stray later ih =>
      have none_ : matchAt placeholderPattern (c :: rest) = none := by
        by_cases marks : c = '@'
        · rw [marks, pattern_at, placeholder_stray (stray marks)]
          rfl
        · rw [matchAt_eq, placeholderPattern, thenFirst_seq, thenFirst_one_cons]
          simp [marks]
      rw [sub_skip none_, ih]
      rfl

theorem reads_exists (sql : Text) : ∃ pieces, Reads sql pieces := by
  induction length : sql.length using Nat.strong_induction_on generalizing sql with
  | _ size ih =>
      cases sql with
      | nil => exact ⟨[], .nil⟩
      | cons c rest =>
          rw [List.length_cons] at length
          by_cases opens : c = '@' ∧ ∃ name after, rest = name ++ '@' :: after ∧ Token name
          · obtain ⟨rfl, name, after, rfl, grammar⟩ := opens
            simp only [List.length_append, List.length_cons] at length
            obtain ⟨pieces, later⟩ := ih after.length (by omega) after rfl
            exact ⟨.token name :: pieces, .token grammar later⟩
          · obtain ⟨pieces, later⟩ := ih rest.length (by omega) rest rfl
            refine ⟨.plain c :: pieces, .plain ?_ later⟩
            intro marks name after split grammar
            exact opens ⟨marks, name, after, split, grammar⟩

theorem reads_unique {sql : Text} {pieces others : List Piece} (reads : Reads sql pieces)
    (again : Reads sql others) : others = pieces := by
  induction reads generalizing others with
  | nil =>
      cases again
      rfl
  | @token name rest pieces grammar later ih =>
      generalize text_eq : '@' :: name ++ '@' :: rest = text at again
      cases again with
      | nil => cases text_eq
      | @token name' rest' pieces' grammar' later' =>
          have same := (List.cons.inj text_eq).2
          have one := (placeholder_iff (name ++ '@' :: rest) name rest).mpr ⟨grammar, rfl⟩
          have two := (placeholder_iff (name ++ '@' :: rest) name' rest').mpr ⟨grammar', same⟩
          obtain ⟨rfl, rfl⟩ := Prod.mk.inj (Option.some.inj (one.symm.trans two))
          rw [ih later']
      | @plain c rest' pieces' stray later' =>
          obtain ⟨rfl, rfl⟩ := List.cons.inj text_eq
          exact absurd grammar (stray rfl name rest rfl)
  | @plain c rest pieces stray later ih =>
      generalize text_eq : c :: rest = text at again
      cases again with
      | nil => cases text_eq
      | @token name' rest' pieces' grammar' later' =>
          obtain ⟨rfl, rfl⟩ := List.cons.inj text_eq
          exact absurd grammar' (stray rfl name' rest' rfl)
      | @plain c' rest' pieces' stray' later' =>
          obtain ⟨rfl, rfl⟩ := List.cons.inj text_eq
          rw [ih later']

theorem name_ascii {c : Char} (named : nameChar c = true) : ascii c := by
  have small : ('A' ≤ c ∧ c ≤ 'Z') ∨ c = '_' := by simpa [nameChar] using named
  rcases small with ⟨-, below⟩ | rfl
  · exact Nat.lt_of_le_of_lt (Char.le_def.mp below) (by decide)
  · decide

theorem encode_name {name : Text} (named : ∀ c ∈ name, nameChar c = true) :
    encode name = name := encode_ascii fun c member => name_ascii (named c member)

theorem closing_encode {inner : Text} :
    (∀ c ∈ encode inner, notClosing c = true) ↔ ∀ c ∈ inner, notClosing c = true := by
  have marks (text : Text) :
      (∀ c ∈ text, notClosing c = true) ↔ ')' ∉ text ∧ '@' ∉ text := by
    constructor
    · intro all
      exact ⟨fun member => absurd (all _ member) (by decide),
        fun member => absurd (all _ member) (by decide)⟩
    · rintro ⟨closes, opens⟩ c member
      have apart : c ≠ ')' ∧ c ≠ '@' :=
        ⟨fun same => closes (same ▸ member), fun same => opens (same ▸ member)⟩
      simpa [notClosing] using apart
  rw [marks, marks, mem_encode (by decide), mem_encode (by decide)]

/-- A token's bytes are a token, and no other text's bytes are. -/
theorem token_encode {name : Text} : Token (encode name) ↔ Token name := by
  constructor
  · rintro ⟨word, arguments, split, some_, named, bare | ⟨inner, rfl, closed⟩⟩
    · subst bare
      have plain : ∀ c ∈ word ++ [], ascii c := by
        rw [List.append_nil]
        exact fun c member => name_ascii (named c member)
      refine ⟨word, [], encode_plain plain split, some_, named, Or.inl rfl⟩
    · obtain ⟨behind, rfl, left⟩ :=
        encode_front (fun c member => name_ascii (named c member)) split
      have opened : encode behind = [] ++ '(' :: (inner ++ [')']) := left
      obtain ⟨opening, more, rfl, taken, closes⟩ :=
        encode_split (by decide : ascii '(') opened
      obtain rfl := encode_eq_nil taken
      obtain ⟨between, last, rfl, same, ended⟩ := encode_split (by decide : ascii ')') closes
      obtain rfl := encode_eq_nil ended
      subst same
      exact ⟨word, _, rfl, some_, named, Or.inr ⟨between, rfl, closing_encode.mp closed⟩⟩
  · rintro ⟨word, arguments, rfl, some_, named, bare | ⟨inner, rfl, closed⟩⟩
    · subst bare
      rw [List.append_nil, encode_name named]
      exact ⟨word, [], (List.append_nil word).symm, some_, named, Or.inl rfl⟩
    · refine ⟨word, '(' :: encode inner ++ [')'], ?_, some_, named,
        Or.inr ⟨encode inner, rfl, closing_encode.mpr closed⟩⟩
      rw [encode_append, encode_name named, List.cons_append, encode_cons, encode_append,
        bytesOf_ascii (by decide : ascii '('), encode_ascii (by simp [ascii] : ∀ c ∈ [')'], ascii c)]
      rfl

def encodePiece : Piece → List Piece
  | .plain c => (bytesOf c).map .plain
  | .token name => [.token (encode name)]

theorem reads_plain {bytes rest : Text} {pieces : List Piece} (marks : '@' ∉ bytes)
    (later : Reads rest pieces) : Reads (bytes ++ rest) (bytes.map .plain ++ pieces) := by
  induction bytes with
  | nil => exact later
  | cons byte bytes ih =>
      refine .plain (fun same => absurd (same ▸ List.mem_cons_self) marks) ?_
      exact ih fun member => marks (List.mem_cons_of_mem byte member)

/-- The bytes of a text read as the text does. -/
theorem reads_encode {sql : Text} {pieces : List Piece} (reads : Reads sql pieces) :
    Reads (encode sql) (pieces.flatMap encodePiece) := by
  have mark : ascii '@' := by decide
  induction reads with
  | nil => exact .nil
  | @token name rest pieces grammar later ih =>
      have bytes : encode ('@' :: name ++ '@' :: rest) = '@' :: encode name ++ '@' :: encode rest := by
        rw [List.cons_append, encode_cons, encode_append, encode_cons, bytesOf_ascii mark]
        rfl
      rw [bytes]
      exact .token (token_encode.mpr grammar) ih
  | @plain c rest pieces stray later ih =>
      rw [encode_cons, List.flatMap_cons, encodePiece]
      by_cases marks : c = '@'
      · subst marks
        rw [bytesOf_ascii mark]
        refine .plain (fun _ name after split grammar => ?_) ih
        obtain ⟨before, behind, rfl, taken, left⟩ := encode_split mark split
        subst taken
        exact stray rfl before behind rfl (token_encode.mp grammar)
      · refine reads_plain (fun member => ?_) ih
        by_cases narrow : ascii c
        · rw [bytesOf_ascii narrow] at member
          exact marks (List.mem_singleton.mp member).symm
        · exact bytesOf_high narrow member mark

/-- One answer of the two renderers: the same bytes, or the same refusal. -/
def Agrees : Except String Text → Except Error Text → Prop
  | .ok text, .ok bytes => bytes = encode text
  | .error refusal, .error error => error = .invalid (String.ofList (encode refusal.toList))
  | _, _ => False

theorem agrees_append {head bytes : Except String Text}
    {head' bytes' : Except Error Text} (first : Agrees head head') (second : Agrees bytes bytes') :
    Agrees (head.bind fun spelled => bytes.map (spelled ++ ·))
      (head'.bind fun spelled => bytes'.map (spelled ++ ·)) := by
  cases head with
  | error refusal =>
      cases head' with
      | error error => exact first
      | ok spelled => exact first.elim
  | ok spelled =>
      cases head' with
      | error error => exact first.elim
      | ok spelled' =>
          cases bytes with
          | error refusal =>
              cases bytes' with
              | error error => exact second
              | ok rest => exact second.elim
          | ok rest =>
              cases bytes' with
              | error error => exact second.elim
              | ok rest' =>
                  change spelled' ++ rest' = encode (spelled ++ rest)
                  rw [encode_append, ← (first : spelled' = _), ← (second : rest' = _)]

theorem token_closed {columns : Text} (grammar : Token (conflictToken ++ columns)) :
    ∃ inner, columns = inner ++ [')'] := by
  obtain ⟨name, arguments, split, some_, named, bare | ⟨inner, rfl, closed⟩⟩ := grammar
  · -- A bare name holds no opening parenthesis.
    rw [bare, List.append_nil] at split
    have member : '(' ∈ name := split ▸ List.mem_append_left columns (by decide)
    exact absurd (named _ member) (by decide)
  · rcases List.eq_nil_or_concat columns with rfl | ⟨more, last, rfl⟩
    · have ends := congrArg List.getLast? split
      rw [List.append_nil, ← List.append_assoc, List.getLast?_concat] at ends
      exact absurd ends (by decide)
    · rw [List.concat_eq_append, ← List.append_assoc, ← List.append_assoc] at split
      refine ⟨more, ?_⟩
      rw [List.concat_eq_append, List.append_inj_right' split rfl]

theorem removeSuffix_append (suffix text : Text) : removeSuffix suffix (text ++ suffix) = text := by
  have ends : suffix.isSuffixOf (text ++ suffix) = true :=
    List.isSuffixOf_iff_suffix.mpr (List.suffix_append text suffix)
  rw [removeSuffix, if_pos ends, List.length_append, Nat.add_sub_cancel, List.take_left]

def row (driver : Driver) : Values := (dialects.lookup (driverName driver)).getD []

theorem row_eq (driver : Driver) : dialects.lookup (driverName driver) = some (row driver) := by
  cases driver with
  | postgres => decide
  | mariaDb => decide
  | sqlite => decide

def names : List Text :=
  ["ID".toList, "NOW".toList, "TRUE".toList, "FALSE".toList, "INSERT_IF_ABSENT".toList]

theorem row_names (driver : Driver) : (row driver).map Prod.fst = names := by
  cases driver with
  | postgres => decide
  | mariaDb => decide
  | sqlite => decide

theorem row_ascii (driver : Driver) : ∀ entry ∈ row driver,
    (row driver).lookup entry.1 = some entry.2 ∧ (∀ c ∈ entry.1, ascii c) ∧
      ∀ c ∈ entry.2, ascii c := by
  have checked : ∀ entry ∈ row driver, (row driver).lookup entry.1 = some entry.2 ∧
      (entry.1.all fun c => decide (ascii c)) = true ∧
      (entry.2.all fun c => decide (ascii c)) = true := by
    cases driver with
    | postgres => decide +kernel
    | mariaDb => decide +kernel
    | sqlite => decide +kernel
  intro entry member
  obtain ⟨found, name, spelled⟩ := checked entry member
  exact ⟨found, ascii_text name, ascii_text spelled⟩

/-- The two tables hold the same spellings. -/
theorem row_spelled (driver : Driver) : ∀ entry ∈ row driver,
    (spell (dialectFor driver) entry.1).toOption = some entry.2 := by
  cases driver with
  | postgres => decide +kernel
  | mariaDb => decide +kernel
  | sqlite => decide +kernel

theorem spell_unknown {dialect : Dialect} {token : Text} (unknown : token ∉ names)
    (other : conflictToken.isPrefixOf token = false) :
    spell dialect token = .error (unknownPlaceholder token) := by
  have apart {word : Text} (member : word ∈ names) : token ≠ word :=
    fun same => unknown (same ▸ member)
  rw [spell, if_neg (apart (by decide)), if_neg (apart (by decide)), if_neg (apart (by decide)),
    if_neg (apart (by decide)), if_neg (apart (by decide)), if_neg (Bool.eq_false_iff.mp other)]

theorem spell_conflict (dialect : Dialect) (columns : Text) :
    spell dialect (conflictToken ++ columns) = .ok (if dialect.needsConflictClause then
      "ON CONFLICT (".toList ++ columns ++ " DO NOTHING".toList else []) := by
  have apart {word : Text} (start : word.head? ≠ some 'O') : conflictToken ++ columns ≠ word :=
    fun same => start (same ▸ rfl)
  have opens : conflictToken.isPrefixOf (conflictToken ++ columns) = true :=
    List.isPrefixOf_iff_prefix.mpr (List.prefix_append conflictToken columns)
  rw [spell, if_neg (apart (by decide)), if_neg (apart (by decide)), if_neg (apart (by decide)),
    if_neg (apart (by decide)), if_neg (apart (by decide)), if_pos opens, List.drop_left]
  split
  · rfl
  · rfl

theorem conflict_clause (driver : Driver) :
    (dialectFor driver).needsConflictClause = true ↔ driverName driver = "postgres" := by
  cases driver with
  | postgres => decide
  | mariaDb => decide
  | sqlite => decide

theorem unknown_ascii : ∀ c ∈ "unknown migration placeholder @".toList, ascii c :=
  ascii_text (by decide +kernel)

theorem unknown_encode (token : Text) :
    String.ofList (encode (unknownName token).toList) =
      "unknown migration placeholder @" ++ String.ofList (encode token) ++ "@" := by
  have closing : ∀ c ∈ "@".toList, ascii c := ascii_text (by decide)
  unfold unknownName
  generalize opening : "unknown migration placeholder @" = start
  have plain := unknown_ascii
  rw [opening] at plain
  rw [String.toList_append, String.toList_append, String.toList_ofList, encode_append,
    encode_append, encode_ascii plain, encode_ascii closing, String.ofList_append,
    String.ofList_append, String.ofList_toList, String.ofList_toList]

/-- Both renderers spell a token alike, or refuse it alike. -/
theorem spelling_agrees (driver : Driver) {token : Text} (grammar : Token token) :
    Agrees (replacement (driverName driver) (row driver) token)
      (spell (dialectFor driver) (encode token)) := by
  have plain : ∀ c ∈ conflictToken, ascii c := ascii_text (by decide)
  unfold replacement
  split
  -- The conflict token carries its columns along.
  · next opens =>
      obtain ⟨columns, rfl⟩ := List.isPrefixOf_iff_prefix.mp opens
      obtain ⟨inner, rfl⟩ := token_closed grammar
      rw [List.drop_left, removeSuffix_append, encode_append, encode_ascii plain, spell_conflict]
      dsimp only
      by_cases clause : driverName driver = "postgres"
      · rw [if_pos clause, if_pos ((conflict_clause driver).mpr clause)]
        change _ = encode ("ON CONFLICT (".toList ++ inner ++ ") DO NOTHING".toList)
        have opening : ∀ c ∈ "ON CONFLICT (".toList, ascii c := ascii_text (by decide)
        have closing : ∀ c ∈ ") DO NOTHING".toList, ascii c := ascii_text (by decide)
        have bracket : ∀ c ∈ [')'], ascii c := ascii_text (by decide)
        rw [encode_append, encode_append, encode_append, encode_ascii opening,
          encode_ascii closing, encode_ascii bracket, ← List.append_assoc,
          List.append_assoc _ [')']]
        rfl
      · rw [if_neg clause, if_neg fun needs => clause ((conflict_clause driver).mp needs)]
        rfl
  · next other =>
      -- Any other token is a row of both tables or of neither.
      by_cases known : token ∈ names
      · rw [← row_names driver] at known
        obtain ⟨entry, member, rfl⟩ := List.mem_map.mp known
        obtain ⟨found, word, value⟩ := row_ascii driver entry member
        have spelled := row_spelled driver entry member
        rw [found, encode_ascii word]
        cases answer : spell (dialectFor driver) entry.1 with
        | error refusal =>
            rw [answer] at spelled
            cases spelled
        | ok text =>
            rw [answer] at spelled
            obtain rfl := Option.some.inj spelled
            exact (encode_ascii value).symm
      · have missing : (row driver).lookup token = none := by
          apply List.lookup_eq_none_iff.mpr
          intro entry member
          have apart : token ≠ entry.1 := by
            rintro rfl
            exact known (row_names driver ▸ List.mem_map_of_mem member)
          simpa using apart
        have unknown : encode token ∉ names := by
          intro member
          rw [← row_names driver] at member
          obtain ⟨entry, inside, same⟩ := List.mem_map.mp member
          have whole := encode_plain (row_ascii driver entry inside).2.1 same.symm
          exact known (row_names driver ▸ whole ▸ List.mem_map_of_mem inside)
        have apart : conflictToken.isPrefixOf (encode token) = false := by
          rw [Bool.eq_false_iff]
          intro opens
          obtain ⟨after, split⟩ := List.isPrefixOf_iff_prefix.mp opens
          obtain ⟨behind, rfl, left⟩ := encode_front plain split.symm
          exact other (List.isPrefixOf_iff_prefix.mpr (List.prefix_append conflictToken behind))
        rw [missing, spell_unknown unknown apart]
        change unknownPlaceholder (encode token) = _
        exact congrArg Error.invalid (unknown_encode token).symm

theorem render_plain {Refusal : Type} (spelling : Text → Except Refusal Text) (bytes : Text)
    (pieces : List Piece) : render spelling (bytes.map .plain ++ pieces) =
      (Except.ok bytes).bind fun front => (render spelling pieces).map (front ++ ·) := by
  induction bytes with
  | nil =>
      change render spelling pieces = (render spelling pieces).map fun rest => rest
      cases render spelling pieces with
      | error refusal => rfl
      | ok rest => rfl
  | cons byte bytes ih =>
      rw [List.map_cons, List.cons_append, render, ih]
      change ((render spelling pieces).map (bytes ++ ·)).map (byte :: ·) =
        (render spelling pieces).map (byte :: bytes ++ ·)
      cases render spelling pieces with
      | error refusal => rfl
      | ok rest => rfl

theorem render_agrees (driver : Driver) {sql : Text} {pieces : List Piece}
    (reads : Reads sql pieces) :
    Agrees (render (replacement (driverName driver) (row driver)) pieces)
      (render (spell (dialectFor driver)) (pieces.flatMap encodePiece)) := by
  induction reads with
  | nil => rfl
  | token grammar later ih => exact agrees_append (spelling_agrees driver grammar) ih
  | @plain c rest pieces stray later ih =>
      have front : Agrees (.ok [c]) (.ok (bytesOf c)) := (List.append_nil (bytesOf c)).symm
      rw [List.flatMap_cons, encodePiece, render_plain]
      exact agrees_append front ih

def Known (token : Text) : Prop := token ∈ names ∨ conflictToken.isPrefixOf token = true

theorem replacement_known (driver : Driver) (token : Text) :
    (∃ spelled, replacement (driverName driver) (row driver) token = .ok spelled) ↔
      Known token := by
  unfold replacement Known
  split
  · next opens => exact ⟨fun _ => Or.inr opens, fun _ => ⟨_, rfl⟩⟩
  · next other =>
      have listed : token ∈ names ↔ ∃ value, (row driver).lookup token = some value := by
        rw [← row_names driver, ← Option.isSome_iff_exists, List.lookup_isSome_iff, List.mem_map]
        constructor
        · rintro ⟨entry, member, rfl⟩
          exact ⟨entry, member, beq_self_eq_true entry.1⟩
        · rintro ⟨entry, member, same⟩
          exact ⟨entry, member, (eq_of_beq same).symm⟩
      cases found : (row driver).lookup token with
      | none => simp [listed, found, other]
      | some value => simp [listed, found]

theorem render_known {Refusal : Type} {spelling : Text → Except Refusal Text}
    {known : Text → Prop} (spells : ∀ token, (∃ spelled, spelling token = .ok spelled) ↔ known token)
    (pieces : List Piece) : (∃ text, render spelling pieces = .ok text) ↔
      ∀ token, .token token ∈ pieces → known token := by
  induction pieces with
  | nil => simp [render]
  | cons piece pieces ih =>
      cases piece with
      | plain c =>
          have rest : (∃ text, (render spelling pieces).map (c :: ·) = .ok text) ↔
              ∃ text, render spelling pieces = .ok text := by
            cases render spelling pieces with
            | error refusal => simp [Except.map]
            | ok text => simp [Except.map]
          rw [render, rest, ih]
          simp
      | token name =>
          rw [render]
          have head := spells name
          cases answer : spelling name with
          | error refusal =>
              have unknown : ¬known name := by
                rw [← head, answer]
                rintro ⟨text, ⟨⟩⟩
              simp [Except.bind, unknown]
          | ok spelled =>
              have named : known name := head.mp ⟨spelled, answer⟩
              have rest : (∃ text, ((Except.ok spelled).bind fun front =>
                  (render spelling pieces).map (front ++ ·)) = .ok text) ↔
                  ∃ text, render spelling pieces = .ok text := by
                cases render spelling pieces with
                | error refusal => simp [Except.bind, Except.map]
                | ok text => simp [Except.bind, Except.map]
              rw [rest, ih]
              simp [named]

/-- The command line and the runtime render every text alike for every driver: what is no
placeholder stays as it is, every placeholder is spelled once, and an unknown one refuses the
text. What a placeholder is, is read off the text before any is replaced. -/
theorem renderers_agree (sql : Text) (driver : Driver) :
    Agrees (resolvePlaceholders sql (driverName driver)) (resolveDialect (encode sql) driver) ∧
    ∃ pieces, Reads sql pieces ∧ (∀ others, Reads sql others → others = pieces) ∧
      resolvePlaceholders sql (driverName driver) =
        render (replacement (driverName driver) (row driver)) pieces ∧
      resolveDialect (encode sql) driver =
        render (spell (dialectFor driver)) (pieces.flatMap encodePiece) ∧
      ((∃ text, resolvePlaceholders sql (driverName driver) = .ok text) ↔
        ∀ token, .token token ∈ pieces → Known token) := by
  obtain ⟨pieces, reads⟩ := reads_exists sql
  have commandLine : resolvePlaceholders sql (driverName driver) =
      render (replacement (driverName driver) (row driver)) pieces := by
    rw [resolvePlaceholders, row_eq]
    exact sub_reads (replacement (driverName driver) (row driver)) reads
  have runtime : resolveDialect (encode sql) driver =
      render (spell (dialectFor driver)) (pieces.flatMap encodePiece) :=
    resolve_reads (dialectFor driver) (reads_encode reads)
  have agrees := render_agrees driver reads
  rw [← commandLine, ← runtime] at agrees
  refine ⟨agrees, pieces, reads, fun others again => reads_unique reads again, commandLine,
    runtime, ?_⟩
  rw [commandLine]
  exact render_known (replacement_known driver) pieces

end VoltMod.MigrationPlaceholders
