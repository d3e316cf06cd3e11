import VoltMod.Result

/-! Database/Migrator.hpp: a migration's version from its file name, the dialect
placeholders and the split into statements. A text is the list of its bytes. -/
namespace VoltMod.MigrationText

abbrev Text := List Char

inductive Driver where
  | postgres
  | mariaDb
  | sqlite
  deriving DecidableEq, Repr

def digit (c : Char) : Bool := '0' ≤ c && c ≤ '9'

def decimal (digits : Text) : Nat :=
  digits.foldl (fun value c => 10 * value + (c.toNat - '0'.toNat)) 0

/-- What `std::from_chars` reads from the front into a 32 bit `int`: no blanks, no `+`,
an overflow an error. -/
def fromChars (text : Text) : Option Int :=
  let negative := text.head? = some '-'
  let digits := (if negative then text.tail else text).takeWhile digit
  let value : Int := if negative then -decimal digits else decimal digits
  if digits = [] then none
  else if -2147483648 ≤ value ∧ value ≤ 2147483647 then some value
  else none

def parseMigrationVersion (filename : Text) : Option Int := fromChars filename

structure Dialect where
  autoIncrementKey : String
  epochNow : String
  trueLiteral : String
  falseLiteral : String
  insertIfAbsent : String
  needsConflictClause : Bool

def dialectFor : Driver → Dialect
  | .postgres =>
      { autoIncrementKey := "BIGSERIAL PRIMARY KEY"
        epochNow := "EXTRACT(EPOCH FROM NOW())::BIGINT"
        trueLiteral := "TRUE"
        falseLiteral := "FALSE"
        insertIfAbsent := "INSERT INTO"
        needsConflictClause := true }
  | .mariaDb =>
      { autoIncrementKey := "BIGINT AUTO_INCREMENT PRIMARY KEY"
        epochNow := "(UNIX_TIMESTAMP())"
        trueLiteral := "TRUE"
        falseLiteral := "FALSE"
        insertIfAbsent := "INSERT IGNORE INTO"
        needsConflictClause := false }
  | .sqlite =>
      { autoIncrementKey := "INTEGER PRIMARY KEY AUTOINCREMENT"
        epochNow := "(strftime('%s','now'))"
        trueLiteral := "1"
        falseLiteral := "0"
        insertIfAbsent := "INSERT OR IGNORE INTO"
        needsConflictClause := false }

def nameChar (c : Char) : Bool := ('A' ≤ c && c ≤ 'Z') || c == '_'

def conflictToken : Text := "ON_CONFLICT(".toList

/-- Where the name ends, or its arguments where a `)` comes before the next `@`. -/
def withArguments (name after : Text) : Text × Text :=
  match after with
  | '(' :: inner =>
      let arguments := inner.takeWhile fun c => c != ')' && c != '@'
      match inner.dropWhile fun c => c != ')' && c != '@' with
      | ')' :: rest => (name ++ '(' :: arguments ++ [')'], rest)
      | _ => (name, after)
  | _ => (name, after)

/-- The token after an opening `@` and the text behind its closing one, when it is one. -/
def placeholder (text : Text) : Option (Text × Text) :=
  let name := text.takeWhile nameChar
  if name = [] then none
  else
    match withArguments name (text.dropWhile nameChar) with
    | (token, '@' :: rest) => some (token, rest)
    | _ => none

def unknownPlaceholder (token : Text) : Error :=
  .invalid ("unknown migration placeholder @" ++ String.ofList token ++ "@")

def spell (dialect : Dialect) (token : Text) : Except Error Text :=
  if token = "ID".toList then .ok dialect.autoIncrementKey.toList
  else if token = "NOW".toList then .ok dialect.epochNow.toList
  else if token = "TRUE".toList then .ok dialect.trueLiteral.toList
  else if token = "FALSE".toList then .ok dialect.falseLiteral.toList
  else if token = "INSERT_IF_ABSENT".toList then .ok dialect.insertIfAbsent.toList
  else if conflictToken.isPrefixOf token then
    if dialect.needsConflictClause then
      .ok ("ON CONFLICT (".toList ++ token.drop conflictToken.length ++ " DO NOTHING".toList)
    -- MariaDB and SQLite ignore duplicates in the INSERT itself, so the clause is empty.
    else .ok []
  else .error (unknownPlaceholder token)

theorem dropWhile_shorter (keep : Char → Bool) (text : Text) :
    (text.dropWhile keep).length ≤ text.length :=
  (List.dropWhile_sublist keep).length_le

theorem withArguments_shorter (name after : Text) :
    (withArguments name after).2.length ≤ after.length := by
  unfold withArguments
  split
  · next inner =>
      have shorter := dropWhile_shorter (fun c => c != ')' && c != '@') inner
      split
      · next rest closed =>
          rw [closed] at shorter
          simp only [List.length_cons] at shorter ⊢
          omega
      · exact Nat.le_refl _
  · exact Nat.le_refl _

theorem placeholder_shorter {text token rest : Text}
    (found : placeholder text = some (token, rest)) : rest.length < text.length := by
  unfold placeholder at found
  dsimp only at found
  split at found
  · cases found
  · have named := dropWhile_shorter nameChar text
    have behind := withArguments_shorter (text.takeWhile nameChar) (text.dropWhile nameChar)
    split at found
    · next token rest parted =>
        cases found
        rw [parted] at behind
        simp only [List.length_cons] at behind
        omega
    · cases found

/-- The text from `copied` on; what is already out is never read again. A step reads at
least one character, so the text's length is fuel enough. -/
def resolveFrom (dialect : Dialect) : Nat → Text → Except Error Text
  | _, [] => .ok []
  | 0, text => .ok text
  | fuel + 1, c :: rest =>
      if c = '@' then
        match placeholder rest with
        | none => (resolveFrom dialect fuel rest).map (c :: ·)
        | some (token, after) =>
            match spell dialect token with
            | .error error => .error error
            | .ok spelled => (resolveFrom dialect fuel after).map (spelled ++ ·)
      else (resolveFrom dialect fuel rest).map (c :: ·)

theorem resolve_enough (dialect : Dialect) {fuel more : Nat} {text : Text}
    (enough : text.length ≤ fuel) (longer : fuel ≤ more) :
    resolveFrom dialect more text = resolveFrom dialect fuel text := by
  induction fuel generalizing more text with
  | zero =>
      have empty := List.length_eq_zero_iff.mp (Nat.le_zero.mp enough)
      subst empty
      simp only [resolveFrom]
  | succ fuel ih =>
      cases text with
      | nil => simp only [resolveFrom]
      | cons c rest =>
          obtain ⟨more, rfl⟩ := Nat.exists_eq_add_of_le longer
          have below : rest.length ≤ fuel := Nat.le_of_succ_le_succ enough
          have step : fuel + 1 + more = fuel + more + 1 := by omega
          rw [step]
          simp only [resolveFrom]
          rw [ih below (Nat.le_add_right fuel more)]
          split
          · split
            · rfl
            -- A token moves on by more than one character, which the fuel allows for.
            · next token after found =>
                have shorter := placeholder_shorter found
                rw [ih (by omega) (Nat.le_add_right fuel more)]
          · rfl

def resolveDialect (sql : Text) (driver : Driver) : Except Error Text :=
  resolveFrom (dialectFor driver) sql.length sql

def blank (c : Char) : Bool := c == ' ' || c == '\t' || c == '\r' || c == '\n'

def trim (text : Text) : Text := ((text.dropWhile blank).reverse.dropWhile blank).reverse

def flush (current : Text) : List Text := if trim current = [] then [] else [trim current]

inductive Scan where
  | plain
  | literal
  | comment

/-- A comment leaves its newline behind when it starts; the rest of its line is passed over. -/
def splitFrom : Scan → Text → Text → List Text
  | _, current, [] => flush current
  -- A doubled quote closes the literal and opens the next one.
  | .literal, current, c :: rest =>
      splitFrom (if c = '\'' then .plain else .literal) (current ++ [c]) rest
  | .comment, current, c :: rest => splitFrom (if c = '\n' then .plain else .comment) current rest
  | .plain, current, c :: rest =>
      if c = '-' ∧ rest.head? = some '-' then splitFrom .comment (current ++ ['\n']) rest
      else if c = ';' then flush current ++ splitFrom .plain [] rest
      else splitFrom (if c = '\'' then .literal else .plain) (current ++ [c]) rest

def splitStatements (sql : Text) : List Text := splitFrom .plain [] sql

example : splitStatements "SELECT 1; -- a comment\nINSERT INTO t VALUES ('it''s; fine');".toList =
    ["SELECT 1".toList, "INSERT INTO t VALUES ('it''s; fine')".toList] := by decide

end VoltMod.MigrationText
