import VoltMod.MigrationText
import VoltMod.Regex

/-! cli/voltmod/database/migrations.py: the dialect placeholders by a regular expression, and
what the expression finds beside the scanner of Database/Migrator.hpp. -/
namespace VoltMod.MigrationPlaceholders
open MigrationText Regex

/-- The row of a driver in DIALECTS. -/
abbrev Values := List (Text × Text)

def driverName : Driver → String
  | .postgres => "postgres"
  | .mariaDb => "mariadb"
  | .sqlite => "sqlite"

def dialects : List (String × Values) := [
  ("postgres", [
    ("ID".toList, "BIGSERIAL PRIMARY KEY".toList),
    ("NOW".toList, "EXTRACT(EPOCH FROM NOW())::BIGINT".toList),
    ("TRUE".toList, "TRUE".toList),
    ("FALSE".toList, "FALSE".toList),
    ("INSERT_IF_ABSENT".toList, "INSERT INTO".toList)]),
  ("mariadb", [
    ("ID".toList, "BIGINT AUTO_INCREMENT PRIMARY KEY".toList),
    ("NOW".toList, "(UNIX_TIMESTAMP())".toList),
    ("TRUE".toList, "TRUE".toList),
    ("FALSE".toList, "FALSE".toList),
    ("INSERT_IF_ABSENT".toList, "INSERT IGNORE INTO".toList)]),
  ("sqlite", [
    ("ID".toList, "INTEGER PRIMARY KEY AUTOINCREMENT".toList),
    ("NOW".toList, "(strftime('%s','now'))".toList),
    ("TRUE".toList, "1".toList),
    ("FALSE".toList, "0".toList),
    ("INSERT_IF_ABSENT".toList, "INSERT OR IGNORE INTO".toList)])]

def notClosing (c : Char) : Bool := c != ')' && c != '@'

def argumentsPattern : Expr Char :=
  .seq (.one (· == '(')) (.seq (.many notClosing) (.one (· == ')')))

/-- The pattern `@([A-Z_]+(?:\([^)@]*\))?)@`. -/
def placeholderPattern : Expr Char :=
  .seq (.one (· == '@')) (.seq
    (.group 1 (.seq (.seq (.one nameChar) (.many nameChar)) (.maybe argumentsPattern)))
    (.one (· == '@')))

/-- A VoltmodError's text. -/
def unknownDriver (driver : String) : String :=
  "unknown driver '" ++ driver ++ "'; expected " ++ ", ".intercalate (dialects.map Prod.fst)

def unknownName (name : Text) : String :=
  "unknown migration placeholder @" ++ String.ofList name ++ "@"

def removeSuffix (suffix text : Text) : Text :=
  if suffix.isSuffixOf text then text.take (text.length - suffix.length) else text

def replacement (driver : String) (values : Values) (name : Text) : Except String Text :=
  if conflictToken.isPrefixOf name then
    let columns := removeSuffix [')'] (name.drop conflictToken.length)
    .ok (if driver = "postgres" then "ON CONFLICT (".toList ++ columns ++ ") DO NOTHING".toList
      else [])
  else
    match values.lookup name with
    | none => .error (unknownName name)
    | some value => .ok value

def resolvePlaceholders (sql : Text) (driver : String) : Except String Text :=
  match dialects.lookup driver with
  | none => .error (unknownDriver driver)
  | some values =>
      sub placeholderPattern
        (fun found => replacement driver values ((found.group 1).getD [])) sql

theorem closing_stops {c : Char} (takes : notClosing c = true) : (c == ')') = false := by
  have apart : (c == ')') = false ∧ (c == '@') = false := by simpa [notClosing] using takes
  exact apart.1

theorem name_apart {c : Char} (takes : nameChar c = true) : c ≠ '(' ∧ c ≠ '@' := by
  constructor
  · rintro rfl
    exact absurd takes (by decide)
  · rintro rfl
    exact absurd takes (by decide)

theorem arguments_then {Result : Type} (after : Text) (next : Match Char → Option Result) :
    thenFirst argumentsPattern after next =
      match after with
      | '(' :: inner =>
          match inner.dropWhile notClosing with
          | ')' :: rest => next ⟨'(' :: inner.takeWhile notClosing ++ [')'], [], rest⟩
          | _ => none
      | _ => none := by
  unfold argumentsPattern
  cases after with
  | nil => simp
  | cons c inner =>
      by_cases opens : c = '('
      · subst opens
        simp only [thenFirst_seq, thenFirst_one_cons, beq_self_eq_true, if_true]
        rw [thenFirst_many]
        · cases behind : inner.dropWhile notClosing with
          | nil => simp
          | cons d rest =>
              by_cases closes : d = ')'
              · subst closes
                simp [Match.followed]
              · simp [closes]
        · intro taken symbol rest takes
          simp [closing_stops takes]
      · simp [opens]

/-- What stands behind a closing mark. -/
def behindMark : Text → Option Text
  | '@' :: rest => some rest
  | _ => none

theorem placeholder_eq (text : Text) (some_ : text.takeWhile nameChar ≠ []) :
    placeholder text =
      (behindMark (withArguments (text.takeWhile nameChar) (text.dropWhile nameChar)).2).map
        fun rest =>
          ((withArguments (text.takeWhile nameChar) (text.dropWhile nameChar)).1, rest) := by
  simp only [placeholder, some_, if_false]
  generalize withArguments (text.takeWhile nameChar) (text.dropWhile nameChar) = parted
  obtain ⟨token, after⟩ := parted
  cases after with
  | nil => rfl
  | cons c rest =>
      by_cases marks : c = '@'
      · subst marks
        rfl
      · simp [behindMark, marks]

theorem mark_then {Result : Type} (text : Text) (next : Match Char → Option Result) :
    thenFirst (.one (· == '@')) text next =
      (behindMark text).bind fun rest => next ⟨['@'], [], rest⟩ := by
  cases text with
  | nil => rfl
  | cons c rest =>
      by_cases marks : c = '@'
      · simp [behindMark, marks]
      · simp [behindMark, marks]

/-- Behind a name the arguments come first where their closing mark follows. -/
theorem closing_then {Result : Type} (name after : Text) (next : Text → Text → Option Result) :
    (thenFirst (.maybe argumentsPattern) after fun found =>
      (behindMark found.rest).bind (next (name ++ found.matched))) =
      (behindMark (withArguments name after).2).bind (next (withArguments name after).1) := by
  simp only [thenFirst_maybe, arguments_then, List.append_nil]
  cases after with
  | nil => rfl
  | cons c inner =>
      by_cases opens : c = '('
      · subst opens
        have parted : withArguments name ('(' :: inner) =
            match inner.dropWhile notClosing with
            | ')' :: rest => (name ++ '(' :: inner.takeWhile notClosing ++ [')'], rest)
            | _ => (name, '(' :: inner) := rfl
        rw [parted]
        change (match inner.dropWhile notClosing with
          | ')' :: rest =>
              (behindMark rest).bind (next (name ++ ('(' :: inner.takeWhile notClosing ++ [')'])))
          | _ => none).or none = _
        clear parted
        cases inner.dropWhile notClosing with
        | nil => rfl
        | cons d rest =>
            by_cases closes : d = ')'
            · subst closes
              simp [behindMark]
            · simp [closes, behindMark]
      · simp [withArguments, opens]

theorem pattern_at (text : Text) :
    matchAt placeholderPattern ('@' :: text) = (placeholder text).map fun found =>
      ⟨'@' :: found.1 ++ ['@'], [(1, found.1)], found.2⟩ := by
  rw [matchAt_eq]
  simp only [placeholderPattern, thenFirst_seq, thenFirst_one_cons, beq_self_eq_true, if_true,
    thenFirst_group, mark_then]
  cases text with
  | nil => rfl
  | cons c rest =>
      by_cases named : nameChar c = true
      · have some_ : (c :: rest).takeWhile nameChar ≠ [] := by simp [named]
        rw [thenFirst_one_cons, if_pos named, placeholder_eq _ some_,
          List.takeWhile_cons_of_pos named, List.dropWhile_cons_of_pos named, thenFirst_many]
        · have closing := closing_then (c :: rest.takeWhile nameChar) (rest.dropWhile nameChar)
            (fun token behind => some (⟨'@' :: token ++ ['@'], [(1, token)], behind⟩ : Match Char))
          rw [Option.map_map, Option.map_eq_bind]
          refine Eq.trans ?_ closing
          simp [arguments_then]
        · intro taken symbol rest takes
          obtain ⟨open_, at_⟩ := name_apart takes
          simp [arguments_then, open_, behindMark, at_]
      · simp [placeholder, named]

end VoltMod.MigrationPlaceholders
