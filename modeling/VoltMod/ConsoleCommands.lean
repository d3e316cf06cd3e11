import VoltMod.Durations
import VoltMod.Result

/-! Engine/ConVars/ConVars.cpp as far as it writes console lines, with QuoteConsoleArg of
Core/Text/Strings.cpp. How the engine cuts its buffer into commands is said by `separate` and
`unquote`, as the comment on QuoteConsoleArg has it. -/
namespace VoltMod.ConsoleCommands
open MigrationText (Text)
open Durations (trim)

def quoteConsoleArg (value : Text) : Text :=
  '"' :: value.flatMap (fun c => if c = '"' ∨ c = '\\' then ['\\', c] else [c]) ++ ['"']

/-- What the engine has been given to execute, where there is an engine. -/
abbrev Console := Option Text

def lineBreak (c : Char) : Bool := c == '\r' || c == '\n'

/-- A newline cannot be quoted away, so that a command with one is refused. -/
def executeServerCommand (command : Text) (console : Console) : Console :=
  console.map fun buffer =>
    if command.any lineBreak then buffer
    else if command.getLast? = some '\n' then buffer ++ command
    else buffer ++ command ++ ['\n']

def uncommented : Text → Text
  | '/' :: '/' :: _ => []
  | c :: rest => c :: uncommented rest
  | [] => []

def restOf (text : Text) : Text := (text.dropWhile (· ≠ '\n')).drop 1

theorem restOf_shorter {text : Text} (some_ : text ≠ []) : (restOf text).length < text.length := by
  have all : 0 < text.length := List.length_pos_iff.mpr some_
  have kept := (List.dropWhile_sublist (· ≠ '\n') (l := text)).length_le
  rw [restOf, List.length_drop]
  omega

def executeText (text : Text) (console : Console) : Console :=
  if _none : text = [] then console
  else
    let line := trim (uncommented (text.takeWhile (· ≠ '\n')))
    executeText (restOf text) (if line = [] then console else executeServerCommand line console)
termination_by text.length
decreasing_by exact restOf_shorter _none

/-- `read` is what the file holds. -/
def executeFile (read : Result Text) (console : Console) : Status × Console :=
  match read with
  | .error error => (.error error, console)
  | .ok text => (.ok (), executeText text console)

def assignment (name value : Text) : Text := name ++ ' ' :: quoteConsoleArg value

def setByConsole (name value : Text) (console : Console) : Console :=
  executeServerCommand (assignment name value) console

inductive Request where
  | execute (command : Text)
  | file (read : Result Text)
  | set (name value : Text)

def perform (console : Console) : Request → Console
  | .execute command => executeServerCommand command console
  | .file read => (executeFile read console).2
  | .set name value => setByConsole name value console

/-- Where quotes do not hold it back, `;` ends a command. -/
def separate (quoted : Bool) : Text → List Text
  | [] => [[]]
  | '\\' :: c :: rest =>
      if quoted then (separate true rest).modifyHead (['\\', c] ++ ·)
      else (separate false (c :: rest)).modifyHead ('\\' :: ·)
  | c :: rest =>
      if c = ';' ∧ quoted = false then [] :: separate false rest
      else (separate (if c = '"' then !quoted else quoted) rest).modifyHead (c :: ·)

/-- A quoted argument and what comes behind it. -/
def unquote : Text → Option (Text × Text)
  | '"' :: rest => body rest
  | _ => none
where body : Text → Option (Text × Text)
  | [] => none
  | '"' :: rest => some ([], rest)
  | '\\' :: c :: rest => (body rest).map fun (value, behind) => (c :: value, behind)
  | c :: rest => (body rest).map fun (value, behind) => (c :: value, behind)

def plain (command : Text) : Bool := !command.any lineBreak

/-- The commands the lines of a file ask for and may have. -/
def meaning (lines : List Text) : List Text :=
  (lines.map fun line => trim (uncommented line)).filter fun line => line ≠ [] && plain line

/-- The commands a request asks for and may have. -/
def Request.commands : Request → List Text
  | .execute command => [command].filter plain
  | .set name value => [assignment name value].filter plain
  | .file (.error _) => []
  | .file (.ok text) => meaning (text.splitOn '\n')

def written (commands : List Text) : Text := commands.flatMap (· ++ ['\n'])

section Lines
variable {command buffer text : Text}

theorem execute_written (command buffer : Text) :
    executeServerCommand command (some buffer) =
      some (buffer ++ written ([command].filter plain)) := by
  simp only [executeServerCommand, Option.map_some, Option.some.injEq, List.filter_singleton, plain]
  cases broken : command.any lineBreak with
  | true => simp [written]
  | false =>
      have whole : command.getLast? ≠ some '\n' := by
        intro last
        have quiet := List.any_eq_false.mp broken '\n' (List.mem_of_getLast? last)
        exact quiet (by decide)
      simp [written, whole]

theorem line_cut (present : '\n' ∈ text) : text.splitOn '\n' =
    text.takeWhile (· ≠ '\n') :: (restOf text).splitOn '\n' := by
  induction text with
  | nil => cases present
  | cons c rest ih =>
      rw [List.splitOn_eq_splitOnP, List.splitOnP_cons_eq_if_modifyHead]
      by_cases here : c = '\n'
      · subst here
        simp [restOf, List.splitOn_eq_splitOnP]
      · have later : '\n' ∈ rest := (List.mem_cons.mp present).resolve_left (Ne.symm here)
        rw [if_neg (by simpa using here), ← List.splitOn_eq_splitOnP, ih later]
        simp [restOf, here]

theorem line_only (absent : '\n' ∉ text) :
    text.splitOn '\n' = [text] ∧ text.takeWhile (· ≠ '\n') = text ∧ restOf text = [] := by
  have apart : ∀ c ∈ text, decide (c ≠ '\n') = true := by
    intro c member
    rw [decide_eq_true_iff]
    rintro rfl
    exact absent member
  refine ⟨?_, List.takeWhile_eq_self_iff.mpr apart, ?_⟩
  · have lines : List.splitOn '\n' (List.intercalate ['\n'] [text]) = [text] :=
      List.splitOn_intercalate '\n' (by simpa using absent) (by simp)
    simpa using lines
  · rw [restOf, List.dropWhile_eq_nil_iff.mpr apart, List.drop_nil]

theorem meaning_cons (line : Text) (lines : List Text) :
    meaning (line :: lines) = meaning [line] ++ meaning lines := by
  simp only [meaning, List.map_cons, List.map_nil, ← List.filter_append, List.singleton_append]

theorem written_append (first second : List Text) :
    written (first ++ second) = written first ++ written second :=
  List.flatMap_append

theorem meaning_empty : meaning [[]] = [] := rfl

theorem line_written (line buffer : Text) :
    (if trim (uncommented line) = [] then some buffer
      else executeServerCommand (trim (uncommented line)) (some buffer)) =
      some (buffer ++ written (meaning [line])) := by
  by_cases none_ : trim (uncommented line) = []
  · simp [none_, meaning, written]
  · rw [if_neg none_, execute_written]
    simp [none_, meaning, List.filter_singleton]

theorem executeText_written (text buffer : Text) :
    executeText text (some buffer) =
      some (buffer ++ written (meaning (text.splitOn '\n'))) := by
  induction size : text.length using Nat.strong_induction_on generalizing text buffer with
  | _ size ih =>
      rw [executeText]
      split
      · next none_ =>
          subst none_
          simp [meaning_empty, written]
      · next some_ =>
          have shorter := restOf_shorter some_
          simp only [line_written]
          rw [ih _ (size ▸ shorter) _ _ rfl]
          by_cases present : '\n' ∈ text
          · rw [line_cut present, meaning_cons _ ((restOf text).splitOn '\n'), written_append,
              List.append_assoc]
          · obtain ⟨only, whole, ended⟩ := line_only present
            rw [only, whole, ended, List.splitOn_nil, meaning_empty]
            simp [written]

theorem perform_written (request : Request) (buffer : Text) :
    perform (some buffer) request = some (buffer ++ written request.commands) := by
  cases request with
  | execute command => exact execute_written command buffer
  | set name value => exact execute_written _ buffer
  | file read =>
      cases read with
      | error error => simp [perform, executeFile, Request.commands, written]
      | ok text => exact executeText_written text buffer

theorem run_written (requests : List Request) (buffer : Text) :
    requests.foldl perform (some buffer) =
      some (buffer ++ written (requests.flatMap Request.commands)) := by
  induction requests generalizing buffer with
  | nil => simp [written]
  | cons request rest ih =>
      rw [List.foldl_cons, perform_written, ih, List.flatMap_cons, written_append,
        List.append_assoc]

theorem commands_plain (request : Request) :
    ∀ command ∈ request.commands, plain command = true := by
  intro command member
  cases request with
  | execute own => exact (List.mem_filter.mp member).2
  | set name value => exact (List.mem_filter.mp member).2
  | file read =>
      cases read with
      | error error => cases member
      | ok text => exact (Bool.and_eq_true_iff.mp (List.mem_filter.mp member).2).2

/-- The engine's lines are the commands, and an empty one behind the last. -/
theorem written_lines {commands : List Text} (apart : ∀ command ∈ commands, plain command = true) :
    (written commands).splitOn '\n' = commands ++ [[]] := by
  have spelled : written commands = List.intercalate ['\n'] (commands ++ [[]]) := by
    clear apart
    induction commands with
    | nil => rfl
    | cons command rest ih =>
        rw [written, List.flatMap_cons, ← written, ih, List.cons_append]
        obtain ⟨next, more, same⟩ := List.exists_cons_of_ne_nil
          (show rest ++ [[]] ≠ [] by simp)
        rw [same, List.intercalate_cons_cons]
  rw [spelled]
  apply List.splitOn_intercalate
  · intro line member
    rcases List.mem_append.mp member with command | last
    · intro broken
      have quiet := apart line command
      rw [plain, Bool.not_eq_true', List.any_eq_false] at quiet
      exact quiet _ broken (by decide)
    · simp [List.mem_singleton.mp last]
  · simp

end Lines

section Quoted
variable {value : Text}

theorem body_quoted (value behind : Text) :
    unquote.body (value.flatMap (fun c => if c = '"' ∨ c = '\\' then ['\\', c] else [c]) ++
      '"' :: behind) = some (value, behind) := by
  induction value with
  | nil => rfl
  | cons c rest ih =>
      rw [List.flatMap_cons]
      by_cases special : c = '"' ∨ c = '\\'
      · rw [if_pos special]
        simp [unquote.body, ih]
      · rw [if_neg special]
        simp only [not_or] at special
        simp [unquote.body, special, ih]

/-- A quoted value is read back, and nothing of what comes behind it is taken. -/
theorem unquote_quoted (value behind : Text) :
    unquote (quoteConsoleArg value ++ behind) = some (value, behind) := by
  simpa [quoteConsoleArg, unquote] using body_quoted value behind

theorem separate_inside (value : Text) :
    separate true (value.flatMap (fun c => if c = '"' ∨ c = '\\' then ['\\', c] else [c]) ++
      ['"']) =
      [value.flatMap (fun c => if c = '"' ∨ c = '\\' then ['\\', c] else [c]) ++ ['"']] := by
  induction value with
  | nil => rfl
  | cons c rest ih =>
      rw [List.flatMap_cons]
      by_cases special : c = '"' ∨ c = '\\'
      · rw [if_pos special]
        simp [separate, ih]
      · rw [if_neg special]
        simp only [not_or] at special
        simp [separate, special, ih]

/-- A name without quotes, escapes and separators takes the whole line for one command. -/
theorem separate_assignment {name : Text} (simple : ∀ c ∈ name, c ≠ '"' ∧ c ≠ '\\' ∧ c ≠ ';')
    (value : Text) : separate false (assignment name value) = [assignment name value] := by
  induction name with
  | nil => simp [assignment, quoteConsoleArg, separate, separate_inside]
  | cons c rest ih =>
      obtain ⟨quote, escape, ends⟩ := simple c List.mem_cons_self
      have later := ih fun other member => simple other (.tail _ member)
      rw [assignment] at later
      simp [assignment, separate, ends, quote, escape, later]

theorem assignment_plain {name : Text}
    (whole : ∀ c ∈ name ++ value, lineBreak c = false) : plain (assignment name value) = true := by
  rw [plain, Bool.not_eq_true', List.any_eq_false]
  intro c member
  rw [Bool.not_eq_true]
  rcases List.mem_append.mp member with named | quoted
  · exact whole c (List.mem_append_left _ named)
  · simp only [quoteConsoleArg, List.mem_cons, List.mem_append, List.mem_flatMap] at quoted
    rcases quoted with rfl | (rfl | ⟨held, among, here⟩) | rfl | none_
    · rfl
    · rfl
    · have quiet := whole held (List.mem_append_right _ among)
      split at here
      · rcases List.mem_cons.mp here with rfl | last
        · rfl
        · rw [List.mem_singleton.mp last]
          exact quiet
      · rw [List.mem_singleton.mp here]
        exact quiet
    · rfl
    · cases none_

theorem mem_quoted {c : Char} (member : c ∈ value) : c ∈ quoteConsoleArg value := by
  refine List.mem_append_left _ (.tail _ (List.mem_flatMap.mpr ⟨c, member, ?_⟩))
  split
  · simp
  · simp

/-- A line break in the value refuses the assignment. -/
theorem assignment_broken {name : Text} {c : Char} (member : c ∈ value)
    (breaks : lineBreak c = true) : plain (assignment name value) = false := by
  rw [plain, Bool.not_eq_false', List.any_eq_true]
  exact ⟨c, List.mem_append_right _ (.tail _ (mem_quoted member)), breaks⟩

end Quoted

end VoltMod.ConsoleCommands
