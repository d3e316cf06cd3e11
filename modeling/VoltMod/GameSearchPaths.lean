import VoltMod.MigrationText

/-! Loader/GameSearchPaths.cpp and the search of LoadNextServer in Loader/Loader.cpp: which server
library the loader forwards to, by the text of `gameinfo.gi`. -/
namespace VoltMod.GameSearchPaths
open MigrationText (Text)

def blank (c : Char) : Bool := c == ' ' || c == '\t' || c == '\r'

def sameKey (left right : Text) : Bool := left.map Char.toLower == right.map Char.toLower

/-- The next bare or quoted word, and what stands behind it. -/
def nextWord (line : Text) : Text × Text :=
  match line.dropWhile blank with
  | [] => ([], [])
  | '"' :: quoted =>
      -- A word that no quote closes takes the rest of the line.
      (quoted.takeWhile (· != '"'), (quoted.dropWhile (· != '"')).drop 1)
  | word => (word.takeWhile (!blank ·), word.dropWhile (!blank ·))

def uncommented : Text → Text
  | [] => []
  | first :: rest =>
      if first = '/' ∧ rest.head? = some '/' then [] else first :: uncommented rest

def searchPaths : Text := "SearchPaths".toList
def game : Text := "Game".toList

def scan (inSearchPaths : Bool) (depth : Int) : List Text → List Text
  | [] => []
  | line :: rest =>
      let word := nextWord (uncommented line)
      -- The braces only count from the key SearchPaths on, so the depth is that of its block.
      if word.1 = [] then scan inSearchPaths depth rest
      else if inSearchPaths = false then scan (sameKey word.1 searchPaths) depth rest
      else if word.1 = ['{'] then scan true (depth + 1) rest
      else if word.1 = ['}'] then if depth - 1 = 0 then [] else scan true (depth - 1) rest
      else if depth = 1 ∧ sameKey word.1 game = true then
        (nextWord word.2).1 :: scan true depth rest
      else scan true depth rest

/-- What stands behind the last break is a line here too; an empty one says nothing. -/
def gameSearchPaths (gameinfo : Text) : List Text := scan false 0 (gameinfo.splitOn '\n')

/-- Under a search path: whether the server library is a file there, and the factory it exports
once opened. -/
structure Libraries (Factory : Type) where
  isRegularFile : Text → Bool
  createInterface : Text → Option Factory

variable {Factory : Type}

def Libraries.load (libraries : Libraries Factory) (searchPath : Text) : Option Factory :=
  if libraries.isRegularFile searchPath then libraries.createInterface searchPath else none

/-- The search path of the library the loader forwards to, with its factory. -/
def loadNextServer (libraries : Libraries Factory) (dedicated : Bool) (gameinfo : Text) :
    Option (Text × Factory) :=
  if dedicated = false then none
  else if gameinfo = [] then none
  else (gameSearchPaths gameinfo).findSome? fun searchPath =>
    (libraries.load searchPath).map fun factory => (searchPath, factory)

/-- A word as a line holds it. -/
inductive Spelled : Text → Text → Prop
  | bare {word : Text} : word ≠ [] → word.head? ≠ some '"' → (∀ c ∈ word, blank c = false) →
      Spelled word word
  | quoted {word : Text} : '"' ∉ word → Spelled ('"' :: (word ++ ['"'])) word

/-- A word ends where the line does, or at a blank. -/
def Closed (behind : Text) : Prop := ∀ c, behind.head? = some c → blank c = true

/-- What a comment may follow, or nothing may. -/
structure Commented (said comment : Text) : Prop where
  plain : ¬['/', '/'] <:+: said
  opens : comment = [] ∨ comment.take 2 = ['/', '/'] ∧ said.getLast? ≠ some '/'

def Silent (line : Text) : Prop :=
  ∃ blanks comment, line = blanks ++ comment ∧ (∀ c ∈ blanks, blank c = true) ∧
    Commented blanks comment

/-- The word behind a key, or nothing. -/
def Sets (behind value : Text) : Prop :=
  ∃ gap token rest, behind = gap ++ (token ++ rest) ∧ (∀ c ∈ gap, blank c = true) ∧
    (Spelled token value ∧ Closed rest ∨ token = [] ∧ rest = [] ∧ value = [])

/-- A line with a key and what it is set to; what stands behind is not read. -/
def Line (line key value : Text) : Prop :=
  ∃ front token behind comment, line = (front ++ (token ++ behind)) ++ comment ∧
    (∀ c ∈ front, blank c = true) ∧ Spelled token key ∧ key ≠ [] ∧ Closed behind ∧
    Commented (front ++ (token ++ behind)) comment ∧ Sets behind value

inductive Item where
  | entry (key value : Text)
  | block (body : List Item)

/-- The lines of a list of items, each block's braces on lines of their own. -/
inductive Written : List Item → List Text → Prop
  | nil : Written [] []
  | silent {line : Text} {items : List Item} {lines : List Text} :
      Silent line → Written items lines → Written items (line :: lines)
  | entry {line key value : Text} {items : List Item} {lines : List Text} :
      Line line key value → key ≠ ['{'] → key ≠ ['}'] → Written items lines →
        Written (.entry key value :: items) (line :: lines)
  | block {opens closes opened closed : Text} {body items : List Item} {inner lines : List Text} :
      Line opens ['{'] opened → Written body inner → Line closes ['}'] closed →
        Written items lines → Written (.block body :: items) (opens :: inner ++ closes :: lines)

def gamePath : Item → Option Text
  | .entry key value => if sameKey key game then some value else none
  | .block _ => none

/-- The lines of a file, its search paths being these items. -/
structure Gameinfo (items : List Item) (lines : List Text) : Prop where
  cut : ∃ before head between opens inner closes after opened closed key value,
    lines = before ++ head :: (between ++ opens :: (inner ++ closes :: after)) ∧
    (∀ line ∈ before, Silent line ∨ ∃ other said, Line line other said ∧
      sameKey other searchPaths = false) ∧
    Line head key value ∧ sameKey key searchPaths = true ∧ (∀ line ∈ between, Silent line) ∧
    Line opens ['{'] opened ∧ Written items inner ∧ Line closes ['}'] closed
  unbroken : ∀ line ∈ lines, '\n' ∉ line

section Words
variable {front token word behind said comment : Text}

theorem takeWhile_front {stays : Char → Bool} (all : ∀ c ∈ front, stays c = true)
    (ends : ∀ c, behind.head? = some c → stays c = false) :
    (front ++ behind).takeWhile stays = front ∧ (front ++ behind).dropWhile stays = behind := by
  have stops : behind.takeWhile stays = [] ∧ behind.dropWhile stays = behind := by
    cases behind with
    | nil => exact ⟨rfl, rfl⟩
    | cons first rest => simp [ends first rfl]
  rw [List.takeWhile_append_of_pos all, List.dropWhile_append_of_pos all, stops.1, stops.2,
    List.append_nil]
  exact ⟨rfl, rfl⟩

theorem nextWord_spelled (blanks : ∀ c ∈ front, blank c = true) (spelled : Spelled token word)
    (closed : Closed behind) : nextWord (front ++ (token ++ behind)) = (word, behind) := by
  rw [nextWord, List.dropWhile_append_of_pos blanks]
  cases spelled with
  | quoted inside =>
      have stays : ∀ c ∈ word, (c != '"') = true := by
        intro c member
        rw [bne_iff_ne]
        rintro rfl
        exact inside member
      obtain ⟨taken, dropped⟩ := @takeWhile_front word ('"' :: behind) (· != '"') stays (by simp)
      have first : (('"' :: (word ++ ['"'])) ++ behind).dropWhile blank =
          '"' :: (word ++ '"' :: behind) := by
        rw [List.cons_append, List.dropWhile_cons, if_neg (by decide), List.append_assoc]
        rfl
      rw [first]
      simp only [taken, dropped, List.drop_succ_cons, List.drop_zero]
  | bare some_ unquoted solid =>
      obtain ⟨taken, dropped⟩ := @takeWhile_front token behind (!blank ·)
        (fun c member => by rw [solid c member]; rfl)
        (fun c first => by rw [closed c first]; rfl)
      cases token with
      | nil => exact absurd rfl some_
      | cons first rest =>
          have whole : ((first :: rest) ++ behind).dropWhile blank = (first :: rest) ++ behind := by
            rw [List.cons_append, List.dropWhile_cons, solid first List.mem_cons_self]
            rfl
          rw [whole]
          split
          · next none => cases none
          · next quoted same =>
              cases same
              exact absurd rfl unquoted
          · rw [taken, dropped]

theorem nextWord_blanks (blanks : ∀ c ∈ front, blank c = true) : nextWord front = ([], []) := by
  have none := @List.dropWhile_append_of_pos _ blank front [] blanks
  rw [List.append_nil] at none
  rw [nextWord, none]
  rfl

theorem uncommented_said (commented : Commented said comment) :
    uncommented (said ++ comment) = said := by
  obtain ⟨plain, opens⟩ := commented
  induction said with
  | nil =>
      rcases opens with rfl | ⟨opens, -⟩
      · rfl
      · rcases comment with _ | ⟨first, _ | ⟨second, rest⟩⟩
        · cases opens
        · cases opens
        · cases opens
          rfl
  | cons first said ih =>
      have shorter : ¬['/', '/'] <:+: said := fun inside =>
        plain (inside.trans (List.infix_cons (List.infix_refl _)))
      rw [List.cons_append, uncommented, if_neg, ih shorter]
      · rcases opens with none | ⟨starts, last⟩
        · exact .inl none
        · refine .inr ⟨starts, fun same => last ?_⟩
          cases said with
          | nil => cases same
          | cons second rest => rw [List.getLast?_cons_cons, same]
      · -- Two slashes in a row lie in what is said, or say where the comment begins.
        rintro ⟨rfl, second⟩
        cases said with
        | nil =>
            rcases opens with rfl | ⟨-, last⟩
            · cases second
            · exact last rfl
        | cons other rest =>
            cases second
            exact plain ⟨[], rest, rfl⟩

end Words

section Scan
variable {line key value : Text} {inSearchPaths : Bool} {depth : Int} {rest : List Text}

theorem silent_passed (silent : Silent line) :
    scan inSearchPaths depth (line :: rest) = scan inSearchPaths depth rest := by
  obtain ⟨blanks, comment, rfl, all, commented⟩ := silent
  simp only [scan, uncommented_said commented, nextWord_blanks all, if_true]

theorem line_read (written : Line line key value) :
    key ≠ [] ∧ (nextWord (uncommented line)).1 = key ∧
      (nextWord (nextWord (uncommented line)).2).1 = value := by
  obtain ⟨front, token, behind, comment, rfl, blanks, spelled, some_, closed, commented, gap,
    second, last, rfl, gaps, sets⟩ := written
  rw [uncommented_said commented, nextWord_spelled blanks spelled closed]
  refine ⟨some_, rfl, ?_⟩
  rcases sets with ⟨spelled, ends⟩ | ⟨rfl, rfl, rfl⟩
  · rw [nextWord_spelled gaps spelled ends]
  · rw [List.append_nil, List.append_nil, nextWord_blanks gaps]

theorem line_outside (written : Line line key value) :
    scan false depth (line :: rest) = scan (sameKey key searchPaths) depth rest := by
  obtain ⟨some_, named, -⟩ := line_read written
  simp only [scan, named, if_neg some_, if_true]

theorem line_opens (written : Line line ['{'] value) :
    scan true depth (line :: rest) = scan true (depth + 1) rest := by
  obtain ⟨some_, named, -⟩ := line_read written
  simp only [scan, named, if_neg some_, Bool.true_eq_false, if_false, if_true]

theorem line_closes (written : Line line ['}'] value) :
    scan true depth (line :: rest) = if depth - 1 = 0 then [] else scan true (depth - 1) rest := by
  obtain ⟨some_, named, -⟩ := line_read written
  have other : ['}'] ≠ ['{'] := by decide
  simp only [scan, named, if_neg some_, Bool.true_eq_false, if_false, if_neg other, if_true]

theorem line_entry (written : Line line key value) (opens : key ≠ ['{']) (closes : key ≠ ['}']) :
    scan true depth (line :: rest) =
      (if depth = 1 then (gamePath (.entry key value)).toList else []) ++ scan true depth rest := by
  obtain ⟨some_, named, set⟩ := line_read written
  simp only [scan, named, if_neg some_, Bool.true_eq_false, if_false, if_neg opens, if_neg closes,
    set]
  by_cases top : depth = 1
  · by_cases same : sameKey key game = true
    · simp [top, same, gamePath]
    · simp [top, same, gamePath]
  · simp [top]

/-- Items add their paths where they lie right under `SearchPaths`, and nothing deeper. -/
theorem written_scanned {items : List Item} {lines : List Text} (written : Written items lines)
    (within : 0 < depth) (rest : List Text) : scan true depth (lines ++ rest) =
      (if depth = 1 then items.filterMap gamePath else []) ++ scan true depth rest := by
  -- On the derivation; a block's own lines are scanned one level deeper and add nothing.
  induction written generalizing depth rest with
  | nil => simp
  | silent silent _ ih => rw [List.cons_append, silent_passed silent, ih within]
  | entry written opens closes _ ih =>
      rw [List.cons_append, line_entry written opens closes, ih within]
      by_cases top : depth = 1
      · cases path : gamePath (.entry _ _) with
        | none => simp [top, path]
        | some value => simp [top, path]
      · simp [top]
  | block opens _ closes _ body items =>
      have deeper : depth + 1 ≠ 1 := by omega
      have back : depth + 1 - 1 = depth := by omega
      have inside : depth ≠ 0 := by omega
      rw [List.cons_append, List.cons_append, line_opens opens, List.append_assoc,
        body (by omega), if_neg deeper, List.nil_append, List.cons_append, line_closes closes, back,
        if_neg inside, items within]
      rfl

theorem silent_all {lines : List Text} (silent : ∀ line ∈ lines, Silent line) (rest : List Text) :
    scan inSearchPaths depth (lines ++ rest) = scan inSearchPaths depth rest := by
  induction lines with
  | nil => rfl
  | cons line lines ih =>
      rw [List.cons_append, silent_passed (silent line List.mem_cons_self)]
      exact ih fun other member => silent other (List.mem_cons_of_mem _ member)

theorem before_passed {lines : List Text} (before : ∀ line ∈ lines, Silent line ∨
    ∃ other said, Line line other said ∧ sameKey other searchPaths = false) (rest : List Text) :
    scan false depth (lines ++ rest) = scan false depth rest := by
  induction lines with
  | nil => rfl
  | cons line lines ih =>
      have passed := ih fun other member => before other (List.mem_cons_of_mem _ member)
      rw [List.cons_append]
      rcases before line List.mem_cons_self with silent | ⟨other, said, written, apart⟩
      · rw [silent_passed silent, passed]
      · rw [line_outside written, apart, passed]

theorem gameinfo_read {items : List Item} {lines : List Text} (file : Gameinfo items lines) :
    gameSearchPaths (['\n'].intercalate lines) = items.filterMap gamePath := by
  obtain ⟨⟨before, head, between, opens, inner, closes, after, opened, closed, key, value, split,
    earlier, heading, named, silent, opening, written, closing⟩, unbroken⟩ := file
  have some_ : lines ≠ [] := by simp [split]
  rw [gameSearchPaths, List.splitOn_intercalate '\n' unbroken some_, split,
    before_passed earlier, line_outside heading, named, silent_all silent, line_opens opening,
    written_scanned written (by decide), line_closes closing]
  simp

/-- However the file is laid out, the loader forwards to the first of the `Game` paths right under
`SearchPaths` whose server library it can load, and a game client to none. -/
theorem server_forwarded {items : List Item} {lines : List Text} (file : Gameinfo items lines)
    (libraries : Libraries Factory) :
    loadNextServer libraries false (['\n'].intercalate lines) = none ∧
    (∀ path factory,
      loadNextServer libraries true (['\n'].intercalate lines) = some (path, factory) ↔
        ∃ before after, items.filterMap gamePath = before ++ path :: after ∧
          libraries.load path = some factory ∧ ∀ other ∈ before, libraries.load other = none) ∧
    (loadNextServer libraries true (['\n'].intercalate lines) = none ↔
      ∀ path ∈ items.filterMap gamePath, libraries.load path = none) := by
  have paths := gameinfo_read file
  have asked : loadNextServer libraries true (['\n'].intercalate lines) =
      (items.filterMap gamePath).findSome? fun path =>
        (libraries.load path).map fun factory => (path, factory) := by
    rw [loadNextServer, if_neg (by decide)]
    split
    · next empty =>
        -- A file with nothing in it has no paths either.
        rw [empty] at paths
        rw [← paths]
        rfl
    · rw [paths]
  refine ⟨rfl, fun path factory => ?_, ?_⟩
  · rw [asked, List.findSome?_eq_some_iff]
    constructor
    · rintro ⟨before, found, after, split, loaded, earlier⟩
      obtain ⟨made, load, same⟩ := Option.map_eq_some_iff.mp loaded
      cases same
      exact ⟨before, after, split, load, fun other member =>
        Option.map_eq_none_iff.mp (earlier other member)⟩
    · rintro ⟨before, after, split, load, earlier⟩
      refine ⟨before, path, after, split, ?_, fun other member => ?_⟩
      · rw [load]
        rfl
      · rw [earlier other member]
        rfl
  · rw [asked, List.findSome?_eq_none_iff]
    exact forall₂_congr fun path member => Option.map_eq_none_iff

theorem solid_of {word : Text} (none : word.any blank = false) : ∀ c ∈ word, blank c = false := by
  simpa using none

theorem line_alone {word : Text} (some_ : word ≠ []) (unquoted : word.head? ≠ some '"')
    (none : word.any blank = false) (plain : ¬['/', '/'] <:+: word) : Line word word [] := by
  refine ⟨[], word, [], [], by simp, nofun, .bare some_ unquoted (solid_of none), some_, nofun, ?_,
    [], [], [], rfl, nofun, .inr ⟨rfl, rfl, rfl⟩⟩
  exact ⟨by simpa using plain, .inl rfl⟩

end Scan

/-- VoltMod's own path first, where no server library is, and the game's behind it. -/
def deployed : List Text :=
  ["SearchPaths".toList, ['{'], "Game csgo/addons/voltmod // ours".toList,
    "\tGame\t\"csgo\"".toList, ['}']]

theorem deployed_written : Gameinfo
    [.entry "Game".toList "csgo/addons/voltmod".toList, .entry "Game".toList "csgo".toList]
    deployed := by
  have key : Spelled "Game".toList "Game".toList :=
    .bare (by decide) (by decide) (solid_of (by decide))
  have bare : Spelled "csgo/addons/voltmod".toList "csgo/addons/voltmod".toList :=
    .bare (by decide) (by decide) (solid_of (by decide +kernel))
  have quoted : Spelled "\"csgo\"".toList "csgo".toList :=
    @Spelled.quoted "csgo".toList (by decide)
  have ours : Line "Game csgo/addons/voltmod // ours".toList "Game".toList
      "csgo/addons/voltmod".toList := by
    refine ⟨[], "Game".toList, " csgo/addons/voltmod ".toList, "// ours".toList,
      by decide +kernel, nofun, key, by decide, ?_, ⟨by decide +kernel, .inr (by decide +kernel)⟩,
      [' '], "csgo/addons/voltmod".toList, [' '], by decide +kernel,
      List.all_eq_true.mp (by decide), .inl ⟨bare, ?_⟩⟩
    · rintro _ ⟨⟩
      rfl
    · rintro _ ⟨⟩
      rfl
  have games : Line "\tGame\t\"csgo\"".toList "Game".toList "csgo".toList := by
    refine ⟨['\t'], "Game".toList, "\t\"csgo\"".toList, [], by decide +kernel,
      List.all_eq_true.mp (by decide), key, by decide, ?_, ⟨by decide +kernel, .inl rfl⟩,
      ['\t'], "\"csgo\"".toList, [], by decide +kernel,
      List.all_eq_true.mp (by decide), .inl ⟨quoted, nofun⟩⟩
    rintro _ ⟨⟩
    rfl
  refine ⟨⟨[], "SearchPaths".toList, [], ['{'],
    ["Game csgo/addons/voltmod // ours".toList, "\tGame\t\"csgo\"".toList], ['}'], [], [], [],
    "SearchPaths".toList, [], rfl, nofun, ?_, by decide, nofun, ?_, ?_, ?_⟩, by decide +kernel⟩
  · exact line_alone (by decide) (by decide) (by decide) (by decide +kernel)
  · exact line_alone (by decide) (by decide) (by decide) (by decide +kernel)
  · exact .entry ours (by decide) (by decide) (.entry games (by decide) (by decide) .nil)
  · exact line_alone (by decide) (by decide) (by decide) (by decide +kernel)

theorem game_forwarded : loadNextServer ⟨fun path => path == "csgo".toList, fun _ => some 7⟩ true
    (['\n'].intercalate deployed) = some ("csgo".toList, 7) := by
  have forwarded := server_forwarded deployed_written
    ⟨fun path => path == "csgo".toList, fun _ => some 7⟩
  exact (forwarded.2.1 "csgo".toList 7).mpr
    ⟨["csgo/addons/voltmod".toList], [], by decide +kernel, by decide, by decide +kernel⟩

end VoltMod.GameSearchPaths
