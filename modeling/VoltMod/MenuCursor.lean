import Mathlib.Algebra.Ring.Int.Defs
import Mathlib.Algebra.Order.Group.Int
import Mathlib.Tactic.Ring

/-! Menu/MenuCursor.cpp, with PageCount and WrapIndex of Menu/MenuModel.hpp: a cursor over rows
some of which it may not stop on. An `int` is an integer here; `sums_fit` says for which menus no
sum leaves its range. -/
namespace VoltMod.MenuCursor

def pageCount (items perPage : Int) : Int :=
  if items ≤ 0 then 1 else (items + perPage - 1).tdiv perPage

def wrapIndex (value count : Int) : Int :=
  if count ≤ 0 then 0 else (value.tmod count + count).tmod count

/-- Without `selectable` every row takes the cursor. -/
structure CursorRows where
  count : Int
  selectable : Option (Int → Bool)

def isSelectable (rows : CursorRows) (index : Int) : Bool :=
  if index < 0 ∨ rows.count ≤ index then false
  else
    match rows.selectable with
    | none => true
    | some takes => takes index

/-- The loop of Step. -/
def stepFrom (rows : CursorRows) (step : Int) : Nat → Int → Int
  | 0, index => index
  | attempts + 1, index =>
      let next := wrapIndex (index + step) rows.count
      if isSelectable rows next then next else stepFrom rows step attempts next

def step (rows : CursorRows) (index step : Int) : Int :=
  if rows.count ≤ 0 then index else stepFrom rows step rows.count.toNat index

def first (rows : CursorRows) : Int :=
  if rows.count ≤ 0 ∨ isSelectable rows 0 then 0 else step rows 0 1

/-- The loop of JumpPage, over the rows from `start` to before `stop`. -/
def settle (rows : CursorRows) (start stop : Int) : Nat → Int → Int
  | 0, landed => landed
  | attempts + 1, landed =>
      if isSelectable rows landed then landed
      else settle rows start stop attempts (if landed + 1 < stop then landed + 1 else start)

def jumpPage (rows : CursorRows) (index rowsPerPage delta : Int) : Int :=
  if rows.count ≤ 0 ∨ rowsPerPage ≤ 0 then index
  else
    let pages := pageCount rows.count rowsPerPage
    let page := wrapIndex (index.tdiv rowsPerPage + delta) pages
    let start := page * rowsPerPage
    let stop := min rows.count (start + rowsPerPage)
    -- Preserve the page offset, then skip rows that cannot be selected.
    settle rows start stop (stop - start).toNat (min (start + index.tmod rowsPerPage) (stop - 1))

/-- The row is the nearest in the direction, going round the ends, or the only one there is. -/
def Nearest (rows : CursorRows) (index direction landed : Int) : Prop :=
  (∃ distance : Int, 0 < distance ∧ distance < rows.count ∧
    landed = (index + direction * distance) % rows.count ∧ isSelectable rows landed = true ∧
    ∀ closer : Int, 0 < closer → closer < distance →
      isSelectable rows ((index + direction * closer) % rows.count) = false) ∨
  landed = index ∧ ∀ other, isSelectable rows other = true → other = index

def Inside (rows : CursorRows) (index : Int) : Prop := 0 ≤ index ∧ index < rows.count

/-- The rows of a page. -/
def OnPage (rows : CursorRows) (rowsPerPage page row : Int) : Prop :=
  Inside rows row ∧ row / rowsPerPage = page

section Wrapping
variable {count : Int}

theorem wrapIndex_emod (positive : 0 < count) (value : Int) :
    wrapIndex value count = value % count := by
  have most : -count < value.tmod count := by
    have bound := Int.lt_tmod_of_pos value positive
    omega
  rw [wrapIndex, if_neg (by omega), Int.tmod_eq_emod_of_nonneg (by omega), Int.add_emod_right,
    Int.tmod_def, Int.sub_mul_emod_self_left]

theorem wrapIndex_next (positive : 0 < count) (index direction : Int) (distance : Nat) :
    wrapIndex ((index + direction * distance) % count + direction) count =
      (index + direction * (distance + 1 : Nat)) % count := by
  rw [wrapIndex_emod positive, Int.emod_add_emod, Nat.cast_add, Nat.cast_one]
  congr 1
  ring

/-- Going one way from a place, every place of a ring comes up before that one does again. -/
theorem ring_reached {index other direction : Int} (inside : 0 ≤ index ∧ index < count)
    (there : 0 ≤ other ∧ other < count) (one : direction = 1 ∨ direction = -1)
    (apart : other ≠ index) :
    ∃ distance : Nat, 0 < distance ∧ (distance : Int) < count ∧
      (index + direction * distance) % count = other := by
  have square : direction * direction = 1 := by
    rcases one with rfl | rfl
    · rfl
    · rfl
  have positive : 0 < count := by omega
  have low := Int.emod_nonneg (direction * (other - index)) (Int.ne_of_gt positive)
  have high := Int.emod_lt_of_pos (direction * (other - index)) positive
  obtain ⟨distance, same⟩ := Int.eq_ofNat_of_zero_le low
  have reached : (index + direction * distance) % count = other := by
    rw [← same, Int.add_emod, Int.mul_emod, Int.emod_emod, ← Int.mul_emod, ← Int.add_emod,
      ← Int.mul_assoc, square, Int.one_mul, add_sub_cancel, Int.emod_eq_of_lt there.1 there.2]
  refine ⟨distance, ?_, by omega, reached⟩
  rw [Nat.pos_iff_ne_zero]
  rintro rfl
  rw [Nat.cast_zero, Int.mul_zero, Int.add_zero, Int.emod_eq_of_lt inside.1 inside.2] at reached
  exact apart reached.symm

end Wrapping

/-- Going from place to place until one is taken or the attempts are used up. -/
def scan (takes : Int → Bool) (next : Int → Int) : Nat → Int → Int
  | 0, place => place
  | attempts + 1, place => if takes place then place else scan takes next attempts (next place)

theorem scan_lands {takes : Int → Bool} {next : Int → Int} {place : Nat → Int}
    (moves : ∀ passed, next (place passed) = place (passed + 1)) (attempts passed : Nat) :
    ∃ more ≤ attempts, scan takes next attempts (place passed) = place (passed + more) ∧
      (takes (place (passed + more)) = true ∨ more = attempts) ∧
      ∀ earlier < more, takes (place (passed + earlier)) = false := by
  induction attempts generalizing passed with
  | zero => exact ⟨0, Nat.le_refl _, rfl, .inr rfl, nofun⟩
  | succ attempts ih =>
      rw [scan]
      cases here : takes (place passed) with
      | true =>
          refine ⟨0, Nat.zero_le _, rfl, .inl here, nofun⟩
      | false =>
          obtain ⟨more, bound, lands, stops, missed⟩ := ih (passed + 1)
          rw [if_neg (by simp), moves, lands]
          rw [Nat.add_assoc, Nat.add_comm 1] at stops ⊢
          refine ⟨more + 1, Nat.succ_le_succ bound, rfl, stops.imp_right (congrArg Nat.succ), ?_⟩
          intro earlier before
          cases earlier with
          | zero => exact here
          | succ earlier =>
              have one := missed earlier (Nat.lt_of_succ_lt_succ before)
              rwa [Nat.add_assoc, Nat.add_comm 1] at one

section Loops
variable {rows : CursorRows}

theorem selectable_inside {index : Int} (takes : isSelectable rows index = true) :
    Inside rows index := by
  rw [isSelectable] at takes
  split at takes
  · cases takes
  · next within =>
      rw [not_or] at within
      exact ⟨by omega, by omega⟩

theorem stepFrom_scan (direction : Int) (attempts : Nat) (index : Int) :
    stepFrom rows direction (attempts + 1) index =
      scan (isSelectable rows) (fun place => wrapIndex (place + direction) rows.count) attempts
        (wrapIndex (index + direction) rows.count) := by
  induction attempts generalizing index with
  | zero =>
      simp only [stepFrom, scan]
      split <;> rfl
  | succ attempts ih =>
      rw [stepFrom, scan]
      simp only [ih]

theorem settle_scan (start stop : Int) (attempts : Nat) (landed : Int) :
    settle rows start stop attempts landed =
      scan (isSelectable rows) (fun place => if place + 1 < stop then place + 1 else start)
        attempts landed := by
  induction attempts generalizing landed with
  | zero => rfl
  | succ attempts ih =>
      rw [settle, scan]
      simp only [ih]

/-- Step takes the nearest row that can be selected. -/
theorem step_nearest {index direction : Int} (inside : Inside rows index)
    (one : direction = 1 ∨ direction = -1) :
    Nearest rows index direction (step rows index direction) := by
  have positive : 0 < rows.count := Int.lt_of_le_of_lt inside.1 inside.2
  obtain ⟨attempts, count⟩ : ∃ attempts : Nat, rows.count = (attempts + 1 : Nat) := by
    obtain ⟨count, same⟩ := Int.eq_ofNat_of_zero_le (Int.le_of_lt positive)
    exact ⟨count - 1, by omega⟩
  obtain ⟨more, bound, lands, stops, missed⟩ :=
    @scan_lands (isSelectable rows) (fun place => wrapIndex (place + direction) rows.count)
      (fun passed => (index + direction * passed) % rows.count)
      (fun passed => wrapIndex_next positive index direction passed) attempts 1
  have begun : wrapIndex (index + direction) rows.count =
      (index + direction * (1 : Nat)) % rows.count := by
    rw [wrapIndex_emod positive, Nat.cast_one, Int.mul_one]
  have landed : step rows index direction =
      (index + direction * (1 + more : Nat)) % rows.count := by
    rw [step, if_neg (by omega), count, Int.toNat_natCast, stepFrom_scan, ← count, begun]
    exact lands
  rw [landed]
  have closer : ∀ distance : Int, 0 < distance → distance < (1 + more : Nat) →
      isSelectable rows ((index + direction * distance) % rows.count) = false := by
    intro distance some_ before
    obtain ⟨earlier, rfl⟩ : ∃ earlier : Nat, distance = (1 + earlier : Nat) := by
      obtain ⟨whole, same⟩ := Int.eq_ofNat_of_zero_le (Int.le_of_lt some_)
      exact ⟨whole - 1, by omega⟩
    exact missed earlier (by omega)
  by_cases round : more = attempts
  · -- The loop has gone all the way round to where it began.
    right
    have back : (index + direction * (1 + more : Nat)) % rows.count = index := by
      have whole : ((1 + more : Nat) : Int) = rows.count := by omega
      rw [whole, Int.add_mul_emod_self_right, Int.emod_eq_of_lt inside.1 inside.2]
    refine ⟨back, fun other takes => ?_⟩
    by_contra apart
    obtain ⟨distance, some_, short, reached⟩ :=
      ring_reached inside (selectable_inside takes) one apart
    have passed := closer distance (by omega) (by omega)
    rw [reached, takes] at passed
    cases passed
  · left
    exact ⟨(1 + more : Nat), by omega, by omega, rfl, stops.resolve_right round, closer⟩

theorem Nearest.inside {index direction landed : Int} (inside : Inside rows index)
    (nearest : Nearest rows index direction landed) : Inside rows landed := by
  rcases nearest with ⟨_, -, -, -, takes, -⟩ | ⟨rfl, -⟩
  · exact selectable_inside takes
  · exact inside

theorem first_zero (none_ : ∀ row, isSelectable rows row = false) : first rows = 0 := by
  rw [first]
  split
  · rfl
  · next more =>
      rw [not_or, not_le] at more
      rcases @step_nearest rows 0 1 ⟨Int.le_refl 0, more.1⟩ (.inl rfl) with
        ⟨distance, -, -, -, takes, -⟩ | ⟨stays, -⟩
      · rw [none_] at takes
        cases takes
      · exact stays

theorem first_least {row : Int} (takes : isSelectable rows row = true) :
    isSelectable rows (first rows) = true ∧ first rows ≤ row := by
  have inside := selectable_inside takes
  have positive : 0 < rows.count := Int.lt_of_le_of_lt inside.1 inside.2
  cases here : isSelectable rows 0 with
  | true =>
      rw [first, if_pos (.inr here)]
      exact ⟨here, inside.1⟩
  | false =>
      rw [first, if_neg (by simp [here, positive])]
      rcases @step_nearest rows 0 1 ⟨Int.le_refl 0, positive⟩ (.inl rfl) with
        ⟨distance, some_, short, lands, selected, closer⟩ | ⟨-, only⟩
      · refine ⟨selected, ?_⟩
        rw [Int.zero_add, Int.one_mul, Int.emod_eq_of_lt (Int.le_of_lt some_) short] at lands
        rw [lands]
        by_contra before
        have apart : row ≠ 0 := by
          rintro rfl
          rw [here] at takes
          cases takes
        have missed := closer row (by have := inside.1; omega) (by omega)
        rw [Int.zero_add, Int.one_mul, Int.emod_eq_of_lt inside.1 inside.2, takes] at missed
        cases missed
      · rw [only row takes, here] at takes
        cases takes

end Loops

section Pages
variable {rows : CursorRows} {rowsPerPage page row : Int}

/-- The pages are those that a row stands on. -/
theorem pageCount_iff (some_ : 0 < rows.count) (perPage : 0 < rowsPerPage) :
    page < pageCount rows.count rowsPerPage ↔ page * rowsPerPage < rows.count := by
  rw [pageCount, if_neg (by omega), Int.tdiv_eq_ediv_of_nonneg (by omega), ← Int.add_one_le_iff,
    Int.le_ediv_iff_mul_le perPage, Int.add_mul, Int.one_mul]
  omega

theorem onPage_iff (perPage : 0 < rowsPerPage) (low : 0 ≤ page) :
    OnPage rows rowsPerPage page row ↔
      page * rowsPerPage ≤ row ∧ row < min rows.count (page * rowsPerPage + rowsPerPage) := by
  have start := Int.mul_nonneg low (Int.le_of_lt perPage)
  have floor : row / rowsPerPage = page ↔
      page * rowsPerPage ≤ row ∧ row < page * rowsPerPage + rowsPerPage := by
    have next : page * rowsPerPage + rowsPerPage = (page + 1) * rowsPerPage := by ring
    rw [next, ← Int.le_ediv_iff_mul_le perPage, ← Int.ediv_lt_iff_lt_mul perPage]
    omega
  rw [OnPage, Inside, floor, lt_min_iff]
  omega

theorem ring_next {count : Int} (positive : 0 < count) (value : Int) :
    (value + 1) % count = if value % count + 1 < count then value % count + 1 else 0 := by
  have low := Int.emod_nonneg value (Int.ne_of_gt positive)
  have high := Int.emod_lt_of_pos value positive
  rw [← Int.emod_add_emod]
  split
  · exact Int.emod_eq_of_lt (by omega) (by omega)
  · have whole : value % count + 1 = count := by omega
    rw [whole, Int.emod_self]

end Pages

theorem page_iff {rows : CursorRows} {rowsPerPage page index : Int}
    (inside : Inside rows index) (perPage : 0 < rowsPerPage) :
    0 ≤ page ∧ page < pageCount rows.count rowsPerPage ↔
      ∃ row, OnPage rows rowsPerPage page row := by
  have positive : 0 < rows.count := Int.lt_of_le_of_lt inside.1 inside.2
  constructor
  · rintro ⟨low, high⟩
    rw [pageCount_iff positive perPage] at high
    refine ⟨page * rowsPerPage, (onPage_iff perPage low).mpr ⟨Int.le_refl _, ?_⟩⟩
    omega
  · rintro ⟨row, within, rfl⟩
    refine ⟨Int.ediv_nonneg within.1 (Int.le_of_lt perPage), ?_⟩
    rw [pageCount_iff positive perPage]
    exact Int.lt_of_le_of_lt (Int.ediv_mul_le row (Int.ne_of_gt perPage)) within.2

/-- Where a jump over pages comes down: on the page, on a row of it that can be selected where
there is one, and at the offset it came from where that row is one. -/
structure Lands (rows : CursorRows) (rowsPerPage page offset landed : Int) : Prop where
  onPage : OnPage rows rowsPerPage page landed
  selected : ∀ row, OnPage rows rowsPerPage page row → isSelectable rows row = true →
    isSelectable rows landed = true
  keeps : OnPage rows rowsPerPage page (page * rowsPerPage + offset) →
    isSelectable rows (page * rowsPerPage + offset) = true →
    landed = page * rowsPerPage + offset

theorem settle_lands {rows : CursorRows} {start stop offset : Int} (some_ : start < stop)
    (inside : 0 ≤ offset ∧ start + offset < stop) :
    let landed := settle rows start stop (stop - start).toNat (start + offset)
    (start ≤ landed ∧ landed < stop) ∧
      (∀ row, start ≤ row → row < stop → isSelectable rows row = true →
        isSelectable rows landed = true) ∧
      (isSelectable rows (start + offset) = true → landed = start + offset) := by
  have length : 0 < stop - start := by omega
  have moves : ∀ passed : Nat, (if start + (offset + passed) % (stop - start) + 1 < stop then
      start + (offset + passed) % (stop - start) + 1 else start) =
        start + (offset + (passed + 1 : Nat)) % (stop - start) := by
    intro passed
    rw [Nat.cast_add, Nat.cast_one, ← Int.add_assoc, ring_next length]
    split <;> split <;> omega
  obtain ⟨more, bound, lands, stops, missed⟩ := @scan_lands (isSelectable rows)
    (fun place => if place + 1 < stop then place + 1 else start)
    (fun passed => start + (offset + passed) % (stop - start)) moves (stop - start).toNat 0
  have begun : start + (offset + (0 : Nat)) % (stop - start) = start + offset := by
    rw [Nat.cast_zero, Int.add_zero, Int.emod_eq_of_lt inside.1 (by omega)]
  rw [begun, ← settle_scan] at lands
  intro landed
  have place : landed = start + (offset + (0 + more : Nat)) % (stop - start) := lands
  have low := Int.emod_nonneg (offset + (0 + more : Nat)) (Int.ne_of_gt length)
  have high := Int.emod_lt_of_pos (offset + (0 + more : Nat)) length
  refine ⟨⟨by omega, by omega⟩, ?_, ?_⟩
  · intro row first last takes
    rw [place]
    refine stops.resolve_right fun round => ?_
    -- The loop has passed every row of the page.
    have reached : ∃ distance : Nat, (distance : Int) < stop - start ∧
        start + (offset + distance) % (stop - start) = row := by
      by_cases here : row - start = offset
      · exact ⟨0, by omega, by rw [begun]; omega⟩
      · obtain ⟨distance, -, short, there⟩ := @ring_reached (stop - start) offset (row - start) 1
          ⟨inside.1, by omega⟩ ⟨by omega, by omega⟩ (.inl rfl) here
        rw [Int.one_mul] at there
        exact ⟨distance, short, by omega⟩
    obtain ⟨distance, short, there⟩ := reached
    have passed := missed distance (by omega)
    rw [Nat.zero_add, there, takes] at passed
    cases passed
  · intro takes
    have none_ : more = 0 := by
      by_contra moved
      have passed := missed 0 (by omega)
      rw [Nat.add_zero, begun, takes] at passed
      cases passed
    rw [place, none_]
    exact begun

theorem jumpPage_lands {rows : CursorRows} {index rowsPerPage : Int} (inside : Inside rows index)
    (perPage : 0 < rowsPerPage) (delta : Int) :
    Lands rows rowsPerPage ((index / rowsPerPage + delta) % pageCount rows.count rowsPerPage)
      (index % rowsPerPage) (jumpPage rows index rowsPerPage delta) := by
  have positive : 0 < rows.count := Int.lt_of_le_of_lt inside.1 inside.2
  have pages : 0 < pageCount rows.count rowsPerPage := by
    rw [pageCount_iff positive perPage, Int.zero_mul]
    exact positive
  have low := Int.emod_nonneg (index / rowsPerPage + delta) (Int.ne_of_gt pages)
  have high := (pageCount_iff positive perPage).mp
    (Int.emod_lt_of_pos (index / rowsPerPage + delta) pages)
  have least := Int.emod_nonneg index (Int.ne_of_gt perPage)
  rw [jumpPage, if_neg (by omega)]
  simp only [wrapIndex_emod pages, Int.tdiv_eq_ediv_of_nonneg inside.1,
    Int.tmod_eq_emod_of_nonneg inside.1]
  generalize (index / rowsPerPage + delta) % pageCount rows.count rowsPerPage = page at low high
  generalize index % rowsPerPage = offset at least
  generalize bound : min rows.count (page * rowsPerPage + rowsPerPage) = stop
  have some_ : page * rowsPerPage < stop := by omega
  have clipped : min (page * rowsPerPage + offset) (stop - 1) =
      page * rowsPerPage + min offset (stop - 1 - page * rowsPerPage) := by omega
  obtain ⟨within, selected, keeps⟩ := @settle_lands rows (page * rowsPerPage) stop
    (min offset (stop - 1 - page * rowsPerPage)) some_ ⟨by omega, by omega⟩
  rw [clipped]
  constructor
  case onPage =>
    rw [onPage_iff perPage low, bound]
    exact within
  case selected =>
    intro row here takes
    rw [onPage_iff perPage low, bound] at here
    exact selected row here.1 here.2 takes
  case keeps =>
    intro here takes
    rw [onPage_iff perPage low, bound] at here
    have whole : min offset (stop - 1 - page * rowsPerPage) = offset := by omega
    rw [whole] at keeps ⊢
    exact keeps takes

/-- An `int` holds the value. -/
def Fits (value : Int) : Prop := -2 ^ 31 ≤ value ∧ value < 2 ^ 31

/-- Up to 2^30 rows, rows on a page and pages to jump, every sum is an `int`. -/
theorem sums_fit {rows : CursorRows} {index rowsPerPage delta page : Int} (inside : Inside rows index)
    (perPage : 0 < rowsPerPage) (fewRows : rows.count ≤ 2 ^ 30) (shortPage : rowsPerPage ≤ 2 ^ 30)
    (jump : -2 ^ 30 ≤ delta ∧ delta ≤ 2 ^ 30)
    (there : 0 ≤ page ∧ page < pageCount rows.count rowsPerPage) :
    (∀ direction, direction = 1 ∨ direction = -1 → Fits (index + direction)) ∧
      (∀ value : Int, Fits (value.tmod rows.count + rows.count)) ∧
      Fits (rows.count + rowsPerPage - 1) ∧ Fits (index.tdiv rowsPerPage + delta) ∧
      Fits (page * rowsPerPage + rowsPerPage) := by
  obtain ⟨low, high⟩ := inside
  have positive : 0 < rows.count := Int.lt_of_le_of_lt low high
  have onRow := (pageCount_iff positive perPage).mp there.2
  have start := Int.mul_nonneg there.1 (Int.le_of_lt perPage)
  have whole := Int.tdiv_nonneg low (Int.le_of_lt perPage)
  have fewer := Int.tdiv_le_self rowsPerPage low
  simp only [Fits]
  refine ⟨?_, ?_, by omega, by omega, by omega⟩
  · rintro direction (rfl | rfl)
    · omega
    · omega
  · intro value
    have least := Int.lt_tmod_of_pos value positive
    have most := Int.tmod_lt_of_pos value positive
    omega

/-- The laws of the cursor, for every list of rows and every cursor inside it. -/
theorem cursor_lands (rows : CursorRows) :
    ((∀ row, isSelectable rows row = true →
        isSelectable rows (first rows) = true ∧ first rows ≤ row) ∧
      ((∀ row, isSelectable rows row = false) → first rows = 0)) ∧
    ∀ index, Inside rows index →
      (∀ direction, direction = 1 ∨ direction = -1 →
        Inside rows (step rows index direction) ∧
          Nearest rows index direction (step rows index direction)) ∧
      ∀ rowsPerPage, 0 < rowsPerPage →
        (∀ page, 0 ≤ page ∧ page < pageCount rows.count rowsPerPage ↔
          ∃ row, OnPage rows rowsPerPage page row) ∧
        ∀ delta, Lands rows rowsPerPage
          ((index / rowsPerPage + delta) % pageCount rows.count rowsPerPage)
          (index % rowsPerPage) (jumpPage rows index rowsPerPage delta) := by
  refine ⟨⟨fun row takes => first_least takes, first_zero⟩, fun index inside => ⟨?_, ?_⟩⟩
  · intro direction one
    have nearest := step_nearest inside one
    exact ⟨Nearest.inside inside nearest, nearest⟩
  · intro rowsPerPage perPage
    exact ⟨fun page => page_iff inside perPage, jumpPage_lands inside perPage⟩

/-- Five rows on pages of two, the first and the fourth of which can be selected. -/
theorem five_rows :
    let rows : CursorRows := ⟨5, some fun index => index == 0 || index == 3⟩
    Nearest rows 0 (-1) 3 ∧ Lands rows 2 1 0 3 ∧ first rows = 0 := by
  have lands := cursor_lands ⟨5, some fun index => index == 0 || index == 3⟩
  have cursor := lands.2 0 ⟨by decide, by decide⟩
  refine ⟨?_, ?_, ?_⟩
  · exact (cursor.1 (-1) (.inr rfl)).2
  · exact (cursor.2 2 (by decide)).2 1
  · decide

end VoltMod.MenuCursor
