import VoltMod.Decimals
import VoltMod.PanoramaMenu

/-! Menu/PanoramaMenuLayout.cpp: the element ids of a menu's buttons, and which button a pressed
id names. Every plugin hears every press, so each menu reads ids of other screens as well. -/
namespace VoltMod.MenuButtonIds
open MigrationText (Text)
open Decimals (spelled spelled_apart decimal_spelled)
open PanoramaMenu (MenuButton)

structure RowIds where
  button : Text
  decrease : Text
  increase : Text
  deriving DecidableEq, Repr

structure PanoramaMenuLayout where
  cancel : Text
  back : Text
  close : Text
  pagePrevious : Text
  pageNext : Text
  tabs : List Text
  rows : List RowIds
  deriving DecidableEq, Repr

def create (screen : Text) (tabs rows : Nat) : PanoramaMenuLayout where
  cancel := screen ++ "_cancel".toList
  back := screen ++ "_back".toList
  close := screen ++ "_close".toList
  pagePrevious := screen ++ "_page_previous".toList
  pageNext := screen ++ "_page_next".toList
  tabs := (List.range tabs).map fun index => screen ++ "_tab".toList ++ spelled index
  rows := (List.range rows).map fun index =>
    { button := screen ++ "_row".toList ++ spelled index ++ "_button".toList
      decrease := screen ++ "_row".toList ++ spelled index ++ "_decrease".toList
      increase := screen ++ "_row".toList ++ spelled index ++ "_increase".toList }

/-- The loop over the tabs, from `index` on. -/
def tabFor (id : Text) (index : Nat) : List Text → Option MenuButton
  | [] => none
  | tab :: rest => if id = tab then some (.tab index) else tabFor id (index + 1) rest

def rowFor (id : Text) (index : Nat) : List RowIds → Option MenuButton
  | [] => none
  | row :: rest =>
      if id = row.button then some (.row index)
      else if id = row.decrease then some (.stepDown index)
      else if id = row.increase then some (.stepUp index)
      else rowFor id (index + 1) rest

def buttonFor (layout : PanoramaMenuLayout) (id : Text) : Option MenuButton :=
  if id = layout.cancel then some .cancel
  else if id = layout.back then some .back
  else if id = layout.close then some .close
  else if id = layout.pagePrevious then some .previousPage
  else if id = layout.pageNext then some .nextPage
  else (tabFor id 0 layout.tabs).orElse fun _ => rowFor id 0 layout.rows

/-- What an id has behind its last underscore. -/
def last : MenuButton → Text
  | .cancel => "cancel".toList
  | .back => "back".toList
  | .close => "close".toList
  | .previousPage => "previous".toList
  | .nextPage => "next".toList
  | .tab index => "tab".toList ++ spelled index.toNat
  | .row _ => "button".toList
  | .stepDown _ => "decrease".toList
  | .stepUp _ => "increase".toList

/-- And what stands between that and the screen's name. -/
def middle : MenuButton → Text
  | .previousPage | .nextPage => "_page".toList
  | .row index | .stepDown index | .stepUp index => "_row".toList ++ spelled index
  | _ => []

/-- The id drawn for a button. -/
def idOf (screen : Text) (button : MenuButton) : Text :=
  screen ++ middle button ++ '_' :: last button

def Drawn (tabs rows : Nat) : MenuButton → Prop
  | .tab index => 0 ≤ index ∧ index < tabs
  | .row index | .stepDown index | .stepUp index => index < rows
  | _ => True

theorem first_mark {Symbol : Type} {mark : Symbol} {front other behind rest : List Symbol}
    (plain : mark ∉ front) (simple : mark ∉ other)
    (same : front ++ mark :: behind = other ++ mark :: rest) : front = other ∧ behind = rest := by
  induction front generalizing other with
  | nil =>
      cases other with
      | nil => exact ⟨rfl, (List.cons.inj same).2⟩
      | cons first more =>
          obtain ⟨here, _⟩ := List.cons.inj same
          exact absurd (here ▸ List.mem_cons_self) simple
  | cons first more ih =>
      cases other with
      | nil =>
          obtain ⟨here, _⟩ := List.cons.inj same
          exact absurd (here ▸ List.mem_cons_self) plain
      | cons head tail =>
          obtain ⟨rfl, behind_⟩ := List.cons.inj same
          obtain ⟨rfl, after⟩ := ih (fun member => plain (List.mem_cons_of_mem _ member))
            (fun member => simple (List.mem_cons_of_mem _ member)) behind_
          exact ⟨rfl, after⟩

theorem last_mark {Symbol : Type} {mark : Symbol} {front other behind rest : List Symbol}
    (plain : mark ∉ behind) (simple : mark ∉ rest)
    (same : front ++ mark :: behind = other ++ mark :: rest) : front = other ∧ behind = rest := by
  have turned := congrArg List.reverse same
  simp only [List.reverse_append, List.reverse_cons, List.append_assoc, List.singleton_append]
    at turned
  obtain ⟨after, before⟩ := first_mark (by simpa using plain) (by simpa using simple) turned
  exact ⟨List.reverse_inj.mp before, List.reverse_inj.mp after⟩

theorem spelled_injective {first second : Nat} (same : spelled first = spelled second) :
    first = second := by
  rw [← decimal_spelled first, same, decimal_spelled]

theorem tab_plain (number : Nat) : '_' ∉ "tab".toList ++ spelled number := by
  intro member
  rcases List.mem_append.mp member with front | digits
  · revert front
    decide
  · exact spelled_apart number (c := '_') (by decide) digits

theorem last_tab (index : Int) : last (.tab index) = "tab".toList ++ spelled index.toNat := rfl

theorem idOf_plain (screen : Text) (button : MenuButton) (front : middle button = []) :
    idOf screen button = screen ++ '_' :: last button := by
  rw [idOf, front, List.append_nil]

theorem idOf_row (screen : Text) (index : Nat) (word : Text) :
    screen ++ "_row".toList ++ spelled index ++ '_' :: word =
      screen ++ ("_row".toList ++ spelled index) ++ '_' :: word := by
  rw [List.append_assoc screen]

theorem last_plain (button : MenuButton) : '_' ∉ last button := by
  cases button with
  | tab index =>
      rw [last_tab]
      exact tab_plain index.toNat
  | cancel => decide
  | back => decide
  | close => decide
  | previousPage => decide
  | nextPage => decide
  | row index =>
      show '_' ∉ "button".toList
      decide
  | stepDown index =>
      show '_' ∉ "decrease".toList
      decide
  | stepUp index =>
      show '_' ∉ "increase".toList
      decide

/-- Which button the last piece of an id may be of, by its first two letters. -/
def kindOf : Text → Nat
  | 'c' :: 'a' :: _ => 0
  | 'b' :: 'a' :: _ => 1
  | 'c' :: 'l' :: _ => 2
  | 'p' :: _ => 3
  | 'n' :: _ => 4
  | 't' :: _ => 5
  | 'b' :: 'u' :: _ => 6
  | 'd' :: _ => 7
  | _ => 8

def kind : MenuButton → Nat
  | .cancel => 0
  | .back => 1
  | .close => 2
  | .previousPage => 3
  | .nextPage => 4
  | .tab _ => 5
  | .row _ => 6
  | .stepDown _ => 7
  | .stepUp _ => 8

theorem kindOf_last (button : MenuButton) : kindOf (last button) = kind button := by
  cases button <;> rfl

/-- The last piece tells the buttons apart but for their rows. -/
theorem last_alike {button other : MenuButton} (same : last button = last other) :
    button = other ∨
      (∃ index index', button = .tab index ∧ other = .tab index' ∧ index.toNat = index'.toNat) ∨
      ∃ index index', (button = .row index ∧ other = .row index') ∨
        (button = .stepDown index ∧ other = .stepDown index') ∨
        (button = .stepUp index ∧ other = .stepUp index') := by
  have alike : kind button = kind other := by rw [← kindOf_last, same, kindOf_last]
  cases button <;> cases other <;> simp only [kind, Nat.reduceEqDiff] at alike
  case tab.tab index index' =>
    have digits : spelled index.toNat = spelled index'.toNat := List.append_cancel_left same
    exact .inr (.inl ⟨index, index', rfl, rfl, spelled_injective digits⟩)
  case row.row index index' => exact .inr (.inr ⟨index, index', .inl ⟨rfl, rfl⟩⟩)
  case stepDown.stepDown index index' =>
    exact .inr (.inr ⟨index, index', .inr (.inl ⟨rfl, rfl⟩)⟩)
  case stepUp.stepUp index index' => exact .inr (.inr ⟨index, index', .inr (.inr ⟨rfl, rfl⟩)⟩)
  all_goals exact .inl rfl

theorem row_middle {screen other : Text} {index index' : Nat}
    (same : screen ++ ("_row".toList ++ spelled index) =
      other ++ ("_row".toList ++ spelled index')) : screen = other ∧ index = index' := by
  have plain : ∀ number, '_' ∉ 'r' :: 'o' :: 'w' :: spelled number := by
    intro number
    have digits := spelled_apart number (c := '_') (by decide)
    simpa using digits
  obtain ⟨rfl, row⟩ := last_mark (plain index) (plain index') same
  simp only [List.cons.injEq, true_and] at row
  exact ⟨rfl, spelled_injective row⟩

/-- An id tells the screen and the button. -/
theorem idOf_apart {screen other : Text} {tabs rows tabs' rows' : Nat}
    {button button' : MenuButton} (drawn : Drawn tabs rows button)
    (drawn' : Drawn tabs' rows' button') (same : idOf screen button = idOf other button') :
    screen = other ∧ button = button' := by
  obtain ⟨front, behind⟩ := last_mark (last_plain button) (last_plain button') same
  rcases last_alike behind with rfl | ⟨index, index', rfl, rfl, near⟩ |
    ⟨index, index', ⟨rfl, rfl⟩ | ⟨rfl, rfl⟩ | ⟨rfl, rfl⟩⟩
  · exact ⟨List.append_cancel_right front, rfl⟩
  · have positive := drawn.1
    have also := drawn'.1
    exact ⟨List.append_cancel_right front, by congr 1; omega⟩
  · obtain ⟨rfl, rfl⟩ := row_middle front
    exact ⟨rfl, rfl⟩
  · obtain ⟨rfl, rfl⟩ := row_middle front
    exact ⟨rfl, rfl⟩
  · obtain ⟨rfl, rfl⟩ := row_middle front
    exact ⟨rfl, rfl⟩

theorem tabFor_some {id : Text} {button : MenuButton} (tabs : List Text) (first : Nat)
    (found : tabFor id first tabs = some button) :
    ∃ index : Nat, tabs[index]? = some id ∧ button = .tab ((first + index : Nat) : Int) := by
  induction tabs generalizing first with
  | nil => cases found
  | cons tab rest ih =>
      rw [tabFor] at found
      split at found
      · rename_i here
        exact ⟨0, by rw [here]; rfl, (Option.some.inj found).symm⟩
      · obtain ⟨index, there, rfl⟩ := ih (first + 1) found
        exact ⟨index + 1, there, by congr 2; omega⟩

theorem tabFor_none {id : Text} (tabs : List Text) (first : Nat)
    (missed : tabFor id first tabs = none) : id ∉ tabs := by
  induction tabs generalizing first with
  | nil => exact List.not_mem_nil
  | cons tab rest ih =>
      rw [tabFor] at missed
      split at missed
      · cases missed
      · rename_i other
        exact fun member => (List.mem_cons.mp member).elim other (ih (first + 1) missed)

theorem rowFor_some {id : Text} {button : MenuButton} (rows : List RowIds) (first : Nat)
    (found : rowFor id first rows = some button) :
    ∃ index row, rows[index]? = some row ∧
      ((id = row.button ∧ button = .row (first + index)) ∨
        (id = row.decrease ∧ button = .stepDown (first + index)) ∨
        (id = row.increase ∧ button = .stepUp (first + index))) := by
  induction rows generalizing first with
  | nil => cases found
  | cons row rest ih =>
      rw [rowFor] at found
      split at found
      · exact ⟨0, row, rfl, .inl ⟨‹_›, (Option.some.inj found).symm⟩⟩
      split at found
      · exact ⟨0, row, rfl, .inr (.inl ⟨‹_›, (Option.some.inj found).symm⟩)⟩
      split at found
      · exact ⟨0, row, rfl, .inr (.inr ⟨‹_›, (Option.some.inj found).symm⟩)⟩
      obtain ⟨index, ids, there, which⟩ := ih (first + 1) found
      have shifted : first + 1 + index = first + (index + 1) := by omega
      rw [shifted] at which
      exact ⟨index + 1, ids, there, which⟩

theorem rowFor_none {id : Text} (rows : List RowIds) (first : Nat)
    (missed : rowFor id first rows = none) :
    ∀ row ∈ rows, id ≠ row.button ∧ id ≠ row.decrease ∧ id ≠ row.increase := by
  induction rows generalizing first with
  | nil => exact fun _ member => absurd member List.not_mem_nil
  | cons row rest ih =>
      rw [rowFor] at missed
      split at missed
      · cases missed
      split at missed
      · cases missed
      split at missed
      · cases missed
      intro ids member
      rcases List.mem_cons.mp member with rfl | later
      · exact ⟨‹_›, ‹_›, ‹_›⟩
      · exact ih (first + 1) missed ids later

section Created
variable {screen id : Text} {tabs rows : Nat} {button : MenuButton}

theorem created_tab (index : Nat) (here : (create screen tabs rows).tabs[index]? = some id) :
    index < tabs ∧ id = idOf screen (.tab index) := by
  simp only [create, List.getElem?_map, Option.map_eq_some_iff] at here
  obtain ⟨number, place, rfl⟩ := here
  obtain ⟨bound, rfl⟩ := List.getElem?_eq_some_iff.mp place
  rw [List.length_range] at bound
  refine ⟨bound, ?_⟩
  rw [idOf, last_tab, List.getElem_range]
  simp [middle]

theorem created_row {ids : RowIds} (index : Nat)
    (here : (create screen tabs rows).rows[index]? = some ids) :
    index < rows ∧ ids.button = idOf screen (.row index) ∧
      ids.decrease = idOf screen (.stepDown index) ∧
      ids.increase = idOf screen (.stepUp index) := by
  simp only [create, List.getElem?_map, Option.map_eq_some_iff] at here
  obtain ⟨number, place, rfl⟩ := here
  obtain ⟨bound, rfl⟩ := List.getElem?_eq_some_iff.mp place
  rw [List.length_range] at bound
  rw [List.getElem_range]
  exact ⟨bound, idOf_row .., idOf_row .., idOf_row ..⟩

theorem created_page (word : Text) : screen ++ ("_page".toList ++ '_' :: word) =
    screen ++ "_page".toList ++ '_' :: word := (List.append_assoc ..).symm

theorem created_words (screen : Text) (tabs rows : Nat) :
    (create screen tabs rows).cancel = idOf screen .cancel ∧
    (create screen tabs rows).back = idOf screen .back ∧
    (create screen tabs rows).close = idOf screen .close ∧
    (create screen tabs rows).pagePrevious = idOf screen .previousPage ∧
    (create screen tabs rows).pageNext = idOf screen .nextPage :=
  ⟨(idOf_plain screen .cancel rfl).symm, (idOf_plain screen .back rfl).symm,
    (idOf_plain screen .close rfl).symm, created_page "previous".toList,
    created_page "next".toList⟩

/-- Whatever the layout answers is drawn under that id. -/
theorem answer_drawn (found : buttonFor (create screen tabs rows) id = some button) :
    Drawn tabs rows button ∧ id = idOf screen button := by
  obtain ⟨cancel, back, close, previous, next⟩ := created_words screen tabs rows
  rw [buttonFor, cancel, back, close, previous, next] at found
  split at found
  · cases found
    exact ⟨trivial, ‹_›⟩
  split at found
  · cases found
    exact ⟨trivial, ‹_›⟩
  split at found
  · cases found
    exact ⟨trivial, ‹_›⟩
  split at found
  · cases found
    exact ⟨trivial, ‹_›⟩
  split at found
  · cases found
    exact ⟨trivial, ‹_›⟩
  cases tried : tabFor id 0 (create screen tabs rows).tabs with
  | some tab =>
      rw [tried] at found
      cases found
      obtain ⟨index, here, rfl⟩ := tabFor_some _ 0 tried
      obtain ⟨bound, named⟩ := created_tab index here
      rw [Nat.zero_add]
      exact ⟨⟨by omega, by omega⟩, named⟩
  | none =>
      rw [tried] at found
      obtain ⟨index, ids, here, which⟩ := rowFor_some _ 0 found
      obtain ⟨bound, pressed, decreased, increased⟩ := created_row index here
      rw [Nat.zero_add] at which
      rcases which with ⟨named, rfl⟩ | ⟨named, rfl⟩ | ⟨named, rfl⟩
      · exact ⟨bound, named.trans pressed⟩
      · exact ⟨bound, named.trans decreased⟩
      · exact ⟨bound, named.trans increased⟩

/-- No drawn button's id is passed over. -/
theorem drawn_answered (drawn : Drawn tabs rows button)
    (missed : buttonFor (create screen tabs rows) (idOf screen button) = none) : False := by
  obtain ⟨cancelId, backId, closeId, previousId, nextId⟩ := created_words screen tabs rows
  rw [buttonFor, cancelId, backId, closeId, previousId, nextId] at missed
  -- Five fixed buttons are tried first, and none of them is this one.
  split at missed
  · cases missed
  split at missed
  · cases missed
  split at missed
  · cases missed
  split at missed
  · cases missed
  split at missed
  · cases missed
  rename_i cancel back close previous next
  cases tried : tabFor (idOf screen button) 0 (create screen tabs rows).tabs with
  | some tab =>
      rw [tried] at missed
      cases missed
  | none =>
      rw [tried] at missed
      have noTab := tabFor_none _ 0 tried
      have noRow := rowFor_none _ 0 missed
      have atRow : ∀ index, index < rows → ∃ ids ∈ (create screen tabs rows).rows,
          ids.button = idOf screen (.row index) ∧
          ids.decrease = idOf screen (.stepDown index) ∧
          ids.increase = idOf screen (.stepUp index) := by
        intro index bound
        have here : index < (create screen tabs rows).rows.length := by
          simpa [create] using bound
        obtain ⟨_, named⟩ := created_row index (List.getElem?_eq_getElem here)
        exact ⟨_, List.getElem_mem here, named⟩
      -- The button is then a fixed one, a tab or in a row, and each of these was tried.
      cases button with
      | cancel => exact absurd rfl cancel
      | back => exact absurd rfl back
      | close => exact absurd rfl close
      | previousPage => exact absurd rfl previous
      | nextPage => exact absurd rfl next
      | tab index =>
          obtain ⟨positive, bound⟩ := drawn
          have here : index.toNat < (create screen tabs rows).tabs.length := by
            simp only [create, List.length_map, List.length_range]
            omega
          obtain ⟨_, named⟩ := created_tab index.toNat (List.getElem?_eq_getElem here)
          rw [Int.toNat_of_nonneg positive] at named
          rw [← named] at noTab
          exact noTab (List.getElem_mem here)
      | row index =>
          obtain ⟨ids, member, named, _⟩ := atRow index drawn
          exact (noRow ids member).1 named.symm
      | stepDown index =>
          obtain ⟨ids, member, _, named, _⟩ := atRow index drawn
          exact (noRow ids member).2.1 named.symm
      | stepUp index =>
          obtain ⟨ids, member, _, _, named⟩ := atRow index drawn
          exact (noRow ids member).2.2 named.symm

theorem answered_iff : buttonFor (create screen tabs rows) id = some button ↔
    Drawn tabs rows button ∧ id = idOf screen button := by
  constructor
  · exact answer_drawn
  · rintro ⟨drawn, rfl⟩
    cases answer : buttonFor (create screen tabs rows) (idOf screen button) with
    | none => exact (drawn_answered drawn answer).elim
    | some found =>
        obtain ⟨shown, same⟩ := answer_drawn answer
        obtain ⟨_, rfl⟩ := idOf_apart drawn shown same
        rfl

end Created

/-- An id names exactly the button it was drawn for, and no button of another screen. -/
theorem presses_routed (screen other id : Text) (tabs rows tabs' rows' : Nat)
    (button : MenuButton) :
    (buttonFor (create screen tabs rows) id = some button ↔
      Drawn tabs rows button ∧ id = idOf screen button) ∧
    ∀ button', buttonFor (create screen tabs rows) id = some button →
      buttonFor (create other tabs' rows') id = some button' →
      screen = other ∧ button = button' := by
  refine ⟨answered_iff, ?_⟩
  intro button' here there
  obtain ⟨drawn, rfl⟩ := answer_drawn here
  obtain ⟨drawn', same⟩ := answer_drawn there
  exact idOf_apart drawn drawn' same

end VoltMod.MenuButtonIds
