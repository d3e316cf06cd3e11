import VoltMod.MenuStack

/-! Menu/PanoramaMenu.cpp over Menu/MenuStack.cpp and Menu/PendingCommit.cpp, with their control
made explicit: what an operation has still to do are tasks, and where it runs a commit or a row
callback, user code takes over until it returns, free to call any operation again. A commit
that returns redraws its player's menu before the operation that ran it goes on. Prompts, the
freeze and the texts are left out. -/
namespace VoltMod.PanoramaMenu
open MenuStack (Item Menu)
open Transition

/-- How many tabs and rows the layout has. -/
structure Layout where
  tabCount : Nat
  rowCount : Nat

/-- `tabs` are the root's rows they stand for; `serial` counts the slot's sessions. -/
structure Session where
  tabs : List Nat
  selectedTab : Int
  page : Int
  homePage : Bool
  serial : Nat

/-- What is left to do, with what was read before user code ran: the address of a menu, how many
rows it has, the serial of a session. -/
inductive Task where
  | calling
  | popBack (slot : Nat)
  | clearStack (slot : Nat)
  | resizeToRoot (slot : Nat)
  | closed (slot : Nat)
  | hide (slot : Nat)
  | opening (slot : Nat) (menu : Menu) (homePage : Bool)
  | readTabs (slot items index serial : Nat)
  | tabDescribed (slot menu index serial : Nat)
  | draw (slot : Nat)
  | drawRows (slot row count serial : Nat)
  | rowDescribed (slot menu serial : Nat)
  | activating (slot : Nat) (index : Int)
  | pressing
  | enabled (slot : Nat) (index : Int) (menu : Nat) (commits : Bool)
  | stepped (slot : Nat) (index : Int) (menu : Nat) (commits : Bool)
  | store (slot : Nat) (index : Int)
  | turning (slot : Nat) (delta : Int) (menu items : Nat)
  | tabbing (slot tab serial : Nat)
  deriving DecidableEq, Repr

/-- Menus are listed top first, `none` being a null pointer. `answer` is what the last callback
returned. `undefined` is set where the code pops an empty vector or reads through a null menu,
`strayed` where it reads what a callback took away. -/
structure State where
  menus : Nat → List (Option Menu)
  held : Nat → Option Int
  sessions : Nat → Session
  tasks : List Task
  answer : Bool
  undefined : Bool
  strayed : Bool

def noSession : Session := ⟨[], -1, 0, false, 0⟩

def start : State := ⟨fun _ => [], fun _ => none, fun _ => noSession, [], false, false, false⟩

def later (tasks : List Task) (state : State) : State :=
  { state with tasks := tasks ++ state.tasks }

def setSession (slot : Nat) (session : Session) (state : State) : State :=
  { state with sessions := Function.update state.sessions slot session }

section Stack

/-- Rebuild reads the title of every menu below the top one. -/
def rebuild (slot : Nat) (state : State) : State :=
  { state with
    undefined := state.undefined || (state.menus slot).tail.any fun menu => menu.isNone }

def setMenus (slot : Nat) (menus : List (Option Menu)) (state : State) : State :=
  { state with menus := Function.update state.menus slot menus }

def setHeld (slot : Nat) (held : Option Int) (state : State) : State :=
  { state with held := Function.update state.held slot held }

def current (state : State) (slot : Nat) : Option Menu := (state.menus slot).head?.bind id

def root (state : State) (slot : Nat) : Option Menu := (state.menus slot).getLast?.bind id

def isOpen (state : State) (slot : Nat) : Bool := !(state.menus slot).isEmpty

/-- The menu on top and its row of that index. -/
def itemAt (state : State) (slot : Nat) (index : Int) : Option (Menu × Item) :=
  (current state slot).bind fun menu =>
    if 0 ≤ index then menu.items[index.toNat]?.map (menu, ·) else none

def push (slot : Nat) (menu : Menu) (state : State) : State :=
  rebuild slot (setMenus slot (some menu :: state.menus slot) state)

def popBack (slot : Nat) (state : State) : State :=
  match state.menus slot with
  | [] => { state with undefined := true }
  | _ :: rest => rebuild slot (setMenus slot rest state)

def resizeToRoot (slot : Nat) (state : State) : State :=
  rebuild slot (setMenus slot [(state.menus slot).getLast?.bind id] state)

/-- The entry is emptied before its commit runs; Committed then redraws. -/
def applyPending (slot : Nat) (state : State) : State :=
  match state.held slot with
  | none => state
  | some _ => later [.calling, .draw slot] (setHeld slot none state)

def pop (slot : Nat) (state : State) : State :=
  if isOpen state slot then applyPending slot (later [.popBack slot] state) else state

def clear (slot : Nat) (state : State) : State :=
  applyPending slot (later [.clearStack slot] state)

def popToRoot (slot : Nat) (state : State) : State :=
  if isOpen state slot then applyPending slot (later [.resizeToRoot slot] state) else state

/-- PendingCommit's Hold: only another row's commit is applied first. -/
def hold (slot : Nat) (index : Int) (state : State) : State :=
  if state.held slot = some index then setHeld slot (some index) state
  else applyPending slot (later [.store slot index] state)

def isPending (state : State) (slot : Nat) (index : Int) : Bool :=
  decide (0 ≤ index) && decide (state.held slot = some index)

/-- A row that describes itself has its callback run; `rest` waits for it. -/
def describe (slot : Nat) (index : Int) (rest : Nat → List Task) (otherwise : List Task)
    (state : State) : State :=
  match itemAt state slot index with
  | some (menu, item) =>
      if item.describes then later (.calling :: rest menu.id) state else later otherwise state
  | none => later otherwise state

end Stack

section Surface

def closeAll (slot : Nat) (state : State) : State :=
  if isOpen state slot then clear slot (later [.hide slot] state) else state

/-- `canShow` is whether the layout reaches the player at all. -/
def openSession (slot : Nat) (menu : Option Menu) (homePage canShow : Bool) (state : State) :
    State :=
  match menu with
  | none => state
  | some menu =>
      if canShow then closeAll slot (later [.opening slot menu homePage] state) else state

def openMenu (slot : Nat) (menu : Option Menu) (canShow : Bool) (state : State) : State :=
  match menu with
  | none => state
  | some pushed =>
      if isOpen state slot then
        let session := state.sessions slot
        later [.draw slot] (setSession slot { session with page := 0 } (push slot pushed state))
      else openSession slot menu false canShow state

def close (slot : Nat) (state : State) : State :=
  if isOpen state slot then pop slot (later [.closed slot] state) else state

def findTab (index : Int) (tabs : List Nat) : Int :=
  match tabs.findIdx? fun tab => (tab : Int) = index with
  | some found => found
  | none => -1

/-- MenuStack's Activate after the branch's tab is recorded; a press on the pending row drops
its commit. -/
def activate (slot : Nat) (index : Int) (state : State) : State :=
  let session := state.sessions slot
  let recorded :=
    if (state.menus slot).length = 1 then
      setSession slot { session with selectedTab := findTab index session.tabs } state
    else state
  let waiting := later [.activating slot index, .draw slot] recorded
  if isPending state slot index then setHeld slot none waiting else applyPending slot waiting

def rowItem (layout : Layout) (state : State) (slot row : Nat) : Int :=
  (state.sessions slot).page * layout.rowCount + row

def stepRow (layout : Layout) (slot row : Nat) (state : State) : State :=
  let index := rowItem layout state slot row
  match itemAt state slot index with
  | none => state
  | some (menu, item) =>
      if item.steps && item.describes then
        later [.calling, .enabled slot index menu.id item.commits] state
      else state

def openTab (slot : Nat) (tab : Int) (state : State) : State :=
  let session := state.sessions slot
  if 0 ≤ tab ∧ tab < session.tabs.length then
    popToRoot slot (later [.tabbing slot tab.toNat session.serial] state)
  else state

def turnPage (slot : Nat) (delta : Int) (state : State) : State :=
  match current state slot with
  | none => state
  | some menu => applyPending slot (later [.turning slot delta menu.id menu.items.length] state)

inductive MenuButton where
  | cancel | back | close | previousPage | nextPage
  | tab (index : Int)
  | row (index : Nat)
  | stepDown (index : Nat)
  | stepUp (index : Nat)
  deriving DecidableEq, Repr

def onPress (layout : Layout) (slot : Nat) (button : MenuButton) (capturing : Bool)
    (state : State) : State :=
  if !isOpen state slot || (capturing && decide (button ≠ .cancel)) then state else
  match button with
  | .cancel => later [.draw slot] state
  | .back => close slot state
  | .close => closeAll slot state
  | .previousPage => turnPage slot (-1) state
  | .nextPage => turnPage slot 1 state
  | .tab index => openTab slot index state
  | .row index => activate slot (rowItem layout state slot index) state
  | .stepDown index => stepRow layout slot index state
  | .stepUp index => stepRow layout slot index state

end Surface

section Control

def pageCount (items perPage : Nat) : Nat := if items = 0 then 1 else (items + perPage - 1) / perPage

def wrapIndex (value : Int) (count : Nat) : Int :=
  if count = 0 then 0 else ((value.tmod count) + count).tmod count

def addresses (state : State) (slot : Nat) : List Nat :=
  (state.menus slot).filterMap fun menu => menu.map Menu.id

/-- A read through the menu of that address, and through the slot's session of that serial. -/
def reads (slot : Nat) (menu : Nat) (state : State) : State :=
  { state with strayed := state.strayed || decide (menu ∉ addresses state slot) }

def readsSession (slot serial : Nat) (state : State) : State :=
  { state with strayed := state.strayed || decide ((state.sessions slot).serial ≠ serial) }

def resetSession (slot : Nat) (state : State) : State :=
  setSession slot { noSession with serial := (state.sessions slot).serial + 1 } state

/-- Draw closes the session when the layout cannot be shown. -/
def draw (layout : Layout) (shown : Bool) (slot : Nat) (state : State) : State :=
  match current state slot with
  | none => state
  | some menu =>
      if !shown then closeAll slot state else
      let session := state.sessions slot
      let pages : Int := pageCount menu.items.length layout.rowCount
      let page := max 0 (min session.page (pages - 1))
      later [.drawRows slot 0 menu.items.length session.serial]
        (setSession slot { session with page }
          { state with undefined := state.undefined || (root state slot).isNone })

/-- The task on top, already taken off. -/
def resume (layout : Layout) (shown : Bool) (state : State) : Task → State
  | .calling => state
  | .popBack slot => popBack slot state
  | .clearStack slot => setMenus slot [] state
  | .resizeToRoot slot => resizeToRoot slot state
  | .closed slot =>
      if isOpen state slot then
        let session := { state.sessions slot with page := 0 }
        later [.draw slot] (setSession slot
          (if (state.menus slot).length = 1 then { session with selectedTab := -1 } else session)
          state)
      else resetSession slot state
  | .hide slot => resetSession slot state
  | .opening slot menu homePage =>
      let pushed := push slot menu state
      let session := { pushed.sessions slot with homePage }
      let ready := setSession slot session pushed
      match root ready slot with
      | none => { ready with undefined := true }
      | some first => later [.readTabs slot first.items.length 0 session.serial, .draw slot] ready
  | .readTabs slot items index serial =>
      if index < items ∧ (state.sessions slot).tabs.length < layout.tabCount then
        let rest := .readTabs slot items (index + 1) serial
        describe slot index (fun menu => [.tabDescribed slot menu index serial, rest]) [rest] state
      else state
  | .tabDescribed slot menu index serial =>
      let described := readsSession slot serial (reads slot menu state)
      let session := described.sessions slot
      if state.answer then
        setSession slot { session with tabs := session.tabs ++ [index] } described
      else described
  | .draw slot => draw layout shown slot state
  | .drawRows slot row count serial =>
      if row < layout.rowCount then
        let rest := .drawRows slot (row + 1) count serial
        let index := rowItem layout state slot row
        if (count : Int) ≤ index then later [rest] state
        else describe slot index (fun menu => [.rowDescribed slot menu serial, rest]) [rest] state
      else state
  | .rowDescribed slot menu serial => readsSession slot serial (reads slot menu state)
  | .activating slot index =>
      match itemAt state slot index with
      | some (_, item) =>
          if item.activates && item.describes then later [.calling, .pressing] state else state
      | none => state
  | .pressing => if state.answer then later [.calling] state else state
  | .enabled slot index menu commits =>
      if state.answer then later [.calling, .stepped slot index menu commits] state else state
  | .stepped slot index menu commits =>
      if state.answer then
        if commits && decide ((current state slot).map Menu.id = some menu) then
          hold slot index (later [.draw slot] state)
        else later [.draw slot] state
      else state
  | .store slot index => setHeld slot (some index) state
  | .turning slot delta menu items =>
      let session := state.sessions slot
      let page := wrapIndex (session.page + delta) (pageCount items layout.rowCount)
      later [.draw slot] (setSession slot { session with page } (reads slot menu state))
  | .tabbing slot tab serial =>
      let session := state.sessions slot
      let jumped := setSession slot { session with page := 0 } (readsSession slot serial state)
      match session.tabs[tab]? with
      | none => { jumped with strayed := true }
      | some index => activate slot index jumped

inductive Label where
  | openSession (slot : Nat) (menu : Option Menu) (homePage canShow : Bool)
  | openMenu (slot : Nat) (menu : Option Menu) (canShow : Bool)
  | close (slot : Nat)
  | closeAll (slot : Nat)
  | press (slot : Nat) (button : MenuButton) (capturing : Bool)
  | slotChanged (slot : Nat)
  | elapse (slot : Nat)
  | returns (answer : Bool)
  | goOn (shown : Bool)

/-- User code acts when nothing is under way or a callback runs. -/
def free (state : State) : Bool :=
  match state.tasks with
  | [] | .calling :: _ => true
  | _ => false

def slotChanged (slot : Nat) (state : State) : State :=
  resetSession slot (setHeld slot none (setMenus slot [] state))

/-- A call of user code. -/
def act (layout : Layout) (state : State) : Label → State
  | .openSession slot menu homePage canShow => openSession slot menu homePage canShow state
  | .openMenu slot menu canShow => openMenu slot menu canShow state
  | .close slot => close slot state
  | .closeAll slot => closeAll slot state
  | .press slot button capturing => onPress layout slot button capturing state
  | .slotChanged slot => slotChanged slot state
  | _ => state

def step (layout : Layout) (state : State) : Label → Option State
  | .elapse slot => if state.tasks = [] then some (applyPending slot state) else none
  | .returns answer =>
      match state.tasks with
      | .calling :: rest => some { state with tasks := rest, answer }
      | _ => none
  | .goOn shown =>
      match state.tasks with
      | [] | .calling :: _ => none
      | task :: rest => some (resume layout shown { state with tasks := rest } task)
  | label => if free state then some (act layout state label) else none

/-- No empty stack has been popped, no null menu stands on one, and nothing that a callback took
away has been used. -/
structure Sane (state : State) : Prop where
  defined : state.undefined = false
  kept : state.strayed = false
  menus : ∀ slot, none ∉ state.menus slot

/-- An operation that goes on finds what it goes on with: a pop and a jump to the root the stack
not empty, a page turn the menu it was called on, a tab press the session it was called on, a
description the menu and the session it was asked for. -/
def Found (state : State) : Label → Prop
  | .goOn _ =>
      match state.tasks with
      | .popBack slot :: _ | .resizeToRoot slot :: _ => state.menus slot ≠ []
      | .turning slot _ menu _ :: _ => menu ∈ addresses state slot
      | .tabbing slot _ serial :: _ => (state.sessions slot).serial = serial
      | .tabDescribed slot menu _ serial :: _ | .rowDescribed slot menu serial :: _ =>
          menu ∈ addresses state slot ∧ (state.sessions slot).serial = serial
      | _ => True
  | _ => True

end Control

end VoltMod.PanoramaMenu
