import Mathlib.Data.List.Basic
import Mathlib.Logic.Function.Basic
import VoltMod.Ledger
import VoltMod.Transition

/-! Menu/MenuStack.cpp over Menu/PendingCommit.cpp: every player's stack of menus and
the one held-back commit. Row callbacks and commits run in the middle of these
operations and may call any of them again, so an operation that is waiting for one is
a frame, and what it still has to do is its continuation. What a callback answers and
what a row describes itself as are inputs of the step. A row keeps its own value; its
commit applies what the row holds when it runs. Slots are valid ones; row texts, the
memory for flashing changed rows and the menus' titles are left out. -/
namespace VoltMod.MenuStack
open Transition Ledger

/-- Which callbacks the row was given. -/
structure Item where
  describes : Bool
  activates : Bool
  steps : Bool
  commits : Bool
  deriving DecidableEq, Repr

/-- `id` is the menu's address. -/
structure Menu where
  id : Nat
  items : List Item
  deriving DecidableEq, Repr

/-- A commit held for a row: `PendingCommit::Entry` keeps its `row` alone as the index,
the rest is what its closure captured and a serial to tell holds apart. -/
structure Commit where
  serial : Nat
  slot : Nat
  menu : Nat
  row : Nat
  deriving DecidableEq, Repr

/-- How a commit stopped being held. `pressed` says on which row of which menu Activate
was called, and whether the row took it. -/
inductive Fate where
  | ran (value : Option Nat)
  | replaced (next : Commit)
  | pressed (menu : Option Nat) (row : Nat) (taken : Bool)
  | slotChanged
  deriving DecidableEq, Repr

/-- What an operation has left to do once the callback it runs returns. -/
inductive Frame where
  | nothing
  | popping (slot : Nat)
  | clearing (slot : Nat)
  | rooting (slot : Nat)
  | holding (slot menu row : Nat)
  | activating (slot row : Nat)
  | stepping (slot menu row : Nat) (commits : Bool)
  deriving DecidableEq, Repr

/-- Menus are listed top first, `none` being a null pointer; `undefined` is set where
the code would pop an empty vector or read through a null menu. `stepped`, `stored`
and `fates` are history, newest first for `stepped`. -/
structure State where
  menus : Nat → List (Option Menu)
  held : List Commit
  frames : List Frame
  undefined : Bool
  stepped : List ((Nat × Nat × Nat) × Nat)
  stored : List Commit
  fates : List (Commit × Fate)

def initial : State := ⟨fun _ => [], [], [], false, [], [], []⟩

def setMenus (slot : Nat) (menus : List (Option Menu)) (state : State) : State :=
  { state with menus := Function.update state.menus slot menus }

/-- Rebuild reads the title of every menu below the top one. -/
def rebuild (slot : Nat) (state : State) : State :=
  { state with
    undefined := state.undefined || (state.menus slot).tail.any fun menu => menu.isNone }

def current (state : State) (slot : Nat) : Option Menu :=
  (state.menus slot).head?.bind id

def currentId (state : State) (slot : Nat) : Option Nat :=
  (current state slot).map Menu.id

def itemAt (state : State) (slot row : Nat) : Option Item :=
  (current state slot).bind fun menu => menu.items[row]?

def push (slot : Nat) (menu : Menu) (state : State) : State :=
  rebuild slot (setMenus slot (some menu :: state.menus slot) state)

def heldBy (state : State) (slot : Nat) : Option Commit :=
  state.held.find? fun commit => commit.slot = slot

def isPending (state : State) (slot row : Nat) : Bool :=
  (heldBy state slot).any fun commit => commit.row = row

/-- The entry is emptied, whatever becomes of its commit. -/
def release (commit : Commit) (fate : Fate) (state : State) : State :=
  { state with
    held := state.held.filter fun other => !decide (other.slot = commit.slot)
    fates := state.fates ++ [(commit, fate)] }

def rowValue (state : State) (slot menu row : Nat) : Option Nat :=
  (state.stepped.find? fun entry => entry.1 = (slot, menu, row)).map Prod.snd

/-- The entry is taken out before its commit runs; `rest` waits for it. -/
def runCommit (commit : Commit) (rest : Frame) (state : State) : State :=
  let released := release commit (.ran (rowValue state commit.slot commit.menu commit.row)) state
  { released with frames := rest :: released.frames }

/-- The end of Hold: the entry is written over. -/
def store (slot menu row : Nat) (state : State) : State :=
  let commit : Commit := ⟨state.stored.length, slot, menu, row⟩
  let freed := match heldBy state slot with
    | some old => release old (.replaced commit) state
    | none => state
  { freed with held := freed.held ++ [commit], stored := freed.stored ++ [commit] }

def hold (slot menu row : Nat) (state : State) : State :=
  match heldBy state slot with
  | some commit =>
      -- Only the row index is compared, so the same row of another menu is written over too.
      if commit.row = row then store slot menu row state
      else runCommit commit (.holding slot menu row) state
  | none => store slot menu row state

def popBack (slot : Nat) (state : State) : State :=
  match state.menus slot with
  | [] => { state with undefined := true }
  | _ :: rest => rebuild slot (setMenus slot rest state)

def resizeToRoot (slot : Nat) (state : State) : State :=
  rebuild slot (setMenus slot [(state.menus slot).getLast?.bind id] state)

/-- Whether the row acts on a press: `actionable` is how it describes itself. -/
def takes (state : State) (slot row : Nat) (actionable : Bool) : Bool :=
  (itemAt state slot row).any fun item => item.activates && item.describes && actionable

def activateRow (slot row : Nat) (actionable : Bool) (state : State) : State :=
  if takes state slot row actionable then { state with frames := .nothing :: state.frames }
  else state

/-- The rest of an operation. `answer` is what the step callback answered, or how the
row to activate describes itself by now. -/
def resume (answer : Bool) (value : Nat) (state : State) : Frame → State
  | .nothing => state
  | .popping slot => popBack slot state
  | .clearing slot => setMenus slot [] state
  | .rooting slot => resizeToRoot slot state
  | .holding slot menu row => store slot menu row state
  | .activating slot row => activateRow slot row answer state
  | .stepping slot menu row commits =>
      if answer then
        let moved := { state with stepped := ((slot, menu, row), value) :: state.stepped }
        -- The callback may have pushed or popped: Step holds only for the menu still on top.
        if commits ∧ currentId moved slot = some menu then hold slot menu row moved else moved
      else state

/-- PendingCommit's Apply, with what the caller goes on to do. -/
def applyThen (slot : Nat) (answer : Bool) (rest : Frame) (state : State) : State :=
  match heldBy state slot with
  | some commit => runCommit commit rest state
  | none => resume answer 0 state rest

def pop (slot : Nat) (state : State) : State :=
  if state.menus slot = [] then state else applyThen slot false (.popping slot) state

def clear (slot : Nat) (state : State) : State := applyThen slot false (.clearing slot) state

def popToRoot (slot : Nat) (state : State) : State :=
  if state.menus slot = [] then state else applyThen slot false (.rooting slot) state

def applyPending (slot : Nat) (state : State) : State := applyThen slot false .nothing state

/-- The cursor of CenterHtmlMenu lands on a row. -/
def select (slot row : Nat) (state : State) : State :=
  match itemAt state slot row with
  | none => state
  | some _ => if isPending state slot row then state else applyPending slot state

def activate (slot row : Nat) (actionable : Bool) (state : State) : State :=
  match heldBy state slot with
  | some commit =>
      -- A press on the held row drops the commit before the row is looked at.
      if commit.row = row then
        let fate := .pressed (currentId state slot) row (takes state slot row actionable)
        activateRow slot row actionable (release commit fate state)
      else runCommit commit (.activating slot row) state
  | none => activateRow slot row actionable state

/-- Step up to the row's callback. -/
def stepRow (slot row : Nat) (enabled : Bool) (state : State) : State :=
  match current state slot with
  | none => state
  | some menu =>
      match menu.items[row]? with
      | none => state
      | some item =>
          if item.steps && item.describes && enabled then
            { state with frames := .stepping slot menu.id row item.commits :: state.frames }
          else state

/-- Both per-slot stores reset their entry when the slot changes hands. -/
def slotChanged (slot : Nat) (state : State) : State :=
  let freed := match heldBy state slot with
    | some commit => release commit .slotChanged state
    | none => state
  setMenus slot [] freed

inductive Label where
  | push (slot : Nat) (menu : Menu)
  | pop (slot : Nat)
  | clear (slot : Nat)
  | popToRoot (slot : Nat)
  | select (slot row : Nat)
  | applyPending (slot : Nat)
  | activate (slot row : Nat) (actionable : Bool)
  | stepRow (slot row : Nat) (enabled : Bool)
  | elapse (slot : Nat)
  | slotChanged (slot : Nat)
  | returns (answer : Bool) (value : Nat)

def step (state : State) : Label → Option State
  | .push slot menu => some (push slot menu state)
  | .pop slot => some (pop slot state)
  | .clear slot => some (clear slot state)
  | .popToRoot slot => some (popToRoot slot state)
  | .select slot row => some (select slot row state)
  | .applyPending slot => some (applyPending slot state)
  | .activate slot row actionable => some (activate slot row actionable state)
  | .stepRow slot row enabled => some (stepRow slot row enabled state)
  | .elapse slot =>
      match state.frames, heldBy state slot with
      | [], some commit => some (runCommit commit .nothing state)
      | _, _ => none
  | .slotChanged slot => some (slotChanged slot state)
  | .returns answer value =>
      match state.frames with
      | [] => none
      | frame :: outer => some (resume answer value { state with frames := outer } frame)

/-- A commit runs with what its row was last stepped to. It may go unrun when a later step
of its own row replaces it, when its own row is activated, or when the slot changes hands.
Whether a press its row refuses counts as an activation is left open: `strict` says it
does not. -/
def Proper (strict : Bool) (commit : Commit) : Fate → Prop
  | .ran value => value.isSome
  | .replaced next =>
      next.slot = commit.slot ∧ next.menu = commit.menu ∧ next.row = commit.row
  | .pressed menu row taken =>
      menu = some commit.menu ∧ row = commit.row ∧ (strict = true → taken = true)
  | .slotChanged => True

/-- Every commit ever held is held still or has ended once, and properly. -/
structure Kept (strict : Bool) (state : State) : Prop where
  distinct : state.stored.Nodup
  once : Accounted state.stored (state.fates.map Prod.fst) state.held
  proper : ∀ ended ∈ state.fates, Proper strict ended.1 ended.2

/-- What is written over, or dropped by a press, belongs to the very row. -/
def OwnRow (strict : Bool) (state : State) : Label → Prop
  | .activate slot row actionable => ∀ commit, heldBy state slot = some commit →
      commit.row = row → currentId state slot = some commit.menu ∧
        (strict = true → takes state slot row actionable = true)
  | .returns answer _ => ∀ commit slot menu row outer, heldBy state slot = some commit →
      (state.frames = .stepping slot menu row true :: outer → answer = true →
        currentId state slot = some menu → commit.row = row → commit.menu = menu) ∧
      (state.frames = .holding slot menu row :: outer → commit.menu = menu ∧ commit.row = row)
  | _ => True

/-- The key under which a row keeps its value. -/
def Commit.key (commit : Commit) : Nat × Nat × Nat := (commit.slot, commit.menu, commit.row)

/-- Only rows that were stepped hold a commit, or are about to. -/
structure Sound (state : State) : Prop where
  slots : (state.held.map Commit.slot).Nodup
  serials : state.stored.map Commit.serial = List.range state.stored.length
  balanced : Accounted state.stored (state.fates.map Prod.fst) state.held
  valued : ∀ commit ∈ state.held, commit.key ∈ state.stepped.map Prod.fst
  waiting : ∀ slot menu row, .holding slot menu row ∈ state.frames →
    (slot, menu, row) ∈ state.stepped.map Prod.fst

def AllProper (strict : Bool) (state : State) : Prop :=
  ∀ ended ∈ state.fates, Proper strict ended.1 ended.2

theorem kept_iff {strict : Bool} {state : State} (sound : Sound state) :
    Kept strict state ↔ AllProper strict state := by
  refine ⟨fun kept => kept.proper, fun proper => ⟨?_, sound.balanced, proper⟩⟩
  exact List.Nodup.of_map Commit.serial (sound.serials ▸ List.nodup_range)

theorem initial_sound : Sound initial :=
  ⟨List.nodup_nil, rfl, accounted_empty, by simp [initial], by simp [initial]⟩

/-- What the entries hold, what they ever held, and how it ended. -/
def accounts (state : State) : List Commit × List Commit × List (Commit × Fate) :=
  (state.held, state.stored, state.fates)

/-- A step that leaves the entries and the rows' values alone, and no Hold waiting. -/
structure Quiet (before after : State) : Prop where
  accounts : accounts after = accounts before
  stepped : after.stepped = before.stepped
  waiting : ∀ slot menu row, .holding slot menu row ∈ after.frames →
    .holding slot menu row ∈ before.frames

theorem Quiet.sound {before after : State} (quiet : Quiet before after)
    (sound : Sound before) : Sound after := by
  obtain ⟨same, stepped, waiting⟩ := quiet
  simp only [MenuStack.accounts, Prod.mk.injEq] at same
  obtain ⟨held, stored, fates⟩ := same
  refine ⟨held ▸ sound.slots, stored ▸ sound.serials, held ▸ stored ▸ fates ▸ sound.balanced,
    held ▸ stepped ▸ sound.valued, fun slot menu row waits => ?_⟩
  rw [stepped]
  exact sound.waiting slot menu row (waiting slot menu row waits)

theorem Quiet.proper {strict : Bool} {before after : State} (quiet : Quiet before after) :
    AllProper strict after ↔ AllProper strict before := by
  have same := quiet.accounts
  simp only [MenuStack.accounts, Prod.mk.injEq] at same
  rw [AllProper, AllProper, same.2.2]

theorem Quiet.refl (state : State) : Quiet state state :=
  ⟨rfl, rfl, fun _ _ _ waits => waits⟩

theorem enter_quiet {frame : Frame} (apart : ∀ slot menu row, frame ≠ .holding slot menu row)
    (state : State) : Quiet state { state with frames := frame :: state.frames } := by
  refine ⟨rfl, rfl, fun slot menu row waits => ?_⟩
  rcases List.mem_cons.mp waits with top | older
  · exact absurd top.symm (apart slot menu row)
  · exact older

theorem leave_quiet {frame : Frame} {outer : List Frame} {state : State}
    (waits : state.frames = frame :: outer) : Quiet state { state with frames := outer } := by
  refine ⟨rfl, rfl, fun slot menu row inside => ?_⟩
  rw [waits]
  exact List.mem_cons_of_mem _ inside

theorem popBack_quiet (slot : Nat) (state : State) : Quiet state (popBack slot state) := by
  unfold popBack
  split
  · exact ⟨rfl, rfl, fun _ _ _ waits => waits⟩
  · exact ⟨rfl, rfl, fun _ _ _ waits => waits⟩

theorem activateRow_quiet (slot row : Nat) (actionable : Bool) (state : State) :
    Quiet state (activateRow slot row actionable state) := by
  unfold activateRow
  split
  · exact enter_quiet (by simp) state
  · exact Quiet.refl state

theorem stepRow_quiet (slot row : Nat) (enabled : Bool) (state : State) :
    Quiet state (stepRow slot row enabled state) := by
  unfold stepRow
  split
  · exact Quiet.refl state
  · split
    · exact Quiet.refl state
    · split
      · exact enter_quiet (by simp) state
      · exact Quiet.refl state

/-- The frames that Apply is called under leave the entries alone afterwards. -/
def Frame.Plain : Frame → Prop
  | .nothing | .popping _ | .clearing _ | .rooting _ | .activating _ _ => True
  | .holding _ _ _ | .stepping _ _ _ _ => False

theorem Frame.Plain.apart {frame : Frame} (plain : frame.Plain) (slot menu row : Nat) :
    frame ≠ .holding slot menu row := by
  rintro rfl
  exact plain

theorem resume_quiet {frame : Frame} (plain : frame.Plain) (answer : Bool) (value : Nat)
    (state : State) : Quiet state (resume answer value state frame) := by
  cases frame with
  | nothing => exact Quiet.refl state
  | popping slot => exact popBack_quiet slot state
  | clearing slot => exact ⟨rfl, rfl, fun _ _ _ waits => waits⟩
  | rooting slot => exact ⟨rfl, rfl, fun _ _ _ waits => waits⟩
  | activating slot row => exact activateRow_quiet slot row answer state
  | holding slot menu row => exact plain.elim
  | stepping slot menu row commits => exact plain.elim

theorem heldBy_slot {state : State} {slot : Nat} {commit : Commit}
    (held : heldBy state slot = some commit) : commit.slot = slot := by
  simpa using List.find?_some held

theorem heldBy_perm {state : State} {slot : Nat} {commit : Commit} (sound : Sound state)
    (held : heldBy state slot = some commit) :
    state.held.Perm (commit :: state.held.filter fun other => !decide (other.slot = commit.slot)) :=
  keyed_perm Commit.slot sound.slots (List.mem_of_find?_eq_some held)

theorem release_sound {state : State} {slot : Nat} {commit : Commit} (fate : Fate)
    (sound : Sound state) (held : heldBy state slot = some commit) :
    Sound (release commit fate state) := by
  have kept : List.Sublist (state.held.filter fun other => !decide (other.slot = commit.slot))
      state.held := List.filter_sublist
  refine ⟨(kept.map Commit.slot).nodup sound.slots, sound.serials, ?_,
    fun other still => sound.valued other (kept.subset still), sound.waiting⟩
  have taken : state.held.Perm
      ([commit] ++ state.held.filter fun other => !decide (other.slot = commit.slot)) :=
    heldBy_perm sound held
  simpa [release] using accounted_settle sound.balanced taken

theorem release_proper {strict : Bool} {state : State} {commit : Commit} {fate : Fate}
    (proper : AllProper strict state) :
    AllProper strict (release commit fate state) ↔ Proper strict commit fate := by
  constructor
  · intro all
    exact all (commit, fate) (by simp [release])
  · intro last ended member
    rcases List.mem_append.mp member with old | new
    · exact proper ended old
    · rw [List.mem_singleton.mp new]
      exact last

theorem release_free {commit : Commit} {fate : Fate} {state : State} :
    heldBy (release commit fate state) commit.slot = none := by
  simp [heldBy, release]

theorem valued_row {state : State} {commit : Commit} (sound : Sound state)
    (held : commit ∈ state.held) :
    (rowValue state commit.slot commit.menu commit.row).isSome := by
  obtain ⟨entry, stepped, row⟩ := List.mem_map.mp (sound.valued commit held)
  simp only [rowValue, Option.isSome_map, List.find?_isSome]
  exact ⟨entry, stepped, decide_eq_true row⟩

/-- Apply runs what is held, and only a Hold of a stepped row may be waiting for it. -/
theorem run_kept {strict : Bool} {state : State} {slot : Nat} {commit : Commit} (rest : Frame)
    (ready : ∀ slot menu row, rest = .holding slot menu row →
      (slot, menu, row) ∈ state.stepped.map Prod.fst)
    (sound : Sound state) (proper : AllProper strict state)
    (held : heldBy state slot = some commit) :
    Sound (runCommit commit rest state) ∧ AllProper strict (runCommit commit rest state) := by
  have last := valued_row sound (List.mem_of_find?_eq_some held)
  have freed := release_sound
    (.ran (rowValue state commit.slot commit.menu commit.row)) sound held
  refine ⟨{ freed with waiting := fun slot menu row waits => ?_ }, (release_proper proper).mpr last⟩
  rcases List.mem_cons.mp waits with top | older
  · exact ready slot menu row top.symm
  · exact sound.waiting slot menu row older

theorem append_sound {state : State} {slot menu row : Nat} (sound : Sound state)
    (stepped : (slot, menu, row) ∈ state.stepped.map Prod.fst)
    (free : heldBy state slot = none) :
    Sound { state with
      held := state.held ++ [⟨state.stored.length, slot, menu, row⟩]
      stored := state.stored ++ [⟨state.stored.length, slot, menu, row⟩] } := by
  refine ⟨?_, by simp [sound.serials, List.range_succ], ?_, ?_, sound.waiting⟩
  · have absent : slot ∉ state.held.map Commit.slot := by
      intro member
      obtain ⟨other, held, same⟩ := List.mem_map.mp member
      have different := List.find?_eq_none.mp free other held
      exact different (by simpa using same)
    simpa using sound.slots.concat absent
  · exact accounted_hand_in sound.balanced (List.perm_append_singleton _ _)
  · intro commit held
    rcases List.mem_append.mp held with old | new
    · exact sound.valued commit old
    · rw [List.mem_singleton.mp new]
      exact stepped

/-- Writing an entry over is proper exactly when it held nothing, or this very row. -/
theorem store_kept (strict : Bool) {slot menu row : Nat} {state : State} (sound : Sound state)
    (stepped : (slot, menu, row) ∈ state.stepped.map Prod.fst) (proper : AllProper strict state) :
    Sound (store slot menu row state) ∧ (AllProper strict (store slot menu row state) ↔
      ∀ commit, heldBy state slot = some commit → commit.menu = menu ∧ commit.row = row) := by
  unfold store
  cases held : heldBy state slot with
  | none => exact ⟨append_sound sound stepped held, iff_of_true proper (by simp)⟩
  | some old =>
      have here := heldBy_slot held
      let next : Commit := ⟨state.stored.length, slot, menu, row⟩
      have freed := release_sound (.replaced next) sound held
      refine ⟨append_sound freed stepped (here ▸ release_free), ?_⟩
      have ended : AllProper strict (release old (.replaced next) state) ↔
          Proper strict old (.replaced next) := release_proper proper
      apply ended.trans
      simp only [Proper, here, next, Option.some.injEq, forall_eq', true_and]
      exact and_congr eq_comm eq_comm

theorem hold_kept {strict : Bool} {slot menu row : Nat} {state : State} (sound : Sound state)
    (stepped : (slot, menu, row) ∈ state.stepped.map Prod.fst) (proper : AllProper strict state) :
    Sound (hold slot menu row state) ∧ (AllProper strict (hold slot menu row state) ↔
      ∀ commit, heldBy state slot = some commit → commit.row = row → commit.menu = menu) := by
  have stored := store_kept strict sound stepped proper
  unfold hold
  cases held : heldBy state slot with
  | none => exact ⟨stored.1, stored.2.trans (by simp [held])⟩
  | some commit =>
      dsimp only
      split
      -- Same row index: written over in place. Another row: its commit runs first, and the
      -- store waits in a frame.
      · next same => exact ⟨stored.1, stored.2.trans (by simp [held, same])⟩
      · next other =>
          have ready : ∀ at_slot at_menu at_row,
              Frame.holding slot menu row = .holding at_slot at_menu at_row →
              (at_slot, at_menu, at_row) ∈ state.stepped.map Prod.fst := by
            rintro _ _ _ ⟨⟩
            exact stepped
          obtain ⟨kept, stays⟩ := run_kept (.holding slot menu row) ready sound proper held
          exact ⟨kept, iff_of_true stays (by simp [other])⟩

theorem applyThen_kept {strict : Bool} {slot : Nat} {answer : Bool} {rest : Frame}
    {state : State} (plain : rest.Plain) (sound : Sound state) (proper : AllProper strict state) :
    Sound (applyThen slot answer rest state) ∧
      AllProper strict (applyThen slot answer rest state) := by
  unfold applyThen
  split
  · next commit held =>
      exact run_kept rest (fun slot menu row same => absurd same (plain.apart slot menu row))
        sound proper held
  · have quiet := resume_quiet plain answer 0 state
    exact ⟨quiet.sound sound, quiet.proper.mpr proper⟩

theorem activate_kept {strict : Bool} {slot row : Nat} {actionable : Bool} {state : State}
    (sound : Sound state) (proper : AllProper strict state) :
    Sound (activate slot row actionable state) ∧
      (AllProper strict (activate slot row actionable state) ↔
        OwnRow strict state (.activate slot row actionable)) := by
  unfold activate
  cases held : heldBy state slot with
  | none =>
      have quiet := activateRow_quiet slot row actionable state
      refine ⟨quiet.sound sound, iff_of_true (quiet.proper.mpr proper) ?_⟩
      intro commit found
      rw [held] at found
      cases found
  | some commit =>
      have guard : OwnRow strict state (.activate slot row actionable) ↔
          (commit.row = row → currentId state slot = some commit.menu ∧
            (strict = true → takes state slot row actionable = true)) := by
        simp only [OwnRow, held, Option.some.injEq, forall_eq']
      rw [guard]
      dsimp only
      split
      · next here =>
          have quiet := activateRow_quiet slot row actionable (release commit
            (.pressed (currentId state slot) row (takes state slot row actionable)) state)
          refine ⟨quiet.sound (release_sound _ sound held), ?_⟩
          rw [quiet.proper, release_proper proper]
          simp only [Proper, here, true_and, forall_const]
      · next other =>
          obtain ⟨kept, stays⟩ := run_kept (.activating slot row) (by simp) sound proper held
          exact ⟨kept, iff_of_true stays fun here => absurd here other⟩

theorem slotChanged_kept {strict : Bool} {slot : Nat} {state : State} (sound : Sound state)
    (proper : AllProper strict state) :
    Sound (slotChanged slot state) ∧ AllProper strict (slotChanged slot state) := by
  have reset : ∀ menus freed, Quiet freed (setMenus slot menus freed) :=
    fun _ _ => ⟨rfl, rfl, fun _ _ _ waits => waits⟩
  unfold slotChanged
  cases held : heldBy state slot with
  | none => exact ⟨(reset [] state).sound sound, (reset [] state).proper.mpr proper⟩
  | some commit =>
      have freed := release_sound .slotChanged sound held
      exact ⟨(reset [] _).sound freed, (release_proper proper).mpr trivial⟩

theorem stepped_sound (slot menu row value : Nat) {state : State} (sound : Sound state) :
    Sound { state with stepped := ((slot, menu, row), value) :: state.stepped } :=
  { sound with
    valued := fun commit held => List.mem_cons_of_mem _ (sound.valued commit held)
    waiting := fun slot menu row waits =>
      List.mem_cons_of_mem _ (sound.waiting slot menu row waits) }

/-- A Step that moved holds only while its menu is still the one on top. -/
theorem stepping_kept (strict : Bool) {answer commits : Bool} {slot menu row value : Nat} {state : State}
    (sound : Sound state) (proper : AllProper strict state) :
    Sound (resume answer value state (.stepping slot menu row commits)) ∧
      (AllProper strict (resume answer value state (.stepping slot menu row commits)) ↔
        (answer = true → commits = true → currentId state slot = some menu →
          ∀ commit, heldBy state slot = some commit → commit.row = row → commit.menu = menu)) := by
  unfold resume
  dsimp only
  split
  · next moves =>
      have moved := stepped_sound slot menu row value sound
      split
      · next holds =>
          obtain ⟨kept, exact⟩ := hold_kept moved (List.mem_cons_self ..) proper
          refine ⟨kept, exact.trans ⟨fun own _ _ _ => own, fun own => own moves holds.1 holds.2⟩⟩
      · next idle =>
          refine ⟨moved, iff_of_true proper fun _ commits here => absurd ⟨commits, here⟩ idle⟩
  · next stays => exact ⟨sound, iff_of_true proper fun moves => absurd moves stays⟩

theorem resume_kept {strict answer : Bool} {value : Nat} {frame : Frame} {outer : List Frame}
    {state : State} (waits : state.frames = frame :: outer) (sound : Sound state)
    (proper : AllProper strict state) :
    Sound (resume answer value { state with frames := outer } frame) ∧
      (AllProper strict (resume answer value { state with frames := outer } frame) ↔
        OwnRow strict state (.returns answer value)) := by
  have left := leave_quiet waits
  have inner := left.sound sound
  have ended := left.proper.mpr proper
  -- Frames other than Hold's and Step's leave the entries alone, and their guard says nothing.
  have settled (plain : frame.Plain) :
      Sound (resume answer value { state with frames := outer } frame) ∧
        (AllProper strict (resume answer value { state with frames := outer } frame) ↔
          OwnRow strict state (.returns answer value)) := by
    have quiet := resume_quiet plain answer value { state with frames := outer }
    refine ⟨quiet.sound inner, iff_of_true (quiet.proper.mpr ended) ?_⟩
    intro commit slot menu row rest held
    refine ⟨fun same => ?_, fun same => ?_⟩
    · rw [(List.cons.inj (waits.symm.trans same)).1] at plain
      exact plain.elim
    · rw [(List.cons.inj (waits.symm.trans same)).1] at plain
      exact plain.elim
  cases frame with
  | nothing => exact settled trivial
  | popping slot => exact settled trivial
  | clearing slot => exact settled trivial
  | rooting slot => exact settled trivial
  | activating slot row => exact settled trivial
  | holding slot menu row =>
      have stepped := sound.waiting slot menu row (waits ▸ List.mem_cons_self ..)
      obtain ⟨kept, exact⟩ := store_kept strict inner stepped ended
      refine ⟨kept, exact.trans ⟨fun own => ?_, fun own commit held => ?_⟩⟩
      · intro commit at_slot at_menu at_row rest held
        simp only [waits, List.cons.injEq, reduceCtorEq, false_and, false_implies, true_and]
        rintro ⟨⟨rfl, rfl, rfl⟩, _⟩
        exact own commit held
      · exact (own commit slot menu row outer held).2 waits
  | stepping slot menu row commits =>
      obtain ⟨kept, exact⟩ := stepping_kept strict inner ended
      refine ⟨kept, exact.trans ⟨fun own => ?_, fun own answers commits here => ?_⟩⟩
      · intro commit at_slot at_menu at_row rest held
        simp only [waits, List.cons.injEq, reduceCtorEq, false_and, false_implies, and_true]
        rintro ⟨⟨rfl, rfl, rfl, rfl⟩, _⟩ answers here same
        exact own answers rfl here commit held same
      · intro commit held same
        subst commits
        exact (own commit slot menu row outer held).1 waits answers here same

/-- One step keeps every commit exactly when what it writes over or drops is the row's own. -/
theorem step_kept {strict : Bool} {before after : State} {label : Label}
    (moves : step before label = some after) (sound : Sound before)
    (proper : AllProper strict before) :
    Sound after ∧ (AllProper strict after ↔ OwnRow strict before label) := by
  have idle : Sound before ∧ (AllProper strict before ↔ True) := ⟨sound, iff_of_true proper trivial⟩
  -- Most moves end in applyThen, which keeps both.
  have flushed {slot : Nat} {rest : Frame} (plain : rest.Plain) :
      Sound (applyThen slot false rest before) ∧
        (AllProper strict (applyThen slot false rest before) ↔ True) := by
    obtain ⟨kept, stays⟩ := applyThen_kept plain sound proper
    exact ⟨kept, iff_of_true stays trivial⟩
  cases label with
  | push slot menu =>
      cases moves
      have quiet : Quiet before (push slot menu before) := ⟨rfl, rfl, fun _ _ _ waits => waits⟩
      exact ⟨quiet.sound sound, iff_of_true (quiet.proper.mpr proper) trivial⟩
  | pop slot =>
      cases moves
      show Sound (pop slot before) ∧ (AllProper strict (pop slot before) ↔ True)
      unfold pop
      split
      · exact idle
      · exact flushed trivial
  | clear slot =>
      cases moves
      exact flushed trivial
  | popToRoot slot =>
      cases moves
      show Sound (popToRoot slot before) ∧ (AllProper strict (popToRoot slot before) ↔ True)
      unfold popToRoot
      split
      · exact idle
      · exact flushed trivial
  | select slot row =>
      cases moves
      show Sound (select slot row before) ∧ (AllProper strict (select slot row before) ↔ True)
      unfold select
      split
      · exact idle
      · split
        · exact idle
        · exact flushed trivial
  | applyPending slot =>
      cases moves
      exact flushed trivial
  | activate slot row actionable =>
      cases moves
      exact activate_kept sound proper
  | stepRow slot row enabled =>
      cases moves
      have quiet := stepRow_quiet slot row enabled before
      exact ⟨quiet.sound sound, iff_of_true (quiet.proper.mpr proper) trivial⟩
  | elapse slot =>
      simp only [step] at moves
      split at moves
      · next commit _ held =>
          cases moves
          obtain ⟨kept, stays⟩ := run_kept .nothing (by simp) sound proper held
          exact ⟨kept, iff_of_true stays trivial⟩
      · cases moves
  | slotChanged slot =>
      cases moves
      obtain ⟨kept, stays⟩ := slotChanged_kept sound proper
      exact ⟨kept, iff_of_true stays trivial⟩
  | returns answer value =>
      simp only [step] at moves
      split at moves
      · cases moves
      · next frame outer waits =>
          cases moves
          exact resume_kept waits sound proper

def stepper : Item := ⟨true, true, true, true⟩

end VoltMod.MenuStack
