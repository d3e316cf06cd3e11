import VoltMod.PanoramaMenu

/-! A menu session stays sane through every nesting of calls exactly while every operation that
goes on after a callback finds what it goes on with. -/
namespace VoltMod.PanoramaMenu
open MenuStack (Item Menu stepper)
open Transition

variable {before after state : State} {layout : Layout}

/-- All that a state's sanity is about. -/
def fabric (state : State) : (Nat → List (Option Menu)) × Bool × Bool :=
  (state.menus, state.undefined, state.strayed)

theorem sane_congr (same : fabric after = fabric before) : Sane after ↔ Sane before := by
  simp only [fabric, Prod.mk.injEq] at same
  obtain ⟨menus, undefined, strayed⟩ := same
  constructor
  · rintro ⟨defined, kept, whole⟩
    exact ⟨undefined ▸ defined, strayed ▸ kept, menus ▸ whole⟩
  · rintro ⟨defined, kept, whole⟩
    exact ⟨undefined.trans defined, strayed.trans kept, menus ▸ whole⟩

theorem sane_same (sane : Sane before) (same : fabric after = fabric before) : Sane after :=
  (sane_congr same).mpr sane

def isTabbing : Task → Bool
  | .tabbing .. => true
  | _ => false

/-- A waiting tab press is for a session of the slot, and for one of its tabs while it lasts. -/
def Sound (state : State) : Prop :=
  ∀ slot tab serial, .tabbing slot tab serial ∈ state.tasks →
    serial ≤ (state.sessions slot).serial ∧
      ((state.sessions slot).serial = serial → tab < (state.sessions slot).tabs.length)

/-- What neither pops, nor reads what may be gone, nor takes a tab away. -/
structure Calm (before after : State) : Prop where
  sane : Sane before → Sane after
  sound : Sound before → Sound after

theorem Calm.refl (state : State) : Calm state state := ⟨id, id⟩

theorem Calm.trans {middle : State} (first : Calm before middle) (second : Calm middle after) :
    Calm before after :=
  ⟨second.sane ∘ first.sane, second.sound ∘ first.sound⟩

section Parts

theorem sound_tasks (sessions : after.sessions = before.sessions)
    (tasks : ∀ task ∈ after.tasks, isTabbing task = true → task ∈ before.tasks)
    (sound : Sound before) : Sound after := by
  intro slot tab serial waits
  rw [sessions]
  exact sound slot tab serial (tasks _ waits rfl)

theorem later_calm {tasks : List Task} (quiet : ∀ task ∈ tasks, isTabbing task = false)
    (state : State) : Calm state (later tasks state) := by
  refine ⟨fun sane => sane_same sane rfl, sound_tasks rfl fun task member tabs => ?_⟩
  rcases List.mem_append.mp member with new | old
  · rw [quiet task new] at tabs
    cases tabs
  · exact old

theorem single_calm {task : Task} (quiet : isTabbing task = false) (state : State) :
    Calm state (later [task] state) :=
  later_calm (List.forall_mem_singleton.mpr quiet) state

theorem redraw_calm (slot : Nat) (state : State) : Calm state (later [.draw slot] state) :=
  single_calm rfl state

theorem setHeld_calm (slot : Nat) (held : Option Int) (state : State) :
    Calm state (setHeld slot held state) :=
  ⟨fun sane => sane_same sane rfl, sound_tasks rfl fun _ member _ => member⟩

theorem setSession_calm {slot : Nat} {session : Session}
    (serial : session.serial = (state.sessions slot).serial)
    (tabs : (state.sessions slot).tabs.length ≤ session.tabs.length) :
    Calm state (setSession slot session state) := by
  refine ⟨fun sane => sane_same sane rfl, fun sound other tab number waits => ?_⟩
  obtain ⟨older, inside⟩ := sound other tab number waits
  by_cases same : other = slot
  · subst same
    simp only [setSession, Function.update_self, serial]
    exact ⟨older, fun now => Nat.lt_of_lt_of_le (inside now) tabs⟩
  · simp only [setSession, Function.update_of_ne same]
    exact ⟨older, inside⟩

theorem resetSession_calm (slot : Nat) (state : State) : Calm state (resetSession slot state) := by
  refine ⟨fun sane => sane_same sane rfl, fun sound other tab number waits => ?_⟩
  obtain ⟨older, inside⟩ := sound other tab number waits
  by_cases same : other = slot
  · subst same
    simp only [resetSession, setSession, Function.update_self]
    exact ⟨Nat.le_succ_of_le older, fun now => absurd older (by omega)⟩
  · simp only [resetSession, setSession, Function.update_of_ne same]
    exact ⟨older, inside⟩

theorem rebuild_calm (slot : Nat) (state : State) : Calm state (rebuild slot state) := by
  refine ⟨fun sane => ⟨?_, sane.kept, sane.menus⟩, sound_tasks rfl fun _ member _ => member⟩
  simp only [rebuild, sane.defined, Bool.false_or]
  apply Bool.eq_false_iff.mpr
  intro any
  obtain ⟨menu, member, null⟩ := List.any_eq_true.mp any
  rw [Option.isNone_iff_eq_none] at null
  exact sane.menus slot (null ▸ List.mem_of_mem_tail member)

theorem setMenus_calm {slot : Nat} {menus : List (Option Menu)}
    (whole : none ∉ state.menus slot → none ∉ menus) : Calm state (setMenus slot menus state) := by
  refine ⟨fun sane => ⟨sane.defined, sane.kept, fun other => ?_⟩,
    sound_tasks rfl fun _ member _ => member⟩
  by_cases same : other = slot
  · subst same
    simp only [setMenus, Function.update_self]
    exact whole (sane.menus other)
  · simp only [setMenus, Function.update_of_ne same]
    exact sane.menus other

end Parts

section Operations

theorem push_calm (slot : Nat) (menu : Menu) (state : State) :
    Calm state (push slot menu state) := by
  refine (setMenus_calm fun whole => ?_).trans (rebuild_calm slot _)
  exact List.not_mem_cons_of_ne_of_not_mem nofun whole

theorem applyPending_calm (slot : Nat) (state : State) :
    Calm state (applyPending slot state) := by
  unfold applyPending
  split
  · exact Calm.refl state
  · exact (setHeld_calm slot none state).trans (later_calm (by simp [isTabbing]) _)

theorem pop_calm (slot : Nat) (state : State) : Calm state (pop slot state) := by
  unfold pop
  split
  · exact (later_calm (by simp [isTabbing]) state).trans (applyPending_calm slot _)
  · exact Calm.refl state

theorem clear_calm (slot : Nat) (state : State) : Calm state (clear slot state) :=
  (later_calm (by simp [isTabbing]) state).trans (applyPending_calm slot _)

theorem popToRoot_calm (slot : Nat) (state : State) : Calm state (popToRoot slot state) := by
  unfold popToRoot
  split
  · exact (later_calm (by simp [isTabbing]) state).trans (applyPending_calm slot _)
  · exact Calm.refl state

theorem hold_calm (slot : Nat) (index : Int) (state : State) :
    Calm state (hold slot index state) := by
  unfold hold
  split
  · exact setHeld_calm slot (some index) state
  · exact (later_calm (by simp [isTabbing]) state).trans (applyPending_calm slot _)

theorem describe_calm {rest : Nat → List Task} {otherwise : List Task}
    (described : ∀ menu, ∀ task ∈ rest menu, isTabbing task = false)
    (passed : ∀ task ∈ otherwise, isTabbing task = false) (slot : Nat) (index : Int)
    (state : State) : Calm state (describe slot index rest otherwise state) := by
  unfold describe
  split
  · next menu item _ =>
      split
      · refine later_calm (fun task member => ?_) state
        rcases List.mem_cons.mp member with rfl | inside
        · rfl
        · exact described menu.id task inside
      · exact later_calm passed state
  · exact later_calm passed state

theorem closeAll_calm (slot : Nat) (state : State) : Calm state (closeAll slot state) := by
  unfold closeAll
  split
  · exact (later_calm (by simp [isTabbing]) state).trans (clear_calm slot _)
  · exact Calm.refl state

theorem openSession_calm (slot : Nat) (menu : Option Menu) (homePage canShow : Bool)
    (state : State) : Calm state (openSession slot menu homePage canShow state) := by
  unfold openSession
  split
  · exact Calm.refl state
  · split
    · exact (later_calm (by simp [isTabbing]) state).trans (closeAll_calm slot _)
    · exact Calm.refl state

theorem openMenu_calm (slot : Nat) (menu : Option Menu) (canShow : Bool) (state : State) :
    Calm state (openMenu slot menu canShow state) := by
  unfold openMenu
  split
  · exact Calm.refl state
  · next pushed =>
      dsimp only
      split
      · have paged : Calm (push slot pushed state) (setSession slot
            { state.sessions slot with page := 0 } (push slot pushed state)) :=
          setSession_calm rfl (Nat.le_refl _)
        exact ((push_calm slot pushed state).trans paged).trans (redraw_calm slot _)
      · exact openSession_calm slot (some pushed) false canShow state

theorem close_calm (slot : Nat) (state : State) : Calm state (close slot state) := by
  unfold close
  split
  · exact (later_calm (by simp [isTabbing]) state).trans (pop_calm slot _)
  · exact Calm.refl state

theorem activate_calm (slot : Nat) (index : Int) (state : State) :
    Calm state (activate slot index state) := by
  unfold activate
  dsimp only
  have recorded : Calm state (if (state.menus slot).length = 1 then
      setSession slot { state.sessions slot with
        selectedTab := findTab index (state.sessions slot).tabs } state else state) := by
    split
    · exact setSession_calm rfl (Nat.le_refl _)
    · exact Calm.refl state
  generalize (if (state.menus slot).length = 1 then
      setSession slot { state.sessions slot with
        selectedTab := findTab index (state.sessions slot).tabs } state else state) = noted
    at recorded ⊢
  have waiting : Calm state (later [.activating slot index, .draw slot] noted) :=
    recorded.trans (later_calm (by simp [isTabbing]) noted)
  split
  · exact waiting.trans (setHeld_calm slot none _)
  · exact waiting.trans (applyPending_calm slot _)

theorem stepRow_calm (slot row : Nat) (state : State) :
    Calm state (stepRow layout slot row state) := by
  unfold stepRow
  dsimp only
  split
  · exact Calm.refl state
  · split
    · exact later_calm (by simp [isTabbing]) state
    · exact Calm.refl state

theorem turnPage_calm (slot : Nat) (delta : Int) (state : State) :
    Calm state (turnPage slot delta state) := by
  unfold turnPage
  split
  · exact Calm.refl state
  · exact (later_calm (by simp [isTabbing]) state).trans (applyPending_calm slot _)

/-- A tab press waits for a tab its session has. -/
theorem openTab_calm (slot : Nat) (tab : Int) (state : State) :
    Calm state (openTab slot tab state) := by
  unfold openTab
  dsimp only
  split
  · next inside =>
      have waiting : Calm state (later
          [.tabbing slot tab.toNat (state.sessions slot).serial] state) := by
        refine ⟨fun sane => sane_same sane rfl, fun sound other index serial waits => ?_⟩
        rcases List.mem_cons.mp waits with new | old
        · cases new
          exact ⟨Nat.le_refl _, fun _ => (Int.toNat_lt inside.1).mpr inside.2⟩
        · exact sound other index serial old
      exact waiting.trans (popToRoot_calm slot _)
  · exact Calm.refl state

theorem onPress_calm (slot : Nat) (button : MenuButton) (capturing : Bool) (state : State) :
    Calm state (onPress layout slot button capturing state) := by
  unfold onPress
  split
  · exact Calm.refl state
  · cases button with
    | cancel => exact redraw_calm slot state
    | back => exact close_calm slot state
    | close => exact closeAll_calm slot state
    | previousPage => exact turnPage_calm slot (-1) state
    | nextPage => exact turnPage_calm slot 1 state
    | tab index => exact openTab_calm slot index state
    | row index => exact activate_calm slot _ state
    | stepDown index => exact stepRow_calm slot index state
    | stepUp index => exact stepRow_calm slot index state

theorem slotChanged_calm (slot : Nat) (state : State) : Calm state (slotChanged slot state) :=
  ((setMenus_calm fun _ => List.not_mem_nil).trans (setHeld_calm slot none _)).trans
    (resetSession_calm slot _)

theorem act_calm (label : Label) (state : State) : Calm state (act layout state label) := by
  cases label with
  | openSession slot menu homePage canShow =>
      exact openSession_calm slot menu homePage canShow state
  | openMenu slot menu canShow => exact openMenu_calm slot menu canShow state
  | close slot => exact close_calm slot state
  | closeAll slot => exact closeAll_calm slot state
  | press slot button capturing => exact onPress_calm slot button capturing state
  | slotChanged slot => exact slotChanged_calm slot state
  | elapse slot => exact Calm.refl state
  | returns answer => exact Calm.refl state
  | goOn shown => exact Calm.refl state

end Operations

section Resuming
variable {task : Task} {rest : List Task}

theorem leave_calm (waits : state.tasks = task :: rest) :
    Calm state { state with tasks := rest } :=
  ⟨fun sane => sane_same sane rfl,
    sound_tasks rfl fun _ member _ => waits ▸ List.mem_cons_of_mem _ member⟩

/-- An open stack has a root. -/
theorem root_some {slot : Nat} (sane : Sane state) (opened : state.menus slot ≠ []) :
    (root state slot).isSome = true := by
  rw [root, List.getLast?_eq_some_getLast opened, Option.bind_some, id]
  cases bottom : (state.menus slot).getLast opened with
  | none => exact absurd (bottom ▸ List.getLast_mem opened) (sane.menus slot)
  | some menu => rfl

theorem current_open {slot : Nat} {menu : Menu} (top : current state slot = some menu) :
    state.menus slot ≠ [] := by
  intro empty
  rw [current, empty] at top
  cases top

theorem draw_calm (shown : Bool) (slot : Nat) (state : State) :
    Calm state (draw layout shown slot state) := by
  unfold draw
  split
  · exact Calm.refl state
  · next menu top =>
      dsimp only
      split
      · exact closeAll_calm slot state
      · have seen : Calm state
            { state with undefined := state.undefined || (root state slot).isNone } := by
          refine ⟨fun sane => ⟨?_, sane.kept, sane.menus⟩, sound_tasks rfl fun _ member _ => member⟩
          rw [sane.defined, Bool.false_or, Option.isNone_eq_false_iff]
          exact root_some sane (current_open top)
        have paged (page : Int) : Calm state (setSession slot
            { state.sessions slot with page }
            { state with undefined := state.undefined || (root state slot).isNone }) :=
          seen.trans (setSession_calm rfl (Nat.le_refl _))
        exact (paged _).trans (single_calm rfl _)

theorem opening_calm (shown : Bool) (slot : Nat) (menu : Menu) (homePage : Bool) (state : State) :
    Calm state (resume layout shown state (.opening slot menu homePage)) := by
  unfold resume
  dsimp only
  have ready : Calm state (setSession slot
      { (push slot menu state).sessions slot with homePage } (push slot menu state)) :=
    (push_calm slot menu state).trans (setSession_calm rfl (Nat.le_refl _))
  have opened : (setSession slot { (push slot menu state).sessions slot with homePage }
      (push slot menu state)).menus slot ≠ [] := by
    simp [setSession, push, rebuild, setMenus]
  generalize setSession slot { (push slot menu state).sessions slot with homePage }
    (push slot menu state) = pushed at ready opened ⊢
  split
  · next none =>
      refine ready.trans ⟨fun sane => ?_, sound_tasks rfl fun _ member _ => member⟩
      have some := root_some sane opened
      rw [none] at some
      cases some
  · next first _ => exact ready.trans (later_calm (by simp [isTabbing]) pushed)

/-- What an operation goes on to do unless it pops or reads what it read before. -/
def plain : Task → Bool
  | .popBack _ | .resizeToRoot _ | .turning .. | .tabbing .. | .tabDescribed .. | .rowDescribed .. =>
      false
  | _ => true

theorem plain_calm (shown : Bool) (simple : plain task = true) (state : State) :
    Calm state (resume layout shown state task) := by
  cases task with
  | calling => exact Calm.refl state
  | popBack slot => cases simple
  | clearStack slot => exact setMenus_calm fun _ => List.not_mem_nil
  | resizeToRoot slot => cases simple
  | closed slot =>
      unfold resume
      dsimp only
      split
      · refine (setSession_calm ?_ ?_).trans (redraw_calm slot _)
        · split
          · rfl
          · rfl
        · split
          · exact Nat.le_refl _
          · exact Nat.le_refl _
      · exact resetSession_calm slot state
  | hide slot => exact resetSession_calm slot state
  | opening slot menu homePage => exact opening_calm shown slot menu homePage state
  | readTabs slot items index serial =>
      unfold resume
      dsimp only
      split
      · exact describe_calm (by simp [isTabbing]) (by simp [isTabbing]) slot index state
      · exact Calm.refl state
  | tabDescribed slot menu index serial => cases simple
  | draw slot => exact draw_calm shown slot state
  | drawRows slot row count serial =>
      unfold resume
      dsimp only
      split
      · split
        · exact later_calm (by simp [isTabbing]) state
        · exact describe_calm (by simp [isTabbing]) (by simp [isTabbing]) slot _ state
      · exact Calm.refl state
  | rowDescribed slot menu serial => cases simple
  | activating slot index =>
      unfold resume
      dsimp only
      split
      · split
        · exact later_calm (by simp [isTabbing]) state
        · exact Calm.refl state
      · exact Calm.refl state
  | pressing =>
      unfold resume
      dsimp only
      split
      · exact later_calm (by simp [isTabbing]) state
      · exact Calm.refl state
  | enabled slot index menu commits =>
      unfold resume
      dsimp only
      split
      · exact later_calm (by simp [isTabbing]) state
      · exact Calm.refl state
  | stepped slot index menu commits =>
      unfold resume
      dsimp only
      split
      · split
        · exact (redraw_calm slot state).trans (hold_calm slot index _)
        · exact redraw_calm slot state
      · exact Calm.refl state
  | store slot index => exact setHeld_calm slot (some index) state
  | turning slot delta menu items => cases simple
  | tabbing slot tab serial => cases simple

/-- A read strays exactly when its menu is off the stack. -/
theorem reads_sane {slot menu : Nat} (sane : Sane state) :
    Sane (reads slot menu state) ↔ menu ∈ addresses state slot := by
  constructor
  · intro still
    have kept := still.kept
    simp only [reads, sane.kept, Bool.false_or, decide_eq_false_iff_not, not_not] at kept
    exact kept
  · intro there
    exact ⟨sane.defined, by simp [reads, sane.kept, there], sane.menus⟩

theorem readsSession_sane {slot serial : Nat} (sane : Sane state) :
    Sane (readsSession slot serial state) ↔ (state.sessions slot).serial = serial := by
  constructor
  · intro still
    have kept := still.kept
    simp only [readsSession, sane.kept, Bool.false_or, decide_eq_false_iff_not, not_not] at kept
    exact kept
  · intro now
    exact ⟨sane.defined, by simp [readsSession, sane.kept, now], sane.menus⟩

theorem strayed_mad (strayed : state.strayed = true) : ¬ Sane state := by
  intro sane
  rw [sane.kept] at strayed
  cases strayed

theorem readsBoth_sane {slot menu serial : Nat} (sane : Sane state) :
    Sane (readsSession slot serial (reads slot menu state)) ↔
      menu ∈ addresses state slot ∧ (state.sessions slot).serial = serial := by
  by_cases there : menu ∈ addresses state slot
  · rw [readsSession_sane ((reads_sane sane).mpr there)]
    exact (and_iff_right there).symm
  · refine iff_of_false (strayed_mad ?_) fun both => there both.1
    simp [reads, readsSession, there]

theorem readsBoth_sound {slot menu serial : Nat} (sound : Sound state) :
    Sound (readsSession slot serial (reads slot menu state)) :=
  sound_tasks rfl (fun _ member _ => member) sound

theorem activate_fabric (slot : Nat) (index : Int) (state : State) :
    fabric (activate slot index state) = fabric state := by
  unfold activate applyPending
  dsimp only
  split
  · split
    · rfl
    · rfl
  · split
    · split
      · rfl
      · rfl
    · split
      · rfl
      · rfl

theorem popBack_law {slot : Nat} (sound : Sound state) (sane : Sane state) :
    Sound (popBack slot state) ∧ (Sane (popBack slot state) ↔ state.menus slot ≠ []) := by
  unfold popBack
  split
  · next empty =>
      refine ⟨sound_tasks rfl (fun _ member _ => member) sound, iff_of_false ?_ fun some => some empty⟩
      rintro ⟨⟨⟩, _, _⟩
  · next top below stacked =>
      have popped : Calm state (rebuild slot (setMenus slot below state)) := by
        refine (setMenus_calm fun whole => ?_).trans (rebuild_calm slot _)
        exact fun null => whole (stacked ▸ List.mem_cons_of_mem top null)
      exact ⟨popped.sound sound, iff_of_true (popped.sane sane) (by simp [stacked])⟩

theorem resizeToRoot_law {slot : Nat} (sound : Sound state) (sane : Sane state) :
    Sound (resizeToRoot slot state) ∧
      (Sane (resizeToRoot slot state) ↔ state.menus slot ≠ []) := by
  by_cases empty : state.menus slot = []
  · refine ⟨sound_tasks rfl (fun _ member _ => member) sound,
      iff_of_false (fun still => still.menus slot ?_) fun some => some empty⟩
    simp [resizeToRoot, rebuild, setMenus, empty]
  · have rooted : Calm state (resizeToRoot slot state) := by
      refine (setMenus_calm fun _ null => ?_).trans (rebuild_calm slot _)
      have bottom := root_some sane empty
      rw [root, ← List.mem_singleton.mp null] at bottom
      cases bottom
    exact ⟨rooted.sound sound, iff_of_true (rooted.sane sane) empty⟩

theorem turning_law {slot menu items : Nat} {delta : Int} {shown : Bool} (sound : Sound state)
    (sane : Sane state) :
    Sound (resume layout shown state (.turning slot delta menu items)) ∧
      (Sane (resume layout shown state (.turning slot delta menu items)) ↔
        menu ∈ addresses state slot) := by
  have read : Sound (reads slot menu state) := sound_tasks rfl (fun _ member _ => member) sound
  have paged (page : Int) : Calm (reads slot menu state) (setSession slot
      { state.sessions slot with page } (reads slot menu state)) :=
    setSession_calm rfl (Nat.le_refl _)
  refine ⟨((paged _).trans (redraw_calm slot _)).sound read, ?_⟩
  refine (sane_congr ?_).trans (reads_sane sane)
  rfl

theorem tabDescribed_law {slot menu index serial : Nat} {shown : Bool} (sound : Sound state)
    (sane : Sane state) :
    Sound (resume layout shown state (.tabDescribed slot menu index serial)) ∧
      (Sane (resume layout shown state (.tabDescribed slot menu index serial)) ↔
        menu ∈ addresses state slot ∧ (state.sessions slot).serial = serial) := by
  have read : Sound (readsSession slot serial (reads slot menu state)) := readsBoth_sound sound
  have found : Sane (readsSession slot serial (reads slot menu state)) ↔
      menu ∈ addresses state slot ∧ (state.sessions slot).serial = serial := readsBoth_sane sane
  unfold resume
  dsimp only
  split
  · have grown : Calm (readsSession slot serial (reads slot menu state)) (setSession slot
        { state.sessions slot with tabs := (state.sessions slot).tabs ++ [index] }
        (readsSession slot serial (reads slot menu state))) :=
      setSession_calm rfl (by simp [readsSession, reads])
    refine ⟨grown.sound read, (sane_congr ?_).trans found⟩
    rfl
  · exact ⟨read, found⟩

theorem tabbing_law {slot tab serial : Nat} {shown : Bool} {rest : List Task}
    (waits : state.tasks = .tabbing slot tab serial :: rest) (sound : Sound state)
    (sane : Sane state) :
    Sound (resume layout shown { state with tasks := rest } (.tabbing slot tab serial)) ∧
      (Sane (resume layout shown { state with tasks := rest } (.tabbing slot tab serial)) ↔
        (state.sessions slot).serial = serial) := by
  obtain ⟨_, inside⟩ := sound slot tab serial (waits ▸ List.mem_cons_self)
  have left := (leave_calm waits).sound sound
  have calm := (leave_calm waits).sane sane
  unfold resume
  dsimp only
  have jumped : Calm (readsSession slot serial { state with tasks := rest }) (setSession slot
      { state.sessions slot with page := 0 }
      (readsSession slot serial { state with tasks := rest })) :=
    setSession_calm rfl (Nat.le_refl _)
  have read : Sound (readsSession slot serial { state with tasks := rest }) :=
    sound_tasks rfl (fun _ member _ => member) left
  split
  · next missing =>
      refine ⟨sound_tasks rfl (fun _ member _ => member) (jumped.sound read),
        iff_of_false (strayed_mad rfl) fun now => ?_⟩
      exact absurd (inside now) (Nat.not_lt.mpr (List.getElem?_eq_none_iff.mp missing))
  · next index _ =>
      refine ⟨(activate_calm slot index _).sound (jumped.sound read), ?_⟩
      have found : Sane (readsSession slot serial { state with tasks := rest }) ↔
          (state.sessions slot).serial = serial := readsSession_sane calm
      refine (sane_congr ?_).trans found
      rw [activate_fabric]
      rfl

/-- A task goes on sanely exactly when it finds what it goes on with. -/
theorem resume_law {shown : Bool} (waits : state.tasks = task :: rest) (sound : Sound state)
    (sane : Sane state) :
    Sound (resume layout shown { state with tasks := rest } task) ∧
      (Sane (resume layout shown { state with tasks := rest } task) ↔ Found state (.goOn shown)) := by
  have left := (leave_calm waits).sound sound
  have calm := (leave_calm waits).sane sane
  have settled (simple : plain task = true) (found : Found state (.goOn shown)) :
      Sound (resume layout shown { state with tasks := rest } task) ∧
        (Sane (resume layout shown { state with tasks := rest } task) ↔
          Found state (.goOn shown)) := by
    have goes : Calm { state with tasks := rest }
      (resume layout shown { state with tasks := rest } task) := plain_calm shown simple _
    exact ⟨goes.sound left, iff_of_true (goes.sane calm) found⟩
  unfold Found at settled ⊢
  rw [waits] at settled ⊢
  cases task with
  | popBack slot => exact popBack_law left calm
  | resizeToRoot slot => exact resizeToRoot_law left calm
  | turning slot delta menu items => exact turning_law left calm
  | tabbing slot tab serial => exact tabbing_law waits sound sane
  | tabDescribed slot menu index serial => exact tabDescribed_law left calm
  | rowDescribed slot menu serial => exact ⟨readsBoth_sound left, readsBoth_sane calm⟩
  | calling => exact settled rfl trivial
  | clearStack slot => exact settled rfl trivial
  | closed slot => exact settled rfl trivial
  | hide slot => exact settled rfl trivial
  | opening slot menu homePage => exact settled rfl trivial
  | readTabs slot items index serial => exact settled rfl trivial
  | draw slot => exact settled rfl trivial
  | drawRows slot row count serial => exact settled rfl trivial
  | activating slot index => exact settled rfl trivial
  | pressing => exact settled rfl trivial
  | enabled slot index menu commits => exact settled rfl trivial
  | stepped slot index menu commits => exact settled rfl trivial
  | store slot index => exact settled rfl trivial

end Resuming

section Runs

theorem start_sound : Sound start := fun _ _ _ waits => by cases waits

theorem start_sane : Sane start := ⟨rfl, rfl, fun _ => List.not_mem_nil⟩

theorem step_law {label : Label} (sound : Sound before) (sane : Sane before)
    (taken : step layout before label = some after) :
    Sound after ∧ (Sane after ↔ Found before label) := by
  have acted (moves : (if free before then some (act layout before label) else none) = some after)
      (found : Found before label) : Sound after ∧ (Sane after ↔ Found before label) := by
    simp only [Option.ite_none_right_eq_some, Option.some.injEq] at moves
    obtain ⟨_, rfl⟩ := moves
    have calm : Calm before (act layout before label) := act_calm label before
    exact ⟨calm.sound sound, iff_of_true (calm.sane sane) found⟩
  cases label with
  | openSession slot menu homePage canShow => exact acted taken trivial
  | openMenu slot menu canShow => exact acted taken trivial
  | close slot => exact acted taken trivial
  | closeAll slot => exact acted taken trivial
  | press slot button capturing => exact acted taken trivial
  | slotChanged slot => exact acted taken trivial
  | elapse slot =>
      simp only [step, Option.ite_none_right_eq_some, Option.some.injEq] at taken
      obtain ⟨_, rfl⟩ := taken
      have calm := applyPending_calm slot before
      exact ⟨calm.sound sound, iff_of_true (calm.sane sane) trivial⟩
  | returns answer =>
      simp only [step] at taken
      split at taken
      · next rest waits =>
          obtain rfl := Option.some.inj taken
          have fewer : Sound before → Sound { before with tasks := rest, answer } :=
            sound_tasks rfl fun _ member _ => waits ▸ List.mem_cons_of_mem _ member
          exact ⟨fewer sound, iff_of_true (sane_same sane rfl) trivial⟩
      · cases taken
  | goOn shown =>
      simp only [step] at taken
      split at taken
      · cases taken
      · cases taken
      · next task rest _ waits =>
          obtain rfl := Option.some.inj taken
          exact resume_law waits sound sane

end Runs

/-- A session of one steppable row, drawn, the row stepped and its commit held. -/
def steppedSession : List Label :=
  [.openSession 3 (some ⟨1, [stepper]⟩) false true, .goOn true, .goOn true, .goOn true, .goOn true,
    .returns true, .goOn true, .goOn true, .press 3 (.stepUp 0) false, .returns true, .goOn true,
    .returns true, .goOn true, .goOn true, .goOn true, .goOn true, .returns true, .goOn true,
    .goOn true]

/-- Back is pressed, and the commit it runs closes every menu. -/
def closedByCommit : List Label :=
  steppedSession ++ [.press 3 .back false, .closeAll 3, .goOn true, .goOn true, .returns true,
    .goOn true, .goOn true]

end VoltMod.PanoramaMenu
