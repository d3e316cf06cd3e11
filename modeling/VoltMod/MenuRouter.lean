import Mathlib.Logic.Function.Basic
import VoltMod.Transition

/-! Menu/MenuRouter.cpp over any surfaces that keep the contract of MenuSurface
(Menu/MenuModel.hpp): a surface holds one stack of menus for each slot, and one that
cannot draw for the player leaves nothing open. Whether it can is decided anew at
each call. A surface may also end a session by itself; it never starts one. Options,
replies and what a menu holds stay with the surfaces. -/
namespace VoltMod.MenuRouter
open Transition

variable {Surface Menu : Type} [DecidableEq Surface]

/-- `subscriptions` are the preferences still held, by their surface; `prompts` is
history. -/
structure Router (Surface Menu : Type) where
  fallback : Surface
  preferred : Option Surface
  subscriptions : List Surface
  menus : Surface → Nat → List Menu
  prompts : List (Surface × Nat × String)

def start (fallback : Surface) : Router Surface Menu :=
  ⟨fallback, none, [], fun _ _ => [], []⟩

/-- The player's stack on one surface. -/
def setStack (surface : Surface) (slot : Nat) (stack : List Menu)
    (router : Router Surface Menu) : Router Surface Menu :=
  { router with menus :=
      Function.update router.menus surface (Function.update (router.menus surface) slot stack) }

def surfaceIsOpen (router : Router Surface Menu) (surface : Surface) (slot : Nat) : Bool :=
  !(router.menus surface slot).isEmpty

def prefer (surface : Surface) (router : Router Surface Menu) : Router Surface Menu :=
  { router with
    preferred := some surface
    subscriptions := router.subscriptions ++ [surface] }

/-- The cleanup of a Subscription of Prefer. -/
def dropPreference (surface : Surface) (router : Router Surface Menu) : Router Surface Menu :=
  if router.preferred = some surface then { router with preferred := none } else router

def isOpen (router : Router Surface Menu) (slot : Nat) : Bool :=
  router.preferred.any (fun surface => surfaceIsOpen router surface slot) ||
    surfaceIsOpen router router.fallback slot

def sessionOf (router : Router Surface Menu) (slot : Nat) : Surface :=
  match router.preferred with
  | some surface => if surfaceIsOpen router surface slot then surface else router.fallback
  | none => router.fallback

def closePreferred (slot : Nat) (router : Router Surface Menu) : Router Surface Menu :=
  match router.preferred with
  | some surface => setStack surface slot [] router
  | none => router

def surfaceOpenSession (draws : Surface → Bool) (surface : Surface) (slot : Nat) (menu : Menu)
    (router : Router Surface Menu) : Bool × Router Surface Menu :=
  if draws surface then (true, setStack surface slot [menu] router)
  else (false, setStack surface slot [] router)

/-- One session per player: whatever is open on either surface goes first. -/
def closeBoth (slot : Nat) (router : Router Surface Menu) : Router Surface Menu :=
  setStack router.fallback slot [] (closePreferred slot router)

def openSession (draws : Surface → Bool) (slot : Nat) (menu : Menu)
    (router : Router Surface Menu) : Bool × Router Surface Menu :=
  let closed := closeBoth slot router
  match closed.preferred with
  | none => surfaceOpenSession draws closed.fallback slot menu closed
  | some surface =>
      match surfaceOpenSession draws surface slot menu closed with
      | (true, opened) => (true, opened)
      -- The preferred surface cannot draw for this player, so the fallback is tried.
      | (false, refused) => surfaceOpenSession draws refused.fallback slot menu refused

def openMenu (draws : Surface → Bool) (slot : Nat) (menu : Menu)
    (router : Router Surface Menu) : Router Surface Menu :=
  if isOpen router slot then
    setStack (sessionOf router slot) slot (menu :: router.menus (sessionOf router slot) slot) router
  else (openSession draws slot menu router).2

def close (slot : Nat) (router : Router Surface Menu) : Router Surface Menu :=
  setStack (sessionOf router slot) slot (router.menus (sessionOf router slot) slot).tail router

def closeAll (slot : Nat) (router : Router Surface Menu) : Router Surface Menu :=
  setStack (sessionOf router slot) slot [] router

def prompt (slot : Nat) (text : String) (router : Router Surface Menu) : Router Surface Menu :=
  { router with prompts := router.prompts ++ [(sessionOf router slot, slot, text)] }

inductive Label (Surface Menu : Type) where
  | prefer (surface : Surface)
  | drop (position : Nat)
  | openSession (draws : Surface → Bool) (slot : Nat) (menu : Menu)
  | openMenu (draws : Surface → Bool) (slot : Nat) (menu : Menu)
  | close (slot : Nat)
  | closeAll (slot : Nat)
  | prompt (slot : Nat) (text : String)
  | ends (surface : Surface) (slot : Nat)

def step (router : Router Surface Menu) : Label Surface Menu → Option (Router Surface Menu)
  | .prefer surface => some (prefer surface router)
  | .drop position =>
      router.subscriptions[position]?.map fun surface =>
        dropPreference surface
          { router with subscriptions := router.subscriptions.eraseIdx position }
  | .openSession draws slot menu => some (openSession draws slot menu router).2
  | .openMenu draws slot menu => some (openMenu draws slot menu router)
  | .close slot => some (close slot router)
  | .closeAll slot => some (closeAll slot router)
  | .prompt slot text => some (prompt slot text router)
  | .ends surface slot => some (setStack surface slot [] router)

/-- One session for each player, which the router sees and every call follows. -/
structure OneSession (router : Router Surface Menu) : Prop where
  single : ∀ slot first second, surfaceIsOpen router first slot = true →
    surfaceIsOpen router second slot = true → first = second
  found : ∀ slot, isOpen router slot = true ↔ ∃ surface, surfaceIsOpen router surface slot = true
  followed : ∀ slot surface, surfaceIsOpen router surface slot = true →
    sessionOf router slot = surface
  closed : ∀ slot surface, surfaceIsOpen (closeAll slot router) surface slot = false

/-- Nothing is open on the preferred surface, unless it is the fallback as well. -/
def PreferredIdle (router : Router Surface Menu) : Prop :=
  ∀ surface, router.preferred = some surface → surface ≠ router.fallback →
    ∀ slot, surfaceIsOpen router surface slot = false

/-- A step moves the preference only while the surface it leaves holds no session. -/
def Settled (router : Router Surface Menu) : Label Surface Menu → Prop
  | .prefer surface => router.preferred = some surface ∨ PreferredIdle router
  | .drop position =>
      ∀ surface, router.subscriptions[position]? = some surface →
        router.preferred = some surface → PreferredIdle router
  | _ => True

/-- Every open session is where calls for its slot go. -/
def Followed (router : Router Surface Menu) : Prop :=
  ∀ slot surface, surfaceIsOpen router surface slot = true → sessionOf router slot = surface

@[simp] theorem setStack_same (surface : Surface) (slot : Nat) (stack : List Menu)
    (router : Router Surface Menu) :
    (setStack surface slot stack router).menus surface slot = stack := by
  simp [setStack]

theorem setStack_other_slot {slot other : Nat} (different : other ≠ slot)
    (surface at_ : Surface) (stack : List Menu) (router : Router Surface Menu) :
    (setStack surface slot stack router).menus at_ other = router.menus at_ other := by
  by_cases same : at_ = surface
  · subst same
    simp [setStack, different]
  · simp [setStack, same]

theorem setStack_other_surface {surface at_ : Surface} (different : at_ ≠ surface)
    (slot other : Nat) (stack : List Menu) (router : Router Surface Menu) :
    (setStack surface slot stack router).menus at_ other = router.menus at_ other := by
  simp [setStack, different]

omit [DecidableEq Surface] in
theorem sessionOf_cases (router : Router Surface Menu) (slot : Nat) :
    (∃ surface, router.preferred = some surface ∧ surfaceIsOpen router surface slot = true ∧
        sessionOf router slot = surface) ∨
      ((∀ surface, router.preferred = some surface → surfaceIsOpen router surface slot = false) ∧
        sessionOf router slot = router.fallback) := by
  unfold sessionOf
  split
  · next surface preferred =>
      split
      · next open_ => exact Or.inl ⟨surface, preferred, open_, rfl⟩
      · next shut =>
          refine Or.inr ⟨fun other same => ?_, rfl⟩
          rw [preferred, Option.some.injEq] at same
          simpa [same] using shut
  · next none =>
      exact Or.inr ⟨fun surface some_ => by simp [none] at some_, rfl⟩

omit [DecidableEq Surface] in
theorem isOpen_eq (router : Router Surface Menu) (slot : Nat) :
    isOpen router slot = surfaceIsOpen router (sessionOf router slot) slot := by
  rcases sessionOf_cases router slot with ⟨surface, preferred, open_, same⟩ | ⟨shut, same⟩
  · simp [isOpen, preferred, open_, same]
  · rw [same, isOpen]
    cases preferred : router.preferred with
    | none => rfl
    | some surface => simp [shut surface preferred]

/-- The router's promises all come down to calls following every session. -/
theorem one_session_iff (router : Router Surface Menu) :
    OneSession router ↔ Followed router := by
  refine ⟨fun one => one.followed, fun followed => ?_⟩
  refine ⟨fun slot first second here there => ?_, fun slot => ?_, followed,
    fun slot surface => ?_⟩
  · exact (followed slot first here).symm.trans (followed slot second there)
  · rw [isOpen_eq]
    refine ⟨fun open_ => ⟨_, open_⟩, ?_⟩
    rintro ⟨surface, open_⟩
    rw [followed slot surface open_]
    exact open_
  · by_cases same : surface = sessionOf router slot
    · subst same
      simp [surfaceIsOpen, closeAll]
    · have shut : surfaceIsOpen router surface slot = false := by
        rw [Bool.eq_false_iff]
        exact fun open_ => same (followed slot surface open_).symm
      rw [surfaceIsOpen, closeAll, setStack_other_surface same]
      exact shut

/-- Sessions live on the preferred surface and the fallback only, and not on both. -/
theorem followed_iff (router : Router Surface Menu) :
    Followed router ↔ ∀ slot,
      (∀ surface, surfaceIsOpen router surface slot = true →
        surface = router.fallback ∨ router.preferred = some surface) ∧
      ∀ surface, router.preferred = some surface → surface ≠ router.fallback →
        surfaceIsOpen router surface slot = true →
        surfaceIsOpen router router.fallback slot = false := by
  constructor
  · intro followed slot
    refine ⟨fun surface open_ => ?_, fun surface preferred different open_ => ?_⟩
    · rw [← followed slot surface open_]
      rcases sessionOf_cases router slot with ⟨_, preferred, _, same⟩ | ⟨_, same⟩
      · exact Or.inr (same ▸ preferred)
      · exact Or.inl same
    · rw [Bool.eq_false_iff]
      intro both
      exact different ((followed slot surface open_).symm.trans (followed slot _ both))
  · intro placed slot surface open_
    obtain ⟨where_, apart⟩ := placed slot
    rcases sessionOf_cases router slot with ⟨top, preferred, held, same⟩ | ⟨shut, same⟩
    · rw [same]
      rcases where_ surface open_ with rfl | also
      · by_contra different
        rw [apart top preferred different held] at open_
        exact Bool.false_ne_true open_
      · exact Option.some.inj (preferred.symm.trans also)
    · rw [same]
      rcases where_ surface open_ with rfl | preferred
      · rfl
      · rw [shut surface preferred] at open_
        exact (Bool.false_ne_true open_).elim

/-- Closing sessions keeps calls following the others. -/
theorem followed_shrinks {before after : Router Surface Menu} (followed : Followed before)
    (preferred : after.preferred = before.preferred) (fallback : after.fallback = before.fallback)
    (shrinks : ∀ surface slot, surfaceIsOpen after surface slot = true →
      surfaceIsOpen before surface slot = true) : Followed after := by
  rw [followed_iff] at followed ⊢
  intro slot
  obtain ⟨where_, apart⟩ := followed slot
  rw [preferred, fallback]
  refine ⟨fun surface open_ => where_ surface (shrinks surface slot open_), ?_⟩
  intro surface same different open_
  have shut := apart surface same different (shrinks surface slot open_)
  rw [Bool.eq_false_iff] at shut ⊢
  exact fun both => shut (shrinks _ slot both)

theorem setStack_shrinks {surface : Surface} {slot : Nat} {stack : List Menu}
    {router : Router Surface Menu} (followed : Followed router)
    (less : stack ≠ [] → router.menus surface slot ≠ []) :
    Followed (setStack surface slot stack router) := by
  refine followed_shrinks followed rfl rfl fun at_ other open_ => ?_
  by_cases here : at_ = surface ∧ other = slot
  · obtain ⟨rfl, rfl⟩ := here
    simp only [surfaceIsOpen, setStack_same] at open_
    simpa [surfaceIsOpen] using less (by simpa using open_)
  · rcases not_and_or.mp here with different | different
    · rwa [surfaceIsOpen, setStack_other_surface different] at open_
    · rwa [surfaceIsOpen, setStack_other_slot different] at open_

theorem setStack_unchanged {surface : Surface} {slot : Nat} {stack : List Menu}
    {router : Router Surface Menu} (same : router.menus surface slot = stack) :
    setStack surface slot stack router = router := by
  subst same
  simp [setStack]

theorem closePreferred_shut {slot : Nat} {router : Router Surface Menu} {surface : Surface}
    (preferred : router.preferred = some surface) :
    (closePreferred slot router).menus surface slot = [] := by
  simp [closePreferred, preferred]

theorem closeBoth_same (slot : Nat) (router : Router Surface Menu) :
    (closeBoth slot router).preferred = router.preferred ∧
      (closeBoth slot router).fallback = router.fallback := by
  cases preferred : router.preferred with
  | none => simp [closeBoth, closePreferred, preferred, setStack]
  | some surface => simp [closeBoth, closePreferred, preferred, setStack]

theorem closeBoth_preferred {slot : Nat} {router : Router Surface Menu} {surface : Surface}
    (preferred : router.preferred = some surface) :
    (closeBoth slot router).menus surface slot = [] := by
  by_cases same : surface = router.fallback
  · subst same
    simp [closeBoth]
  · rw [closeBoth, setStack_other_surface same]
    exact closePreferred_shut preferred

/-- Both surfaces are closed before one of them takes the session. -/
theorem openSession_places (draws : Surface → Bool) (slot : Nat) (menu : Menu)
    (router : Router Surface Menu) :
    ∃ target stack, (target = router.fallback ∨ router.preferred = some target) ∧
      (openSession draws slot menu router).2 = setStack target slot stack (closeBoth slot router) := by
  obtain ⟨top, bottom⟩ := closeBoth_same slot router
  have onFallback : ∃ stack, (surfaceOpenSession draws router.fallback slot menu
      (closeBoth slot router)).2 = setStack router.fallback slot stack (closeBoth slot router) := by
    unfold surfaceOpenSession
    split
    · exact ⟨[menu], rfl⟩
    · exact ⟨[], rfl⟩
  simp only [openSession, top, bottom]
  cases preferred : router.preferred with
  | none =>
      obtain ⟨stack, same⟩ := onFallback
      exact ⟨router.fallback, stack, Or.inl rfl, same⟩
  | some surface =>
      by_cases shown : draws surface = true
      · exact ⟨surface, [menu], Or.inr rfl, by simp [surfaceOpenSession, shown]⟩
      -- A refusing surface is left with nothing open, as it already was.
      · obtain ⟨stack, same⟩ := onFallback
        have shut : (closeBoth slot router).menus surface slot = [] :=
          closeBoth_preferred preferred
        have refused : surfaceOpenSession draws surface slot menu (closeBoth slot router) =
            (false, closeBoth slot router) := by
          simp [surfaceOpenSession, shown, setStack_unchanged shut]
        refine ⟨router.fallback, stack, Or.inl rfl, ?_⟩
        simp only [refused, bottom]
        exact same

theorem openSession_followed {draws : Surface → Bool} {slot : Nat} {menu : Menu}
    {router : Router Surface Menu} (followed : Followed router) :
    Followed (openSession draws slot menu router).2 := by
  obtain ⟨target, stack, place, same⟩ := openSession_places draws slot menu router
  obtain ⟨top, bottom⟩ := closeBoth_same slot router
  have closed : Followed (closeBoth slot router) := by
    refine setStack_shrinks ?_ (by simp)
    unfold closePreferred
    split
    · exact setStack_shrinks followed (by simp)
    · exact followed
  rw [same]
  rw [followed_iff] at closed ⊢
  intro other
  obtain ⟨where_, apart⟩ := closed other
  by_cases here : other = slot
  · subst here
    -- Sessions were on the preferred surface and the fallback only, and both are closed now.
    have shut : ∀ surface, surfaceIsOpen (closeBoth other router) surface other = false := by
      intro surface
      rw [Bool.eq_false_iff]
      intro open_
      rcases where_ surface open_ with rfl | preferred
      · rw [bottom] at open_
        simp [surfaceIsOpen, closeBoth] at open_
      · rw [top] at preferred
        simp [surfaceIsOpen, closeBoth_preferred preferred] at open_
    have only : ∀ surface, surfaceIsOpen (setStack target other stack (closeBoth other router))
        surface other = true → surface = target := by
      intro surface open_
      by_contra different
      rw [surfaceIsOpen, setStack_other_surface different] at open_
      exact Bool.eq_false_iff.mp (shut surface) open_
    refine ⟨fun surface open_ => ?_, fun surface _ different open_ => ?_⟩
    · rw [only surface open_]
      show target = (closeBoth other router).fallback ∨
        (closeBoth other router).preferred = some target
      rw [top, bottom]
      exact place
    · rw [Bool.eq_false_iff]
      exact fun both => different ((only surface open_).trans (only _ both).symm)
  · simp only [surfaceIsOpen, setStack_other_slot here]
    exact ⟨where_, apart⟩

theorem openMenu_followed {draws : Surface → Bool} {slot : Nat} {menu : Menu}
    {router : Router Surface Menu} (followed : Followed router) :
    Followed (openMenu draws slot menu router) := by
  unfold openMenu
  split
  · next open_ =>
      rw [isOpen_eq] at open_
      exact setStack_shrinks followed fun _ => by simpa [surfaceIsOpen] using open_
  · exact openSession_followed followed

/-- Moving the preference keeps calls following the sessions exactly when the surface
left behind holds none. -/
theorem move_followed_iff {before after : Router Surface Menu} (followed : Followed before)
    (fallback : after.fallback = before.fallback) (menus : after.menus = before.menus)
    (moved : after.preferred ≠ before.preferred) :
    Followed after ↔ PreferredIdle before := by
  rw [followed_iff] at followed ⊢
  simp only [surfaceIsOpen, menus, fallback] at followed ⊢
  constructor
  · intro placed surface preferred different slot
    rw [Bool.eq_false_iff]
    intro open_
    rcases (placed slot).1 surface open_ with same | same
    · exact different same
    · exact moved (same.trans preferred.symm)
  · intro idle slot
    have onFallback : ∀ surface, (!(before.menus surface slot).isEmpty) = true →
        surface = before.fallback := by
      intro surface open_
      rcases (followed slot).1 surface open_ with same | preferred
      · exact same
      · by_contra different
        exact Bool.eq_false_iff.mp (idle surface preferred different slot) open_
    refine ⟨fun surface open_ => Or.inl (onFallback surface open_), ?_⟩
    exact fun surface _ different open_ => absurd (onFallback surface open_) different

theorem step_followed_iff {before after : Router Surface Menu} {label : Label Surface Menu}
    (followed : Followed before) (taken : step before label = some after) :
    Followed after ↔ Settled before label := by
  cases label with
  | prefer surface =>
      cases taken
      -- Preferring the same surface again moves nothing.
      by_cases same : before.preferred = some surface
      · have kept : Followed (prefer surface before) :=
          followed_shrinks followed same.symm rfl fun _ _ open_ => open_
        exact iff_of_true kept (Or.inl same)
      · have moves : Followed (prefer surface before) ↔ PreferredIdle before :=
          move_followed_iff followed rfl rfl fun equal => same equal.symm
        rw [moves]
        exact (or_iff_right same).symm
  | drop position =>
      simp only [step, Option.map_eq_some_iff] at taken
      obtain ⟨surface, held, rfl⟩ := taken
      simp only [Settled, held, Option.some.injEq, forall_eq']
      unfold dropPreference
      split
      · next same =>
          have preferred : before.preferred = some surface := same
          have moves : Followed { before with
              subscriptions := before.subscriptions.eraseIdx position
              preferred := none } ↔ PreferredIdle before :=
            move_followed_iff followed rfl rfl (by simp [preferred])
          rw [moves]
          exact ⟨fun idle _ => idle, fun every => every preferred⟩
      · next different =>
          have kept : Followed { before with
              subscriptions := before.subscriptions.eraseIdx position } :=
            followed_shrinks followed rfl rfl fun _ _ open_ => open_
          exact iff_of_true kept fun same => absurd same different
  | openSession draws slot menu =>
      cases taken
      exact iff_of_true (openSession_followed followed) trivial
  | openMenu draws slot menu =>
      cases taken
      exact iff_of_true (openMenu_followed followed) trivial
  | close slot =>
      cases taken
      refine iff_of_true (setStack_shrinks followed fun rest empty => rest ?_) trivial
      rw [empty, List.tail_nil]
  | closeAll slot =>
      cases taken
      exact iff_of_true (setStack_shrinks followed (by simp)) trivial
  | prompt slot text =>
      cases taken
      exact iff_of_true (followed_shrinks followed rfl rfl fun _ _ open_ => open_) trivial
  | ends surface slot =>
      cases taken
      exact iff_of_true (setStack_shrinks followed (by simp)) trivial

omit [DecidableEq Surface] in
theorem start_followed (fallback : Surface) : Followed (start fallback : Router Surface Menu) := by
  intro slot surface open_
  simp [surfaceIsOpen, start] at open_

end VoltMod.MenuRouter
