import VoltMod.Transition

/-! Menu/Flow.hpp for one player: a row of step menus over one draft, and the finish. What
callbacks read besides the draft is a `World`, new at every press. Of the surface's stack
only the flow's own menus are kept, the top one first: a press reaches that one, and the
flow begins while none is open. `picks`, the latest first since the flow began, and
`finishes` are history. Labels, rows and what a menu shows are left out. -/
namespace VoltMod.MenuFlow
open Transition

variable {World Draft : Type}

structure Step (World Draft : Type) where
  build : World → Draft → Bool
  applies : Option (Draft → Bool)

/-- `confirm` says whether a summary was given. -/
structure Flow (World Draft : Type) where
  steps : List (Step World Draft)
  validate : Option (World → Draft → Option String)
  confirm : Bool
  finish : Option (World → Draft → Draft)

inductive Menu where
  | step (index : Nat)
  | summary
  deriving DecidableEq, Repr

/-- What opening from a step led to; the first two abort the flow. -/
inductive Outcome where
  | refused (error : String)
  | unbuilt
  | opened (menu : Menu)
  | finished
  deriving DecidableEq, Repr

structure Pick (Draft : Type) where
  step : Nat
  draft : Draft
  outcome : Outcome

structure Session (Draft : Type) where
  draft : Draft
  stepIndex : Nat
  menus : List Menu
  picks : List (Pick Draft)
  finishes : List (List (Pick Draft))

def start (draft : Draft) : Session Draft := ⟨draft, 0, [], [], []⟩

def appliesAt (flow : Flow World Draft) (draft : Draft) (index : Nat) : Bool :=
  flow.steps[index]?.any fun step => step.applies.all fun applies => applies draft

def builds (flow : Flow World Draft) (world : World) (draft : Draft) (index : Nat) : Bool :=
  flow.steps[index]?.any fun step => step.build world draft

/-- The error of the validation, if it has one. -/
def runValidation (flow : Flow World Draft) (world : World) (draft : Draft) : Option String :=
  flow.validate.bind fun validate => validate world draft

/-- Where the loop over the steps stops. -/
def firstFrom (flow : Flow World Draft) (draft : Draft) (index : Nat) : Option Nat :=
  (List.range' index (flow.steps.length - index)).find? (appliesAt flow draft)

def closeAll (session : Session Draft) : Session Draft := { session with menus := [] }

/-- A surface that cannot draw the menu ends the session. -/
def openMenu (shown : Bool) (menu : Menu) (session : Session Draft) : Session Draft :=
  if shown then { session with menus := menu :: session.menus } else closeAll session

def runFinish (flow : Flow World Draft) (world : World) (session : Session Draft) :
    Outcome × Session Draft :=
  match runValidation flow world session.draft with
  | some error => (.refused error, closeAll session)
  | none =>
      let ended := flow.finish.elim session.draft fun finish => finish world session.draft
      (.finished, closeAll { session with draft := ended })

def openFrom (flow : Flow World Draft) (world : World) (shown : Bool) (index : Nat)
    (session : Session Draft) : Outcome × Session Draft :=
  match runValidation flow world session.draft with
  | some error => (.refused error, closeAll session)
  | none =>
      match firstFrom flow session.draft index with
      | some next =>
          let moved := { session with stepIndex := next }
          if builds flow world session.draft next then
            (.opened (.step next), openMenu shown (.step next) moved)
          else (.unbuilt, closeAll moved)
      | none =>
          if flow.confirm then (.opened .summary, openMenu shown .summary session)
          else runFinish flow world session

def begin_ (flow : Flow World Draft) (world : World) (shown : Bool) (session : Session Draft) :
    Outcome × Session Draft :=
  openFrom flow world shown 0 session

/-- The flow is not told of menus that were closed, so it goes on from the step opened last. -/
def advance (flow : Flow World Draft) (world : World) (shown : Bool) (session : Session Draft) :
    Outcome × Session Draft :=
  openFrom flow world shown (session.stepIndex + 1) session

def record (picks : List (Pick Draft)) (result : Outcome × Session Draft) : Session Draft :=
  { result.2 with
    picks := picks
    finishes :=
      if result.1 = .finished then picks :: result.2.finishes else result.2.finishes }

/-- A pick writes its value and advances; `write` is what a menu does to the draft without
advancing. -/
inductive Label (World Draft : Type) where
  | begin_ (world : World) (shown : Bool)
  | pick (world : World) (shown : Bool) (set : Draft → Draft)
  | confirm (world : World)
  | write (set : Draft → Draft)
  | back (count : Nat)

def step (flow : Flow World Draft) (session : Session Draft) :
    Label World Draft → Option (Session Draft)
  | .begin_ world shown =>
      match session.menus with
      | [] => some (record [] (begin_ flow world shown session))
      | _ :: _ => none
  | .pick world shown set =>
      match session.menus with
      | .step index :: _ =>
          let written := { session with draft := set session.draft }
          let result := advance flow world shown written
          some (record (⟨index, written.draft, result.1⟩ :: session.picks) result)
      | _ => none
  | .confirm world =>
      match session.menus with
      | .summary :: _ => some (record session.picks (runFinish flow world session))
      | _ => none
  | .write set => some { session with draft := set session.draft }
  | .back count => some { session with menus := session.menus.drop count }

/-- The first step from an index on that applies to the draft. -/
structure First (flow : Flow World Draft) (draft : Draft) (index next : Nat) : Prop where
  after : index ≤ next
  applies : appliesAt flow draft next = true
  first : ∀ between, index ≤ between → between < next → appliesAt flow draft between = false

def NoneFrom (flow : Flow World Draft) (draft : Draft) (index : Nat) : Prop :=
  ∀ later, index ≤ later → appliesAt flow draft later = false

/-- A pick aborts the flow or opens what comes after the step it was made in. -/
def Right (flow : Flow World Draft) (pick : Pick Draft) : Prop :=
  match pick.outcome with
  | .refused _ | .unbuilt => True
  | .opened (.step next) => First flow pick.draft (pick.step + 1) next
  | .opened .summary => flow.confirm = true ∧ NoneFrom flow pick.draft (pick.step + 1)
  | .finished => flow.confirm = false ∧ NoneFrom flow pick.draft (pick.step + 1)

/-- The step after a pick was picked later, unless a pick of that step or of one before it
replaced the pick. -/
def Met (flow : Flow World Draft) (later : List (Pick Draft)) (pick : Pick Draft) : Prop :=
  (∀ other ∈ later, pick.step < other.step) → ∀ next, First flow pick.draft (pick.step + 1) next →
    ∃ other ∈ later, other.step = next

def Covered (flow : Flow World Draft) (picks : List (Pick Draft)) : Prop :=
  ∀ later pick earlier, picks = later ++ pick :: earlier → Met flow later pick

structure InOrder (flow : Flow World Draft) (session : Session Draft) : Prop where
  right : ∀ pick ∈ session.picks, Right flow pick
  covered : ∀ picks ∈ session.finishes, Covered flow picks

/-- A pick aborts, or no step that the draft now applies to lies between the step it is
made in and the step opened last. -/
def OnCourse (flow : Flow World Draft) (session : Session Draft) : Label World Draft → Prop
  | .pick world _ set => ∀ index below, session.menus = .step index :: below →
      runValidation flow world (set session.draft) ≠ none ∨
      (∃ next, First flow (set session.draft) (session.stepIndex + 1) next ∧
        builds flow world (set session.draft) next = false) ∨
      ∀ between, index < between → between ≤ session.stepIndex →
        appliesAt flow (set session.draft) between = false
  | _ => True

theorem applies_inside {flow : Flow World Draft} {draft : Draft} {index : Nat}
    (applies : appliesAt flow draft index = true) : index < flow.steps.length := by
  rcases Nat.lt_or_ge index flow.steps.length with inside | outside
  · exact inside
  · rw [appliesAt, List.getElem?_eq_none outside] at applies
    cases applies

theorem firstFrom_some {flow : Flow World Draft} {draft : Draft} {index next : Nat}
    (found : firstFrom flow draft index = some next) : First flow draft index next := by
  rw [firstFrom, List.find?_range'_eq_some] at found
  obtain ⟨applies, member, first⟩ := found
  rw [List.mem_range'_1] at member
  refine ⟨member.1, applies, fun between above below => ?_⟩
  simpa using first between above below

theorem firstFrom_none {flow : Flow World Draft} {draft : Draft} {index : Nat}
    (missing : firstFrom flow draft index = none) : NoneFrom flow draft index := by
  rw [firstFrom, List.find?_range'_eq_none] at missing
  intro later above
  rw [Bool.eq_false_iff]
  intro applies
  have inside := applies_inside applies
  have absent := missing later above (by omega)
  rw [applies] at absent
  cases absent

theorem first_unique {flow : Flow World Draft} {draft : Draft} {index one other : Nat}
    (here : First flow draft index one) (there : First flow draft index other) :
    one = other := by
  rcases Nat.lt_trichotomy one other with below | same | above
  · have absent := there.first one here.after below
    rw [here.applies] at absent
    cases absent
  · exact same
  · have absent := here.first other there.after above
    rw [there.applies] at absent
    cases absent

/-- Looking from a later step finds the same, unless a step in between applies. -/
theorem first_later {flow : Flow World Draft} {draft : Draft} {index far next : Nat}
    (order : index ≤ far) (found : First flow draft (far + 1) next) :
    First flow draft (index + 1) next ↔
      ∀ between, index < between → between ≤ far → appliesAt flow draft between = false := by
  constructor
  · intro here between above below
    exact here.first between above (Nat.lt_of_le_of_lt below found.after)
  · intro clear
    refine ⟨Nat.lt_of_le_of_lt order found.after, found.applies, fun between above below => ?_⟩
    rcases Nat.lt_or_ge far between with past | inside
    · exact found.first between past below
    · exact clear between above inside

theorem none_later {flow : Flow World Draft} {draft : Draft} {index far : Nat}
    (missing : NoneFrom flow draft (far + 1)) :
    NoneFrom flow draft (index + 1) ↔
      ∀ between, index < between → between ≤ far → appliesAt flow draft between = false := by
  constructor
  · intro here between above _
    exact here between above
  · intro clear later above
    rcases Nat.lt_or_ge far later with past | inside
    · exact missing later past
    · exact clear later above inside

theorem runFinish_valid {flow : Flow World Draft} {world : World} {session : Session Draft}
    (valid : runValidation flow world session.draft = none) :
    ∃ ended, runFinish flow world session =
      (.finished, closeAll { session with draft := ended }) := by
  unfold runFinish
  rw [valid]
  exact ⟨_, rfl⟩

/-- What opening from a step can do. -/
theorem openFrom_cases (flow : Flow World Draft) (world : World) (shown : Bool) (index : Nat)
    (session : Session Draft) :
    (runValidation flow world session.draft ≠ none ∧
        ∃ error, openFrom flow world shown index session =
          (.refused error, closeAll session)) ∨
      runValidation flow world session.draft = none ∧
        ((∃ next, First flow session.draft index next ∧
            builds flow world session.draft next = false ∧
            openFrom flow world shown index session =
              (.unbuilt, closeAll { session with stepIndex := next })) ∨
          (∃ next, First flow session.draft index next ∧
            builds flow world session.draft next = true ∧
            openFrom flow world shown index session =
              (.opened (.step next),
                openMenu shown (.step next) { session with stepIndex := next })) ∨
          (NoneFrom flow session.draft index ∧ flow.confirm = true ∧
            openFrom flow world shown index session =
              (.opened .summary, openMenu shown .summary session)) ∨
          NoneFrom flow session.draft index ∧ flow.confirm = false ∧
            ∃ ended, openFrom flow world shown index session =
              (.finished, closeAll { session with draft := ended })) := by
  unfold openFrom
  cases valid : runValidation flow world session.draft with
  | some error => exact Or.inl ⟨nofun, error, rfl⟩
  | none =>
      refine Or.inr ⟨rfl, ?_⟩
      cases found : firstFrom flow session.draft index with
      | some next =>
          have reached := firstFrom_some found
          cases built : builds flow world session.draft next with
          | false => exact Or.inl ⟨next, reached, built, by simp [built]⟩
          | true => exact Or.inr (Or.inl ⟨next, reached, built, by simp [built]⟩)
      | none =>
          have missing := firstFrom_none found
          cases confirm : flow.confirm with
          | true => exact Or.inr (Or.inr (Or.inl ⟨missing, rfl, by simp⟩))
          | false =>
              obtain ⟨ended, ran⟩ := runFinish_valid valid
              exact Or.inr (Or.inr (Or.inr ⟨missing, rfl, ended, by simpa using ran⟩))

/-- Menus on top belong to later steps, the summary on top of all. -/
def Above : Menu → Menu → Prop
  | .step upper, .step lower => lower < upper
  | .summary, .step _ => True
  | _, .summary => False

/-- Where a menu stands to the last pick: it was there already, or the pick led to it. -/
def Reached (flow : Flow World Draft) (last : Pick Draft) : Menu → Prop
  | .step index => index ≤ last.step ∨ First flow last.draft (last.step + 1) index
  | .summary => NoneFrom flow last.draft (last.step + 1)

/-- Every pick but the last is met, and the menus on the stack follow from the last. -/
structure Settled (flow : Flow World Draft) (session : Session Draft) : Prop where
  past : ∀ later pick earlier, session.picks = later ++ pick :: earlier → later ≠ [] →
    Met flow later pick
  reached : ∀ last earlier, session.picks = last :: earlier →
    ∀ menu ∈ session.menus, Reached flow last menu

structure Sound (flow : Flow World Draft) (session : Session Draft) : Prop where
  ordered : session.menus.Pairwise Above
  passed : ∀ index, .step index ∈ session.menus → index ≤ session.stepIndex
  settled : (∀ pick ∈ session.picks, Right flow pick) → Settled flow session

theorem met_cons {flow : Flow World Draft} {later : List (Pick Draft)} {pick : Pick Draft}
    (met : Met flow later pick) (new : Pick Draft) : Met flow (new :: later) pick := by
  intro standing next follows
  obtain ⟨other, member, same⟩ :=
    met (fun other member => standing other (List.mem_cons_of_mem _ member)) next follows
  exact ⟨other, List.mem_cons_of_mem _ member, same⟩

/-- A pick in a menu that follows from the last pick meets it or replaces it. -/
theorem met_next {flow : Flow World Draft} {last new : Pick Draft}
    (reached : Reached flow last (.step new.step)) : Met flow [new] last := by
  intro standing next follows
  have after := standing new List.mem_cons_self
  rcases reached with before | reached
  · omega
  · exact ⟨new, List.mem_cons_self, first_unique reached follows⟩

theorem past_pick {flow : Flow World Draft} {session : Session Draft} {index : Nat}
    {below : List Menu} (settled : Settled flow session)
    (top : session.menus = .step index :: below) {new : Pick Draft} (here : new.step = index) :
    ∀ later pick earlier, new :: session.picks = later ++ pick :: earlier → later ≠ [] →
      Met flow later pick := by
  intro later pick earlier split some_
  cases later with
  | nil => exact absurd rfl some_
  | cons first between =>
      obtain ⟨rfl, rest⟩ := List.cons_eq_cons.mp split
      cases between with
      | nil =>
          refine met_next (here ▸ settled.reached pick earlier rest (.step index) ?_)
          rw [top]
          exact List.mem_cons_self
      | cons second between =>
          exact met_cons (settled.past _ pick earlier rest (List.cons_ne_nil _ _)) new

/-- With nothing after the last pick, every pick is met. -/
theorem covered_of_past {flow : Flow World Draft} {picks : List (Pick Draft)}
    (past : ∀ later pick earlier, picks = later ++ pick :: earlier → later ≠ [] →
      Met flow later pick)
    (ended : ∀ last earlier, picks = last :: earlier → NoneFrom flow last.draft (last.step + 1)) :
    Covered flow picks := by
  intro later pick earlier split
  cases later with
  | nil =>
      intro _ next follows
      have absent := ended pick earlier split next follows.after
      rw [follows.applies] at absent
      cases absent
  | cons first between => exact past _ pick earlier split (List.cons_ne_nil _ _)

theorem closed_sound {flow : Flow World Draft} {after : Session Draft}
    (closed : after.menus = [])
    (past : (∀ pick ∈ after.picks, Right flow pick) →
      ∀ later pick earlier, after.picks = later ++ pick :: earlier → later ≠ [] →
        Met flow later pick) : Sound flow after := by
  refine ⟨?_, ?_, fun right => ⟨past right, ?_⟩⟩
  · rw [closed]
    exact List.Pairwise.nil
  · rw [closed]
    exact nofun
  · rw [closed]
    exact nofun

theorem record_sound {flow : Flow World Draft} {picks : List (Pick Draft)} {outcome : Outcome}
    {shown : Bool} {menu : Menu} {session : Session Draft}
    (opened : Sound flow { session with menus := menu :: session.menus, picks := picks }) :
    Sound flow (record picks (outcome, openMenu shown menu session)) := by
  cases shown with
  | true => exact ⟨opened.ordered, opened.passed, fun right =>
      ⟨(opened.settled right).past, (opened.settled right).reached⟩⟩
  | false => exact closed_sound rfl fun right => (opened.settled right).past

theorem openFrom_finishes (flow : Flow World Draft) (world : World) (shown : Bool) (index : Nat)
    (session : Session Draft) :
    (openFrom flow world shown index session).2.finishes = session.finishes := by
  rcases openFrom_cases flow world shown index session with
    ⟨_, _, ran⟩ | ⟨_, ⟨_, _, _, ran⟩ | ⟨_, _, _, ran⟩ | ⟨_, _, ran⟩ | ⟨_, _, _, ran⟩⟩
  · rw [ran]
    rfl
  · rw [ran]
    rfl
  · rw [ran]
    cases shown <;> rfl
  · rw [ran]
    cases shown <;> rfl
  · rw [ran]
    rfl

theorem openFrom_menus (flow : Flow World Draft) (world : World) (shown : Bool) (index : Nat)
    (session : Session Draft) :
    (openFrom flow world shown index session).2.menus = [] ∨
      ∃ menu, (openFrom flow world shown index session).2.menus = menu :: session.menus ∧
        ∀ next, menu = .step next → (openFrom flow world shown index session).2.stepIndex = next := by
  rcases openFrom_cases flow world shown index session with
    ⟨_, _, ran⟩ | ⟨_, ⟨_, _, _, ran⟩ | ⟨next, _, _, ran⟩ | ⟨_, _, ran⟩ | ⟨_, _, _, ran⟩⟩
  · exact Or.inl (by rw [ran]; rfl)
  · exact Or.inl (by rw [ran]; rfl)
  · rw [ran]
    cases shown with
    | true => exact Or.inr ⟨.step next, rfl, fun _ same => Menu.step.inj same⟩
    | false => exact Or.inl rfl
  · rw [ran]
    cases shown with
    | true => exact Or.inr ⟨.summary, rfl, nofun⟩
    | false => exact Or.inl rfl
  · exact Or.inl (by rw [ran]; rfl)

/-- A pick that did right keeps the session in order, also where it finished the flow. -/
theorem record_inOrder {flow : Flow World Draft} {session : Session Draft}
    {index : Nat} {draft : Draft} {result : Outcome × Session Draft} (good : InOrder flow session)
    (same : result.2.finishes = session.finishes)
    (past : ∀ later pick earlier, ⟨index, draft, result.1⟩ :: session.picks =
      later ++ pick :: earlier → later ≠ [] → Met flow later pick) :
    InOrder flow (record (⟨index, draft, result.1⟩ :: session.picks) result) ↔
      Right flow ⟨index, draft, result.1⟩ := by
  constructor
  · intro inOrder
    exact inOrder.right _ List.mem_cons_self
  · intro right
    refine ⟨fun pick member => ?_, fun picks member => ?_⟩
    · rcases List.mem_cons.mp member with rfl | old
      · exact right
      · exact good.right pick old
    · simp only [record, same] at member
      split at member
      · next finished =>
          rcases List.mem_cons.mp member with rfl | old
          · apply covered_of_past past
            intro last earlier split
            obtain ⟨rfl, _⟩ := List.cons_eq_cons.mp split
            rw [Right, finished] at right
            exact right.2
          · exact good.covered picks old
      · exact good.covered picks member

theorem step_pick {flow : Flow World Draft} {before after : Session Draft} {world : World}
    {shown : Bool} {set : Draft → Draft}
    (taken : step flow before (.pick world shown set) = some after) :
    ∃ index below, before.menus = .step index :: below ∧
      after = record
        (⟨index, set before.draft,
          (advance flow world shown { before with draft := set before.draft }).1⟩ :: before.picks)
        (advance flow world shown { before with draft := set before.draft }) := by
  simp only [step] at taken
  split at taken
  · next index below top => exact ⟨index, below, top, (Option.some.inj taken).symm⟩
  · cases taken

theorem onCourse_pick {flow : Flow World Draft} {session : Session Draft} {world : World}
    {shown : Bool} {set : Draft → Draft} {index : Nat} {below : List Menu}
    (top : session.menus = .step index :: below) :
    OnCourse flow session (.pick world shown set) ↔
      runValidation flow world (set session.draft) ≠ none ∨
      (∃ next, First flow (set session.draft) (session.stepIndex + 1) next ∧
        builds flow world (set session.draft) next = false) ∨
      ∀ between, index < between → between ≤ session.stepIndex →
        appliesAt flow (set session.draft) between = false := by
  constructor
  · intro all
    exact all index below top
  · rintro met other rest same
    obtain ⟨⟨⟩, rfl⟩ := List.cons_eq_cons.mp (top.symm.trans same)
    exact met

/-- Where the code finds no step to open, the course decides whether one was passed over. -/
theorem course_iff {flow : Flow World Draft} {world : World} {draft : Draft} {index far : Nat}
    (valid : runValidation flow world draft = none) (missing : NoneFrom flow draft (far + 1)) :
    NoneFrom flow draft (index + 1) ↔
      runValidation flow world draft ≠ none ∨
      (∃ next, First flow draft (far + 1) next ∧ builds flow world draft next = false) ∨
      ∀ between, index < between → between ≤ far → appliesAt flow draft between = false := by
  refine (none_later missing).trans ⟨fun clear => Or.inr (Or.inr clear), ?_⟩
  rintro (invalid | ⟨next, follows, _⟩ | clear)
  · exact absurd valid invalid
  · have absent := missing next follows.after
    rw [follows.applies] at absent
    cases absent
  · exact clear

/-- The menu a pick opens goes on top of the menus that led to it. -/
theorem opened_ordered {menu : Menu} {index : Nat} {menus below : List Menu}
    (ordered : menus.Pairwise Above) (top : menus = .step index :: below)
    (above : Above menu (.step index)) : (menu :: menus).Pairwise Above := by
  subst top
  refine List.pairwise_cons.mpr ⟨fun other member => ?_, ordered⟩
  rcases List.mem_cons.mp member with rfl | deeper
  · exact above
  · have lower := (List.pairwise_cons.mp ordered).1 other deeper
    cases other with
    | summary => exact lower.elim
    | step lowest =>
        cases menu with
        | summary => trivial
        | step upper => exact Nat.lt_trans lower above

theorem opened_reached {flow : Flow World Draft} {menu : Menu} {new : Pick Draft}
    {menus below : List Menu} (ordered : menus.Pairwise Above)
    (top : menus = .step new.step :: below) (reached : Reached flow new menu) :
    ∀ other ∈ menu :: menus, Reached flow new other := by
  subst top
  intro other member
  rcases List.mem_cons.mp member with rfl | inside
  · exact reached
  · rcases List.mem_cons.mp inside with rfl | deeper
    · exact Or.inl (Nat.le_refl _)
    · have lower := (List.pairwise_cons.mp ordered).1 other deeper
      cases other with
      | summary => exact lower.elim
      | step lowest => exact Or.inl (Nat.le_of_lt lower)

/-- One pick: the session stays in order exactly when the pick keeps to the course. -/
theorem pick_law {flow : Flow World Draft} {before after : Session Draft} {world : World}
    {shown : Bool} {set : Draft → Draft} (sound : Sound flow before) (good : InOrder flow before)
    (taken : step flow before (.pick world shown set) = some after) :
    Sound flow after ∧ (InOrder flow after ↔ OnCourse flow before (.pick world shown set)) := by
  obtain ⟨index, below, top, rfl⟩ := step_pick taken
  have order : index ≤ before.stepIndex := sound.passed index (top ▸ List.mem_cons_self)
  have past : ∀ outcome, ∀ later pick earlier,
      (⟨index, set before.draft, outcome⟩ :: before.picks : List (Pick Draft)) =
        later ++ pick :: earlier → later ≠ [] → Met flow later pick :=
    fun outcome => past_pick (sound.settled good.right) top rfl
  have same := openFrom_finishes flow world shown (before.stepIndex + 1)
    { before with draft := set before.draft }
  rw [onCourse_pick top, advance, record_inOrder good same (past _)]
  rcases openFrom_cases flow world shown (before.stepIndex + 1)
    { before with draft := set before.draft } with
    ⟨invalid, error, ran⟩ | ⟨valid, ⟨next, found, unbuilt, ran⟩ | ⟨next, found, built, ran⟩ |
      ⟨missing, confirm, ran⟩ | ⟨missing, confirm, ended, ran⟩⟩
  -- The first two abort the flow, which a pick may always do.
  · rw [ran]
    refine ⟨closed_sound rfl fun _ => past _, ?_⟩
    exact ⟨fun _ => Or.inl invalid, fun _ => trivial⟩
  · rw [ran]
    refine ⟨closed_sound rfl fun _ => past _, ?_⟩
    exact ⟨fun _ => Or.inr (Or.inl ⟨next, found, unbuilt⟩), fun _ => trivial⟩
  · have further : index < next := Nat.lt_of_le_of_lt order found.after
    rw [ran]
    refine ⟨record_sound ⟨opened_ordered sound.ordered top further, fun other member => ?_,
      fun right => ⟨past _, fun last earlier split => ?_⟩⟩, ?_⟩
    · rcases List.mem_cons.mp member with same | inside
      · cases same
        exact Nat.le_refl _
      · exact Nat.le_of_lt (Nat.lt_of_le_of_lt (sound.passed other inside) found.after)
    · obtain ⟨rfl, _⟩ := List.cons_eq_cons.mp split
      exact opened_reached sound.ordered top (Or.inr (right _ List.mem_cons_self))
    · refine (first_later order found).trans ⟨fun clear => Or.inr (Or.inr clear), ?_⟩
      rintro (invalid | ⟨other, also, unbuilt⟩ | clear)
      · exact absurd valid invalid
      · cases first_unique found also
        exact absurd built (by simp [unbuilt])
      · exact clear
  · rw [ran]
    refine ⟨record_sound ⟨opened_ordered sound.ordered top trivial, fun other member => ?_,
      fun right => ⟨past _, fun last earlier split => ?_⟩⟩, ?_⟩
    · rcases List.mem_cons.mp member with same | inside
      · cases same
      · exact sound.passed other inside
    · obtain ⟨rfl, _⟩ := List.cons_eq_cons.mp split
      exact opened_reached sound.ordered top (right _ List.mem_cons_self).2
    · exact (and_iff_right confirm).trans (course_iff valid missing)
  · rw [ran]
    refine ⟨closed_sound rfl fun _ => past _, ?_⟩
    exact (and_iff_right confirm).trans (course_iff valid missing)

theorem begin_sound {flow : Flow World Draft} {session : Session Draft} {world : World}
    {shown : Bool} (none_ : session.menus = []) :
    Sound flow (record [] (begin_ flow world shown session)) := by
  have fresh : Settled flow (record [] (begin_ flow world shown session)) := by
    refine ⟨fun later pick earlier split => ?_, fun last earlier split => ?_⟩
    · simp [record] at split
    · simp [record] at split
  refine ⟨?_, fun index member => ?_, fun _ => fresh⟩
  · rcases openFrom_menus flow world shown 0 session with closed | ⟨menu, opened, _⟩
    · rw [record, begin_, closed]
      exact List.Pairwise.nil
    · rw [record, begin_, opened, none_]
      exact List.pairwise_singleton Above menu
  · rw [record, begin_] at member ⊢
    rcases openFrom_menus flow world shown 0 session with closed | ⟨menu, opened, moved⟩
    · rw [closed] at member
      cases member
    · rw [opened, none_, List.mem_singleton] at member
      exact Nat.le_of_eq (moved index member.symm).symm

theorem begin_inOrder {flow : Flow World Draft} {session : Session Draft} {world : World}
    {shown : Bool} (good : InOrder flow session) :
    InOrder flow (record [] (begin_ flow world shown session)) := by
  refine ⟨nofun, fun picks member => ?_⟩
  simp only [record, begin_, openFrom_finishes] at member
  split at member
  · rcases List.mem_cons.mp member with rfl | old
    · intro later pick earlier split
      simp at split
    · exact good.covered picks old
  · exact good.covered picks member

/-- The summary stands only while no step after the last pick applies. -/
theorem confirm_kept {flow : Flow World Draft} {session : Session Draft} {below : List Menu}
    (sound : Sound flow session) (good : InOrder flow session)
    (top : session.menus = .summary :: below) (world : World) :
    Sound flow (record session.picks (runFinish flow world session)) ∧
      InOrder flow (record session.picks (runFinish flow world session)) := by
  have settled := sound.settled good.right
  cases valid : runValidation flow world session.draft with
  | some error =>
      have ran : runFinish flow world session = (.refused error, closeAll session) := by
        simp [runFinish, valid]
      rw [ran]
      exact ⟨closed_sound rfl fun _ => settled.past, good.right, good.covered⟩
  | none =>
      obtain ⟨ended, ran⟩ := runFinish_valid valid
      rw [ran]
      refine ⟨closed_sound rfl fun _ => settled.past, good.right, fun picks member => ?_⟩
      rcases List.mem_cons.mp member with rfl | old
      · apply covered_of_past settled.past
        intro last earlier split
        exact settled.reached last earlier split .summary (top ▸ List.mem_cons_self)
      · exact good.covered picks old

theorem step_law (flow : Flow World Draft) (before : Session Draft) (label : Label World Draft)
    (after : Session Draft) (sound : Sound flow before) (good : InOrder flow before)
    (taken : step flow before label = some after) :
    Sound flow after ∧ (InOrder flow after ↔ OnCourse flow before label) := by
  cases label with
  | pick world shown set => exact pick_law sound good taken
  | begin_ world shown =>
      simp only [step] at taken
      split at taken
      · next none_ =>
          cases taken
          exact ⟨begin_sound none_, fun _ => trivial, fun _ => begin_inOrder good⟩
      · cases taken
  | confirm world =>
      simp only [step] at taken
      split at taken
      · next below top =>
          cases taken
          obtain ⟨after, inOrder⟩ := confirm_kept sound good top world
          exact ⟨after, fun _ => trivial, fun _ => inOrder⟩
      · cases taken
  | write set =>
      cases taken
      exact ⟨⟨sound.ordered, sound.passed, fun right =>
        ⟨(sound.settled right).past, (sound.settled right).reached⟩⟩,
        fun _ => trivial, fun _ => ⟨good.right, good.covered⟩⟩
  | back count =>
      cases taken
      have inside : ∀ menu ∈ before.menus.drop count, menu ∈ before.menus :=
        fun _ member => List.mem_of_mem_drop member
      refine ⟨⟨sound.ordered.sublist (List.drop_sublist count _), fun index member =>
        sound.passed index (inside _ member), fun right => ⟨(sound.settled right).past,
          fun last earlier split menu member => ?_⟩⟩, fun _ => trivial,
        fun _ => ⟨good.right, good.covered⟩⟩
      exact (sound.settled right).reached last earlier split menu (inside menu member)

theorem start_sound (flow : Flow World Draft) (draft : Draft) : Sound flow (start draft) := by
  apply closed_sound rfl
  intro _ later pick earlier split
  simp [start] at split

def twoSteps : Flow Unit Unit := ⟨[⟨fun _ _ => true, none⟩, ⟨fun _ _ => true, none⟩],
  none, false, none⟩

end VoltMod.MenuFlow
