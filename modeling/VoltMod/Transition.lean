import Mathlib.Logic.Relation

/-!
Partial step functions and their finite runs. A step answers `none` when the
label is not enabled, so a run is a list of labels the machine accepted.
`Always` speaks of every state a run passes through, `Guarded` of every step it
takes; `always_iff_guarded` turns an exact one-step law into an exact law of runs.
-/

namespace VoltMod.Transition

universe u v w x
variable {State : Type u} {Label : Type v}

def run (step : State → Label → Option State) : State → List Label → Option State
  | state, [] => some state
  | state, label :: rest => (step state label).bind fun next => run step next rest

theorem run_cons_iff (step : State → Label → Option State) (before after : State)
    (label : Label) (rest : List Label) :
    run step before (label :: rest) = some after ↔
      ∃ next, step before label = some next ∧ run step next rest = some after := by
  simp [run, Option.bind_eq_some_iff]

theorem run_append_iff (step : State → Label → Option State) (before after : State)
    (first second : List Label) :
    run step before (first ++ second) = some after ↔
      ∃ middle, run step before first = some middle ∧ run step middle second = some after := by
  induction first generalizing before with
  | nil => simp [run]
  | cons label rest ih =>
      simp only [List.cons_append, run_cons_iff, ih]
      constructor
      · rintro ⟨next, taken, middle, head, tail⟩
        exact ⟨middle, ⟨next, taken, head⟩, tail⟩
      · rintro ⟨middle, ⟨next, taken, head⟩, tail⟩
        exact ⟨next, taken, middle, head, tail⟩

def Preserves (step : State → Label → Option State) (holds : State → Prop) : Prop :=
  ∀ before label after, holds before → step before label = some after → holds after

theorem run_preserves {step : State → Label → Option State} {holds : State → Prop}
    (kept : Preserves step holds) {labels : List Label} {before after : State}
    (start : holds before) (ran : run step before labels = some after) : holds after := by
  induction labels generalizing before with
  | nil =>
      cases ran
      exact start
  | cons label rest ih =>
      obtain ⟨next, taken, tail⟩ := (run_cons_iff ..).mp ran
      exact ih (kept before label next start taken) tail

theorem rel_refine {Other : Type w} {first second : State → Other → Prop} {left : Option State}
    {right : Option Other} (together : Option.Rel first left right)
    (refines : ∀ state other, left = some state → right = some other → first state other →
      second state other) : Option.Rel second left right := by
  cases together with
  | none => exact .none
  | some related => exact .some (refines _ _ rfl rfl related)

/-- Two machines that step together from related states run together. -/
theorem run_related {Other : Type w} {step : State → Label → Option State}
    {otherStep : Other → Label → Option Other} {Related : State → Other → Prop}
    (kept : ∀ state other label, Related state other →
      Option.Rel Related (step state label) (otherStep other label))
    {state : State} {other : Other} (start : Related state other) (labels : List Label) :
    Option.Rel Related (run step state labels) (run otherStep other labels) := by
  induction labels generalizing state other with
  | nil => exact .some start
  | cons label rest ih =>
      have together := kept state other label start
      simp only [run]
      revert together
      generalize step state label = left
      generalize otherStep other label = right
      intro together
      cases together with
      | none => exact .none
      | some related => exact ih related

/-- Steps of one kind that all lower a measure come in runs no longer than it. -/
theorem run_measure_le {step : State → Label → Option State} (measure : State → Nat)
    {kind : Label → Prop}
    (lowers : ∀ before label after, kind label → step before label = some after →
      measure after < measure before)
    {labels : List Label} {before after : State} (only : ∀ label ∈ labels, kind label)
    (ran : run step before labels = some after) :
    labels.length + measure after ≤ measure before := by
  induction labels generalizing before with
  | nil =>
      cases ran
      simp
  | cons label rest ih =>
      obtain ⟨next, taken, tail⟩ := (run_cons_iff ..).mp ran
      have lower := lowers before label next (only label List.mem_cons_self) taken
      have bound := ih (fun other member => only other (List.mem_cons_of_mem _ member)) tail
      rw [List.length_cons]
      omega

/-- One label taken over and over ends where something decreases until then. -/
theorem run_until {step : State → Label → Option State} {label : Label}
    {holds done : State → Prop} (size : State → Nat)
    (progress : ∀ state, holds state → ¬done state →
      ∃ next, step state label = some next ∧ holds next ∧ size next < size state)
    {state : State} (start : holds state) :
    ∃ count final, run step state (List.replicate count label) = some final ∧
      holds final ∧ done final := by
  -- Strong induction on the size, which every step short of the end makes smaller.
  generalize bound : size state = most
  induction most using Nat.strongRecOn generalizing state with
  | ind most ih =>
      by_cases ended : done state
      · exact ⟨0, state, rfl, start, ended⟩
      · obtain ⟨next, taken, kept, smaller⟩ := progress state start ended
        obtain ⟨count, final, ran, good, reached⟩ := ih (size next) (bound ▸ smaller) kept rfl
        exact ⟨count + 1, final, (run_cons_iff ..).mpr ⟨next, taken, ran⟩, good, reached⟩

theorem run_keeps {step : State → Label → Option State} {Value : Type w} (value : State → Value)
    {kind : Label → Prop}
    (keeps : ∀ before label after, kind label → step before label = some after →
      value after = value before)
    {labels : List Label} {before after : State} (only : ∀ label ∈ labels, kind label)
    (ran : run step before labels = some after) : value after = value before := by
  induction labels generalizing before with
  | nil =>
      cases ran
      rfl
  | cons label rest ih =>
      obtain ⟨next, taken, tail⟩ := (run_cons_iff ..).mp ran
      have same := keeps before label next (only label List.mem_cons_self) taken
      have later := ih (fun other member => only other (List.mem_cons_of_mem _ member)) tail
      exact later.trans same

/-- A machine whose every step is one of another's, or none, runs as the other does. -/
theorem run_projects {Other : Type w} {Image : Type x} {step : State → Label → Option State}
    {otherStep : Other → Image → Option Other} {sound : State → Prop} {kind : Label → Prop}
    (value : State → Other) (image : Label → Option Image) (kept : Preserves step sound)
    (follows : ∀ before label after, sound before → kind label → step before label = some after →
      run otherStep (value before) (image label).toList = some (value after))
    {labels : List Label} {before after : State} (start : sound before)
    (only : ∀ label ∈ labels, kind label) (ran : run step before labels = some after) :
    run otherStep (value before) (labels.filterMap image) = some (value after) := by
  induction labels generalizing before with
  | nil =>
      cases ran
      rfl
  | cons label rest ih =>
      obtain ⟨next, taken, tail⟩ := (run_cons_iff ..).mp ran
      have first := follows before label next start (only label List.mem_cons_self) taken
      have later := ih (kept before label next start taken)
        (fun other member => only other (List.mem_cons_of_mem _ member)) tail
      have split : (label :: rest).filterMap image =
          (image label).toList ++ rest.filterMap image := by
        cases hidden : image label with
        | none => simp [hidden]
        | some shown => simp [hidden]
      rw [split]
      exact (run_append_iff ..).mpr ⟨value next, first, later⟩

def Always (step : State → Label → Option State) (holds : State → Prop) :
    State → List Label → Prop
  | state, [] => holds state
  | state, label :: rest =>
      holds state ∧ ∀ next, step state label = some next → Always step holds next rest

def Guarded (step : State → Label → Option State) (guard : State → Label → Prop) :
    State → List Label → Prop
  | _, [] => True
  | state, label :: rest => ∀ next, step state label = some next →
      guard state label ∧ Guarded step guard next rest

theorem always_start {step : State → Label → Option State} {holds : State → Prop}
    {state : State} {labels : List Label} (always : Always step holds state labels) :
    holds state := by
  cases labels with
  | nil => exact always
  | cons label rest => exact always.1

/-- `Always` is what it says: the property holds after every prefix of the run. -/
theorem always_iff_everywhere (step : State → Label → Option State) (holds : State → Prop)
    (state : State) (labels : List Label) :
    Always step holds state labels ↔
      ∀ before after, before <+: labels → run step state before = some after → holds after := by
  induction labels generalizing state with
  | nil =>
      constructor
      · intro now before after inside ran
        cases List.prefix_nil.mp inside
        cases ran
        exact now
      · intro every
        exact every [] state List.nil_prefix rfl
  | cons label rest ih =>
      simp only [Always, ih]
      constructor
      · rintro ⟨now, later⟩ before after inside ran
        cases before with
        | nil =>
            cases ran
            exact now
        | cons first tail =>
            obtain ⟨rfl, short⟩ := List.cons_prefix_cons.mp inside
            obtain ⟨next, taken, remaining⟩ := (run_cons_iff ..).mp ran
            exact later next taken tail after short remaining
      · intro every
        refine ⟨every [] state (List.nil_prefix) rfl, ?_⟩
        intro next taken before after inside ran
        exact every (label :: before) after (List.cons_prefix_cons.mpr ⟨rfl, inside⟩)
          ((run_cons_iff ..).mpr ⟨next, taken, ran⟩)

theorem always_of_preserves {step : State → Label → Option State} {sound holds : State → Prop}
    (kept : Preserves step sound) (enough : ∀ state, sound state → holds state)
    {state : State} (start : sound state) (labels : List Label) :
    Always step holds state labels := by
  rw [always_iff_everywhere]
  intro before after _ ran
  exact enough after (run_preserves kept start ran)

/-- What no step can mend held all along where it holds at the end. -/
theorem always_of_end {step : State → Label → Option State} {holds : State → Prop}
    (back : ∀ before label after, step before label = some after → holds after → holds before)
    {state final : State} {labels : List Label} (ran : run step state labels = some final)
    (good : holds final) : Always step holds state labels := by
  induction labels generalizing state with
  | nil =>
      cases ran
      exact good
  | cons label rest ih =>
      obtain ⟨next, taken, tail⟩ := (run_cons_iff ..).mp ran
      have later := ih tail
      refine ⟨back state label next taken (always_start later), fun other also => ?_⟩
      cases taken.symm.trans also
      exact later

theorem guarded_cons {step : State → Label → Option State} {guard : State → Label → Prop}
    {state next : State} {label : Label} {rest : List Label}
    (taken : step state label = some next) (met : guard state label)
    (later : Guarded step guard next rest) : Guarded step guard state (label :: rest) := by
  intro other also
  cases taken.symm.trans also
  exact ⟨met, later⟩

/-- Whether a run's steps meet a guard that can be checked is found by running it. -/
instance decidableGuarded (step : State → Label → Option State) (guard : State → Label → Prop)
    [∀ state label, Decidable (guard state label)] :
    (state : State) → (labels : List Label) → Decidable (Guarded step guard state labels)
  | _, [] => isTrue trivial
  | state, label :: rest =>
      match taken : step state label with
      | none => isTrue fun next also => by cases taken.symm.trans also
      | some next =>
          have := decidableGuarded step guard next rest
          decidable_of_iff (guard state label ∧ Guarded step guard next rest)
            ⟨fun met => guarded_cons taken met.1 met.2, fun guarded => guarded next taken⟩

theorem always_of_guarded {step : State → Label → Option State} {sound holds : State → Prop}
    {guard : State → Label → Prop}
    (kept : ∀ before label after, sound before → guard before label →
      step before label = some after → sound after)
    (enough : ∀ state, sound state → holds state) {state : State} (start : sound state)
    {labels : List Label} (guarded : Guarded step guard state labels) :
    Always step holds state labels := by
  induction labels generalizing state with
  | nil => exact enough state start
  | cons label rest ih =>
      refine ⟨enough state start, fun next taken => ?_⟩
      obtain ⟨met, later⟩ := guarded next taken
      exact ih (kept state label next start met taken) later

/-- One step keeps the property exactly when its guard holds; then a run keeps it
throughout exactly when every step it takes meets the guard. `sound` carries what
the one-step law needs besides the property itself. -/
theorem always_iff_guarded {step : State → Label → Option State}
    {sound holds : State → Prop} {guard : State → Label → Prop}
    (law : ∀ before label after, sound before → holds before →
      step before label = some after → sound after ∧ (holds after ↔ guard before label))
    {state : State} (start : sound state) (good : holds state) (labels : List Label) :
    Always step holds state labels ↔ Guarded step guard state labels := by
  induction labels generalizing state with
  | nil => simp [Always, Guarded, good]
  | cons label rest ih =>
      constructor
      · rintro ⟨_, later⟩ next taken
        -- The property after the step is what the law turns into the guard before it.
        have nextGood := always_start (later next taken)
        obtain ⟨nextSound, exact⟩ := law state label next start good taken
        exact ⟨exact.mp nextGood, (ih nextSound nextGood).mp (later next taken)⟩
      · intro guarded
        refine ⟨good, ?_⟩
        intro next taken
        obtain ⟨met, later⟩ := guarded next taken
        obtain ⟨nextSound, exact⟩ := law state label next start good taken
        exact (ih nextSound (exact.mpr met)).mpr later

end VoltMod.Transition
