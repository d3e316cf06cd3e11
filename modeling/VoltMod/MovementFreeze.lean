import Mathlib.Data.List.Nodup
import VoltMod.Visibility

/-!
Entities/MovementFreeze.cpp. A freeze saves the move type it finds and gives it back on its
own, so several of them on one pawn restore it only in some orders of release. Runs are of any
number of freezes on one living pawn whose move type nothing else writes; `holders` is history.
-/

namespace VoltMod.Freezes
open Hooks Transition

universe u

inductive MoveType where
  | none | obsolete | walk | fly | flyGravity | vphysics | push | noclip | observer | ladder
  | custom | last
  deriving DecidableEq, Repr

/-- The two fields SetMoveType writes. MoveType reads the raw one. -/
structure MoveFields where
  moveTypeRaw : MoveType
  actualMoveType : MoveType
  deriving DecidableEq, Repr

abbrev Moves := EntityRef → MoveFields

/-- A pawn the entity system resolved, which it does by a handle that is set. -/
structure Pawn where
  ref : EntityRef
  isAlive : Bool
  named : isSet ref = true

structure MovementFreeze where
  pawn : EntityRef
  prev : MoveType
  deriving DecidableEq, Repr

def fresh : MovementFreeze := ⟨unset, .walk⟩

def holding (freeze : MovementFreeze) : Bool := isSet freeze.pawn

section Source

def moveType (body : Pawn) (moves : Moves) : MoveType := (moves body.ref).moveTypeRaw

def setMoveType (body : Pawn) (type : MoveType) (moves : Moves) : Moves :=
  Function.update moves body.ref ⟨type, type⟩

def hold (freeze : MovementFreeze) (moves : Moves) : Option Pawn → MovementFreeze × Moves
  | none => (freeze, moves)
  | some body =>
      if holding freeze || !body.isAlive then (freeze, moves)
      else (⟨body.ref, moveType body moves⟩, setMoveType body .none moves)

def release (freeze : MovementFreeze) (moves : Moves) (pawn : Option Pawn) :
    MovementFreeze × Moves :=
  if holding freeze then
    ({ freeze with pawn := unset },
      match pawn with
      | none => moves
      | some body =>
          if body.ref = freeze.pawn then setMoveType body freeze.prev moves else moves)
  else (freeze, moves)

/-- Whether the pawn held is gone from its player: none there, dead or another. -/
def replaced (freeze : MovementFreeze) : Option Pawn → Bool
  | none => true
  | some body => !body.isAlive || body.ref ≠ freeze.pawn

def sync (freeze : MovementFreeze) (moves : Moves) (pawn : Option Pawn) :
    MovementFreeze × Moves :=
  if holding freeze && replaced freeze pawn then hold { freeze with pawn := unset } moves pawn
  else hold freeze moves pawn

end Source

inductive Op where
  | hold | release | sync
  deriving DecidableEq, Repr

def perform : Op → MovementFreeze → Moves → Option Pawn → MovementFreeze × Moves
  | .hold => hold
  | .release => release
  | .sync => sync

@[simp] theorem holding_unset (prev : MoveType) : holding ⟨unset, prev⟩ = false := rfl

@[simp] theorem holding_fresh : holding fresh = false := rfl

@[simp] theorem holding_body (body : Pawn) (prev : MoveType) :
    holding ⟨body.ref, prev⟩ = true := body.named

@[simp] theorem moveType_setMoveType (body : Pawn) (type : MoveType) (moves : Moves) :
    moveType body (setMoveType body type moves) = type := by
  simp [moveType, setMoveType]

section Frame

theorem hold_other {body other : Pawn} (apart : other.ref ≠ body.ref) (freeze : MovementFreeze)
    (moves : Moves) : (hold freeze moves (some body)).2 other.ref = moves other.ref := by
  rw [hold]
  split
  · rfl
  · exact Function.update_of_ne apart ..

/-- A player's next pawn never gets the move type saved from the one before. -/
theorem release_replaced {freeze : MovementFreeze} {body : Pawn} (other : body.ref ≠ freeze.pawn)
    (moves : Moves) : (release freeze moves (some body)).2 = moves := by
  simp only [release, if_neg other]
  split <;> rfl

theorem perform_other {body other : Pawn} (apart : other.ref ≠ body.ref) (op : Op)
    (freeze : MovementFreeze) (moves : Moves) :
    (perform op freeze moves (some body)).2 other.ref = moves other.ref := by
  cases op with
  | hold => exact hold_other apart freeze moves
  | release =>
      by_cases same : body.ref = freeze.pawn
      · simp only [perform, release, same, if_true]
        split
        · exact Function.update_of_ne apart ..
        · rfl
      · simp only [perform, release_replaced same]
  | sync =>
      simp only [perform, sync]
      split
      · exact hold_other apart _ moves
      · exact hold_other apart freeze moves

end Frame

variable {ι : Type u} [DecidableEq ι]

structure Field (ι : Type u) where
  freezes : ι → MovementFreeze
  moves : Moves
  holders : List ι

def begin (moves : Moves) : Field ι := ⟨fun _ => fresh, moves, []⟩

/-- Who holds, in the order they took hold. -/
def order (who : ι) (before after : Bool) (holders : List ι) : List ι :=
  match before, after with
  | false, true => holders ++ [who]
  | true, false => holders.erase who
  | _, _ => holders

structure Request (ι : Type u) where
  op : Op
  who : ι

def step (body : Pawn) (field : Field ι) (request : Request ι) : Option (Field ι) :=
  let before := field.freezes request.who
  let after := perform request.op before field.moves (some body)
  some
    { freezes := Function.update field.freezes request.who after.1
      moves := after.2
      holders := order request.who (holding before) (holding after.1) field.holders }

structure Kept (body : Pawn) (original : MoveType) (field : Field ι) : Prop where
  still : (∃ who, holding (field.freezes who) = true) → moveType body field.moves = .none
  back : (∀ who, holding (field.freezes who) = false) → moveType body field.moves = original

/-- The first to have taken hold is not released while another holds. -/
def LastOut (original : MoveType) (field : Field ι) (request : Request ι) : Prop :=
  original = .none ∨
    (request.op = .release → field.holders.head? = some request.who →
      field.holders = [request.who])

/-- What a step can come to on a living pawn. -/
inductive Taken (body : Pawn) (field : Field ι) (request : Request ι) : Field ι → Prop
  | nothing : (request.op = .release → holding (field.freezes request.who) = false) →
      Taken body field request field
  | held : request.op ≠ .release → holding (field.freezes request.who) = false →
      Taken body field request
        { freezes := Function.update field.freezes request.who
            ⟨body.ref, moveType body field.moves⟩
          moves := setMoveType body .none field.moves
          holders := field.holders ++ [request.who] }
  | released : request.op = .release → holding (field.freezes request.who) = true →
      Taken body field request
        { freezes := Function.update field.freezes request.who
            { field.freezes request.who with pawn := unset }
          moves := setMoveType body (field.freezes request.who).prev field.moves
          holders := field.holders.erase request.who }

section Steps

variable {body : Pawn} {field after : Field ι} {request : Request ι}

theorem step_nothing
    (same : perform request.op (field.freezes request.who) field.moves (some body) =
      (field.freezes request.who, field.moves)) :
    step body field request = some field := by
  have listed : order request.who (holding (field.freezes request.who))
      (holding (field.freezes request.who)) field.holders = field.holders := by
    cases holding (field.freezes request.who) <;> rfl
  simp only [step, same, Function.update_eq_self, listed]

theorem hold_taken (alive : body.isAlive = true) (freeze : MovementFreeze) (moves : Moves) :
    hold freeze moves (some body) =
      if holding freeze then (freeze, moves)
      else (⟨body.ref, moveType body moves⟩, setMoveType body .none moves) := by
  simp [hold, alive]

theorem sync_hold (alive : body.isAlive = true) {freeze : MovementFreeze}
    (own : holding freeze = true → freeze.pawn = body.ref) (moves : Moves) :
    sync freeze moves (some body) = hold freeze moves (some body) := by
  rw [sync, if_neg]
  intro gone
  obtain ⟨held, other⟩ := Bool.and_eq_true_iff.mp gone
  simp [replaced, alive, own held] at other

theorem step_taken (alive : body.isAlive = true)
    (own : ∀ who, holding (field.freezes who) = true → (field.freezes who).pawn = body.ref)
    (taken : step body field request = some after) : Taken body field request after := by
  have onHold : request.op ≠ .release →
      perform request.op (field.freezes request.who) field.moves (some body) =
        hold (field.freezes request.who) field.moves (some body) →
      Taken body field request after := by
    intro other asHold
    cases held : holding (field.freezes request.who) with
    | true =>
        rw [step_nothing (by rw [asHold, hold_taken alive, if_pos held])] at taken
        cases taken
        exact .nothing fun named => absurd named other
    | false =>
        simp only [step, asHold, hold_taken alive, held, Bool.false_eq_true, if_false,
          holding_body, order, Option.some.injEq] at taken
        subst taken
        exact .held other held
  cases named : request.op with
  | hold => exact onHold (by simp [named]) (by rw [named, perform])
  | sync =>
      exact onHold (by simp [named]) (by rw [named, perform, sync_hold alive (own request.who)])
  | release =>
      cases held : holding (field.freezes request.who) with
      | false =>
          rw [step_nothing (by simp [named, perform, release, held])] at taken
          cases taken
          exact .nothing fun _ => held
      | true =>
          simp only [step, named, perform, release, held, if_true, own request.who held,
            holding_unset, order, Option.some.injEq] at taken
          subst taken
          exact .released named held

end Steps

/-- What is known of a run besides the property: the history is of those who hold, and while
the property stands the first of them saved the original type and the others the held one. -/
structure Tracked (body : Pawn) (original : MoveType) (field : Field ι) : Prop where
  listed : ∀ who, who ∈ field.holders ↔ holding (field.freezes who) = true
  distinct : field.holders.Nodup
  own : ∀ who, holding (field.freezes who) = true → (field.freezes who).pawn = body.ref
  saved : Kept body original field → ∀ who ∈ field.holders,
    (field.freezes who).prev = if field.holders.head? = some who then original else .none

section Law

variable {body : Pawn} {original : MoveType} {field : Field ι}

omit [DecidableEq ι] in
theorem kept_iff (listed : ∀ who, who ∈ field.holders ↔ holding (field.freezes who) = true) :
    Kept body original field ↔
      moveType body field.moves = if field.holders = [] then original else .none := by
  constructor
  · intro kept
    cases order : field.holders with
    | nil =>
        simp only [if_true]
        refine kept.back fun who => ?_
        rw [← Bool.not_eq_true, ← listed, order]
        exact List.not_mem_nil
    | cons first rest =>
        rw [if_neg (List.cons_ne_nil first rest)]
        exact kept.still ⟨first, (listed first).mp (order ▸ List.mem_cons_self)⟩
  · intro value
    constructor
    · rintro ⟨who, held⟩
      rw [value, if_neg (List.ne_nil_of_mem ((listed who).mpr held))]
    · intro none
      rw [value, if_pos]
      refine List.eq_nil_iff_forall_not_mem.mpr fun who member => ?_
      exact Bool.false_ne_true ((none who).symm.trans ((listed who).mp member))

theorem held_tracked {who : ι} (sound : Tracked body original field)
    (kept : Kept body original field) (free : holding (field.freezes who) = false) :
    Tracked body original
      { freezes := Function.update field.freezes who ⟨body.ref, moveType body field.moves⟩
        moves := setMoveType body .none field.moves
        holders := field.holders ++ [who] } := by
  have outside : who ∉ field.holders := by
    rw [sound.listed, free]
    exact Bool.false_ne_true
  constructor
  case listed =>
    intro other
    by_cases same : other = who
    · simp [same]
    · simp [same, Function.update_of_ne, sound.listed]
  case distinct => exact List.concat_eq_append ▸ sound.distinct.concat outside
  case own =>
    intro other held
    by_cases same : other = who
    · simp [same]
    · simp only [Function.update_of_ne same] at held ⊢
      exact sound.own other held
  case saved =>
    intro _ other member
    have found := (kept_iff sound.listed).mp kept
    cases order : field.holders with
    | nil =>
        obtain rfl : other = who := by simpa [order] using member
        simp [found, order]
    | cons first rest =>
        by_cases same : other = who
        · subst same
          have apart : first ≠ other := by
            rintro rfl
            exact outside (order ▸ List.mem_cons_self)
          simp [found, order, apart]
        · have inside : other ∈ field.holders := by simpa [same] using member
          have before := sound.saved kept other inside
          simpa [Function.update_of_ne same, order] using before

theorem released_listed {who : ι} (sound : Tracked body original field) :
    ∀ other, other ∈ field.holders.erase who ↔ holding (Function.update field.freezes who
      { field.freezes who with pawn := unset } other) = true := by
  intro other
  rw [sound.distinct.mem_erase_iff, sound.listed]
  by_cases same : other = who
  · simp [same]
  · simp [same, Function.update_of_ne]

theorem released_tracked {who : ι} (sound : Tracked body original field)
    (held : holding (field.freezes who) = true) (kept : Kept body original field) :
    Tracked body original
      { freezes := Function.update field.freezes who { field.freezes who with pawn := unset }
        moves := setMoveType body (field.freezes who).prev field.moves
        holders := field.holders.erase who } := by
  have member := (sound.listed who).mpr held
  constructor
  case listed => exact released_listed sound
  case distinct => exact sound.distinct.erase who
  case own =>
    intro other stillHeld
    by_cases same : other = who
    · simp [same] at stillHeld
    · simp only [Function.update_of_ne same] at stillHeld ⊢
      exact sound.own other stillHeld
  case saved =>
    intro keptAfter other inside
    obtain ⟨apart, before⟩ := sound.distinct.mem_erase_iff.mp inside
    simp only [Function.update_of_ne apart, sound.saved kept other before]
    have given := (kept_iff (released_listed sound)).mp keptAfter
    simp only [moveType_setMoveType, sound.saved kept who member,
      if_neg (List.ne_nil_of_mem inside)] at given
    cases order : field.holders with
    | nil => simp [order] at member
    | cons first rest =>
        by_cases leads : first = who
        · -- The first has left before the others: only where what it gave back is the held type.
          have none : original = .none := by simpa [order, leads] using given
          simp [none]
        · simp [leads]

theorem released_kept_iff {who : ι} (sound : Tracked body original field)
    (held : holding (field.freezes who) = true) (kept : Kept body original field) :
    Kept body original
      { freezes := Function.update field.freezes who { field.freezes who with pawn := unset }
        moves := setMoveType body (field.freezes who).prev field.moves
        holders := field.holders.erase who } ↔
      original = .none ∨ (field.holders.head? = some who → field.holders = [who]) := by
  have member := (sound.listed who).mpr held
  rw [kept_iff (released_listed sound)]
  simp only [moveType_setMoveType, sound.saved kept who member]
  cases order : field.holders with
  | nil => simp [order] at member
  | cons first rest =>
      by_cases leads : first = who
      · subst leads
        by_cases alone : rest = []
        · simp [alone]
        · simp [alone]
      · simp [leads]

theorem law (alive : body.isAlive = true) (before : Field ι) (request : Request ι)
    (after : Field ι) (sound : Tracked body original before) (kept : Kept body original before)
    (taken : step body before request = some after) :
    Tracked body original after ∧ (Kept body original after ↔ LastOut original before request) := by
  cases step_taken alive sound.own taken with
  | nothing idle =>
      refine ⟨sound, iff_of_true kept (.inr fun named leads => ?_)⟩
      have member := List.mem_of_head? leads
      rw [sound.listed, idle named] at member
      cases member
  | held other free =>
      have tracked := held_tracked sound kept free
      refine ⟨tracked, iff_of_true ?_ (.inr fun named => absurd named other)⟩
      rw [kept_iff tracked.listed]
      simp
  | released named held =>
      refine ⟨released_tracked sound held kept, ?_⟩
      rw [released_kept_iff sound held kept, LastOut, named]
      simp

end Law

/-- On a living pawn whose move type nothing else writes, it is held while anyone holds it and
back once nobody does exactly when nobody who took hold first is released before the others. -/
theorem move_type_kept_iff {body : Pawn} (alive : body.isAlive = true) (moves : Moves)
    (requests : List (Request ι)) :
    Always (step body) (Kept body (moveType body moves)) (begin moves) requests ↔
      Guarded (step body) (LastOut (moveType body moves)) (begin moves) requests := by
  apply always_iff_guarded (law alive)
  case start => exact ⟨by simp [begin], List.nodup_nil, by simp [begin], by simp [begin]⟩
  case good => exact ⟨by simp [begin], fun _ => rfl⟩

def walker : Pawn := ⟨⟨5⟩, true, rfl⟩

def walking : Moves := fun _ => ⟨.walk, .walk⟩

theorem nested_holds_kept :
    Always (step walker) (Kept walker .walk) (begin walking)
      [⟨.hold, false⟩, ⟨.hold, true⟩, ⟨.sync, false⟩, ⟨.release, true⟩, ⟨.release, false⟩] :=
  (move_type_kept_iff rfl walking _).mpr (by
    simp [Guarded, step, LastOut, begin, perform, hold, sync, release, replaced, order, walker,
      fresh, holding, isSet, unset])

/-- The first to hold leaves first: the walking pawn stays held for good. -/
theorem first_out_stuck :
    ¬ Always (step walker) (Kept walker (moveType walker walking)) (begin walking)
      [⟨.hold, false⟩, ⟨.hold, true⟩, ⟨.release, false⟩, ⟨.release, true⟩] := by
  intro always
  have kept := (always_iff_everywhere ..).mp always _ _ List.prefix_rfl rfl
  have stuck : MoveType.none = .walk := kept.back (by decide)
  cases stuck

end VoltMod.Freezes
