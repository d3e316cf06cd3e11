import Mathlib.Data.Sum.Basic
import VoltMod.Visibility

/-!
Ui/WriteCache.cpp: what each player, or everyone, was last sent on one screen. A text and a
class are looked up under one joined text, so two classes can share an entry where an id or a
name has the separator in it.
-/

namespace VoltMod.Screens
open Hooks

abbrev Text := List Char

inductive WriteKind where
  | text | «class»
  deriving DecidableEq, Repr

def keySeparator : Char := Char.ofNat 0x1f

def everyoneSlot : Int := -1

structure Sent where
  values : Text → Option Text
  cursor : Option Bool
  failed : Bool

def unsent : Sent := ⟨fun _ => none, none, false⟩

structure WriteCache where
  slots : Int → Option Sent
  everyone : Sent

def empty : WriteCache := ⟨fun _ => none, unsent⟩

section Source

variable (cache : WriteCache) (slot : Int)

/-- For: a slot's record is made on first use, and `put` leaves it there. -/
def sentFor : Option Sent :=
  if slot = everyoneSlot then some cache.everyone
  else if isValidSlot slot then some ((cache.slots slot).getD unsent)
  else none

def put (sent : Sent) : WriteCache :=
  if slot = everyoneSlot then { cache with everyone := sent }
  else { cache with slots := Function.update cache.slots slot (some sent) }

def kindCode : WriteKind → Nat
  | .text => 0
  | .class => 1

def keyFor (kind : WriteKind) (elementId name : Text) : Text :=
  Char.ofNat (kindCode kind) :: keySeparator :: (elementId ++ keySeparator :: name)

def changed (kind : WriteKind) (elementId name value : Text) : Bool × WriteCache :=
  match sentFor cache slot with
  | none => (false, cache)
  | some sent =>
      let key := keyFor kind elementId name
      if sent.values key = some value then (false, put cache slot sent)
      else (true, put cache slot
        { sent with values := Function.update sent.values key (some value) })

def cursorChanged (shown : Bool) : Bool × WriteCache :=
  match sentFor cache slot with
  | none => (false, cache)
  | some sent =>
      if sent.cursor = some shown then (false, put cache slot sent)
      else (true, put cache slot { sent with cursor := some shown })

def isFirstFailure : Bool × WriteCache :=
  match sentFor cache slot with
  | none => (false, cache)
  | some sent =>
      if sent.failed then (false, put cache slot sent)
      else (true, put cache slot { sent with failed := true })

def invalidate : WriteCache :=
  match sentFor cache slot with
  | none => cache
  | some sent => put cache slot { sent with values := fun _ => none, cursor := none }

def removeSlot : WriteCache :=
  if isValidSlot slot then { cache with slots := Function.update cache.slots slot none } else cache

end Source

/-- One write as the screen is asked for it. -/
inductive Write where
  | text (name value : Text)
  | «class» (elementId className : Text) (on : Bool)
  | cursor (shown : Bool)
  deriving DecidableEq, Repr

inductive Key where
  | text (name : Text)
  | «class» (elementId className : Text)
  | cursor
  deriving DecidableEq, Repr

def key : Write → Key
  | .text name _ => .text name
  | .class elementId className _ => .class elementId className
  | .cursor _ => .cursor

abbrev Value := Text ⊕ Bool

def onText (on : Bool) : Text := if on then ['1'] else ['0']

def value : Write → Value
  | .text _ value => .inl value
  | .class _ _ on => .inl (onText on)
  | .cursor shown => .inr shown

/-- Where the cache keeps what a key was sent: under a joined text, or as the cursor. -/
def place : Key → Option Text
  | .text name => some (keyFor .text [] name)
  | .class elementId className => some (keyFor .class elementId className)
  | .cursor => none

def held (sent : Sent) : Option Text → Option Value
  | some joined => (sent.values joined).map .inl
  | none => sent.cursor.map .inr

def cached (cache : WriteCache) (target : Int) (place : Option Text) : Option Value :=
  (sentFor cache target).bind fun sent => held sent place

def change (cache : WriteCache) (target : Int) : Write → Bool × WriteCache
  | .text name value => changed cache target .text [] name value
  | .class elementId className on =>
      changed cache target .class elementId className (onText on)
  | .cursor shown => cursorChanged cache target shown

/-- Everyone, or a player's slot. -/
def reachable (target : Int) : Bool := target = everyoneSlot || isValidSlot target

section Specs

variable {cache : WriteCache} {target other : Int} {sent : Sent} {at' : Option Text}

theorem sentFor_isSome (cache : WriteCache) (target : Int) :
    (sentFor cache target).isSome = reachable target := by
  rw [sentFor, reachable]
  split
  · next everyone => simp [everyone]
  · next one => cases valid : isValidSlot target <;> simp [one]

theorem sentFor_put_self (there : reachable target = true) :
    sentFor (put cache target sent) target = some sent := by
  rw [sentFor, put]
  by_cases everyone : target = everyoneSlot
  · simp [everyone]
  · have valid : isValidSlot target = true := by simpa [reachable, everyone] using there
    simp [everyone, valid]

theorem sentFor_put_other (apart : other ≠ target) :
    sentFor (put cache target sent) other = sentFor cache other := by
  rw [sentFor, sentFor, put]
  by_cases everyone : target = everyoneSlot
  · simp [everyone, everyone ▸ apart]
  · simp [everyone, apart]

theorem cached_put (there : reachable target = true) (place : Option Text) :
    cached (put cache target sent) other place =
      if other = target then held sent place else cached cache other place := by
  by_cases same : other = target
  · subst same
    simp [cached, sentFor_put_self there]
  · simp [cached, sentFor_put_other same, same]

theorem cached_unreachable (beyond : reachable target = false) (place : Option Text) :
    cached cache target place = none := by
  have missing : sentFor cache target = none := by
    rw [← Option.not_isSome_iff_eq_none, sentFor_isSome, beyond]
    exact Bool.false_ne_true
  rw [cached, missing]
  rfl

/-- What remembering a value does: its place holds it, and every other what it did. -/
def Remembers (before after : WriteCache) (target : Int) (place : Option Text) (value : Value) :
    Prop :=
  ∀ other at', cached after other at' =
    if other = target ∧ at' = place then some value else cached before other at'

theorem remembers_same (there : reachable target = true) {place : Option Text} {value : Value}
    (found : sentFor cache target = some sent) (already : held sent place = some value) :
    Remembers cache (put cache target sent) target place value := by
  intro other at'
  rw [cached_put there]
  by_cases same : other = target
  · subst same
    by_cases here : at' = place
    · simp [here, already]
    · simp [here, cached, found]
  · simp [same]

theorem remembers_new (there : reachable target = true) {place : Option Text} {value : Value}
    {next : Sent} (found : sentFor cache target = some sent)
    (new : ∀ at', held next at' = if at' = place then some value else held sent at') :
    Remembers cache (put cache target next) target place value := by
  intro other at'
  rw [cached_put there]
  by_cases same : other = target
  · subst same
    simp [new, cached, found]
  · simp [same]

theorem changed_reachable (there : reachable target = true) (kind : WriteKind)
    (elementId name value : Text) :
    (changed cache target kind elementId name value).1 =
      decide (cached cache target (some (keyFor kind elementId name)) ≠ some (.inl value)) ∧
    Remembers cache (changed cache target kind elementId name value).2 target
      (some (keyFor kind elementId name)) (.inl value) := by
  obtain ⟨sent, found⟩ := Option.isSome_iff_exists.mp ((sentFor_isSome cache target).trans there)
  by_cases same : sent.values (keyFor kind elementId name) = some value
  · simp only [changed, found, same, if_true]
    exact ⟨by simp [cached, found, held, same], remembers_same there found (by simp [held, same])⟩
  · simp only [changed, found, same, if_false]
    refine ⟨by simp [cached, found, held, same], remembers_new there found ?_⟩
    intro at'
    cases at' with
    | none => simp [held]
    | some joined => by_cases here : joined = keyFor kind elementId name <;> simp [held, here]

theorem cursorChanged_reachable (there : reachable target = true) (shown : Bool) :
    (cursorChanged cache target shown).1 =
      decide (cached cache target none ≠ some (.inr shown)) ∧
    Remembers cache (cursorChanged cache target shown).2 target none (.inr shown) := by
  obtain ⟨sent, found⟩ := Option.isSome_iff_exists.mp ((sentFor_isSome cache target).trans there)
  by_cases same : sent.cursor = some shown
  · simp only [cursorChanged, found, same, if_true]
    exact ⟨by simp [cached, found, held, same], remembers_same there found (by simp [held, same])⟩
  · simp only [cursorChanged, found, same, if_false]
    refine ⟨by simp [cached, found, held, same], remembers_new there found ?_⟩
    intro at'
    cases at' with
    | none => simp [held]
    | some joined => simp [held]

/-- Every kind of write compares with what its place holds and leaves itself there. -/
theorem change_reachable (there : reachable target = true) (write : Write) :
    (change cache target write).1 =
      decide (cached cache target (place (key write)) ≠ some (value write)) ∧
    Remembers cache (change cache target write).2 target (place (key write)) (value write) := by
  cases write with
  | text name value => exact changed_reachable there .text [] name value
  | «class» elementId className on =>
      exact changed_reachable there .class elementId className (onText on)
  | cursor shown => exact cursorChanged_reachable there shown

theorem change_unreachable (beyond : reachable target = false) (write : Write) :
    change cache target write = (false, cache) := by
  have missing : sentFor cache target = none := by
    rw [← Option.not_isSome_iff_eq_none, sentFor_isSome, beyond]
    exact Bool.false_ne_true
  cases write <;> simp [change, changed, cursorChanged, missing]

theorem cached_invalidate (there : reachable target = true) (at' : Option Text) :
    cached (invalidate cache target) other at' =
      if other = target then none else cached cache other at' := by
  obtain ⟨sent, found⟩ := Option.isSome_iff_exists.mp ((sentFor_isSome cache target).trans there)
  simp only [invalidate, found, cached_put there]
  cases at' <;> rfl

theorem cached_isFirstFailure (at' : Option Text) :
    cached (isFirstFailure cache target).2 other at' = cached cache other at' := by
  cases found : sentFor cache target with
  | none => simp only [isFirstFailure, found]
  | some sent =>
      simp only [isFirstFailure, found]
      have there : reachable target = true := by
        rw [← sentFor_isSome cache, found]
        rfl
      have same : ∀ sent', (∀ at', held sent' at' = held sent at') →
          cached (put cache target sent') other at' = cached cache other at' := by
        intro sent' alike
        rw [cached_put there]
        split
        · next here => rw [here, cached, found, alike]; rfl
        · rfl
      split
      · exact same sent fun _ => rfl
      · exact same _ fun at' => by cases at' <;> rfl

theorem cached_removeSlot (slot : Int) (at' : Option Text) :
    cached (removeSlot cache slot) other at' =
      if isValidSlot slot = true ∧ other = slot then none else cached cache other at' := by
  rw [removeSlot]
  cases valid : isValidSlot slot with
  | false => simp
  | true =>
      have player : slot ≠ everyoneSlot := by
        rintro rfl
        cases valid
      by_cases same : other = slot
      · subst same
        cases at' <;> simp [cached, sentFor, player, valid, held, unsent]
      · simp [cached, sentFor, same]

@[simp] theorem cached_empty (at' : Option Text) : cached empty target at' = none := by
  rw [cached, sentFor]
  split
  · cases at' <;> rfl
  · split
    · cases at' <;> rfl
    · rfl

end Specs

section Keys

theorem split_unique {first second left right : Text} (firstPlain : keySeparator ∉ first)
    (leftPlain : keySeparator ∉ left)
    (same : first ++ keySeparator :: left = second ++ keySeparator :: right) :
    second = first ∧ right = left := by
  induction first generalizing second with
  | nil =>
      cases second with
      | nil => exact ⟨rfl, (List.cons.inj same).2.symm⟩
      | cons head rest =>
          have late : keySeparator ∈ left := by
            rw [(List.cons.inj same).2]
            simp
          exact absurd late leftPlain
  | cons head rest ih =>
      cases second with
      | nil => exact absurd (List.cons.inj same).1.symm fun here => firstPlain (here ▸ List.mem_cons_self)
      | cons other tail =>
          obtain ⟨rfl, below⟩ := List.cons.inj same
          obtain ⟨rfl, rfl⟩ := ih (fun inside => firstPlain (List.mem_cons_of_mem _ inside)) below
          exact ⟨rfl, rfl⟩

/-- A class whose id and name are free of the separator, or any other write. -/
def Plain : Key → Prop
  | .class elementId className => keySeparator ∉ elementId ∧ keySeparator ∉ className
  | _ => True

/-- A plain key has its place to itself. -/
theorem place_plain {first second : Key} (plain : Plain first) (same : place first = place second) :
    second = first := by
  cases first with
  | text name =>
      cases second with
      | text other => simpa [place, keyFor, eq_comm] using same
      | «class» elementId className => simp [place, keyFor, kindCode] at same
      | cursor => simp [place] at same
  | «class» elementId className =>
      cases second with
      | text other => simp [place, keyFor, kindCode] at same
      | «class» other name =>
          simp only [place, keyFor, Option.some.injEq, List.cons.injEq, true_and] at same
          obtain ⟨rfl, rfl⟩ := split_unique plain.1 plain.2 same
          rfl
      | cursor => simp [place] at same
  | cursor =>
      cases second with
      | text other => simp [place] at same
      | «class» elementId className => simp [place] at same
      | cursor => rfl

/-- Any other shares it with another class that is not plain either. -/
theorem place_shared {first : Key} (shared : ¬Plain first) :
    ∃ elementId className, ¬Plain (.class elementId className) ∧
      Key.class elementId className ≠ first ∧ place (.class elementId className) = place first := by
  cases first with
  | text name => exact absurd trivial shared
  | cursor => exact absurd trivial shared
  | «class» elementId className =>
      by_cases inId : keySeparator ∈ elementId
      · obtain ⟨before, after, rfl⟩ := List.append_of_mem inId
        refine ⟨before, after ++ keySeparator :: className, by simp [Plain], ?_, by
          simp [place, keyFor]⟩
        intro same
        have lengths := congrArg List.length (Key.class.inj same).1
        simp at lengths
      · have inName : keySeparator ∈ className := by
          simpa [Plain, inId] using shared
        obtain ⟨before, after, rfl⟩ := List.append_of_mem inName
        refine ⟨elementId ++ keySeparator :: before, after, by simp [Plain], ?_, by
          simp [place, keyFor]⟩
        intro same
        have lengths := congrArg List.length (Key.class.inj same).1
        simp at lengths

end Keys

end VoltMod.Screens
