import VoltMod.Result
import VoltMod.WriteCache

/-!
Ui/ScreenEntity.cpp: the writes of a screen, its entity and what resets it. What the game
answers comes with each event. `spawns` numbers the entities the screen has held, and a
`Watched` screen carries what it was last sent for each target and key, and which writes
failed when they were last made; all three are history.
-/

namespace VoltMod.Screens
open Hooks Transition

/-- What the engine's entity for a layout shows: entries of its three string tables, where it
has them, and how many players it keeps a state for. -/
structure Layout where
  panelIds : Option Int
  classNames : Option Int
  dialogVariableNames : Option Int
  playerStates : Int

structure Bindings where
  setDialogVariable : Bool
  setDialogVariableForPlayer : Bool
  setHasClass : Bool
  setHasClassForPlayer : Bool
  setInputCapture : Bool

/-- What the entity system answers at one event, and what a spawn would come to. -/
structure Game where
  layouts : EntityRef → Option Layout
  bindings : Bindings
  available : Status
  spawned : Option EntityRef

structure ScreenEntity where
  owner : Int
  entity : EntityRef
  playersChangedSinceSpawn : Bool
  written : WriteCache
  spawns : Nat

def start (owner : Int) : ScreenEntity := ⟨owner, unset, true, empty, 0⟩

section Source

variable (game : Game) (screen : ScreenEntity)

def isForPlayer : Bool := screen.owner ≠ everyoneSlot

def layoutOf : Option Layout :=
  if isSet screen.entity then game.layouts screen.entity else none

def entityExists : Bool := (layoutOf game screen).isSome

def cacheSlotFor (slot : Int) : Result Int :=
  if !isForPlayer screen then .ok slot
  else if slot ≠ everyoneSlot && slot ≠ screen.owner then
    .error (.invalid s!"this screen belongs to slot {screen.owner}")
  else .ok screen.owner

def contentSlotFor (cacheSlot : Int) : Int :=
  if isForPlayer screen then everyoneSlot else cacheSlot

def playerStateCount : Int := ((layoutOf game screen).map (·.playerStates)).getD (-1)

def covers (slot : Int) : Bool := isValidSlot slot && slot < playerStateCount game screen

def stringTableCap : Int := 1024

def stringTableHeadroom : Int := 64

/-- The first table that is nearly full, as EntityForWrite reports it. -/
def nearlyFull : List (String × Option Int) → Status
  | [] => .ok ()
  | (name, table) :: rest =>
      let count := table.getD (-1)
      if stringTableCap - stringTableHeadroom ≤ count then
        .error (.failed s!"the {name} table is nearly full ({count}/{stringTableCap})")
      else nearlyFull rest

def entityForWrite (engineSlot : Int) : Status := do
  let some layout := layoutOf game screen
    | .error (.notFound "the custom_hud_layout entity no longer exists")
  nearlyFull [("element id", layout.panelIds), ("class name", layout.classNames),
    ("text variable", layout.dialogVariableNames)]
  if engineSlot = everyoneSlot then return
  let states := playerStateCount game screen
  if states ≤ engineSlot then
    .error (.failed
      s!"slot {engineSlot} has no per-player layout state (the entity holds {states})")

def bound (binding : Bool) (what : String) : Status :=
  if binding then .ok () else .error (.unsupported s!"the custom HUD {what} setter did not bind")

def sendText (engineSlot : Int) : Status := do
  entityForWrite game screen engineSlot
  if engineSlot = everyoneSlot then bound game.bindings.setDialogVariable "text"
  else bound game.bindings.setDialogVariableForPlayer "per-player text"

def sendClass (engineSlot : Int) : Status := do
  entityForWrite game screen engineSlot
  if engineSlot = everyoneSlot then bound game.bindings.setHasClass "class"
  else bound game.bindings.setHasClassForPlayer "per-player class"

/-- The global cursor is a plain field of the layout. -/
def sendCursor (engineSlot : Int) : Status := do
  entityForWrite game screen engineSlot
  if engineSlot = everyoneSlot then return
  else bound game.bindings.setInputCapture "input capture"

/-- The send of each kind of write; a player screen's texts and classes are global. -/
def send (target : Int) : Write → Status
  | .text .. => sendText game screen (contentSlotFor screen target)
  | .class .. => sendClass game screen (contentSlotFor screen target)
  | .cursor _ => sendCursor game screen target

def checkWrite (cacheSlot : Int) : Status → ScreenEntity
  | .ok () => screen
  | .error _ =>
      if isValidSlot cacheSlot then
        { screen with
          written := (isFirstFailure (invalidate screen.written cacheSlot) cacheSlot).2 }
      else screen

/-- WriteText, WriteClass and WriteCursor, with what was sent and how it went beside it. -/
def write (slot : Int) (write : Write) : Option (Int × Status) × ScreenEntity :=
  match cacheSlotFor screen slot with
  | .error _ => (none, screen)
  | .ok target =>
      let (changed, written) := change screen.written target write
      let screen := { screen with written }
      if !changed then (none, screen)
      else
        let status := send game screen target write
        (some (target, status), checkWrite screen target status)

def remove : ScreenEntity :=
  { screen with entity := unset, written := empty, spawns := screen.spawns + 1 }

def spawn : Status × ScreenEntity :=
  let removed := remove { screen with playersChangedSinceSpawn := false }
  match game.available, game.spawned with
  | .error failure, _ => (.error failure, removed)
  | .ok (), none =>
      (.error (.engine "the engine refused to spawn custom_hud_layout"), removed)
  | .ok (), some ref => (.ok (), { removed with entity := ref })

def spawnOrWarn : Bool × ScreenEntity :=
  let (status, screen) := spawn game screen
  (status.toBool, screen)

/-- EnsureSpawned once the target is known and an entity is there. -/
def ensureCovers (target : Int) : Bool × ScreenEntity :=
  if target = everyoneSlot || covers game screen target then (true, screen)
  else if !screen.playersChangedSinceSpawn then (false, screen)
  else
    let (again, screen) := spawnOrWarn game screen
    (again && covers game screen target, screen)

def ensureSpawned (slot : Int) : Bool × ScreenEntity :=
  if slot ≠ everyoneSlot && !isValidSlot slot then (false, screen)
  else
    match cacheSlotFor screen slot with
    | .error _ => (false, screen)
    | .ok target =>
        if entityExists game screen then ensureCovers game screen target
        else
          let (there, screen) := spawnOrWarn game screen
          if there then ensureCovers game screen target else (false, screen)

def slotChanged (slot : Int) : ScreenEntity :=
  let screen := { screen with playersChangedSinceSpawn := true }
  if slot = screen.owner then remove screen
  else { screen with written := removeSlot screen.written slot }

def fullyConnected (slot : Int) : ScreenEntity :=
  { screen with
    playersChangedSinceSpawn := true
    written := removeSlot screen.written slot }

end Source

inductive Label where
  | write (game : Game) (slot : Int) (write : Write)
  | ensureSpawned (game : Game) (slot : Int)
  | remove
  | slotChanged (slot : Int)
  | fullyConnected (slot : Int)

structure History where
  shown : Int → Key → Option (Value × Nat)
  failed : Int → Key → Value → Bool

structure Watched where
  screen : ScreenEntity
  history : History

def opened (owner : Int) : Watched := ⟨start owner, ⟨fun _ _ => none, fun _ _ _ => false⟩⟩

section History

variable (history : History)

/-- A send to a target: what is shown there from then on, or that the write failed. -/
def note (spawns : Nat) (write : Write) : Option (Int × Status) → History
  | none => history
  | some (target, .ok ()) =>
      { shown := Function.update history.shown target (Function.update (history.shown target)
          (key write) (some (value write, spawns)))
        failed := Function.update history.failed target (Function.update (history.failed target)
          (key write) (Function.update (history.failed target (key write)) (value write) false)) }
  | some (target, .error _) =>
      { history with
        failed := Function.update history.failed target (Function.update (history.failed target)
          (key write) (Function.update (history.failed target (key write)) (value write) true)) }

/-- A player's state is the game's to reset when the player changes or has finished loading. -/
def forget (slot : Int) : History :=
  if isValidSlot slot then
    { history with shown := Function.update history.shown slot fun _ => none }
  else history

end History

def step (state : Watched) : Label → Option Watched
  | .write game slot asked =>
      let (sent, screen) := write game state.screen slot asked
      some ⟨screen, note state.history state.screen.spawns asked sent⟩
  | .ensureSpawned game slot => some { state with screen := (ensureSpawned game state.screen slot).2 }
  | .remove => some { state with screen := remove state.screen }
  | .slotChanged slot => some ⟨slotChanged state.screen slot, forget state.history slot⟩
  | .fullyConnected slot => some ⟨fullyConnected state.screen slot, forget state.history slot⟩

/-- The write would be skipped as one the target was already sent. -/
def suppressed (screen : ScreenEntity) (target : Int) (write : Write) : Prop :=
  cached screen.written target (place (key write)) = some (value write)

/-- What is skipped is what the target was last sent, to this entity and since its last reset,
and did not fail when it was last written. -/
def Kept (state : Watched) : Prop :=
  ∀ target write, suppressed state.screen target write →
    state.history.shown target (key write) = some (value write, state.screen.spawns) ∧
    state.history.failed target (key write) (value write) = false

/-- A write that goes out reaches everyone, if it is for everyone, and no class that arrives
has the separator in its id or name. -/
def Arrives (state : Watched) : Label → Prop
  | .write game slot asked => ∀ target, cacheSlotFor state.screen slot = .ok target →
      reachable target = true → ¬suppressed state.screen target asked →
        (target = everyoneSlot → send game state.screen target asked = .ok ()) ∧
        (send game state.screen target asked = .ok () → Plain (key asked))
  | _ => True

section Specs

variable {game : Game} {screen : ScreenEntity} {slot target : Int} {asked : Write}

/-- What a write can come to: refused, already shown, or sent. -/
inductive Wrote (game : Game) (screen : ScreenEntity) (slot : Int) (asked : Write) :
    Option (Int × Status) × ScreenEntity → Prop
  | refused : (∀ target, cacheSlotFor screen slot = .ok target → reachable target = false) →
      Wrote game screen slot asked (none, screen)
  | skipped (target : Int) (written : WriteCache) : cacheSlotFor screen slot = .ok target →
      suppressed screen target asked →
      Remembers screen.written written target (place (key asked)) (value asked) →
      Wrote game screen slot asked (none, { screen with written })
  | sent (target : Int) (written : WriteCache) : cacheSlotFor screen slot = .ok target →
      reachable target = true → ¬suppressed screen target asked →
      Remembers screen.written written target (place (key asked)) (value asked) →
      Wrote game screen slot asked (some (target, send game screen target asked),
        checkWrite { screen with written } target (send game screen target asked))

theorem write_cases (game : Game) (screen : ScreenEntity) (slot : Int) (asked : Write) :
    Wrote game screen slot asked (write game screen slot asked) := by
  rw [write]
  cases named : cacheSlotFor screen slot with
  | error failure => exact .refused fun target also => by cases named.symm.trans also
  | ok target =>
      cases there : reachable target with
      | false =>
          simp only [change_unreachable there]
          refine .refused fun other also => ?_
          cases named.symm.trans also
          exact there
      | true =>
          obtain ⟨compared, kept⟩ := @change_reachable screen.written target there asked
          by_cases already : suppressed screen target asked
          · have same : (change screen.written target asked).1 = false := by
              rw [compared, decide_eq_false_iff_not, not_not]
              exact already
            simp only [same, Bool.not_false, if_true]
            exact .skipped target _ named already kept
          · have new : (change screen.written target asked).1 = true := by
              rw [compared, decide_eq_true_eq]
              exact already
            have alike : send game { screen with written := (change screen.written target asked).2 }
                target asked = send game screen target asked := by
              cases asked <;> rfl
            simp only [new, Bool.not_true, Bool.false_eq_true, if_false, alike]
            exact .sent target _ named there already kept

/-- The screen still holds its entity and what was written to it, or has forgotten both. -/
def Renewed (before after : ScreenEntity) : Prop :=
  (after.written = before.written ∧ after.spawns = before.spawns) ∨ after.written = empty

theorem spawnOrWarn_written (game : Game) (screen : ScreenEntity) :
    (spawnOrWarn game screen).2.written = empty := by
  simp only [spawnOrWarn, spawn]
  split <;> rfl

theorem ensureCovers_renewed (game : Game) (screen : ScreenEntity) (target : Int) :
    Renewed screen (ensureCovers game screen target).2 := by
  rw [ensureCovers]
  split
  · exact .inl ⟨rfl, rfl⟩
  · split
    · exact .inl ⟨rfl, rfl⟩
    · exact .inr (spawnOrWarn_written game screen)

theorem ensureSpawned_renewed (game : Game) (screen : ScreenEntity) (slot : Int) :
    Renewed screen (ensureSpawned game screen slot).2 := by
  rw [ensureSpawned]
  split
  · exact .inl ⟨rfl, rfl⟩
  · split
    · exact .inl ⟨rfl, rfl⟩
    · next target _ =>
        split
        · exact ensureCovers_renewed game screen target
        · have forgotten := spawnOrWarn_written game screen
          simp only
          split
          · rcases ensureCovers_renewed game (spawnOrWarn game screen).2 target with
              ⟨same, _⟩ | emptied
            · exact .inr (same.trans forgotten)
            · exact .inr emptied
          · exact .inr forgotten

theorem slotChanged_written (screen : ScreenEntity) (slot : Int) :
    ((slotChanged screen slot).written = removeSlot screen.written slot ∧
      (slotChanged screen slot).spawns = screen.spawns) ∨
    (slotChanged screen slot).written = empty := by
  rw [slotChanged]
  split
  · exact .inr rfl
  · exact .inl ⟨rfl, rfl⟩

end Specs

section Law

variable {state : Watched}

/-- While the property stands, no class with the separator in it has ever arrived. -/
def Sound (state : Watched) : Prop :=
  Kept state → ∀ target key, ¬Plain key → state.history.shown target key = none

theorem kept_empty {screen : ScreenEntity} (history : History)
    (emptied : screen.written = empty) : Kept ⟨screen, history⟩ := by
  intro target asked already
  rw [suppressed, emptied, cached_empty] at already
  cases already

/-- The same writes are skipped, of the same entity, or fewer. -/
theorem kept_fewer {screen : ScreenEntity} (kept : Kept state)
    (same : screen.spawns = state.screen.spawns)
    (fewer : ∀ target asked, suppressed screen target asked →
      suppressed state.screen target asked) : Kept ⟨screen, state.history⟩ := by
  intro target asked already
  rw [same]
  exact kept target asked (fewer target asked already)

theorem removed_kept {screen : ScreenEntity} {slot : Int} (kept : Kept state)
    (written : screen.written = removeSlot state.screen.written slot)
    (same : screen.spawns = state.screen.spawns) :
    Kept ⟨screen, forget state.history slot⟩ := by
  intro target asked already
  rw [suppressed, written, cached_removeSlot] at already
  split at already
  · cases already
  · next apart =>
      have before := kept target asked already
      rw [same, forget]
      split
      · next valid =>
          have other : target ≠ slot := fun here => apart ⟨valid, here⟩
          simpa [Function.update_of_ne other] using before
      · exact before

theorem forget_sound {screen : ScreenEntity} {slot : Int}
    (quiet : ∀ target key, ¬Plain key → state.history.shown target key = none) :
    Sound ⟨screen, forget state.history slot⟩ := by
  intro _ target asked shared
  rw [forget]
  split
  · by_cases here : target = slot
    · simp [here]
    · simpa [Function.update_of_ne here] using quiet target asked shared
  · exact quiet target asked shared

variable {target : Int} {asked : Write} {written : WriteCache}

/-- Any other class can be written with the value of a class that is not plain. -/
theorem class_value (shared : ¬Plain (key asked)) (elementId className : Text) :
    ∃ other, key other = .class elementId className ∧ value other = value asked := by
  cases asked with
  | text name value => exact absurd trivial shared
  | «class» _ _ on => exact ⟨.class elementId className on, rfl, rfl⟩
  | cursor shown => exact absurd trivial shared

theorem sent_kept_iff (kept : Kept state)
    (quiet : ∀ target key, ¬Plain key → state.history.shown target key = none)
    (remembers : Remembers state.screen.written written target (place (key asked)) (value asked)) :
    Kept ⟨{ state.screen with written },
      note state.history state.screen.spawns asked (some (target, .ok ()))⟩ ↔ Plain (key asked) := by
  constructor
  · intro after
    by_contra shared
    obtain ⟨elementId, className, alsoShared, apart, same⟩ := place_shared shared
    obtain ⟨other, named, valued⟩ := class_value shared elementId className
    -- The other class of the same place would be skipped too, and has never arrived.
    have already : suppressed { state.screen with written } target other := by
      rw [suppressed, remembers, named, valued, if_pos ⟨rfl, same⟩]
    have arrived := (after target other already).1
    simp only [note, named, Function.update_self, Function.update_of_ne apart,
      quiet target _ alsoShared] at arrived
    cases arrived
  · intro plain other next already
    rw [suppressed, remembers] at already
    split at already
    · next here =>
        obtain ⟨rfl, same⟩ := here
        have sameKey := place_plain plain same.symm
        have sameValue := Option.some.inj already
        simp [note, sameKey, ← sameValue]
    · next apart =>
        have before := kept other next already
        by_cases here : other = target
        · subst here
          have otherKey : key next ≠ key asked := fun same => apart ⟨rfl, congrArg place same⟩
          simpa [note, Function.update_of_ne otherKey] using before
        · simpa [note, Function.update_of_ne here] using before

theorem failed_kept_iff (kept : Kept state) (there : reachable target = true)
    (remembers : Remembers state.screen.written written target (place (key asked)) (value asked))
    (failure : Error) :
    Kept ⟨checkWrite { state.screen with written } target (.error failure),
      note state.history state.screen.spawns asked (some (target, .error failure))⟩ ↔
      target ≠ everyoneSlot := by
  constructor
  · rintro after rfl
    -- Nothing was forgotten, so the same write is skipped though it has just failed.
    have already : suppressed { state.screen with written } everyoneSlot asked := by
      rw [suppressed, remembers, if_pos ⟨rfl, rfl⟩]
    have fine := (after everyoneSlot asked already).2
    simp [note] at fine
  · intro player other next already
    have valid : isValidSlot target = true := by simpa [reachable, player] using there
    simp only [suppressed, checkWrite, valid, if_true, cached_isFirstFailure,
      cached_invalidate there] at already
    split at already
    · cases already
    · next here =>
        rw [remembers, if_neg fun both => here both.1] at already
        have spawns : (checkWrite { state.screen with written } target (.error failure)).spawns =
            state.screen.spawns := by simp [checkWrite, valid]
        rw [spawns]
        simpa [note, Function.update_of_ne here] using kept other next already

theorem write_law (game : Game) (slot : Int) (asked : Write) (sound : Sound state)
    (kept : Kept state) :
    Sound ⟨(write game state.screen slot asked).2, note state.history state.screen.spawns asked
        (write game state.screen slot asked).1⟩ ∧
    (Kept ⟨(write game state.screen slot asked).2, note state.history state.screen.spawns asked
        (write game state.screen slot asked).1⟩ ↔ Arrives state (.write game slot asked)) := by
  have quiet := sound kept
  have wrote := write_cases game state.screen slot asked
  generalize write game state.screen slot asked = outcome at wrote ⊢
  -- Only a write that is sent can change what the clients show.
  cases wrote with
  | refused beyond =>
      refine ⟨fun _ => quiet, iff_of_true kept ?_⟩
      intro target named there
      rw [beyond target named] at there
      cases there
  | skipped target written named already remembers =>
      have same : ∀ other at', cached written other at' = cached state.screen.written other at' := by
        intro other at'
        rw [remembers]
        split
        · next here => rw [here.1, here.2, already]
        · rfl
      refine ⟨fun _ => quiet, iff_of_true ?_ ?_⟩
      · exact kept_fewer kept rfl fun other next skipped => (same ..).symm.trans skipped
      · intro other also _ new
        cases named.symm.trans also
        exact absurd already new
  | sent target written named there new remembers =>
      have exact : ∀ status, send game state.screen target asked = status →
          (Arrives state (.write game slot asked) ↔
            (target = everyoneSlot → status = .ok ()) ∧ (status = .ok () → Plain (key asked))) := by
        rintro status rfl
        constructor
        · exact fun arrives => arrives target named there new
        · intro good other also _ _
          cases named.symm.trans also
          exact good
      cases went : send game state.screen target asked with
      | ok done =>
          have law := sent_kept_iff kept quiet remembers
          constructor
          · intro after
            have plain := law.mp after
            intro other next shared
            have apart : next ≠ key asked := fun same => shared (same ▸ plain)
            by_cases here : other = target
            · subst here
              simpa [note, Function.update_of_ne apart] using quiet other next shared
            · simpa [note, Function.update_of_ne here] using quiet other next shared
          · rw [exact _ went]
            simpa [checkWrite] using law
      | error failure =>
          refine ⟨fun _ => quiet, ?_⟩
          rw [exact _ went, failed_kept_iff kept there remembers failure]
          simp

theorem law (before : Watched) (label : Label) (after : Watched) (sound : Sound before)
    (kept : Kept before) (taken : step before label = some after) :
    Sound after ∧ (Kept after ↔ Arrives before label) := by
  have quiet := sound kept
  cases label with
  | write game slot asked =>
      cases taken
      exact write_law game slot asked sound kept
  | ensureSpawned game slot =>
      cases taken
      refine ⟨fun _ => quiet, iff_of_true ?_ trivial⟩
      rcases ensureSpawned_renewed game before.screen slot with ⟨same, spawns⟩ | emptied
      · refine kept_fewer kept spawns fun target asked skipped => ?_
        rw [suppressed, same] at skipped
        exact skipped
      · exact kept_empty _ emptied
  | remove =>
      cases taken
      exact ⟨fun _ => quiet, iff_of_true (kept_empty _ rfl) trivial⟩
  | slotChanged slot =>
      cases taken
      refine ⟨forget_sound quiet, iff_of_true ?_ trivial⟩
      rcases slotChanged_written before.screen slot with ⟨written, spawns⟩ | emptied
      · exact removed_kept kept written spawns
      · exact kept_empty _ emptied
  | fullyConnected slot =>
      cases taken
      exact ⟨forget_sound quiet, iff_of_true (removed_kept kept rfl rfl) trivial⟩

end Law

/-- On any screen and in any run: nothing is skipped but what the target has, and what failed
is sent again, exactly when every write for everyone arrives and no class that arrives has the
separator in its id or name. -/
theorem skipped_only_shown_iff (owner : Int) (labels : List Label) :
    Always step Kept (opened owner) labels ↔ Guarded step Arrives (opened owner) labels :=
  always_iff_guarded law (fun _ _ _ _ => rfl) (kept_empty _ rfl) labels

/-- A game that takes an entity of one player and every write to it. -/
def lobby : Game :=
  ⟨fun _ => some ⟨some 0, some 0, some 0, 1⟩, ⟨true, true, true, true, true⟩, .ok (), some ⟨7⟩⟩

/-- The same, with its table of text variables nearly full. -/
def crowded : Game :=
  { lobby with layouts := fun _ => some ⟨some 0, some 0, some 960, 1⟩ }

/-- A text for everyone that failed is skipped when it is written again. -/
theorem failed_for_everyone :
    ¬Always step Kept (opened everyoneSlot)
      [.ensureSpawned lobby everyoneSlot,
        .write crowded everyoneSlot (.text ['t', 'i', 't', 'l', 'e'] ['h', 'i'])] := by
  intro always
  have kept := (always_iff_everywhere ..).mp always _ _ List.prefix_rfl rfl
  have fine : true = false :=
    (kept everyoneSlot (.text ['t', 'i', 't', 'l', 'e'] ['h', 'i']) rfl).2
  cases fine

end VoltMod.Screens
