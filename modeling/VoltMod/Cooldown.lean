import VoltMod.Lists
import VoltMod.Transition

/-! Core/Time/Cooldown.hpp over a clock that does not go back. The log holds every answer and
start, the map only what RemoveExpired leaves. -/
namespace VoltMod.Cooldowns
open Transition

variable {Key : Type} [DecidableEq Key]

abbrev Cooldown (Key : Type) := Key → Option Int

def empty : Cooldown Key := fun _ => none

def secondsLeft (key : Key) (now seconds : Int) (startedAt : Cooldown Key) : Int :=
  if seconds ≤ 0 then 0
  else
    match startedAt key with
    | none => 0
    | some started =>
        let elapsed := now - started
        if elapsed < 0 ∨ seconds ≤ elapsed then 0 else seconds - elapsed

def start (key : Key) (now : Int) (startedAt : Cooldown Key) : Cooldown Key :=
  fun other => if other = key then some now else startedAt other

def tryStart (key : Key) (now seconds : Int) (startedAt : Cooldown Key) : Bool × Cooldown Key :=
  if 0 < secondsLeft key now seconds startedAt then (false, startedAt)
  else (true, start key now startedAt)

def reset (key : Key) (startedAt : Cooldown Key) : Cooldown Key :=
  fun other => if other = key then none else startedAt other

def removeExpired (now maxAge : Int) (startedAt : Cooldown Key) : Cooldown Key :=
  fun key => (startedAt key).filter fun started => ¬maxAge < now - started

inductive Event (Key : Type) where
  | asked (key : Key) (now seconds : Int) (granted : Bool)
  | started (key : Key) (now : Int)
  | reset (key : Key)
  deriving DecidableEq, Repr

structure State (Key : Type) where
  startedAt : Cooldown Key
  clock : Int
  log : List (Event Key)

def initial (clock : Int) : State Key := ⟨empty, clock, []⟩

inductive Label (Key : Type) where
  | tryStart (key : Key) (now seconds : Int)
  | start (key : Key) (now : Int)
  | reset (key : Key)
  | removeExpired (now maxAge : Int)

def step (state : State Key) : Label Key → Option (State Key)
  | .tryStart key now seconds =>
      if now < state.clock then none
      else
        let answer := tryStart key now seconds state.startedAt
        some ⟨answer.2, now, state.log ++ [.asked key now seconds answer.1]⟩
  | .start key now =>
      if now < state.clock then none
      else some ⟨start key now state.startedAt, now, state.log ++ [.started key now]⟩
  | .reset key =>
      some { state with startedAt := reset key state.startedAt, log := state.log ++ [.reset key] }
  | .removeExpired now maxAge =>
      if now < state.clock then none
      else some { state with startedAt := removeExpired now maxAge state.startedAt, clock := now }

def record (key : Key) (held : Option Int) : Event Key → Option Int
  | .asked other now _ granted => if other = key ∧ granted = true then some now else held
  | .started other now => if other = key then some now else held
  | .reset other => if other = key then none else held

/-- When a key was last started and not reset since, going by the whole log. -/
def lastStart (key : Key) (log : List (Event Key)) : Option Int := log.foldl (record key) none

theorem lastStart_append (key : Key) (log : List (Event Key)) (event : Event Key) :
    lastStart key (log ++ [event]) = record key (lastStart key log) event := by
  rw [lastStart, List.foldl_append]
  rfl

/-- Every request was granted exactly where the key's last start was long enough ago. -/
def Answered (log : List (Event Key)) : Prop :=
  ∀ before key now seconds granted after,
    log = before ++ .asked key now seconds granted :: after →
    (granted = true ↔ ∀ started, lastStart key before = some started →
      seconds ≤ 0 ∨ seconds ≤ now - started)

/-- Requests ask for `longest` at most, and nothing younger than that is removed. -/
def Fitting (longest : Int) : Label Key → Prop
  | .tryStart _ _ seconds => seconds ≤ longest
  | .removeExpired _ maxAge => longest ≤ maxAge + 1
  | _ => True

/-- The map has the log's last starts but for those too long ago to matter. -/
structure Sound (longest : Int) (state : State Key) : Prop where
  agrees : ∀ key, state.startedAt key = lastStart key state.log ∨
    state.startedAt key = none ∧
      ∀ started, lastStart key state.log = some started → longest ≤ state.clock - started
  past : ∀ key started, lastStart key state.log = some started → started ≤ state.clock
  answered : Answered state.log

variable {longest : Int} {before after : State Key}

theorem initial_sound (clock : Int) : Sound longest (initial clock : State Key) where
  agrees _ := .inl rfl
  past _ _ found := by cases found
  answered before _ _ _ _ _ split := by
    cases before <;> cases split

theorem answered_append {log : List (Event Key)} (event : Event Key) (answered : Answered log)
    (here : ∀ key now seconds granted, event = .asked key now seconds granted →
      (granted = true ↔ ∀ started, lastStart key log = some started →
        seconds ≤ 0 ∨ seconds ≤ now - started)) : Answered (log ++ [event]) := by
  intro earlier key now seconds granted later split
  rcases Lists.split_last split with ⟨same, rfl⟩ | ⟨rest, inside⟩
  · exact here key now seconds granted same.symm
  · exact answered earlier key now seconds granted rest inside

/-- What the map says of a key, it says as the log does. -/
theorem tryStart_granted (sound : Sound longest before) (key : Key) {now seconds : Int}
    (later : before.clock ≤ now) (fitting : seconds ≤ longest) :
    (tryStart key now seconds before.startedAt).1 = true ↔
      ∀ started, lastStart key before.log = some started → seconds ≤ 0 ∨ seconds ≤ now - started := by
  have decided : (tryStart key now seconds before.startedAt).1 = true ↔
      ¬0 < secondsLeft key now seconds before.startedAt := by
    rw [tryStart]
    split
    · simpa
    · exact ⟨fun _ => ‹_›, fun _ => rfl⟩
  rw [decided, secondsLeft]
  rcases sound.agrees key with same | ⟨gone, old⟩
  · rw [same]
    cases found : lastStart key before.log with
    | none => simp
    | some started =>
        have past := sound.past key started found
        simp only [Option.some.injEq, forall_eq']
        split
        · exact ⟨fun _ => .inl ‹_›, fun _ => by omega⟩
        split
        · exact ⟨fun _ => .inr (by omega), fun _ => by omega⟩
        · exact ⟨fun _ => by omega, fun _ => by omega⟩
  · rw [gone]
    simp only [ite_self, Int.lt_irrefl, not_false_eq_true, true_iff]
    intro started found
    have long := old started found
    exact .inr (by omega)

/-- A start is taken into the map and the log alike. -/
theorem start_sound (sound : Sound longest before) {key : Key} {now : Int} {event : Event Key}
    (later : before.clock ≤ now)
    (records : ∀ other held, record other held event = if key = other then some now else held)
    (answered : Answered (before.log ++ [event])) :
    Sound longest ⟨start key now before.startedAt, now, before.log ++ [event]⟩ where
  agrees other := by
    simp only [lastStart_append, records, start]
    by_cases same : key = other
    · simp [same]
    · rw [if_neg (Ne.symm same), if_neg same]
      rcases sound.agrees other with held | ⟨gone, old⟩
      · exact .inl held
      · exact .inr ⟨gone, fun started found => by have := old started found; omega⟩
  past other started found := by
    simp only [lastStart_append, records] at found
    split at found
    · cases found
      exact Int.le_refl _
    · have past := sound.past other started found
      show started ≤ now
      omega
  answered := answered

/-- A refusal leaves the map. -/
theorem refused_sound (sound : Sound longest before) {now : Int} {event : Event Key}
    (later : before.clock ≤ now) (records : ∀ other held, record other held event = held)
    (answered : Answered (before.log ++ [event])) :
    Sound longest ⟨before.startedAt, now, before.log ++ [event]⟩ where
  agrees other := by
    simp only [lastStart_append, records]
    rcases sound.agrees other with held | ⟨gone, old⟩
    · exact .inl held
    · exact .inr ⟨gone, fun started found => by have := old started found; omega⟩
  past other started found := by
    simp only [lastStart_append, records] at found
    have past := sound.past other started found
    show started ≤ now
    omega
  answered := answered

theorem step_sound (sound : Sound longest before) {label : Label Key} (fitting : Fitting longest label)
    (taken : step before label = some after) : Sound longest after := by
  cases label with
  | tryStart key now seconds =>
      simp only [step] at taken
      split at taken
      · cases taken
      · rename_i later
        cases taken
        have later : before.clock ≤ now := by omega
        have granted := tryStart_granted sound key later fitting
        have answered := answered_append (.asked key now seconds
          (tryStart key now seconds before.startedAt).1) sound.answered
          (by rintro _ _ _ _ ⟨⟩; exact granted)
        -- Granted, TryStart does what Start does; refused, it leaves the starts alone.
        cases answer : (tryStart key now seconds before.startedAt).1 with
        | true =>
            have taken : (tryStart key now seconds before.startedAt).2 =
                start key now before.startedAt := by
              rw [tryStart] at answer ⊢
              split at answer
              · cases answer
              · rw [if_neg ‹_›]
            rw [answer] at answered
            rw [taken]
            exact start_sound sound later (by simp [record]) answered
        | false =>
            have taken : (tryStart key now seconds before.startedAt).2 = before.startedAt := by
              rw [tryStart] at answer ⊢
              split at answer
              · rw [if_pos ‹_›]
              · cases answer
            rw [answer] at answered
            rw [taken]
            exact refused_sound sound later (by simp [record]) answered
  | start key now =>
      simp only [step] at taken
      split at taken
      · cases taken
      · cases taken
        exact start_sound sound (by omega) (by simp [record])
          (answered_append _ sound.answered (by simp))
  | reset key =>
      cases taken
      refine ⟨fun other => ?_, fun other started found => ?_,
        answered_append _ sound.answered (by simp)⟩
      · simp only [lastStart_append, record, reset]
        by_cases same : key = other
        · simp [same]
        · rw [if_neg (Ne.symm same), if_neg same]
          exact sound.agrees other
      · simp only [lastStart_append, record] at found
        split at found
        · cases found
        · exact sound.past other started found
  | removeExpired now maxAge =>
      simp only [step] at taken
      split at taken
      · cases taken
      · cases taken
        refine ⟨fun key => ?_, fun key started found => ?_, sound.answered⟩
        · rcases sound.agrees key with held | ⟨gone, old⟩
          · simp only [removeExpired, held]
            cases found : lastStart key before.log with
            | none => exact .inl rfl
            | some started =>
                -- What is forgotten is too old to refuse any cooldown that is asked for.
                by_cases young : maxAge < now - started
                · refine .inr ⟨Option.filter_some_neg (by simp only [young, not_true, decide_false]), fun other same => ?_⟩
                  cases same
                  have bound : longest ≤ maxAge + 1 := fitting
                  omega
                · exact .inl (by simpa using young)
          · refine .inr ⟨by simp [removeExpired, gone], fun started found => ?_⟩
            have long := old started found
            show longest ≤ now - started
            omega
        · have past := sound.past key started found
          show started ≤ now
          omega

theorem run_sound {labels : List (Label Key)} (fitting : ∀ label ∈ labels, Fitting longest label)
    (sound : Sound longest before) (ran : run step before labels = some after) :
    Sound longest after := by
  induction labels generalizing before with
  | nil =>
      cases ran
      exact sound
  | cons label rest ih =>
      obtain ⟨next, taken, tail⟩ := (run_cons_iff ..).mp ran
      have kept := step_sound sound (fitting label List.mem_cons_self) taken
      exact ih (fun other member => fitting other (List.mem_cons_of_mem _ member)) kept tail

/-- Whatever is started, reset and removed, a request is refused exactly where the key was started
less than that many seconds ago: what RemoveExpired forgets is never missed, so long as it keeps
what is younger than the longest cooldown asked for. -/
theorem cooldowns_answered {longest clock : Int} {labels : List (Label Key)} {final : State Key}
    (fitting : ∀ label ∈ labels, Fitting longest label)
    (ran : run step (initial clock) labels = some final) : Answered final.log :=
  (run_sound fitting (initial_sound clock) ran).answered

/-- Slot 3 is warned at 0 and at 10, not at 9, with what is older than 20 s removed between. -/
def slotLabels : List (Label Nat) :=
  [.tryStart 3 0 10, .tryStart 3 9 10, .removeExpired 9 20, .tryStart 3 10 10]

theorem slot_answered : Answered [.asked 3 0 10 true, .asked 3 9 10 false, .asked 3 10 10 true] := by
  have fitting : ∀ label ∈ slotLabels, Fitting 10 label := by
    simp [slotLabels, Fitting]
  have ran : ∃ startedAt, run step (initial 0) slotLabels =
      some ⟨startedAt, 10, [.asked 3 0 10 true, .asked 3 9 10 false, .asked 3 10 10 true]⟩ :=
    ⟨_, rfl⟩
  obtain ⟨startedAt, ran⟩ := ran
  exact cooldowns_answered fitting ran

end VoltMod.Cooldowns
