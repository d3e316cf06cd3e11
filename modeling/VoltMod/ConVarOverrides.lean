import Mathlib.Data.List.Nodup
import Mathlib.Logic.Function.Basic
import VoltMod.ConsoleCommands

/-! Engine/ConVars/ConVarOverrides.hpp and .cpp over the console: convars taken over and given
back through commands the engine executes in a later frame. A value is the text `ConVarText` gives
of it. -/
namespace VoltMod.ConVarOverrides
open MigrationText (Text)
open ConsoleCommands

/-- A convar's name as the console takes it. -/
def Simple (name : Text) : Prop :=
  ∀ c ∈ name, c ≠ '"' ∧ c ≠ '\\' ∧ c ≠ ';' ∧ c ≠ ' ' ∧ lineBreak c = false

def Whole (value : Text) : Prop := ∀ c ∈ value, lineBreak c = false

/-- What the engine does with a line, and the text a convar gives back of one assigned to it. -/
structure Engine where
  store : Text → Text → Text
  execute : Text → (Text → Text) → Text → Text
  empty : ∀ convars, execute [] convars = convars
  assigns : ∀ name value convars, Simple name → Whole value →
    execute (assignment name value) convars = Function.update convars name (store name value)

structure Snapshot where
  name : Text
  value : Text
  deriving DecidableEq, Repr

structure State where
  convars : Text → Text
  buffer : Text
  saved : List Snapshot

def start (convars : Text → Text) : State := ⟨convars, [], []⟩

def setByConsole (name value : Text) (state : State) : State :=
  { state with
    buffer := (ConsoleCommands.setByConsole name value (some state.buffer)).getD state.buffer }

/-- A convar that does not resolve is left alone. -/
def set (name : Text) (resolved : Bool) (value : Text) (state : State) : Bool × State :=
  if !resolved then (false, state)
  else
    let saved :=
      if state.saved.any fun held => held.name = name then state.saved
      else state.saved ++ [⟨name, state.convars name⟩]
    (true, setByConsole name value { state with saved })

def restore (name : Text) (state : State) : State :=
  match state.saved.find? fun held => held.name = name with
  | none => state
  | some held =>
      { setByConsole held.name held.value state with
        saved := state.saved.eraseP fun held => held.name = name }

def restoreAll (state : State) : State :=
  { state.saved.foldl (fun state held => setByConsole held.name held.value state) state with
    saved := [] }

/-- The engine executes what has been buffered. -/
def frame (engine : Engine) (state : State) : State :=
  { state with
    convars := (state.buffer.splitOn '\n').foldl (fun held line => engine.execute line held)
      state.convars
    buffer := [] }

inductive Label where
  | set (name : Text) (resolved : Bool) (value : Text)
  | restore (name : Text)
  | restoreAll
  | frame

def step (engine : Engine) (state : State) : Label → State
  | .set name resolved value => (set name resolved value state).2
  | .restore name => restore name state
  | .restoreAll => restoreAll state
  | .frame => frame engine state

/-- A write to the convar has not been executed yet. -/
def Waiting (name : Text) (state : State) : Prop :=
  ∃ value, assignment name value ∈ state.buffer.splitOn '\n'

/-- A convar that is taken over anew has no write of it waiting. -/
def Settled (state : State) : Label → Prop
  | .set name resolved _ => Simple name ∧
      (resolved = true → (∀ held ∈ state.saved, held.name ≠ name) → ¬ Waiting name state)
  | _ => True

def Settles (engine : Engine) : State → List Label → Prop
  | _, [] => True
  | state, label :: rest => Settled state label ∧ Settles engine (step engine state label) rest

structure Write where
  name : Text
  value : Text

/-- The convars once the writes have been executed. -/
def settled (engine : Engine) (pending : List Write) (convars : Text → Text) : Text → Text :=
  pending.foldl (fun held write =>
    Function.update held write.name (engine.store write.name write.value)) convars

def lines (pending : List Write) : List Text :=
  pending.map fun write => assignment write.name write.value

/-- Beside what is taken over, every convar has its original value or is about to. -/
structure Sound (engine : Engine) (original : Text → Text) (pending : List Write) (state : State) :
    Prop where
  buffer : state.buffer = written (lines pending)
  whole : ∀ write ∈ pending, Simple write.name ∧ Whole write.value
  once : (state.saved.map Snapshot.name).Nodup
  simple : ∀ held ∈ state.saved, Simple held.name
  kept : ∀ held ∈ state.saved, held.value = original held.name
  free : ∀ name, (∀ held ∈ state.saved, held.name ≠ name) →
    settled engine pending state.convars name = original name

section Writes
variable {engine : Engine} {original : Text → Text} {pending : List Write} {state : State}
  {name value : Text}

theorem simple_plain (simple : Simple name) (whole : Whole value) :
    plain (assignment name value) = true := by
  apply assignment_plain
  intro c member
  rcases List.mem_append.mp member with named | within
  · exact (simple c named).2.2.2.2
  · exact whole c within

theorem setByConsole_buffer (simple : Simple name) (whole : Whole value) :
    (setByConsole name value state).buffer = state.buffer ++ written [assignment name value] := by
  simp [setByConsole, ConsoleCommands.setByConsole, execute_written, simple_plain simple whole]

theorem settled_append (first second : List Write) (convars : Text → Text) :
    settled engine (first ++ second) convars =
      settled engine second (settled engine first convars) :=
  List.foldl_append

theorem settled_apart (apart : ∀ write ∈ pending, write.name ≠ name) (convars : Text → Text) :
    settled engine pending convars name = convars name := by
  induction pending generalizing convars with
  | nil => rfl
  | cons write rest ih =>
      rw [settled, List.foldl_cons, ← settled, ih fun other member => apart other (.tail _ member)]
      exact Function.update_of_ne (apart write List.mem_cons_self).symm _ _

theorem lines_plain (whole : ∀ write ∈ pending, Simple write.name ∧ Whole write.value) :
    ∀ line ∈ lines pending, plain line = true := by
  intro line member
  obtain ⟨write, among, rfl⟩ := List.mem_map.mp member
  exact simple_plain (whole write among).1 (whole write among).2

/-- What has been buffered is executed in order. -/
theorem execute_lines (whole : ∀ write ∈ pending, Simple write.name ∧ Whole write.value)
    (convars : Text → Text) :
    (lines pending).foldl (fun held line => engine.execute line held) convars =
      settled engine pending convars := by
  induction pending generalizing convars with
  | nil => rfl
  | cons write rest ih =>
      obtain ⟨simple, whole_⟩ := whole write List.mem_cons_self
      rw [lines, List.map_cons, List.foldl_cons, engine.assigns _ _ _ simple whole_]
      exact ih (fun other member => whole other (.tail _ member)) _

theorem frame_settles (sound : Sound engine original pending state) :
    (frame engine state).convars = settled engine pending state.convars := by
  simp only [frame]
  rw [sound.buffer, written_lines (lines_plain sound.whole), List.foldl_append,
    execute_lines sound.whole]
  exact engine.empty _

/-- A write that does not wait has been executed. -/
theorem waiting_of_mem (sound : Sound engine original pending state) {write : Write}
    (member : write ∈ pending) : Waiting write.name state := by
  refine ⟨write.value, ?_⟩
  rw [sound.buffer, written_lines (lines_plain sound.whole)]
  exact List.mem_append_left _ (List.mem_map_of_mem member)

end Writes

section Steps
variable {engine : Engine} {original : Text → Text} {pending : List Write} {state : State}
  {name value : Text}

/-- What is written to a convar that is taken over leaves the others as they were. -/
theorem write_sound (sound : Sound engine original pending state) (simple : Simple name)
    (taken : ∃ held ∈ state.saved, held.name = name) :
    ∃ pending, Sound engine original pending (setByConsole name value state) := by
  by_cases whole : Whole value
  · refine ⟨pending ++ [⟨name, value⟩], { sound with buffer := ?_, whole := ?_, free := ?_ }⟩
    · rw [setByConsole_buffer simple whole, sound.buffer, ← written_append, lines, lines,
        List.map_append]
      rfl
    · intro write member
      rcases List.mem_append.mp member with old | last
      · exact sound.whole write old
      · rw [List.mem_singleton.mp last]
        exact ⟨simple, whole⟩
    · intro other apart
      rw [settled_append, settled_apart]
      · exact sound.free other apart
      · obtain ⟨held, among, called⟩ := taken
        intro write last
        rw [List.mem_singleton.mp last]
        exact called ▸ apart held among
  · have refused : setByConsole name value state = state := by
      simp only [Whole, not_forall, Bool.not_eq_false] at whole
      obtain ⟨c, member, breaks⟩ := whole
      simp [setByConsole, ConsoleCommands.setByConsole, execute_written,
        assignment_broken member breaks, written]
    refine ⟨pending, ?_⟩
    rw [refused]
    exact sound

/-- Writes that give a convar its original value. -/
theorem settled_back {writes : List Write}
    (back : ∀ write ∈ writes, engine.store write.name write.value = original write.name)
    (convars : Text → Text) (name : Text) : settled engine writes convars name =
      if name ∈ writes.map Write.name then original name else convars name := by
  induction writes generalizing convars with
  | nil => rfl
  | cons write rest ih =>
      rw [settled, List.foldl_cons, ← settled, ih fun other member => back other (.tail _ member),
        back write List.mem_cons_self]
      by_cases here : name = write.name
      · simp [here]
      · simp [here]

/-- A snapshot that is taken while no write waits holds the original. -/
theorem snapshot_sound (sound : Sound engine original pending state) (simple : Simple name)
    (fresh : ∀ held ∈ state.saved, held.name ≠ name) (idle : ¬ Waiting name state) :
    Sound engine original pending
      { state with saved := state.saved ++ [⟨name, state.convars name⟩] } := by
  have executed : state.convars name = original name := by
    rw [← sound.free name fresh, settled_apart]
    intro write member called
    exact idle (called ▸ waiting_of_mem sound member)
  refine { sound with once := ?_, simple := ?_, kept := ?_, free := ?_ }
  · rw [List.map_append, List.nodup_append]
    refine ⟨sound.once, List.nodup_singleton _, ?_⟩
    rintro other taken last here rfl
    obtain ⟨held, among, rfl⟩ := List.mem_map.mp taken
    exact fresh held among (List.mem_singleton.mp here)
  · intro held member
    rcases List.mem_append.mp member with old | last
    · exact sound.simple held old
    · rw [List.mem_singleton.mp last]
      exact simple
  · intro held member
    rcases List.mem_append.mp member with old | last
    · exact sound.kept held old
    · rw [List.mem_singleton.mp last]
      exact executed
  · intro other apart
    exact sound.free other fun held member => apart held (List.mem_append_left _ member)

theorem set_sound (sound : Sound engine original pending state) (resolved : Bool)
    (settled : Settled state (.set name resolved value)) :
    ∃ pending, Sound engine original pending (set name resolved value state).2 := by
  obtain ⟨simple, idle⟩ := settled
  cases resolved with
  | false => exact ⟨pending, sound⟩
  | true =>
      by_cases taken : ∃ held ∈ state.saved, held.name = name
      · have known : (state.saved.any fun held => held.name = name) = true := by
          simpa using taken
        simp only [set, Bool.not_true, Bool.false_eq_true, if_false, known, if_true]
        exact write_sound sound simple taken
      · have fresh : ∀ held ∈ state.saved, held.name ≠ name :=
          fun held member same => taken ⟨held, member, same⟩
        have unknown : (state.saved.any fun held => held.name = name) = false := by
          simpa using fresh
        simp only [set, Bool.not_true, Bool.false_eq_true, if_false, unknown]
        exact write_sound (snapshot_sound sound simple fresh (idle rfl fresh)) simple
          ⟨⟨name, state.convars name⟩, by simp, rfl⟩

/-- Original values that a convar gives back as they are and the console takes. -/
structure Plausible (engine : Engine) (original : Text → Text) : Prop where
  stable : ∀ name, engine.store name (original name) = original name
  whole : ∀ name, Whole (original name)

theorem restore_sound (credible : Plausible engine original)
    (sound : Sound engine original pending state) :
    ∃ pending, Sound engine original pending (restore name state) := by
  unfold restore
  split
  · exact ⟨pending, sound⟩
  · next held found =>
      have member := List.mem_of_find?_eq_some found
      have called : held.name = name := by simpa using List.find?_some found
      have simple := sound.simple held member
      have value := sound.kept held member
      have whole : Whole held.value := value ▸ credible.whole held.name
      have gone : ∀ other ∈ state.saved.eraseP (fun held => held.name = name),
          other ∈ state.saved := fun other => List.mem_of_mem_eraseP
      refine ⟨pending ++ [⟨held.name, held.value⟩], ?_, ?_, ?_, ?_, ?_, ?_⟩
      · show (setByConsole held.name held.value state).buffer = _
        rw [setByConsole_buffer simple whole, sound.buffer, ← written_append, lines, lines,
          List.map_append]
        rfl
      · intro write inside
        rcases List.mem_append.mp inside with old | last
        · exact sound.whole write old
        · rw [List.mem_singleton.mp last]
          exact ⟨simple, whole⟩
      · exact (List.eraseP_sublist.map _).nodup sound.once
      · exact fun other inside => sound.simple other (gone other inside)
      · exact fun other inside => sound.kept other (gone other inside)
      · intro other apart
        show settled engine (pending ++ [⟨held.name, held.value⟩]) state.convars other = _
        have back : ∀ write ∈ [Write.mk held.name held.value],
            engine.store write.name write.value = original write.name := by
          intro write last
          rw [List.mem_singleton.mp last, value]
          exact credible.stable held.name
        rw [settled_append, settled_back back]
        by_cases here : other = held.name
        · simp [here]
        · rw [if_neg (by simpa using here)]
          refine sound.free other fun snapshot inside same => apart snapshot ?_ same
          refine (List.mem_eraseP_of_neg ?_).mpr inside
          rw [decide_eq_true_iff, same, ← called]
          exact here

def back (saved : List Snapshot) : List Write := saved.map fun held => ⟨held.name, held.value⟩

theorem restoreAll_buffer {saved : List Snapshot}
    (whole : ∀ held ∈ saved, Simple held.name ∧ Whole held.value) :
    saved.foldl (fun state held => setByConsole held.name held.value state) state =
      { state with buffer := state.buffer ++ written (lines (back saved)) } := by
  induction saved generalizing state with
  | nil => simp [back, lines, written]
  | cons held rest ih =>
      obtain ⟨simple, whole_⟩ := whole held List.mem_cons_self
      rw [List.foldl_cons, ih fun other member => whole other (.tail _ member),
        setByConsole_buffer simple whole_, List.append_assoc, ← written_append]
      rfl

theorem restoreAll_sound (credible : Plausible engine original)
    (sound : Sound engine original pending state) :
    Sound engine original (pending ++ back state.saved) (restoreAll state) := by
  have whole : ∀ held ∈ state.saved, Simple held.name ∧ Whole held.value := fun held member =>
    ⟨sound.simple held member, sound.kept held member ▸ credible.whole held.name⟩
  rw [restoreAll, restoreAll_buffer whole]
  refine ⟨?_, ?_, List.nodup_nil, nofun, nofun, ?_⟩
  · show state.buffer ++ _ = _
    rw [sound.buffer, ← written_append, lines, lines, lines, List.map_append]
  · intro write member
    rcases List.mem_append.mp member with old | given
    · exact sound.whole write old
    · obtain ⟨held, among, rfl⟩ := List.mem_map.mp given
      exact whole held among
  · intro name _
    show settled engine (pending ++ back state.saved) state.convars name = _
    have back_ : ∀ write ∈ back state.saved,
        engine.store write.name write.value = original write.name := by
      intro write member
      obtain ⟨held, among, rfl⟩ := List.mem_map.mp member
      show engine.store held.name held.value = _
      rw [sound.kept held among]
      exact credible.stable held.name
    rw [settled_append, settled_back back_]
    split
    · rfl
    · next apart =>
        refine sound.free name fun held member same => apart ?_
        exact List.mem_map.mpr ⟨_, List.mem_map_of_mem member, same⟩

theorem frame_sound (sound : Sound engine original pending state) :
    Sound engine original [] (frame engine state) := by
  refine { sound with buffer := rfl, whole := nofun, free := fun name apart => ?_ }
  show (frame engine state).convars name = _
  rw [frame_settles sound]
  exact sound.free name apart

theorem step_sound (credible : Plausible engine original)
    (sound : Sound engine original pending state) {label : Label} (met : Settled state label) :
    ∃ pending, Sound engine original pending (step engine state label) := by
  cases label with
  | set name resolved value => exact set_sound sound resolved met
  | restore name => exact restore_sound credible sound
  | restoreAll => exact ⟨_, restoreAll_sound credible sound⟩
  | frame => exact ⟨_, frame_sound sound⟩

theorem run_sound (credible : Plausible engine original)
    (sound : Sound engine original pending state) {labels : List Label}
    (settles : Settles engine state labels) :
    ∃ pending, Sound engine original pending (labels.foldl (step engine) state) := by
  induction labels generalizing pending state with
  | nil => exact ⟨pending, sound⟩
  | cons label rest ih =>
      obtain ⟨next, kept⟩ := step_sound credible sound settles.1
      exact ih kept settles.2

theorem start_sound (original : Text → Text) : Sound engine original [] (start original) :=
  ⟨rfl, nofun, List.nodup_nil, nofun, nofun, fun _ _ => rfl⟩

end Steps

def plainExecute (line : Text) (convars : Text → Text) : Text → Text :=
  match unquote ((line.dropWhile (· ≠ ' ')).drop 1) with
  | some (value, []) => Function.update convars (line.takeWhile (· ≠ ' ')) value
  | _ => convars

/-- An engine whose convars hold any text. -/
def plainEngine : Engine where
  store _ value := value
  execute := plainExecute
  empty _ := rfl
  assigns name value convars simple _ := by
    have front : ∀ c ∈ name, decide (c ≠ ' ') = true := fun c member => by
      simpa using (simple c member).2.2.2.1
    have read := unquote_quoted value []
    rw [List.append_nil] at read
    rw [plainExecute, assignment, List.takeWhile_append_of_pos front,
      List.dropWhile_append_of_pos front]
    simp [read]

end VoltMod.ConVarOverrides
