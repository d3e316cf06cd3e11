import Mathlib.Logic.Function.Basic
import VoltMod.Transition

/-! Menu/ChatInput.cpp: one capture of chat lines for each slot, taken out while its callback
runs. A callback is a frame, so it may begin and cancel captures, close the menu, lose the
slot's player and have more lines consumed before it returns. Captures are named by a
counter, a timeout in the scheduler by the capture it was started for. `cancelled`, `late`
and `expired` are history; prompts and the lines themselves are left out. -/
namespace VoltMod.ChatInput
open Transition

structure Timeout where
  capture : Nat
  slot : Int
  deriving DecidableEq, Repr

/-- A running callback, which its capture waits for outside the table. -/
structure Frame where
  slot : Int
  capture : Nat
  deriving DecidableEq, Repr

/-- `late` are the captures whose callback got a line after they were cancelled, `expired`
what each timeout was started for and what it ended. -/
structure Chat where
  pending : Int → Option Nat
  timeouts : List Timeout
  frames : List Frame
  next : Nat
  cancelled : List Nat
  late : List Nat
  expired : List (Nat × Nat)

def start : Chat := ⟨fun _ => none, [], [], 0, [], [], []⟩

def maxPlayers : Int := 64

def validSlot (slot : Int) : Bool := decide (0 ≤ slot) && decide (slot < maxPlayers)

/-- The captures of a slot whose callbacks run, the innermost first. -/
def running (slot : Int) (chat : Chat) : List Nat :=
  (chat.frames.filter fun frame => frame.slot = slot).map Frame.capture

/-- The captures of a slot that have not ended. -/
def standing (slot : Int) (chat : Chat) : List Nat :=
  (chat.pending slot).toList ++ running slot chat

def setPending (slot : Int) (capture : Option Nat) (chat : Chat) : Chat :=
  { chat with pending := Function.update chat.pending slot capture }

/-- A capture that is destroyed takes its timeout with it. -/
def destroy (capture : Nat) (chat : Chat) : Chat :=
  { chat with timeouts := chat.timeouts.filter fun timeout => timeout.capture ≠ capture }

def cancelCapture (slot : Int) (chat : Chat) : Chat :=
  if validSlot slot then
    let ended := match chat.pending slot with
      | none => chat
      | some capture => destroy capture (setPending slot none chat)
    { ended with cancelled := chat.cancelled ++ standing slot chat }
  else chat

/-- A new capture with its timeout, in the place of the one that was cancelled. -/
def install (slot : Int) (timeoutMs : Int) (chat : Chat) : Chat :=
  { setPending slot (some chat.next) chat with
    timeouts := if 0 < timeoutMs then chat.timeouts ++ [⟨chat.next, slot⟩] else chat.timeouts
    next := chat.next + 1 }

def beginCapture (slot : Int) (callback : Bool) (timeoutMs : Int) (chat : Chat) : Chat :=
  if validSlot slot && callback then install slot timeoutMs (cancelCapture slot chat) else chat

/-- TryConsume up to the call of the callback. -/
def tryConsume (slot : Int) (chat : Chat) : Bool × Chat :=
  if validSlot slot then
    match chat.pending slot with
    | none => (false, chat)
    | some capture =>
        (true, { setPending slot none chat with
          frames := ⟨slot, capture⟩ :: chat.frames
          late := if capture ∈ chat.cancelled then chat.late ++ [capture] else chat.late })
  else (false, chat)

/-- The rest of TryConsume, after the callback. -/
def returnCallback (accepted : Bool) (chat : Chat) : Option Chat :=
  match chat.frames with
  | [] => none
  | frame :: outer =>
      let left := { chat with frames := outer }
      -- Rejected input is restored unless something else is pending by now.
      if !accepted && (chat.pending frame.slot).isNone then
        some (setPending frame.slot (some frame.capture) left)
      else some (destroy frame.capture left)

/-- The scheduler runs a timeout, which then is gone. -/
def expire (capture : Nat) (chat : Chat) : Option Chat :=
  (chat.timeouts.find? fun timeout => timeout.capture = capture).map fun timeout =>
    { destroy capture (cancelCapture timeout.slot chat) with
      expired := chat.expired ++ (chat.pending timeout.slot).toList.map fun ended =>
        (capture, ended) }

inductive Label where
  | beginCapture (slot : Int) (callback : Bool) (timeoutMs : Int)
  | cancelCapture (slot : Int)
  | slotChanged (slot : Int)
  | tryConsume (slot : Int)
  | returnCallback (accepted : Bool)
  | expire (capture : Nat)
  deriving DecidableEq, Repr

def step (chat : Chat) : Label → Option Chat
  | .beginCapture slot callback timeoutMs => some (beginCapture slot callback timeoutMs chat)
  | .cancelCapture slot | .slotChanged slot => some (cancelCapture slot chat)
  | .tryConsume slot => some (tryConsume slot chat).2
  | .returnCallback accepted => returnCallback accepted chat
  | .expire capture => expire capture chat

/-- A line reaches it, or its callback runs and nothing has cancelled it. -/
def Active (chat : Chat) (slot : Int) (capture : Nat) : Prop :=
  chat.pending slot = some capture ∨
    capture ∈ standing slot chat ∧ capture ∉ chat.cancelled

structure Promised (chat : Chat) : Prop where
  single : ∀ slot first second, Active chat slot first → Active chat slot second → first = second
  late : chat.late = []
  unreached : ∀ slot capture, chat.pending slot = some capture → capture ∉ chat.cancelled
  expired : ∀ pair ∈ chat.expired, pair.1 = pair.2

/-- No callback rejects its line with nothing pending once its capture was cancelled, and
none runs into its own timeout after another capture took its place. -/
def Settled (chat : Chat) : Label → Prop
  | .returnCallback false => ∀ frame outer, chat.frames = frame :: outer →
      chat.pending frame.slot = none → frame.capture ∉ chat.cancelled
  | .expire capture => ∀ frame ∈ chat.frames, frame.capture = capture →
      chat.pending frame.slot = none
  | _ => True

/-- A capture stands in one place, every timeout's among them, and all but the latest of a
slot are cancelled. -/
structure Sound (chat : Chat) : Prop where
  fresh : ∀ slot, ∀ capture ∈ standing slot chat, capture < chat.next
  past : ∀ capture ∈ chat.cancelled, capture < chat.next
  distinct : ∀ slot, (standing slot chat).Nodup
  apart : ∀ first second capture, capture ∈ standing first chat →
    capture ∈ standing second chat → first = second
  older : ∀ slot, ∀ capture ∈ (standing slot chat).tail, capture ∈ chat.cancelled
  timeouts : ∀ timeout ∈ chat.timeouts, timeout.capture ∈ standing timeout.slot chat

theorem start_sound : Sound start := by
  constructor <;> simp [start, standing, running]

theorem standing_pending {slot : Int} {capture : Nat} {chat : Chat}
    (pending : chat.pending slot = some capture) : capture ∈ standing slot chat := by
  simp [standing, pending]

theorem running_frame {frame : Frame} {chat : Chat} (member : frame ∈ chat.frames) :
    frame.capture ∈ running frame.slot chat :=
  List.mem_map_of_mem (List.mem_filter.mpr ⟨member, decide_eq_true rfl⟩)

theorem standing_frame {frame : Frame} {chat : Chat} (member : frame ∈ chat.frames) :
    frame.capture ∈ standing frame.slot chat :=
  List.mem_append_right _ (running_frame member)

theorem sound_single {chat : Chat} (sound : Sound chat) (slot : Int) (first second : Nat)
    (one : Active chat slot first) (other : Active chat slot second) : first = second := by
  have head : ∀ capture, Active chat slot capture →
      ∃ rest, standing slot chat = capture :: rest := by
    rintro capture (pending | ⟨stands, kept⟩)
    · exact ⟨_, by simp [standing, pending]; rfl⟩
    · cases all : standing slot chat with
      | nil => simp [all] at stands
      | cons latest rest =>
          rw [all] at stands
          rcases List.mem_cons.mp stands with rfl | old
          · exact ⟨rest, rfl⟩
          · exact absurd (sound.older slot capture (by rwa [all])) kept
  obtain ⟨rest, here⟩ := head first one
  obtain ⟨others, there⟩ := head second other
  exact (List.cons_eq_cons.mp (here.symm.trans there)).1

theorem standing_same {slot : Int} {before after : Chat}
    (pending : after.pending slot = before.pending slot) (frames : after.frames = before.frames) :
    standing slot after = standing slot before := by
  rw [standing, standing, running, running, pending, frames]

theorem setPending_other {slot other : Int} (different : other ≠ slot) (capture : Option Nat)
    (chat : Chat) : (setPending slot capture chat).pending other = chat.pending other := by
  simp [setPending, different]

theorem cancelCapture_invalid {slot : Int} (invalid : ¬validSlot slot = true) (chat : Chat) :
    cancelCapture slot chat = chat := if_neg invalid

/-- What cancelling leaves: nothing pending in the slot, all else as it was, and every
capture of the slot cancelled. -/
theorem cancelCapture_cases {slot : Int} (valid : validSlot slot = true) (chat : Chat) :
    (cancelCapture slot chat).pending = Function.update chat.pending slot none ∧
      (cancelCapture slot chat).frames = chat.frames ∧
      (cancelCapture slot chat).next = chat.next ∧
      (cancelCapture slot chat).cancelled = chat.cancelled ++ standing slot chat ∧
      (cancelCapture slot chat).late = chat.late ∧
      (cancelCapture slot chat).expired = chat.expired ∧
      ∀ timeout ∈ (cancelCapture slot chat).timeouts, timeout ∈ chat.timeouts ∧
        chat.pending slot ≠ some timeout.capture := by
  unfold cancelCapture
  rw [if_pos valid]
  cases pending : chat.pending slot with
  | none =>
      refine ⟨?_, rfl, rfl, rfl, rfl, rfl, fun timeout member => ⟨member, nofun⟩⟩
      exact (Function.update_eq_self_iff.mpr pending.symm).symm
  | some capture =>
      refine ⟨rfl, rfl, rfl, rfl, rfl, rfl, fun timeout member => ?_⟩
      obtain ⟨kept, other⟩ := List.mem_filter.mp member
      refine ⟨kept, fun same => ?_⟩
      rw [Option.some.inj same] at other
      simp at other

theorem standing_cancelled {slot : Int} (valid : validSlot slot = true) (chat : Chat) :
    standing slot (cancelCapture slot chat) = running slot chat := by
  obtain ⟨pending, frames, _⟩ := cancelCapture_cases valid chat
  simp [standing, running, pending, frames]

theorem standing_cancelled_other {slot other : Int} (different : other ≠ slot) (chat : Chat) :
    standing other (cancelCapture slot chat) = standing other chat := by
  by_cases valid : validSlot slot = true
  · obtain ⟨pending, frames, _⟩ := cancelCapture_cases valid chat
    refine standing_same ?_ frames
    rw [pending, Function.update_of_ne different]
  · rw [cancelCapture_invalid valid]

theorem standing_cancelled_sublist (slot other : Int) (chat : Chat) :
    (standing other (cancelCapture slot chat)).Sublist (standing other chat) := by
  by_cases same : other = slot
  · subst same
    by_cases valid : validSlot other = true
    · rw [standing_cancelled valid]
      exact List.sublist_append_right _ _
    · exact (cancelCapture_invalid valid chat).symm ▸ List.Sublist.refl _
  · exact standing_cancelled_other same chat ▸ List.Sublist.refl _

/-- Captures may end, as long as their timeouts end with them. -/
theorem sound_shrinks {before after : Chat} (sound : Sound before)
    (part : ∀ slot, (standing slot after).Sublist (standing slot before))
    (next : after.next = before.next) (grows : before.cancelled ⊆ after.cancelled)
    (past : ∀ capture ∈ after.cancelled, capture < before.next)
    (timeouts : ∀ timeout ∈ after.timeouts, timeout.capture ∈ standing timeout.slot after) :
    Sound after := by
  refine ⟨fun slot capture stands => ?_, fun capture member => next ▸ past capture member,
    fun slot => (sound.distinct slot).sublist (part slot), ?_, ?_, timeouts⟩
  · rw [next]
    exact sound.fresh slot capture ((part slot).subset stands)
  · intro first second capture here there
    exact sound.apart first second capture ((part first).subset here) ((part second).subset there)
  · intro slot capture old
    exact grows (sound.older slot capture ((part slot).tail.subset old))

theorem timeouts_cancelled {slot : Int} {chat : Chat} (sound : Sound chat) :
    ∀ timeout ∈ (cancelCapture slot chat).timeouts,
      timeout.capture ∈ standing timeout.slot (cancelCapture slot chat) := by
  intro timeout member
  by_cases valid : validSlot slot = true
  · obtain ⟨_, _, _, _, _, _, kept⟩ := cancelCapture_cases valid chat
    obtain ⟨old, other⟩ := kept timeout member
    have stands := sound.timeouts timeout old
    by_cases same : timeout.slot = slot
    · rw [same] at stands ⊢
      rw [standing_cancelled valid]
      rcases List.mem_append.mp stands with pending | runs
      · exact absurd (Option.mem_toList.mp pending) other
      · exact runs
    · rwa [standing_cancelled_other same]
  · rw [cancelCapture_invalid valid] at member ⊢
    exact sound.timeouts timeout member

theorem cancelCapture_sound (slot : Int) {chat : Chat} (sound : Sound chat) :
    Sound (cancelCapture slot chat) := by
  by_cases valid : validSlot slot = true
  · obtain ⟨_, _, next, cancelled, _⟩ := cancelCapture_cases valid chat
    refine sound_shrinks sound (fun other => standing_cancelled_sublist slot other chat) next
      ?_ ?_ (timeouts_cancelled sound)
    · rw [cancelled]
      exact List.subset_append_left _ _
    · rw [cancelled]
      intro capture member
      rcases List.mem_append.mp member with old | stands
      · exact sound.past capture old
      · exact sound.fresh slot capture stands
  · rw [cancelCapture_invalid valid]
    exact sound

theorem cancelCapture_promised (slot : Int) {chat : Chat} (sound : Sound chat)
    (promised : Promised chat) : Promised (cancelCapture slot chat) := by
  by_cases valid : validSlot slot = true
  · obtain ⟨pending, _, _, cancelled, late, expired, _⟩ := cancelCapture_cases valid chat
    refine ⟨sound_single (cancelCapture_sound slot sound), late.trans promised.late, ?_,
      expired ▸ promised.expired⟩
    intro other capture still
    by_cases same : other = slot
    · subst same
      rw [pending, Function.update_self] at still
      cases still
    · rw [pending, Function.update_of_ne same] at still
      rw [cancelled]
      intro member
      rcases List.mem_append.mp member with old | stands
      · exact promised.unreached other capture still old
      · exact same (sound.apart other slot capture (standing_pending still) stands)
  · rw [cancelCapture_invalid valid]
    exact promised

theorem standing_installed {slot : Int} {chat : Chat} (cleared : chat.pending slot = none)
    (timeoutMs : Int) :
    standing slot (install slot timeoutMs chat) = chat.next :: standing slot chat := by
  simp [standing, running, install, setPending, cleared]

theorem standing_installed_other {slot other : Int} (different : other ≠ slot) (timeoutMs : Int)
    (chat : Chat) : standing other (install slot timeoutMs chat) = standing other chat := by
  simp [standing, running, install, setPending, different]

theorem standing_new {slot : Int} {chat : Chat} (cleared : chat.pending slot = none)
    {timeoutMs other : Int} {capture : Nat}
    (stands : capture ∈ standing other (install slot timeoutMs chat)) :
    capture ∈ standing other chat ∨ other = slot ∧ capture = chat.next := by
  by_cases here : other = slot
  · subst here
    rw [standing_installed cleared] at stands
    rcases List.mem_cons.mp stands with rfl | old
    · exact Or.inr ⟨rfl, rfl⟩
    · exact Or.inl old
  · rw [standing_installed_other here] at stands
    exact Or.inl stands

/-- A new capture stands in front of those of its slot, which are all cancelled by then. -/
theorem install_sound (slot timeoutMs : Int) {chat : Chat} (sound : Sound chat)
    (cleared : chat.pending slot = none)
    (older : ∀ capture ∈ standing slot chat, capture ∈ chat.cancelled) :
    Sound (install slot timeoutMs chat) := by
  have apart : ∀ other capture, capture ∈ standing other chat → capture ≠ chat.next :=
    fun other capture stands => Nat.ne_of_lt (sound.fresh other capture stands)
  refine ⟨fun other capture stands => ?_, fun capture member => ?_, fun other => ?_, ?_,
    fun other => ?_, fun timeout member => ?_⟩
  · rcases standing_new cleared stands with old | ⟨_, rfl⟩
    · exact Nat.lt_succ_of_lt (sound.fresh other capture old)
    · exact Nat.lt_succ_self _
  · exact Nat.lt_succ_of_lt (sound.past capture member)
  · by_cases here : other = slot
    · subst here
      rw [standing_installed cleared]
      exact List.nodup_cons.mpr ⟨fun old => apart other _ old rfl, sound.distinct other⟩
    · rw [standing_installed_other here]
      exact sound.distinct other
  · intro first second capture here there
    rcases standing_new cleared here with old | ⟨rfl, rfl⟩
    · rcases standing_new cleared there with also | ⟨_, same⟩
      · exact sound.apart first second capture old also
      · exact absurd same (apart first capture old)
    · rcases standing_new cleared there with also | ⟨rfl, _⟩
      · exact absurd rfl (apart second _ also)
      · rfl
  · by_cases here : other = slot
    · subst here
      rw [standing_installed cleared]
      exact older
    · rw [standing_installed_other here]
      exact sound.older other
  · have old : ∀ timeout ∈ chat.timeouts,
        timeout.capture ∈ standing timeout.slot (install slot timeoutMs chat) := by
      intro timeout member
      by_cases here : timeout.slot = slot
      · have stands := sound.timeouts timeout member
        rw [here] at stands ⊢
        rw [standing_installed cleared]
        exact List.mem_cons_of_mem _ stands
      · rw [standing_installed_other here]
        exact sound.timeouts timeout member
    simp only [install] at member
    split at member
    · rcases List.mem_append.mp member with before | new
      · exact old timeout before
      · obtain rfl := List.mem_singleton.mp new
        rw [standing_installed cleared]
        exact List.mem_cons_self
    · exact old timeout member

theorem install_promised {slot timeoutMs : Int} {chat : Chat} (sound : Sound chat)
    (after : Sound (install slot timeoutMs chat)) (promised : Promised chat) :
    Promised (install slot timeoutMs chat) := by
  refine ⟨sound_single after, promised.late, fun other capture pending member => ?_,
    promised.expired⟩
  by_cases here : other = slot
  · subst here
    simp only [install, setPending, Function.update_self, Option.some.injEq] at pending
    subst pending
    exact Nat.lt_irrefl _ (sound.past _ member)
  · simp only [install, setPending_other here] at pending
    exact promised.unreached other capture pending member

theorem beginCapture_law {slot : Int} {callback : Bool} {timeoutMs : Int} {chat : Chat}
    (sound : Sound chat) (promised : Promised chat) :
    Sound (beginCapture slot callback timeoutMs chat) ∧
      Promised (beginCapture slot callback timeoutMs chat) := by
  unfold beginCapture
  by_cases able : (validSlot slot && callback) = true
  · have valid := (Bool.and_eq_true_iff.mp able).1
    obtain ⟨pending, _, _, cancelled, _⟩ := cancelCapture_cases valid chat
    have cleared : (cancelCapture slot chat).pending slot = none := by
      rw [pending, Function.update_self]
    have older : ∀ capture ∈ standing slot (cancelCapture slot chat),
        capture ∈ (cancelCapture slot chat).cancelled := by
      intro capture stands
      rw [cancelled]
      exact List.mem_append_right _ ((standing_cancelled_sublist slot slot chat).subset stands)
    have before := cancelCapture_sound slot sound
    have after := install_sound slot timeoutMs before cleared older
    rw [if_pos able]
    exact ⟨after, install_promised before after (cancelCapture_promised slot sound promised)⟩
  · rw [if_neg able]
    exact ⟨sound, promised⟩

/-- Taken out or put back, a capture stands where it stood. -/
theorem sound_moves {before after : Chat} (sound : Sound before)
    (same : ∀ slot, standing slot after = standing slot before)
    (next : after.next = before.next) (cancelled : after.cancelled = before.cancelled)
    (timeouts : after.timeouts = before.timeouts) : Sound after := by
  refine sound_shrinks sound (fun slot => (same slot).symm ▸ List.Sublist.refl _) next
    (cancelled ▸ List.Subset.refl _) (cancelled ▸ sound.past) fun timeout member => ?_
  rw [same]
  exact sound.timeouts timeout (timeouts ▸ member)

theorem tryConsume_law {slot : Int} {chat : Chat} (sound : Sound chat)
    (promised : Promised chat) :
    Sound (tryConsume slot chat).2 ∧ Promised (tryConsume slot chat).2 := by
  unfold tryConsume
  split
  · cases pending : chat.pending slot with
    | none => exact ⟨sound, promised⟩
    | some capture =>
        have unreached := promised.unreached slot capture pending
        simp only [if_neg unreached]
        have moved : Sound { setPending slot none chat with
            frames := ⟨slot, capture⟩ :: chat.frames } := by
          refine sound_moves sound (fun other => ?_) rfl rfl rfl
          by_cases here : other = slot
          · subst here
            simp [standing, running, setPending, pending]
          · have apart : ¬slot = other := fun same => here same.symm
            simp [standing, running, setPending, here, apart]
        refine ⟨moved, sound_single moved, promised.late, fun other capture still => ?_,
          promised.expired⟩
        by_cases here : other = slot
        · subst here
          simp [setPending] at still
        · exact promised.unreached other capture (by simpa [setPending, here] using still)
  · exact ⟨sound, promised⟩

/-- A capture whose callback is done and that is not put back is gone, with its timeout. -/
theorem destroyed_law {frame : Frame} {outer : List Frame} {chat : Chat} (sound : Sound chat)
    (promised : Promised chat) (top : chat.frames = frame :: outer) :
    Sound (destroy frame.capture { chat with frames := outer }) ∧
      Promised (destroy frame.capture { chat with frames := outer }) := by
  have kept : ∀ slot capture, capture ∈ standing slot chat → capture ≠ frame.capture →
      capture ∈ standing slot (destroy frame.capture { chat with frames := outer }) := by
    intro slot capture stands other
    rcases List.mem_append.mp stands with pending | runs
    · exact List.mem_append_left _ pending
    · apply List.mem_append_right _
      obtain ⟨inner, member, rfl⟩ := List.mem_map.mp runs
      obtain ⟨inside, here⟩ := List.mem_filter.mp member
      rw [top] at inside
      rcases List.mem_cons.mp inside with rfl | deeper
      · exact absurd rfl other
      · exact List.mem_map_of_mem (List.mem_filter.mpr ⟨deeper, here⟩)
  have after : Sound (destroy frame.capture { chat with frames := outer }) := by
    refine sound_shrinks sound (fun slot => ?_) rfl (List.Subset.refl _) sound.past
      fun timeout member => ?_
    · refine List.Sublist.append_left (List.Sublist.map _ (List.Sublist.filter _ ?_)) _
      rw [top]
      exact List.sublist_cons_self frame outer
    · obtain ⟨old, other⟩ := List.mem_filter.mp member
      exact kept _ _ (sound.timeouts timeout old) (of_decide_eq_true other)
  exact ⟨after, sound_single after, promised.late, promised.unreached, promised.expired⟩

/-- A capture that is put back must not have been cancelled meanwhile. -/
theorem restored_law {frame : Frame} {outer : List Frame} {chat : Chat} (sound : Sound chat)
    (promised : Promised chat) (top : chat.frames = frame :: outer)
    (idle : chat.pending frame.slot = none) :
    Sound (setPending frame.slot (some frame.capture) { chat with frames := outer }) ∧
      (Promised (setPending frame.slot (some frame.capture) { chat with frames := outer }) ↔
        frame.capture ∉ chat.cancelled) := by
  have after : Sound (setPending frame.slot (some frame.capture) { chat with frames := outer }) := by
    refine sound_moves sound (fun slot => ?_) rfl rfl rfl
    by_cases here : slot = frame.slot
    · subst here
      simp [standing, running, setPending, top, idle]
    · have apart : ¬frame.slot = slot := fun same => here same.symm
      simp [standing, running, setPending, top, here, apart]
  refine ⟨after, fun kept => ?_, fun alive => ?_⟩
  · exact kept.unreached frame.slot frame.capture (by simp [setPending])
  · refine ⟨sound_single after, promised.late, fun slot capture pending => ?_, promised.expired⟩
    by_cases here : slot = frame.slot
    · subst here
      simp only [setPending, Function.update_self, Option.some.injEq] at pending
      exact pending ▸ alive
    · rw [setPending_other here] at pending
      exact promised.unreached slot capture pending

theorem returnCallback_law {accepted : Bool} {before after : Chat} (sound : Sound before)
    (promised : Promised before) (taken : returnCallback accepted before = some after) :
    Sound after ∧ (Promised after ↔ Settled before (.returnCallback accepted)) := by
  simp only [returnCallback] at taken
  split at taken
  · cases taken
  · next frame outer top =>
      split at taken
      · next restores =>
          cases taken
          obtain ⟨rejected, idle⟩ := Bool.and_eq_true_iff.mp restores
          have none_ := Option.isNone_iff_eq_none.mp idle
          obtain ⟨moved, exact_⟩ := restored_law sound promised top none_
          cases accepted with
          | true => cases rejected
          | false =>
              refine ⟨moved, exact_.trans ⟨fun alive other rest same _ => ?_, fun settled => ?_⟩⟩
              · obtain ⟨rfl, _⟩ := List.cons_eq_cons.mp (top.symm.trans same)
                exact alive
              · exact settled frame outer top none_
      · next ends =>
          cases taken
          obtain ⟨gone, kept⟩ := destroyed_law sound promised top
          refine ⟨gone, fun _ => ?_, fun _ => kept⟩
          cases accepted with
          | true => trivial
          | false =>
              intro other rest same idle
              obtain ⟨rfl, _⟩ := List.cons_eq_cons.mp (top.symm.trans same)
              simp [idle] at ends

/-- A timeout ends what is pending in its slot: its own capture, unless that one's
callback is still running. -/
theorem expire_law {capture : Nat} {before after : Chat} (sound : Sound before)
    (promised : Promised before) (taken : expire capture before = some after) :
    Sound after ∧ (Promised after ↔ Settled before (.expire capture)) := by
  obtain ⟨timeout, found, rfl⟩ := Option.map_eq_some_iff.mp taken
  have member := List.mem_of_find?_eq_some found
  have named : timeout.capture = capture := by simpa using List.find?_some found
  have stands := sound.timeouts timeout member
  subst named
  have cleared := cancelCapture_sound timeout.slot sound
  have kept := cancelCapture_promised timeout.slot sound promised
  have ended : Sound { destroy timeout.capture (cancelCapture timeout.slot before) with
      expired := before.expired ++ (before.pending timeout.slot).toList.map fun ended =>
        (timeout.capture, ended) } := by
    refine sound_shrinks cleared (fun slot => List.Sublist.refl _) rfl (List.Subset.refl _)
      cleared.past fun other inside => ?_
    exact cleared.timeouts other (List.mem_filter.mp inside).1
  refine ⟨ended, fun after frame inside same => ?_, fun settled => ?_⟩
  · -- Were something pending beside its running capture, the timeout would end that.
    cases pending : before.pending frame.slot with
    | none => rfl
    | some other =>
        have slots : frame.slot = timeout.slot :=
          sound.apart _ _ _ (standing_frame inside) (same ▸ stands)
        have pair : (timeout.capture, other) ∈ before.expired ++
            (before.pending timeout.slot).toList.map fun ended => (timeout.capture, ended) := by
          rw [← slots, pending]
          exact List.mem_append_right _ List.mem_cons_self
        have own : timeout.capture = other := after.expired _ pair
        have distinct := sound.distinct frame.slot
        rw [standing, pending] at distinct
        have runs : other ∈ running frame.slot before := own ▸ same ▸ running_frame inside
        exact absurd runs (List.nodup_cons.mp distinct).1
  · refine ⟨sound_single ended, kept.late, kept.unreached, fun pair member => ?_⟩
    rcases List.mem_append.mp member with old | new
    · exact promised.expired pair old
    · obtain ⟨ended, pending, rfl⟩ := List.mem_map.mp new
      rcases List.mem_append.mp stands with own | runs
      · exact Option.some.inj ((Option.mem_toList.mp own).symm.trans (Option.mem_toList.mp pending))
      · obtain ⟨frame, inside, same⟩ := List.mem_map.mp runs
        obtain ⟨open_, here⟩ := List.mem_filter.mp inside
        have idle := settled frame open_ same
        rw [of_decide_eq_true here] at idle
        rw [idle] at pending
        cases pending

theorem step_law (before : Chat) (label : Label) (after : Chat) (sound : Sound before)
    (promised : Promised before) (taken : step before label = some after) :
    Sound after ∧ (Promised after ↔ Settled before label) := by
  cases label with
  | beginCapture slot callback timeoutMs =>
      cases taken
      obtain ⟨kept, also⟩ := beginCapture_law sound promised
      exact ⟨kept, fun _ => trivial, fun _ => also⟩
  | cancelCapture slot =>
      cases taken
      exact ⟨cancelCapture_sound slot sound, fun _ => trivial,
        fun _ => cancelCapture_promised slot sound promised⟩
  | slotChanged slot =>
      cases taken
      exact ⟨cancelCapture_sound slot sound, fun _ => trivial,
        fun _ => cancelCapture_promised slot sound promised⟩
  | tryConsume slot =>
      cases taken
      obtain ⟨kept, also⟩ := tryConsume_law sound promised
      exact ⟨kept, fun _ => trivial, fun _ => also⟩
  | returnCallback accepted => exact returnCallback_law sound promised taken
  | expire capture => exact expire_law sound promised taken

theorem start_promised : Promised start :=
  ⟨sound_single start_sound, rfl, nofun, nofun⟩

/-- A capture that was cancelled stays out of reach throughout a run exactly when every
step of it settles. -/
theorem captures_promised_iff (labels : List Label) :
    Always step Promised start labels ↔ Guarded step Settled start labels :=
  always_iff_guarded step_law start_sound start_promised labels

/-- A callback closes the menu and rejects its line: the capture comes back, and the next
line reaches it. -/
theorem rejected_line_restores_cancelled :
    ∃ after, run step start [.beginCapture 3 true 60000, .tryConsume 3, .cancelCapture 3,
        .returnCallback false, .tryConsume 3] = some after ∧
      after.late = [0] ∧ ¬Promised after := by
  refine ⟨_, rfl, rfl, fun promised => ?_⟩
  exact absurd promised.late (by decide)

end VoltMod.ChatInput
