import VoltMod.Ledger
import VoltMod.Transition
import Mathlib.Data.List.Range

/-! Http/HttpClient.cpp: one queue, up to four workers, and the queue of
Core/Threading/GameThreadQueue.hpp back to the game thread. Every critical section of a mutex is
one step. Send, Stop and RunCompletions are the game thread's: a completion that runs may send,
and Stop waits for the workers. What a server answers is whatever it answers. -/
namespace VoltMod.HttpClient
open Transition Ledger

def maxWorkers : Nat := 4
def maxWaiting : Nat := 64

structure HttpResult where
  ok : Bool := false
  statusCode : Int := 0
  body : String := ""
  error : String := ""
  deriving DecidableEq, Repr

def tooManyWaiting : HttpResult := { error := "too many requests waiting" }

/-- The ticket tells the sends apart; only the proofs read it. -/
structure WaitingRequest (Request Completion : Type) where
  ticket : Nat
  request : Request
  onComplete : Option Completion

/-- What the callback of Complete holds; a null completion is called by nobody. -/
structure Completed (Completion : Type) where
  ticket : Nat
  onComplete : Option Completion
  result : HttpResult

/-- Core/Threading/GameThreadQueue.hpp. -/
structure GameThreadQueue (Callback : Type) where
  waiting : List Callback
  any : Bool

namespace GameThreadQueue
variable {Callback : Type}

def empty : GameThreadQueue Callback := ⟨[], false⟩

def push (callback : Callback) (queue : GameThreadQueue Callback) : GameThreadQueue Callback :=
  ⟨queue.waiting ++ [callback], true⟩

/-- What RunAll is to run, and what it leaves. -/
def swap (queue : GameThreadQueue Callback) : List Callback × GameThreadQueue Callback :=
  if queue.any then (queue.waiting, empty) else ([], queue)

/-- The flag is only there to spare an empty queue its lock. -/
theorem swap_flagged {queue : GameThreadQueue Callback}
    (flagged : queue.any = !queue.waiting.isEmpty) : queue.swap = (queue.waiting, empty) := by
  obtain ⟨waiting, any⟩ := queue
  cases waiting with
  | nil =>
      cases flagged
      rfl
  | cons first rest =>
      cases flagged
      rfl

end GameThreadQueue

/-- A worker outside Take's wait has just started or just completed a request. -/
inductive Worker (Request Completion : Type) where
  | between
  | asleep
  | performing (next : WaitingRequest Request Completion)
  | exited

/-- What the game thread is in: nothing of the client, RunAll with what is left of it, or Stop. -/
inductive Game (Completion : Type) where
  | idle
  | completing (ready : List (Completed Completion))
  | stopping

variable {Request Completion : Type}

def Worker.requests : Worker Request Completion → List (WaitingRequest Request Completion)
  | .performing next => [next]
  | .between | .asleep | .exited => []

def Worker.isAsleep : Worker Request Completion → Bool
  | .asleep => true
  | .between | .performing _ | .exited => false

def Game.ready : Game Completion → List (Completed Completion)
  | .completing ready => ready
  | .idle | .stopping => []

/-- The fields from `handed` on are history, which no step reads. -/
structure Client (Request Completion : Type) where
  waiting : List (WaitingRequest Request Completion)
  workers : List (Worker Request Completion)
  idleWorkers : Nat
  completions : GameThreadQueue (Completed Completion)
  stopped : Bool
  game : Game Completion
  handed : List (WaitingRequest Request Completion)
  accepted : List (WaitingRequest Request Completion)
  refused : List (WaitingRequest Request Completion)
  dropped : List (WaitingRequest Request Completion)
  taken : List (WaitingRequest Request Completion)
  lost : List (WaitingRequest Request Completion)
  completed : List (Completed Completion)
  ran : List (Completed Completion)

def start : Client Request Completion :=
  ⟨[], [], 0, .empty, false, .idle, [], [], [], [], [], [], [], []⟩

def complete (next : WaitingRequest Request Completion) (result : HttpResult)
    (client : Client Request Completion) : Client Request Completion :=
  { client with
    completions := client.completions.push ⟨next.ticket, next.onComplete, result⟩
    completed := client.completed ++ [⟨next.ticket, next.onComplete, result⟩] }

def send (request : Request) (onComplete : Option Completion)
    (client : Client Request Completion) : Client Request Completion :=
  let sent : WaitingRequest Request Completion := ⟨client.handed.length, request, onComplete⟩
  let client := { client with handed := client.handed ++ [sent] }
  if client.stopped then { client with dropped := client.dropped ++ [sent] }
  else if maxWaiting ≤ client.waiting.length then
    complete sent tooManyWaiting { client with refused := client.refused ++ [sent] }
  else
    { client with
      waiting := client.waiting ++ [sent]
      accepted := client.accepted ++ [sent]
      workers := client.workers ++
        if client.idleWorkers = 0 ∧ client.workers.length < maxWorkers then [.between] else [] }

/-- A look at Take's condition, on the way in or awake: what the worker then is, and what is left
to the others. A wake-up may come unasked and may come late. -/
def look (place : Nat) (client : Client Request Completion) : Client Request Completion :=
  if client.stopped then { client with workers := client.workers.set place .exited }
  else
    match client.waiting with
    | [] =>
        { client with
          workers := client.workers.set place .asleep
          idleWorkers := client.idleWorkers + 1 }
    | next :: rest =>
        { client with
          workers := client.workers.set place (.performing next)
          waiting := rest
          taken := client.taken ++ [next] }

def take (place : Nat) (client : Client Request Completion) :
    Option (Client Request Completion) :=
  match client.workers[place]? with
  | some .between => some (look place client)
  | some .asleep => some (look place { client with idleWorkers := client.idleWorkers - 1 })
  | _ => none

def finishRequest (place : Nat) (result : HttpResult) (client : Client Request Completion) :
    Option (Client Request Completion) :=
  match client.workers[place]? with
  | some (.performing next) =>
      some (complete next result { client with workers := client.workers.set place .between })
  | _ => none

def runCompletions (client : Client Request Completion) : Option (Client Request Completion) :=
  match client.game with
  | .idle =>
      let (ready, completions) := client.completions.swap
      some { client with game := .completing ready, completions }
  | _ => none

def runNext (client : Client Request Completion) : Option (Client Request Completion) :=
  match client.game with
  | .completing (next :: rest) =>
      some { client with game := .completing rest, ran := client.ran ++ [next] }
  | _ => none

def endCompletions (client : Client Request Completion) : Option (Client Request Completion) :=
  match client.game with
  | .completing [] => some { client with game := .idle }
  | _ => none

def stop (client : Client Request Completion) : Option (Client Request Completion) :=
  match client.game with
  | .idle => some { client with stopped := true, game := .stopping }
  | _ => none

/-- The end of Stop, every worker joined. -/
def joined (client : Client Request Completion) : Option (Client Request Completion) :=
  match client.game with
  | .stopping =>
      if client.workers.all fun worker => worker matches .exited then
        some { client with
          workers := []
          waiting := []
          completions := .empty
          game := .idle
          lost := client.lost ++ client.waiting }
      else none
  | _ => none

inductive Label (Request Completion : Type) where
  | send (request : Request) (onComplete : Option Completion)
  | take (worker : Nat)
  | finishRequest (worker : Nat) (result : HttpResult)
  | runCompletions
  | runNext
  | endCompletions
  | stop
  | joined

def step (client : Client Request Completion) :
    Label Request Completion → Option (Client Request Completion)
  | .send request onComplete =>
      match client.game with
      | .stopping => none
      | _ => some (send request onComplete client)
  | .take worker => take worker client
  | .finishRequest worker result => finishRequest worker result client
  | .runCompletions => runCompletions client
  | .runNext => runNext client
  | .endCompletions => endCompletions client
  | .stop => stop client
  | .joined => joined client

/-- Whose completion is owed: a send's, told apart by its ticket. -/
def WaitingRequest.owed (sent : WaitingRequest Request Completion) : Nat × Option Completion :=
  (sent.ticket, sent.onComplete)

def Completed.owed (done : Completed Completion) : Nat × Option Completion :=
  (done.ticket, done.onComplete)

def performing (client : Client Request Completion) : List (WaitingRequest Request Completion) :=
  client.workers.flatMap Worker.requests

/-- What has been accepted and not completed, what Stop dropped among it. -/
def outstanding (client : Client Request Completion) : List (WaitingRequest Request Completion) :=
  performing client ++ (client.lost ++ client.waiting)

/-- What every reachable client keeps. -/
structure Sound (client : Client Request Completion) : Prop where
  numbered : client.handed.map WaitingRequest.ticket = List.range client.handed.length
  decided : (client.accepted ++ client.refused ++ client.dropped).Perm client.handed
  balanced : Accounted ((client.accepted ++ client.refused).map WaitingRequest.owed)
    (client.completed.map Completed.owed) ((outstanding client).map WaitingRequest.owed)
  inOrder : client.taken ++ (client.lost ++ client.waiting) = client.accepted
  answered : ∀ sent ∈ client.refused,
    ⟨sent.ticket, sent.onComplete, tooManyWaiting⟩ ∈ client.completed
  running : client.stopped = false → client.lost = [] ∧
    client.completed = client.ran ++ (client.game.ready ++ client.completions.waiting)
  ran : client.ran <+: client.completed
  shut : client.stopped = true → client.game.ready = [] ∧
    (client.game = .stopping ∨ client.workers = [] ∧ client.completions.waiting = [])
  stopping : client.game = .stopping → client.stopped = true
  flagged : client.completions.any = !client.completions.waiting.isEmpty
  asleep : client.idleWorkers = client.workers.countP Worker.isAsleep
  bounded : client.waiting.length ≤ maxWaiting
  staffed : client.workers.length ≤ maxWorkers

theorem start_sound : Sound (start : Client Request Completion) := by
  constructor <;>
    simp [start, Accounted, outstanding, performing, GameThreadQueue.empty, Game.ready,
      maxWaiting, maxWorkers]

section Workers
variable {workers : List (Worker Request Completion)} {place : Nat}
  {worker : Worker Request Completion}

/-- A worker in its place among the others, whatever it becomes there. -/
theorem set_split (held : workers[place]? = some worker) :
    ∃ front back, workers = front ++ worker :: back ∧
      ∀ other, workers.set place other = front ++ other :: back := by
  obtain ⟨inside, rfl⟩ := List.getElem?_eq_some_iff.mp held
  refine ⟨workers.take place, workers.drop (place + 1), ?_, fun other => ?_⟩
  · rw [← List.drop_eq_getElem_cons inside, List.take_append_drop]
  · rw [List.set_eq_take_append_cons_drop, if_pos inside]

theorem set_requests (held : workers[place]? = some worker) :
    ∃ others, (workers.flatMap Worker.requests).Perm (worker.requests ++ others) ∧
      ∀ other, ((workers.set place other).flatMap Worker.requests).Perm
        (other.requests ++ others) := by
  obtain ⟨front, back, rfl, replaced⟩ := set_split held
  have placed : ∀ other : Worker Request Completion,
      ((front ++ other :: back).flatMap Worker.requests).Perm
        (other.requests ++ (front.flatMap Worker.requests ++ back.flatMap Worker.requests)) := by
    intro other
    rw [List.flatMap_append, List.flatMap_cons]
    exact List.perm_append_comm_assoc ..
  refine ⟨front.flatMap Worker.requests ++ back.flatMap Worker.requests, placed worker,
    fun other => ?_⟩
  rw [replaced]
  exact placed other

theorem set_countP (test : Worker Request Completion → Bool)
    (held : workers[place]? = some worker) (other : Worker Request Completion) :
    (workers.set place other).countP test + (test worker).toNat =
      workers.countP test + (test other).toNat := by
  obtain ⟨front, back, rfl, replaced⟩ := set_split held
  have counted : ∀ answer : Bool, answer.toNat = if answer = true then 1 else 0 := by decide
  rw [replaced, counted, counted]
  simp only [List.countP_append, List.countP_cons]
  omega

end Workers

section Steps
variable {before after client : Client Request Completion}

section Send
variable {sent : WaitingRequest Request Completion}

theorem numbered_next (sound : Sound client) (next : sent.ticket = client.handed.length) :
    (client.handed ++ [sent]).map WaitingRequest.ticket =
      List.range (client.handed ++ [sent]).length := by
  simp [sound.numbered, next, List.range_succ]

theorem drop_sound (sound : Sound client) (next : sent.ticket = client.handed.length) :
    Sound { client with
      handed := client.handed ++ [sent]
      dropped := client.dropped ++ [sent] } :=
  { sound with
    numbered := numbered_next sound next
    decided := by
      rw [← List.append_assoc]
      exact sound.decided.append_right _ }

theorem refuse_sound (sound : Sound client) (live : client.stopped = false)
    (next : sent.ticket = client.handed.length) :
    Sound (complete sent tooManyWaiting { client with
      handed := client.handed ++ [sent]
      refused := client.refused ++ [sent] }) := by
  obtain ⟨kept, queued⟩ := sound.running live
  refine { sound with
    numbered := numbered_next sound next
    decided := ?_
    balanced := ?_
    answered := ?_
    running := fun _ => ⟨kept, ?_⟩
    ran := sound.ran.trans (List.prefix_append _ _)
    shut := fun stopped => absurd (live.symm.trans stopped) Bool.false_ne_true
    flagged := ?_ }
  · simpa [complete] using hand_in_between sound.decided sent
  · simpa [complete, Accounted, Completed.owed, outstanding, performing, WaitingRequest.owed]
      using hand_in_between sound.balanced sent.owed
  · intro other member
    rcases List.mem_append.mp member with old | new
    · exact List.mem_append_left _ (sound.answered other old)
    · cases List.mem_singleton.mp new
      exact List.mem_append_right _ List.mem_cons_self
  · simp [complete, GameThreadQueue.push, queued]
  · simp [complete, GameThreadQueue.push]

theorem accept_sound (sound : Sound client) (live : client.stopped = false)
    (next : sent.ticket = client.handed.length) (room : client.waiting.length < maxWaiting)
    {hired : List (Worker Request Completion)} (fresh : ∀ worker ∈ hired, worker = .between)
    (places : client.workers.length + hired.length ≤ maxWorkers) :
    Sound { client with
      handed := client.handed ++ [sent]
      waiting := client.waiting ++ [sent]
      accepted := client.accepted ++ [sent]
      workers := client.workers ++ hired } := by
  obtain ⟨kept, queued⟩ := sound.running live
  have nothing : hired.flatMap Worker.requests = [] := by
    rw [List.flatMap_eq_nil_iff]
    intro worker member
    rw [fresh worker member]
    rfl
  have awake : hired.countP Worker.isAsleep = 0 := by
    rw [List.countP_eq_zero]
    intro worker member
    rw [fresh worker member]
    exact Bool.false_ne_true
  refine { sound with
    numbered := numbered_next sound next
    decided := ?_
    balanced := ?_
    inOrder := ?_
    shut := fun stopped => absurd (live.symm.trans stopped) Bool.false_ne_true
    asleep := ?_
    bounded := ?_
    staffed := ?_ }
  · simpa using hand_in_between (List.append_assoc .. ▸ sound.decided) sent
  · have owed := accounted_hand_in sound.balanced
      (List.perm_append_singleton sent.owed ((outstanding client).map WaitingRequest.owed))
    have placed := ((hand_in_between (List.Perm.refl (client.accepted ++ client.refused)) sent).map
      WaitingRequest.owed).symm
    simp only [List.map_append, List.map_cons, List.map_nil] at owed placed
    simpa [Accounted, outstanding, performing, nothing] using List.Perm.trans owed placed
  · simp [← sound.inOrder]
  · rw [List.countP_append, awake, Nat.add_zero]
    exact sound.asleep
  · simpa using Nat.succ_le_of_lt room
  · simpa using places

end Send

theorem send_sound (request : Request) (onComplete : Option Completion) (sound : Sound client) :
    Sound (send request onComplete client) := by
  simp only [send]
  split
  · exact drop_sound sound rfl
  · next live =>
      have live : client.stopped = false := by simpa using live
      split
      · exact refuse_sound sound live rfl
      · next room =>
          refine accept_sound sound live rfl (Nat.lt_of_not_le room) ?_ ?_
          · intro worker member
            split at member
            · exact List.mem_singleton.mp member
            · cases member
          · split
            · next hires => exact hires.2
            · exact sound.staffed

section Worker
variable {place : Nat} {worker : Worker Request Completion}

/-- A worker that holds no request looks for one, no longer counted as asleep. -/
theorem look_sound (sound : Sound client) (held : client.workers[place]? = some worker)
    (empty : worker.requests = []) {idleWorkers : Nat}
    (awake : idleWorkers + worker.isAsleep.toNat = client.workers.countP Worker.isAsleep) :
    Sound (look place { client with idleWorkers }) := by
  have counted := set_countP Worker.isAsleep held
  obtain ⟨others, before, after⟩ := set_requests held
  rw [empty, List.nil_append] at before
  have shut : client.stopped = true → client.game = .stopping := fun stopped =>
    (sound.shut stopped).2.resolve_right fun left => by simp [left.1] at held
  have staffed : ∀ other, (client.workers.set place other).length ≤ maxWorkers := fun other =>
    List.length_set.trans_le sound.staffed
  -- Three ways out: the client stopped, nothing waiting, and the next request taken.
  unfold look
  split
  · next stopped =>
      refine { sound with
        balanced := accounted_move sound.balanced ?_
        shut := fun _ => ⟨(sound.shut stopped).1, Or.inl (shut stopped)⟩
        asleep := ?_
        staffed := staffed _ }
      · exact (((after .exited).trans before.symm).append_right _).map _
      · exact Nat.add_right_cancel (awake.trans (counted .exited).symm)
  · next live =>
      have live : client.stopped = false := by simpa using live
      have shut : ∀ {claim : Prop}, client.stopped = true → claim := fun stopped =>
        absurd (live.symm.trans stopped) Bool.false_ne_true
      split
      · next nobody =>
          refine { sound with
            balanced := accounted_move sound.balanced ?_
            shut := shut
            asleep := ?_
            staffed := staffed _ }
          · exact (((after .asleep).trans before.symm).append_right _).map _
          · refine Nat.add_right_cancel (Eq.trans ?_ (counted .asleep).symm)
            rw [← awake, Nat.add_right_comm]
            rfl
      · next next rest queued =>
          have queued : client.waiting = next :: rest := queued
          have kept := (sound.running live).1
          refine { sound with
            balanced := accounted_move sound.balanced ?_
            inOrder := ?_
            shut := shut
            asleep := ?_
            bounded := ?_
            staffed := staffed _ }
          · apply List.Perm.map _
            have moved : (next :: others ++ rest).Perm (others ++ next :: rest) :=
              List.perm_middle.symm
            rw [outstanding, outstanding, kept, queued]
            exact ((after (.performing next)).append_right _).trans
              (moved.trans (before.symm.append_right _))
          · rw [← sound.inOrder, kept, queued]
            simp
          · exact Nat.add_right_cancel (awake.trans (counted (.performing next)).symm)
          · have bounded := sound.bounded
            rw [queued, List.length_cons] at bounded
            exact Nat.le_of_succ_le bounded

theorem take_sound (sound : Sound before) (taken : take place before = some after) :
    Sound after := by
  unfold take at taken
  split at taken
  · next held =>
      cases taken
      exact look_sound sound held rfl sound.asleep
  · next held =>
      cases taken
      have counted : 0 < before.workers.countP Worker.isAsleep :=
        List.countP_pos_iff.mpr ⟨.asleep, List.mem_of_getElem? held, rfl⟩
      apply look_sound sound held rfl
      rw [sound.asleep]
      exact Nat.sub_add_cancel counted
  · cases taken

theorem finishRequest_sound {result : HttpResult} (sound : Sound before)
    (taken : finishRequest place result before = some after) : Sound after := by
  unfold finishRequest at taken
  split at taken
  · next next held =>
      cases taken
      obtain ⟨others, whole, rest⟩ := set_requests held
      have stopping : before.stopped = true → before.game = .stopping := fun stopped =>
        (sound.shut stopped).2.resolve_right fun left => by simp [left.1] at held
      refine { sound with
        balanced := ?_
        answered := fun sent member => List.mem_append_left _ (sound.answered sent member)
        running := fun live => ⟨(sound.running live).1, ?_⟩
        ran := sound.ran.trans (List.prefix_append _ _)
        shut := fun stopped => ⟨(sound.shut stopped).1, Or.inl (stopping stopped)⟩
        flagged := ?_
        asleep := ?_
        staffed := List.length_set.trans_le sound.staffed }
      · have removed : ((outstanding before).map WaitingRequest.owed).Perm
            ([next.owed] ++ (others ++ (before.lost ++ before.waiting)).map WaitingRequest.owed) :=
          (whole.append_right _).map _
        have answer : (before.completed ++ [(⟨next.ticket, next.onComplete, result⟩ :
            Completed Completion)]).map Completed.owed = before.completed.map Completed.owed ++ [next.owed] := List.map_append
        have settled := accounted_move (accounted_settle sound.balanced removed)
          (((rest .between).append_right _).map _)
        rw [← answer] at settled
        exact settled
      · simp [complete, GameThreadQueue.push, (sound.running live).2]
      · simp [complete, GameThreadQueue.push]
      · exact sound.asleep.trans (set_countP Worker.isAsleep held .between).symm
  · cases taken

end Worker

theorem runCompletions_sound (sound : Sound before) (taken : runCompletions before = some after) :
    Sound after := by
  unfold runCompletions at taken
  split at taken
  · next idle =>
      rw [GameThreadQueue.swap_flagged sound.flagged] at taken
      cases taken
      have shut : before.stopped = true → before.workers = [] ∧ before.completions.waiting = [] :=
        fun stopped => (sound.shut stopped).2.resolve_left (by rw [idle]; exact nofun)
      refine { sound with
        running := fun live => ⟨(sound.running live).1, ?_⟩
        shut := fun stopped => ⟨(shut stopped).2, Or.inr ⟨(shut stopped).1, rfl⟩⟩
        stopping := nofun
        flagged := rfl }
      rw [(sound.running live).2, idle]
      simp [Game.ready, GameThreadQueue.empty]
  · cases taken

theorem runNext_sound (sound : Sound before) (taken : runNext before = some after) :
    Sound after := by
  unfold runNext at taken
  split at taken
  · next next rest ready =>
      cases taken
      have left : before.game.ready = next :: rest := congrArg Game.ready ready
      have live : before.stopped = false := by
        by_contra stopped
        have shut := (sound.shut (by simpa using stopped)).1
        simp [left] at shut
      have queued := (sound.running live).2
      rw [left] at queued
      refine { sound with
        running := fun _ => ⟨(sound.running live).1, ?_⟩
        ran := ⟨rest ++ before.completions.waiting, ?_⟩
        shut := fun stopped => absurd (live.symm.trans stopped) Bool.false_ne_true
        stopping := nofun }
      · simp [queued, Game.ready]
      · simp [queued]
  · cases taken

theorem endCompletions_sound (sound : Sound before) (taken : endCompletions before = some after) :
    Sound after := by
  unfold endCompletions at taken
  split at taken
  · next ended =>
      cases taken
      have shut : before.stopped = true → before.workers = [] ∧ before.completions.waiting = [] :=
        fun stopped => (sound.shut stopped).2.resolve_left (by rw [ended]; exact nofun)
      refine { sound with
        running := fun live => ⟨(sound.running live).1, ?_⟩
        shut := fun stopped => ⟨rfl, Or.inr (shut stopped)⟩
        stopping := nofun }
      rw [(sound.running live).2, ended]
      rfl
  · cases taken

theorem stop_sound (sound : Sound before) (taken : stop before = some after) : Sound after := by
  unfold stop at taken
  split at taken
  · cases taken
    exact { sound with
      running := nofun
      shut := fun _ => ⟨rfl, Or.inl rfl⟩
      stopping := fun _ => rfl }
  · cases taken

theorem joined_sound (sound : Sound before) (taken : joined before = some after) :
    Sound after := by
  unfold joined at taken
  split at taken
  · next stopping =>
      have stopped := sound.stopping stopping
      split at taken
      · next left =>
          cases taken
          have exited : ∀ worker ∈ before.workers, worker = .exited := by
            intro worker member
            have left := List.all_eq_true.mp left worker member
            cases worker with
            | exited => rfl
            | between | asleep | performing next => cases left
          have nothing : before.workers.flatMap Worker.requests = [] := by
            rw [List.flatMap_eq_nil_iff]
            intro worker member
            rw [exited worker member]
            rfl
          have awake : before.workers.countP Worker.isAsleep = 0 := by
            rw [List.countP_eq_zero]
            intro worker member
            rw [exited worker member]
            exact Bool.false_ne_true
          exact { sound with
            balanced := accounted_move sound.balanced (by simp [outstanding, nothing, performing])
            inOrder := by simpa using sound.inOrder
            running := fun live => absurd (live.symm.trans stopped) Bool.false_ne_true
            shut := fun _ => ⟨rfl, Or.inr ⟨rfl, rfl⟩⟩
            stopping := nofun
            flagged := rfl
            asleep := sound.asleep.trans awake
            bounded := Nat.zero_le _
            staffed := Nat.zero_le _ }
      · cases taken
  · cases taken

theorem step_sound : Preserves (@step Request Completion) Sound := by
  intro before label after sound taken
  cases label with
  | send request onComplete =>
      simp only [step] at taken
      split at taken
      · cases taken
      · cases taken
        exact send_sound request onComplete sound
  | take worker => exact take_sound sound taken
  | finishRequest worker result => exact finishRequest_sound sound taken
  | runCompletions => exact runCompletions_sound sound taken
  | runNext => exact runNext_sound sound taken
  | endCompletions => exact endCompletions_sound sound taken
  | stop => exact stop_sound sound taken
  | joined => exact joined_sound sound taken

end Steps

/-- What the claims of a reachable client come to, whatever was interleaved. -/
structure Kept (client : Client Request Completion) : Prop where
  sends : (client.accepted ++ client.refused ++ client.dropped).Perm client.handed
  tickets : (client.handed.map WaitingRequest.ticket).Nodup
  atMostOnce : (client.ran.map Completed.ticket).Nodup
  theirs : ∀ done ∈ client.ran, ∃ sent ∈ client.accepted ++ client.refused,
    sent.ticket = done.ticket ∧ sent.onComplete = done.onComplete
  refusedOnce : ∀ sent ∈ client.refused,
    client.completed.filter (fun done => done.ticket = sent.ticket) =
      [⟨sent.ticket, sent.onComplete, tooManyWaiting⟩]
  droppedNever : ∀ sent ∈ client.dropped, ∀ done ∈ client.completed, done.ticket ≠ sent.ticket
  inOrder : client.taken <+: client.accepted
  fewWait : client.waiting.length ≤ maxWaiting
  fewRun : (performing client).length ≤ maxWorkers

section Runs
variable {client after : Client Request Completion}

theorem tickets_distinct (sound : Sound client) :
    (client.handed.map WaitingRequest.ticket).Nodup := by
  rw [sound.numbered]
  exact List.nodup_range

theorem places_distinct (sound : Sound client) :
    ((client.accepted ++ client.refused ++ client.dropped).map WaitingRequest.ticket).Nodup :=
  (sound.decided.map _).nodup_iff.mpr (tickets_distinct sound)

theorem tickets_balanced (sound : Sound client) :
    Accounted ((client.accepted ++ client.refused).map WaitingRequest.ticket)
      (client.completed.map Completed.ticket)
      ((outstanding client).map WaitingRequest.ticket) := by
  have balanced := sound.balanced.map Prod.fst
  simpa [Accounted, Function.comp_def, Completed.owed, WaitingRequest.owed] using balanced

theorem completed_once (sound : Sound client) :
    (client.completed.map Completed.ticket).Nodup := by
  have places := places_distinct sound
  rw [List.map_append] at places
  exact (accounted_nodup (tickets_balanced sound) (List.nodup_append.mp places).1).of_append_left

theorem performing_few (sound : Sound client) : (performing client).length ≤ maxWorkers := by
  refine Nat.le_trans ?_ sound.staffed
  rw [performing]
  generalize client.workers = workers
  induction workers with
  | nil => exact Nat.le_refl 0
  | cons worker rest ih =>
      have one : worker.requests.length ≤ 1 := by cases worker <;> simp [Worker.requests]
      rw [List.flatMap_cons, List.length_append, List.length_cons]
      omega

theorem sound_kept (sound : Sound client) : Kept client where
  sends := sound.decided
  tickets := tickets_distinct sound
  atMostOnce := (completed_once sound).sublist (sound.ran.sublist.map _)
  theirs done member := by
    have owed := (accounted_mem_iff sound.balanced done.owed).mpr
      (Or.inl (List.mem_map_of_mem (sound.ran.subset member)))
    obtain ⟨sent, inside, same⟩ := List.mem_map.mp owed
    exact ⟨sent, inside, congrArg Prod.fst same, congrArg Prod.snd same⟩
  refusedOnce sent member :=
    keyed_alone Completed.ticket (completed_once sound) (sound.answered sent member)
  droppedNever sent member done inside same := by
    have owed := (accounted_mem_iff (tickets_balanced sound) done.ticket).mpr
      (Or.inl (List.mem_map_of_mem inside))
    have places := places_distinct sound
    rw [List.map_append] at places
    exact (List.nodup_append.mp places).2.2 _ owed _ (List.mem_map_of_mem member) same
  inOrder := ⟨_, sound.inOrder⟩
  fewWait := sound.bounded
  fewRun := performing_few sound

theorem send_ran (request : Request) (onComplete : Option Completion)
    (client : Client Request Completion) :
    (send request onComplete client).stopped = client.stopped ∧
      (send request onComplete client).ran = client.ran ∧
      (send request onComplete client).game = client.game := by
  simp only [send]
  split
  · exact ⟨rfl, rfl, rfl⟩
  · split
    · exact ⟨rfl, rfl, rfl⟩
    · exact ⟨rfl, rfl, rfl⟩

theorem look_ran (place : Nat) (client : Client Request Completion) :
    (look place client).stopped = client.stopped ∧ (look place client).ran = client.ran ∧
      (look place client).game = client.game := by
  unfold look
  split
  · exact ⟨rfl, rfl, rfl⟩
  · split
    · exact ⟨rfl, rfl, rfl⟩
    · exact ⟨rfl, rfl, rfl⟩

/-- A stopped client stays so; what is run and what RunAll has still to run move together. -/
theorem step_ran {label : Label Request Completion} (taken : step client label = some after) :
    (client.stopped = true → after.stopped = true) ∧
      (label = .runCompletions ∧ after.ran = client.ran ∨
        after.ran ++ after.game.ready = client.ran ++ client.game.ready) := by
  -- Only runCompletions opens a batch; every other step keeps ran and ready as one list.
  cases label with
  | send request onComplete =>
      obtain ⟨stopped, ran, game⟩ := send_ran request onComplete client
      simp only [step] at taken
      split at taken
      · cases taken
      · cases taken
        rw [stopped, ran, game]
        exact ⟨id, Or.inr rfl⟩
  | take worker =>
      simp only [step, take] at taken
      split at taken
      · cases taken
        obtain ⟨stopped, ran, game⟩ := look_ran worker client
        rw [stopped, ran, game]
        exact ⟨id, Or.inr rfl⟩
      · cases taken
        obtain ⟨stopped, ran, game⟩ :=
          look_ran worker { client with idleWorkers := client.idleWorkers - 1 }
        rw [stopped, ran, game]
        exact ⟨id, Or.inr rfl⟩
      · cases taken
  | finishRequest worker result =>
      simp only [step, finishRequest] at taken
      split at taken
      · cases taken
        exact ⟨id, Or.inr rfl⟩
      · cases taken
  | runCompletions =>
      simp only [step, runCompletions] at taken
      split at taken
      · cases taken
        exact ⟨id, Or.inl ⟨rfl, rfl⟩⟩
      · cases taken
  | runNext =>
      simp only [step, runNext] at taken
      split at taken
      · next next rest ready =>
          cases taken
          refine ⟨id, Or.inr ?_⟩
          rw [ready]
          exact List.append_assoc ..
      · cases taken
  | endCompletions =>
      simp only [step, endCompletions] at taken
      split at taken
      · next ended =>
          cases taken
          rw [ended]
          exact ⟨id, Or.inr rfl⟩
      · cases taken
  | stop =>
      simp only [step, stop] at taken
      split at taken
      · next idle =>
          cases taken
          rw [idle]
          exact ⟨fun _ => rfl, Or.inr rfl⟩
      · cases taken
  | joined =>
      simp only [step, joined] at taken
      split at taken
      · next stopping =>
          split at taken
          · cases taken
            rw [stopping]
            exact ⟨id, Or.inr rfl⟩
          · cases taken
      · cases taken

theorem runCompletions_all (sound : Sound client) (live : client.stopped = false)
    (taken : runCompletions client = some after) :
    after.ran ++ after.game.ready = client.completed := by
  unfold runCompletions at taken
  split at taken
  · next idle =>
      rw [GameThreadQueue.swap_flagged sound.flagged] at taken
      cases taken
      rw [(sound.running live).2, idle]
      rfl
  · cases taken

/-- A RunCompletions runs exactly what had been completed when it began. -/
theorem completions_run {during : List (Label Request Completion)} (sound : Sound client)
    (live : client.stopped = false) (only : ∀ label ∈ during, label ≠ .runCompletions)
    (taken : run step client (.runCompletions :: during ++ [.endCompletions]) = some after) :
    after.ran = client.completed := by
  rw [List.cons_append, run_cons_iff] at taken
  obtain ⟨begun, first, rest⟩ := taken
  obtain ⟨ended, passed, last⟩ := (run_append_iff ..).mp rest
  obtain ⟨_, last, done⟩ := (run_cons_iff ..).mp last
  cases done
  have kept := run_keeps (fun client => client.ran ++ client.game.ready)
    (fun _ _ _ apart taken => (step_ran taken).2.resolve_left fun begins => apart begins.1)
    only passed
  have all := kept.trans (runCompletions_all sound live first)
  simp only [step, endCompletions] at last
  split at last
  · next shut =>
      cases last
      simpa [shut, Game.ready] using all
  · cases last

/-- And it comes to its end. -/
theorem completions_end (sound : Sound client) (idle : client.game = .idle) :
    ∃ after, run step client (.runCompletions ::
      List.replicate client.completions.waiting.length .runNext ++ [.endCompletions]) =
        some after := by
  have begun : step client .runCompletions = some { client with
      game := .completing client.completions.waiting
      completions := .empty } := by
    simp [step, runCompletions, idle, GameThreadQueue.swap_flagged sound.flagged]
  have rest : ∀ ready (client : Client Request Completion), client.game = .completing ready →
      ∃ after, run step client (List.replicate ready.length .runNext ++ [.endCompletions]) =
        some after := by
    intro ready
    induction ready with
    | nil =>
        intro client shut
        exact ⟨{ client with game := .idle }, by simp [run, step, endCompletions, shut]⟩
    | cons next rest ih =>
        intro client shut
        obtain ⟨after, ran⟩ :=
          ih { client with game := .completing rest, ran := client.ran ++ [next] } rfl
        refine ⟨after, (run_cons_iff ..).mpr ⟨_, ?_, ran⟩⟩
        simp [step, runNext, shut]
  obtain ⟨after, ran⟩ := rest client.completions.waiting { client with
    game := .completing client.completions.waiting
    completions := .empty } rfl
  exact ⟨after, (run_cons_iff ..).mpr ⟨_, begun, ran⟩⟩

theorem stopped_ran {later : List (Label Request Completion)} (sound : Sound client)
    (stopped : client.stopped = true) (taken : run step client later = some after) :
    after.ran = client.ran := by
  have kept : Preserves step fun other : Client Request Completion =>
      Sound other ∧ other.stopped = true ∧ other.ran = client.ran := by
    rintro before label next ⟨sound, stopped, same⟩ taken
    obtain ⟨stays, moved⟩ := step_ran taken
    have soundNext := step_sound before label next sound taken
    refine ⟨soundNext, stays stopped, ?_⟩
    rcases moved with begins | together
    · exact begins.2.trans same
    · rw [(sound.shut stopped).1, (soundNext.shut (stays stopped)).1] at together
      simpa [same] using together
  exact (run_preserves kept ⟨sound, stopped, rfl⟩ taken).2.2

/-- Whatever is interleaved: a completion runs at most once, the next RunCompletions runs every
one that was completed before it and not stopped first, and none runs after Stop. -/
theorem completions_once {labels : List (Label Request Completion)}
    (reached : run step start labels = some client) :
    Kept client ∧
      (client.stopped = false → ∀ during after, (∀ label ∈ during, label ≠ .runCompletions) →
        run step client (.runCompletions :: during ++ [.endCompletions]) = some after →
        ∀ done ∈ client.completed,
          after.ran.filter (fun other => other.ticket = done.ticket) = [done]) ∧
      (client.game = .idle → ∃ after, run step client (.runCompletions ::
        List.replicate client.completions.waiting.length .runNext ++ [.endCompletions]) =
          some after) ∧
      (client.stopped = true → ∀ later after, run step client later = some after →
        after.ran = client.ran) := by
  have sound := run_preserves step_sound start_sound reached
  refine ⟨sound_kept sound, fun live during after only taken done member => ?_,
    completions_end sound, fun stopped later after taken => stopped_ran sound stopped taken⟩
  rw [completions_run sound live only taken]
  exact keyed_alone Completed.ticket (completed_once sound) member

/-- One request, sent, taken and completed. -/
theorem completions_once_answered :
    ∃ client : Client String Nat,
      run step start [.send "GET" (some 0), .take 0,
        .finishRequest 0 { ok := true, statusCode := 200 }] = some client ∧
        client.completed.map Completed.ticket = [0] ∧ Kept client := by
  have reached : run step (start : Client String Nat) [.send "GET" (some 0), .take 0,
      .finishRequest 0 { ok := true, statusCode := 200 }] = some _ := rfl
  exact ⟨_, reached, rfl, (completions_once reached).1⟩

end Runs

end VoltMod.HttpClient
