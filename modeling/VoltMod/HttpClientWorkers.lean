import VoltMod.HttpClient

/-! When a worker is started. Send starts one only where none is asleep in Take, and a worker that
was notified sleeps on until it has the mutex: until then it stands for every request sent. -/
namespace VoltMod.HttpClient
open Transition

variable {Request Completion : Type}

/-- At nothing: on the way into Take or in its wait. -/
def Worker.isIdle : Worker Request Completion → Bool
  | .between | .asleep => true
  | .performing _ | .exited => false

def idle (client : Client Request Completion) : Nat := client.workers.countP Worker.isIdle

/-- While the client runs, more requests wait than workers are idle only at the limit. -/
def Staffed (client : Client Request Completion) : Prop :=
  client.stopped = false → idle client < client.waiting.length →
    client.workers.length = maxWorkers

/-- A request that is accepted while a worker sleeps has an idle worker of its own, or no other
worker could be started. -/
def Attended (client : Client Request Completion) : Label Request Completion → Prop
  | .send _ _ => client.stopped = false → client.waiting.length < maxWaiting →
      0 < client.idleWorkers → client.workers.length < maxWorkers →
      client.waiting.length < idle client
  | _ => True

variable {client before after : Client Request Completion}

theorem stopped_staffed (stopped : client.stopped = true) : Staffed client :=
  fun live => absurd (live.symm.trans stopped) Bool.false_ne_true

theorem send_staffed_iff (sound : Sound client) (staffed : Staffed client) (request : Request)
    (onComplete : Option Completion) :
    Staffed (send request onComplete client) ↔ Attended client (.send request onComplete) := by
  have limit := sound.staffed
  simp only [send]
  split
  · next stopped =>
      exact iff_of_true (stopped_staffed stopped) fun live =>
        absurd (live.symm.trans stopped) Bool.false_ne_true
  · next live =>
      split
      · next full =>
          exact iff_of_true staffed fun _ room => absurd room (Nat.not_lt_of_le full)
      · next room =>
          have live : client.stopped = false := by simpa using live
          have enough := staffed live
          by_cases hires : client.idleWorkers = 0 ∧ client.workers.length < maxWorkers
          · rw [if_pos hires]
            refine iff_of_true (fun _ behind => ?_) fun _ _ some_ => ?_
            · simp only [idle, List.countP_append, List.length_append, List.length_singleton,
                List.countP_singleton, Worker.isIdle, if_true] at behind enough ⊢
              omega
            · exact absurd hires.1 (Nat.ne_of_gt some_)
          · rw [if_neg hires, List.append_nil]
            simp only [Staffed, Attended, idle, List.length_append, List.length_singleton, live,
              true_implies] at enough ⊢
            omega

theorem look_staffed {place : Nat} {worker : Worker Request Completion} {idleWorkers : Nat}
    (staffed : Staffed client) (held : client.workers[place]? = some worker)
    (free : worker.isIdle = true) : Staffed (look place { client with idleWorkers }) := by
  have counted := set_countP Worker.isIdle held
  rw [free] at counted
  unfold look
  split
  · next stopped => exact stopped_staffed stopped
  · next live =>
      have enough := staffed (by simpa using live)
      split
      · next nobody =>
          have nobody : client.waiting = [] := nobody
          intro _ behind
          have behind : _ < client.waiting.length := behind
          rw [nobody] at behind
          exact absurd behind (Nat.not_lt_zero _)
      · next next rest queued =>
          have queued : client.waiting = next :: rest := queued
          have count := counted (.performing next)
          intro _ behind
          simp only [idle, Worker.isIdle, Bool.toNat_true, Bool.toNat_false, queued,
            List.length_cons, List.length_set] at behind enough count ⊢
          exact enough (by omega)

theorem take_staffed {place : Nat} (staffed : Staffed before)
    (taken : take place before = some after) : Staffed after := by
  unfold take at taken
  split at taken
  · next held =>
      cases taken
      exact look_staffed staffed held rfl
  · next held =>
      cases taken
      exact look_staffed staffed held rfl
  · cases taken

theorem finishRequest_staffed {place : Nat} {result : HttpResult} (staffed : Staffed before)
    (taken : finishRequest place result before = some after) : Staffed after := by
  unfold finishRequest at taken
  split at taken
  · next next held =>
      cases taken
      intro live behind
      have count := set_countP Worker.isIdle held .between
      have enough := staffed live
      simp only [idle, complete, Worker.isIdle, Bool.toNat_true, Bool.toNat_false,
        List.length_set] at behind enough count ⊢
      exact enough (by omega)
  · cases taken

/-- Workers keep up with what waits in a whole run exactly when each request that was accepted had
an idle worker of its own, a new one, or no other to be started. -/
theorem staffed_iff_attended (labels : List (Label Request Completion)) :
    Always step Staffed start labels ↔ Guarded step Attended start labels := by
  refine always_iff_guarded ?_ start_sound (fun _ => nofun) labels
  intro before label after sound staffed taken
  refine ⟨step_sound before label after sound taken, ?_⟩
  cases label with
  | send request onComplete =>
      simp only [step] at taken
      split at taken
      · cases taken
      · cases taken
        exact send_staffed_iff sound staffed request onComplete
  | take worker => exact iff_of_true (take_staffed staffed taken) trivial
  | finishRequest worker result => exact iff_of_true (finishRequest_staffed staffed taken) trivial
  | runCompletions =>
      simp only [step, runCompletions] at taken
      split at taken
      · cases taken
        exact iff_of_true staffed trivial
      · cases taken
  | runNext =>
      simp only [step, runNext] at taken
      split at taken
      · cases taken
        exact iff_of_true staffed trivial
      · cases taken
  | endCompletions =>
      simp only [step, endCompletions] at taken
      split at taken
      · cases taken
        exact iff_of_true staffed trivial
      · cases taken
  | stop =>
      simp only [step, stop] at taken
      split at taken
      · cases taken
        exact iff_of_true (stopped_staffed rfl) trivial
      · cases taken
  | joined =>
      simp only [step, joined] at taken
      split at taken
      · next stopping =>
          split at taken
          · cases taken
            exact iff_of_true (stopped_staffed (sound.stopping stopping)) trivial
          · cases taken
      · cases taken

/-- One worker sleeps, two requests come before it wakes, and three more could be started. -/
theorem burst_waits :
    ¬Always step Staffed (start : Client String Nat)
      [.send "GET" none, .take 0, .finishRequest 0 { ok := true, statusCode := 200 }, .take 0,
        .send "GET" none, .send "GET" none] := by
  rintro ⟨_, always⟩
  have final := ((((((always _ rfl).2 _ rfl).2 _ rfl).2 _ rfl).2 _ rfl).2 _ rfl)
  exact absurd (final rfl (by decide)) (by decide)

end VoltMod.HttpClient
