import Mathlib.Data.List.Perm.Basic
import Mathlib.Data.List.Range
import VoltMod.Ledger
import VoltMod.Result
import VoltMod.Transition

/-! Database/Client.cpp: one worker thread and any number of callers over one
queue. Every critical section of `_queueMutex` is one step; a refused caller fails
its job outside the lock, and the worker opens the connection and runs the job
outside it, so these are steps of their own. Connect and Disconnect come from one
thread; the ping of Connect is an ordinary blocking job. Times are milliseconds of
the steady clock. A job's `fn` is its outcome, the value it returns or the text of
what it throws. Log lines and the driver are left out. -/
namespace VoltMod.DatabaseClient
open Transition Ledger

def maxQueuedJobs : Nat := 4096
def reconnectBackoff : Int := 5000

/-- Who waits for the job: the promise of Run, the `onDone` of RunAsync, or nobody. -/
inductive Delivery where
  | promise | completion | nobody
  deriving DecidableEq, Repr

structure Job where
  id : Nat
  name : String
  delivery : Delivery
  deriving DecidableEq, Repr

inductive Phase where
  | stopped | running | stopping
  deriving DecidableEq, Repr

/-- Where the worker thread stands: not started, in TakeJob, holding a job it has
not opened the connection for, inside the job's Run, or past its loop. -/
inductive Worker where
  | absent
  | waiting
  | holding (job : Job)
  | inRun (job : Job)
  | exited
  deriving DecidableEq, Repr

def Worker.job : Worker → List Job
  | .holding job | .inRun job => [job]
  | .absent | .waiting | .exited => []

variable {Value : Type}

/-- The fields from `handed` on are history, which no step reads. -/
structure Client (Value : Type) where
  phase : Phase
  queue : List Job
  now : Int
  stopDeadline : Int
  worker : Worker
  connected : Bool
  retryAt : Int
  refusing : List (Job × Error)
  completions : List (Job × Result Value)
  handed : List Job
  accepted : List Job
  refused : List (Job × Error)
  taken : List Job
  dropped : List Job
  ran : List Job
  answers : List (Job × Result Value)

def initial (now : Int) : Client Value :=
  ⟨.stopped, [], now, 0, .absent, false, 0, [], [], [], [], [], [], [], [], []⟩

/-- What MakeJob's `deliver` does: RunAsync pushes its `onDone` for the game thread. -/
def deliver (job : Job) (result : Result Value) (client : Client Value) : Client Value :=
  { client with
    answers := client.answers ++ [(job, result)]
    completions := client.completions ++
      if job.delivery = .completion then [(job, result)] else [] }

def connect (client : Client Value) : Option (Client Value) :=
  if client.phase = .stopped then some { client with phase := .running } else none

def spawnWorker (client : Client Value) : Option (Client Value) :=
  if client.phase = .running ∧ client.worker = .absent then
    some { client with worker := .waiting }
  else none

def disconnect (deadline : Int) (client : Client Value) : Option (Client Value) :=
  if client.phase = .running ∧ client.worker ≠ .absent then
    some { client with phase := .stopping, stopDeadline := client.now + deadline }
  else none

def join (client : Client Value) : Option (Client Value) :=
  if client.phase = .stopping ∧ client.worker = .exited then
    some { client with phase := .stopped, worker := .absent, completions := [] }
  else none

-- The two guards of Enqueue in the order it tests them: a stopping client with a full
-- queue is refused as not running.
def refusal (client : Client Value) : Option Error :=
  if client.phase ≠ .running then some (.notReady "database not running")
  else if maxQueuedJobs ≤ client.queue.length then some (.notReady "the job queue is full")
  else none

def enqueue (name : String) (delivery : Delivery) (client : Client Value) : Client Value :=
  let job : Job := ⟨client.handed.length, name, delivery⟩
  match refusal client with
  | some error =>
      { client with
        handed := client.handed ++ [job]
        refused := client.refused ++ [(job, error)]
        refusing := client.refusing ++ [(job, error)] }
  | none =>
      { client with
        handed := client.handed ++ [job]
        accepted := client.accepted ++ [job]
        queue := client.queue ++ [job] }

/-- The end of a refused Enqueue, on whichever caller's thread comes to it. -/
def failRefused (caller : Nat) (client : Client Value) : Option (Client Value) :=
  match client.refusing[caller]? with
  | none => none
  | some (job, error) =>
      some (deliver job (.error error)
        { client with refusing := client.refusing.eraseIdx caller })

-- TakeJob looks at the deadline again on every pass, so a Disconnect whose time runs out
-- in the middle of the queue drops only what is left.
def pastDeadline (client : Client Value) : Bool :=
  client.phase = .stopping ∧ client.stopDeadline ≤ client.now

def failQueued : List Job → Client Value → Client Value
  | [], client => client
  | job :: rest, client => failQueued rest (deliver job (.error (.notReady "shutdown")) client)

def dropQueued (client : Client Value) : Client Value :=
  { failQueued client.queue client with
    queue := []
    dropped := client.dropped ++ client.queue }

def dropConnection (client : Client Value) : Client Value :=
  { client with connected := false }

def popFront (client : Client Value) : Client Value :=
  match client.queue with
  | [] => { dropConnection client with worker := .exited }
  | job :: rest =>
      { client with
        queue := rest
        worker := .holding job
        taken := client.taken ++ [job] }

def takeJob (client : Client Value) : Option (Client Value) :=
  if client.worker = .waiting ∧ (client.queue ≠ [] ∨ client.phase = .stopping) then
    some (popFront (if pastDeadline client then dropQueued client else client))
  else none

/-- `reached` is whether OpenConnection succeeds, should it be tried. -/
def ensureOpen (reached : Bool) (client : Client Value) : Bool × Client Value :=
  if client.connected then (true, client)
  -- The backoff: no attempt is made and `retryAt` stays where the last failure put it.
  else if client.now < client.retryAt then (false, client)
  else if reached then (true, { client with connected := true })
  else (false, { dropConnection client with retryAt := client.now + reconnectBackoff })

def startJob (reached : Bool) (client : Client Value) : Option (Client Value) :=
  match client.worker with
  | .holding job =>
      match ensureOpen reached client with
      | (true, opened) => some { opened with worker := .inRun job, ran := opened.ran ++ [job] }
      | (false, closed) =>
          some (deliver job (.error (.notReady "no database connection"))
            { closed with worker := .waiting })
  | _ => none

def finishJob (outcome : Except String Value) (client : Client Value) : Option (Client Value) :=
  match client.worker with
  | .inRun job =>
      match outcome with
      | .ok value => some (deliver job (.ok value) { client with worker := .waiting })
      | .error what =>
          some (deliver job (.error (.failed what))
            -- A job that throws may have left the connection broken, so it is dropped here.
            { dropConnection client with worker := .waiting })
  | _ => none

inductive Label (Value : Type) where
  | connect
  | spawnWorker
  | disconnect (deadline : Int)
  | join
  | enqueue (name : String) (delivery : Delivery)
  | failRefused (caller : Nat)
  | takeJob
  | startJob (reached : Bool)
  | finishJob (outcome : Except String Value)
  | dispatchCompletions
  | tick (elapsed : Nat)

def step (client : Client Value) : Label Value → Option (Client Value)
  | .connect => connect client
  | .spawnWorker => spawnWorker client
  | .disconnect deadline => disconnect deadline client
  | .join => join client
  | .enqueue name delivery => some (enqueue name delivery client)
  | .failRefused caller => failRefused caller client
  | .takeJob => takeJob client
  | .startJob reached => startJob reached client
  | .finishJob outcome => finishJob outcome client
  | .dispatchCompletions => some { client with completions := [] }
  | .tick elapsed => some { client with now := client.now + elapsed }

/-- The jobs not answered yet: in a refused caller's hands, in the worker's, or queued. -/
def outstanding (client : Client Value) : List Job :=
  client.refusing.map Prod.fst ++ (client.worker.job ++ client.queue)

def answered (client : Client Value) : List Job := client.answers.map Prod.fst

@[simp] theorem failQueued_eq (jobs : List Job) (client : Client Value) :
    failQueued jobs client = { client with
      answers := client.answers ++ jobs.map fun job => (job, .error (.notReady "shutdown"))
      completions := client.completions ++
        (jobs.filter fun job => job.delivery = .completion).map
          fun job => (job, .error (.notReady "shutdown")) } := by
  induction jobs generalizing client with
  | nil => simp [failQueued]
  | cons job rest ih =>
      rw [failQueued, ih]
      by_cases called : job.delivery = .completion <;> simp [deliver, called]

theorem ensureOpen_cases (reached : Bool) (client : Client Value) :
    ensureOpen reached client = (true, { client with connected := true }) ∨
      ∃ retryAt, ensureOpen reached client =
        (false, { client with connected := false, retryAt := retryAt }) := by
  unfold ensureOpen
  split
  · next open_ =>
      left
      rw [← open_]
  · next closed =>
      have down : client.connected = false := by simpa using closed
      split
      · exact Or.inr ⟨client.retryAt, by rw [← down]⟩
      · split
        · exact Or.inl rfl
        · exact Or.inr ⟨_, rfl⟩

theorem failRefused_cases {caller : Nat} {before after : Client Value}
    (taken : failRefused caller before = some after) :
    ∃ job error, before.refusing[caller]? = some (job, error) ∧
      after = deliver job (.error error)
        { before with refusing := before.refusing.eraseIdx caller } := by
  unfold failRefused at taken
  split at taken
  · cases taken
  · next job error found => exact ⟨job, error, found, (Option.some.inj taken).symm⟩

theorem takeJob_cases {before after : Client Value} (taken : takeJob before = some after) :
    before.worker = .waiting ∧ (before.queue ≠ [] ∨ before.phase = .stopping) ∧
      ((before.phase = .stopping ∧ after = { dropQueued before with
          connected := false
          worker := .exited }) ∨
        (before.queue = [] ∧ before.phase = .stopping ∧
          after = { before with connected := false, worker := .exited }) ∨
        ∃ job rest, before.queue = job :: rest ∧ after = { before with
          queue := rest
          worker := .holding job
          taken := before.taken ++ [job] }) := by
  unfold takeJob at taken
  split at taken
  · next enabled =>
      refine ⟨enabled.1, enabled.2, ?_⟩
      cases taken
      -- Past the deadline the queue is failed first, and the pop then always ends the worker.
      by_cases late : pastDeadline before = true
      · left
        simp only [pastDeadline, decide_eq_true_eq] at late
        exact ⟨late.1, by simp [popFront, pastDeadline, late, dropQueued, dropConnection]⟩
      · right
        simp only [late, Bool.false_eq_true, if_false]
        cases queued : before.queue with
        | nil =>
            left
            exact ⟨rfl, enabled.2.resolve_left (by simp [queued]),
              by simp [popFront, queued, dropConnection]⟩
        | cons job rest =>
            right
            exact ⟨job, rest, rfl, by simp [popFront, queued]⟩
  · cases taken

theorem startJob_cases {reached : Bool} {before after : Client Value}
    (taken : startJob reached before = some after) :
    ∃ job, before.worker = .holding job ∧
      (after = { before with
          connected := true
          worker := .inRun job
          ran := before.ran ++ [job] } ∨
        ∃ retryAt, after = deliver job (.error (.notReady "no database connection"))
          { before with connected := false, retryAt := retryAt, worker := .waiting }) := by
  unfold startJob at taken
  split at taken
  · next job held =>
      refine ⟨job, held, ?_⟩
      rcases ensureOpen_cases reached before with opened | ⟨retryAt, closed⟩
      · left
        simpa [opened] using taken.symm
      · right
        exact ⟨retryAt, by simpa [closed] using taken.symm⟩
  · cases taken

theorem finishJob_cases {outcome : Except String Value} {before after : Client Value}
    (taken : finishJob outcome before = some after) :
    ∃ job, before.worker = .inRun job ∧
      ((∃ value, after = deliver job (.ok value) { before with worker := .waiting }) ∨
        ∃ what, after = deliver job (.error (.failed what))
          { before with connected := false, worker := .waiting }) := by
  unfold finishJob at taken
  split at taken
  · next job running =>
      refine ⟨job, running, ?_⟩
      cases outcome with
      | ok value => exact Or.inl ⟨value, (Option.some.inj taken).symm⟩
      | error what => exact Or.inr ⟨what, (Option.some.inj taken).symm⟩
  · cases taken

theorem enqueue_cases (name : String) (delivery : Delivery) (client : Client Value) :
    (∃ error, refusal client = some error ∧ enqueue name delivery client = { client with
        handed := client.handed ++ [⟨client.handed.length, name, delivery⟩]
        refused := client.refused ++ [(⟨client.handed.length, name, delivery⟩, error)]
        refusing := client.refusing ++ [(⟨client.handed.length, name, delivery⟩, error)] }) ∨
      (client.phase = .running ∧ client.queue.length < maxQueuedJobs ∧
        enqueue name delivery client = { client with
          handed := client.handed ++ [⟨client.handed.length, name, delivery⟩]
          accepted := client.accepted ++ [⟨client.handed.length, name, delivery⟩]
          queue := client.queue ++ [⟨client.handed.length, name, delivery⟩] }) := by
  cases decided : refusal client with
  | some error =>
      left
      exact ⟨error, rfl, by simp [enqueue, decided]⟩
  | none =>
      right
      unfold refusal at decided
      split at decided
      · cases decided
      · next running =>
          split at decided
          · cases decided
          · next room =>
              refine ⟨not_not.mp running, Nat.lt_of_not_le room, ?_⟩
              simp [enqueue, refusal, running, room]

/-- What every reachable client keeps: who holds each job, in which order they left
the queue, and which phases go with which place of the worker. -/
structure Sound (client : Client Value) : Prop where
  numbered : client.handed.map Job.id = List.range client.handed.length
  balanced : Accounted client.handed (answered client) (outstanding client)
  decided : Accounted client.handed client.accepted (client.refused.map Prod.fst)
  ordered : (client.taken ++ client.queue).Sublist client.accepted
  emptied : (client.taken ++ (client.dropped ++ client.queue)).Perm client.accepted
  held : ∀ job, client.worker = .holding job →
    ∃ earlier, client.taken = earlier ++ [job] ∧ client.ran.Sublist earlier
  running : ∀ job, client.worker = .inRun job → job ∈ client.ran
  run : client.ran.Sublist client.taken
  failed : ∀ entry ∈ client.refused,
    entry ∈ client.refusing ∨ (entry.1, .error entry.2) ∈ client.answers
  abandoned : ∀ job ∈ client.dropped,
    (job, .error (.notReady "shutdown")) ∈ client.answers
  valued : ∀ job value, (job, .ok value) ∈ client.answers → job ∈ client.ran
  bounded : client.queue.length ≤ maxQueuedJobs
  stopped : client.phase = .stopped → client.worker = .absent ∧ client.queue = []
  stopping : client.phase = .stopping → client.worker ≠ .absent
  exited : client.worker = .exited → client.phase = .stopping ∧ client.queue = []

theorem initial_sound (now : Int) : Sound (initial now : Client Value) := by
  constructor <;> simp [initial, Accounted, answered, outstanding, Worker.job, maxQueuedJobs]

theorem enqueue_sound (name : String) (delivery : Delivery) {client : Client Value}
    (sound : Sound client) : Sound (enqueue name delivery client) := by
  have counted : (client.handed ++ [(⟨client.handed.length, name, delivery⟩ : Job)]).map Job.id =
      List.range (client.handed ++ [(⟨client.handed.length, name, delivery⟩ : Job)]).length := by
    simp [sound.numbered, List.range_succ]
  rcases enqueue_cases name delivery client with ⟨error, refused, same⟩ | ⟨live, room, same⟩
  · rw [same]
    refine { sound with
      numbered := counted
      balanced := accounted_hand_in sound.balanced ?_
      decided := accounted_hand_in sound.decided ?_
      failed := ?_ }
    · simp [outstanding, List.perm_middle]
    · simp
    · intro entry member
      rcases List.mem_append.mp member with old | new
      · exact (sound.failed entry old).imp_left (List.mem_append_left _)
      · exact Or.inl (List.mem_append_right _ new)
  · rw [same]
    refine { sound with
      numbered := counted
      balanced := accounted_hand_in sound.balanced ?_
      decided := accounted_settle (accounted_hand_in sound.decided (.refl _)) (.refl _)
      ordered := ?_
      emptied := ?_
      bounded := ?_
      stopped := ?_
      exited := ?_ }
    · simpa [outstanding] using List.perm_append_singleton _ (outstanding client)
    · simpa using sound.ordered.append_right _
    · simpa using sound.emptied.append_right _
    · simpa using Nat.succ_le_of_lt room
    · intro stopped
      simp [live] at stopped
    · intro exited
      have closing := (sound.exited exited).1
      simp [live] at closing

@[simp] theorem deliver_outstanding (job : Job) (result : Result Value)
    (client : Client Value) : outstanding (deliver job result client) = outstanding client := rfl

@[simp] theorem deliver_answered (job : Job) (result : Result Value) (client : Client Value) :
    answered (deliver job result client) = answered client ++ [job] := by
  simp [answered, deliver]

theorem failRefused_sound {caller : Nat} {before after : Client Value} (sound : Sound before)
    (taken : failRefused caller before = some after) : Sound after := by
  obtain ⟨job, error, found, rfl⟩ := failRefused_cases taken
  obtain ⟨inside, same⟩ := List.getElem?_eq_some_iff.mp found
  have removed := (List.getElem_cons_eraseIdx_perm inside).symm
  rw [same] at removed
  refine { sound with
    balanced := ?_
    failed := ?_
    abandoned := ?_
    valued := ?_ }
  · rw [deliver_answered, deliver_outstanding]
    exact accounted_settle sound.balanced ((removed.map Prod.fst).append_right _)
  · intro entry member
    rcases sound.failed entry member with waiting | told
    · rcases List.mem_cons.mp (removed.mem_iff.mp waiting) with rfl | other
      · exact Or.inr (by simp [deliver])
      · exact Or.inl other
    · exact Or.inr (by simp [deliver, told])
  · intro dropped member
    simp [deliver, sound.abandoned dropped member]
  · intro other value member
    simp [deliver] at member
    exact sound.valued other value member

theorem takeJob_sound {before after : Client Value} (sound : Sound before)
    (taken : takeJob before = some after) : Sound after := by
  obtain ⟨waiting, _, ⟨late, rfl⟩ | ⟨empty, closing, rfl⟩ | ⟨job, rest, queued, rfl⟩⟩ :=
    takeJob_cases taken
  · simp only [dropQueued, failQueued_eq]
    refine { sound with
      balanced := ?_
      ordered := ?_
      emptied := ?_
      held := by simp
      running := by simp
      failed := ?_
      abandoned := ?_
      valued := ?_
      bounded := Nat.zero_le _
      stopped := by simp [late]
      stopping := by simp
      exited := fun _ => ⟨late, rfl⟩ }
    -- The worker holds no job in TakeJob, so all that leaves is the queue.
    · have removed : (outstanding before).Perm
          (before.queue ++ before.refusing.map Prod.fst) := by
        simpa [outstanding, waiting, Worker.job] using List.perm_append_comm
      have settled := accounted_settle sound.balanced removed
      simpa [answered, outstanding, Worker.job, Function.comp_def] using settled
    · simpa using (List.sublist_append_left _ _).trans sound.ordered
    · simpa using sound.emptied
    · intro entry member
      exact (sound.failed entry member).imp_right (List.mem_append_left _)
    · intro job member
      rcases List.mem_append.mp member with old | new
      · exact List.mem_append_left _ (sound.abandoned job old)
      · exact List.mem_append_right _ (List.mem_map_of_mem new)
    · intro job value member
      simp at member
      exact sound.valued job value member
  · exact { sound with
      balanced := accounted_move sound.balanced (by simp [outstanding, waiting, Worker.job])
      held := by simp
      running := by simp
      stopped := by simp [closing]
      stopping := by simp
      exited := fun _ => ⟨closing, empty⟩ }
  · refine { sound with
      balanced := accounted_move sound.balanced
        (by simp [outstanding, waiting, queued, Worker.job])
      ordered := by simpa [queued] using sound.ordered
      emptied := ?_
      held := ?_
      running := by simp
      run := sound.run.trans (List.sublist_append_left _ _)
      bounded := ?_
      stopped := ?_
      stopping := by simp
      exited := by simp }
    · have moved := sound.emptied
      rw [queued] at moved
      refine List.Perm.trans ?_ moved
      simpa using (List.perm_middle.symm.append_left before.taken)
    · intro current same
      cases same
      exact ⟨before.taken, rfl, sound.run⟩
    · have bounded := sound.bounded
      rw [queued, List.length_cons] at bounded
      exact Nat.le_of_succ_le bounded
    · intro stopped
      have empty := (sound.stopped stopped).2
      simp [queued] at empty

-- Both ways out of a job's hands, an answer without a connection and the end of Run, leave
-- the worker waiting and answer exactly the job it held.
theorem answer_sound {before : Client Value} {job : Job} {result : Result Value}
    (sound : Sound before) (busy : before.worker.job = [job])
    (carried : ∀ value, result = .ok value → job ∈ before.ran) (connected : Bool)
    (retryAt : Int) : Sound (deliver job result
      { before with connected := connected, retryAt := retryAt, worker := .waiting }) := by
  have phases : before.phase ≠ .stopped := by
    intro stopped
    simp [(sound.stopped stopped).1, Worker.job] at busy
  refine { sound with
    balanced := ?_
    held := by simp [deliver]
    running := by simp [deliver]
    failed := fun entry member =>
      (sound.failed entry member).imp_right (List.mem_append_left _)
    abandoned := fun dropped member => List.mem_append_left _ (sound.abandoned dropped member)
    valued := ?_
    stopped := fun stopped => absurd stopped phases
    stopping := by simp [deliver]
    exited := by simp [deliver] }
  · rw [deliver_answered, deliver_outstanding]
    have held : outstanding before = before.refusing.map Prod.fst ++ job :: before.queue := by
      rw [outstanding, busy, List.singleton_append]
    apply accounted_settle sound.balanced
    rw [held]
    simp [outstanding, Worker.job, List.perm_middle]
  · intro other value member
    rcases List.mem_append.mp member with old | new
    · exact sound.valued other value old
    · simp only [List.mem_singleton, Prod.mk.injEq] at new
      rw [new.1]
      exact carried value new.2.symm

theorem startJob_sound {reached : Bool} {before after : Client Value} (sound : Sound before)
    (taken : startJob reached before = some after) : Sound after := by
  obtain ⟨job, holding, rfl | ⟨retryAt, rfl⟩⟩ := startJob_cases taken
  · obtain ⟨earlier, last, ran⟩ := sound.held job holding
    refine { sound with
      balanced := accounted_move sound.balanced (by simp [outstanding, holding, Worker.job])
      held := by simp
      running := by simp
      run := ?_
      valued := fun other value member => List.mem_append_left _ (sound.valued other value member)
      stopped := ?_
      stopping := by simp
      exited := by simp }
    · simpa [last] using ran.append_right [job]
    · intro stopped
      have absent := (sound.stopped stopped).1
      simp [holding] at absent
  · exact answer_sound sound (by simp [holding, Worker.job]) (by simp) false retryAt

theorem finishJob_sound {outcome : Except String Value} {before after : Client Value}
    (sound : Sound before) (taken : finishJob outcome before = some after) : Sound after := by
  obtain ⟨job, running, ⟨value, rfl⟩ | ⟨what, rfl⟩⟩ := finishJob_cases taken
  · exact answer_sound sound (by simp [running, Worker.job])
      (fun _ _ => sound.running job running) before.connected before.retryAt
  · exact answer_sound sound (by simp [running, Worker.job]) (by simp) false before.retryAt

theorem step_sound : Preserves (@step Value) Sound := by
  intro before label after sound taken
  -- Jobs move from the queue over the worker to the completions; no step makes or loses one.
  cases label with
  | connect =>
      simp only [step, connect, Option.ite_none_right_eq_some, Option.some.injEq] at taken
      obtain ⟨stopped, rfl⟩ := taken
      obtain ⟨absent, empty⟩ := sound.stopped stopped
      exact { sound with
        stopped := by simp
        stopping := by simp
        exited := by simp [absent] }
  | spawnWorker =>
      simp only [step, spawnWorker, Option.ite_none_right_eq_some, Option.some.injEq] at taken
      obtain ⟨⟨running, absent⟩, rfl⟩ := taken
      exact { sound with
        balanced := accounted_move sound.balanced (by simp [outstanding, absent, Worker.job])
        held := by simp
        running := by simp
        stopped := by simp [running]
        stopping := by simp
        exited := by simp }
  | disconnect deadline =>
      simp only [step, disconnect, Option.ite_none_right_eq_some, Option.some.injEq] at taken
      obtain ⟨⟨running, present⟩, rfl⟩ := taken
      exact { sound with
        stopped := by simp
        stopping := fun _ => present
        exited := fun left => ⟨rfl, (sound.exited left).2⟩ }
  | join =>
      simp only [step, join, Option.ite_none_right_eq_some, Option.some.injEq] at taken
      obtain ⟨⟨stopping, left⟩, rfl⟩ := taken
      exact { sound with
        balanced := accounted_move sound.balanced (by simp [outstanding, left, Worker.job])
        held := by simp
        running := by simp
        stopped := fun _ => ⟨rfl, (sound.exited left).2⟩
        stopping := by simp
        exited := by simp }
  | enqueue name delivery =>
      cases taken
      exact enqueue_sound name delivery sound
  | failRefused caller => exact failRefused_sound sound taken
  | takeJob => exact takeJob_sound sound taken
  | startJob reached => exact startJob_sound sound taken
  | finishJob outcome => exact finishJob_sound sound taken
  | dispatchCompletions =>
      cases taken
      exact { sound with }
  | tick elapsed =>
      cases taken
      exact { sound with }

/-- The steps the worker and the refused callers take by themselves; no new call
is made in them. -/
def Label.Working : Label Value → Prop
  | .spawnWorker | .failRefused _ | .takeJob | .startJob _ | .finishJob _ => True
  | .connect | .disconnect _ | .join | .enqueue _ _ | .dispatchCompletions | .tick _ => False

-- Weights for the progress measure. A queued job weighs three: taken, started, answered.
def Worker.work : Worker → Nat
  | .exited => 0
  | .waiting => 1
  | .absent => 2
  | .inRun _ => 2
  | .holding _ => 3

def work (client : Client Value) : Nat :=
  client.refusing.length + 3 * client.queue.length + client.worker.work

theorem working_step_decreases {before after : Client Value} {label : Label Value}
    (working : label.Working) (taken : step before label = some after) :
    work after < work before := by
  cases label with
  | spawnWorker =>
      simp only [step, spawnWorker, Option.ite_none_right_eq_some, Option.some.injEq] at taken
      obtain ⟨⟨_, absent⟩, rfl⟩ := taken
      simp [work, absent, Worker.work]
  | failRefused caller =>
      obtain ⟨job, error, found, rfl⟩ := failRefused_cases taken
      obtain ⟨inside, _⟩ := List.getElem?_eq_some_iff.mp found
      simp only [work, deliver, List.length_eraseIdx_of_lt inside]
      omega
  | takeJob =>
      obtain ⟨waiting, _, ⟨_, rfl⟩ | ⟨empty, _, rfl⟩ | ⟨job, rest, queued, rfl⟩⟩ :=
        takeJob_cases taken
      · simp only [work, waiting, Worker.work, dropQueued, failQueued_eq, List.length_nil]
        omega
      · simp [work, waiting, Worker.work]
      · simp [work, waiting, queued, Worker.work]
        omega
  | startJob reached =>
      obtain ⟨job, holding, rfl | ⟨retryAt, rfl⟩⟩ := startJob_cases taken
      · simp [work, holding, Worker.work]
      · simp [work, holding, Worker.work, deliver]
  | finishJob outcome =>
      obtain ⟨job, running, ⟨value, rfl⟩ | ⟨what, rfl⟩⟩ := finishJob_cases taken
      · simp [work, running, Worker.work, deliver]
      · simp [work, running, Worker.work, deliver]
  | connect => exact working.elim
  | disconnect deadline => exact working.elim
  | join => exact working.elim
  | enqueue name delivery => exact working.elim
  | dispatchCompletions => exact working.elim
  | tick elapsed => exact working.elim

theorem working_step_hands_nothing {before after : Client Value} {label : Label Value}
    (working : label.Working) (taken : step before label = some after) :
    after.handed = before.handed := by
  cases label with
  | spawnWorker =>
      simp only [step, spawnWorker, Option.ite_none_right_eq_some, Option.some.injEq] at taken
      rw [← taken.2]
  | failRefused caller =>
      obtain ⟨job, error, _, rfl⟩ := failRefused_cases taken
      rfl
  | takeJob =>
      obtain ⟨_, _, ⟨_, rfl⟩ | ⟨_, _, rfl⟩ | ⟨job, rest, _, rfl⟩⟩ := takeJob_cases taken
      · simp [dropQueued]
      · rfl
      · rfl
  | startJob reached =>
      obtain ⟨job, _, rfl | ⟨retryAt, rfl⟩⟩ := startJob_cases taken
      · rfl
      · rfl
  | finishJob outcome =>
      obtain ⟨job, _, ⟨value, rfl⟩ | ⟨what, rfl⟩⟩ := finishJob_cases taken
      · rfl
      · rfl
  | connect => exact working.elim
  | disconnect deadline => exact working.elim
  | join => exact working.elim
  | enqueue name delivery => exact working.elim
  | dispatchCompletions => exact working.elim
  | tick elapsed => exact working.elim

def Quiet (client : Client Value) : Prop :=
  ∀ label, label.Working → step client label = none

/-- Where no such step is left, nobody holds a job any more. -/
theorem quiet_outstanding {client : Client Value} (sound : Sound client)
    (quiet : Quiet client) : outstanding client = [] := by
  have noRefusal : client.refusing = [] := by
    have blocked := quiet (.failRefused 0) trivial
    cases refusing : client.refusing with
    | nil => rfl
    | cons entry rest => simp [step, failRefused, refusing] at blocked
  -- The worker's place decides which of its own steps would still be possible.
  have blocked := quiet .takeJob trivial
  cases worker : client.worker with
  | absent =>
      have idle : client.phase ≠ .running := by
        intro running
        have unspawned := quiet .spawnWorker trivial
        simp [step, spawnWorker, running, worker] at unspawned
      have empty : client.queue = [] := by
        cases phase : client.phase with
        | stopped => exact (sound.stopped phase).2
        | running => exact absurd phase idle
        | stopping => exact absurd worker (sound.stopping phase)
      simp [outstanding, noRefusal, worker, empty, Worker.job]
  | waiting =>
      have empty : client.queue = [] := by
        simp [step, takeJob, worker] at blocked
        exact blocked.1
      simp [outstanding, noRefusal, worker, empty, Worker.job]
  | holding job =>
      have unopened := quiet (.startJob false) trivial
      simp only [step, startJob, worker] at unopened
      split at unopened
      · cases unopened
      · cases unopened
  | inRun job =>
      have unfinished := quiet (.finishJob (.error "")) trivial
      simp [step, finishJob, worker] at unfinished
  | exited => simp [outstanding, noRefusal, worker, (sound.exited worker).2, Worker.job]

/-- What the callers of the client may rely on. -/
structure Answers (client : Client Value) : Prop where
  distinct : client.handed.Nodup
  once : ∀ job ∈ client.handed,
    (answered client).count job = if job ∈ outstanding client then 0 else 1
  only : ∀ job ∈ answered client, job ∈ client.handed
  inOrder : (client.taken ++ client.queue).Sublist client.accepted
  runTaken : client.ran.Sublist client.taken
  valued : ∀ job value, (job, .ok value) ∈ client.answers → job ∈ client.ran
  refused : ∀ entry ∈ client.refused, entry.1 ∉ client.accepted ∧ entry.1 ∉ client.ran ∧
    (entry ∈ client.refusing ∨ (entry.1, .error entry.2) ∈ client.answers)
  stopped : client.phase = .stopped → client.queue = [] ∧
    ∀ job ∈ client.handed, job ∉ answered client → job ∈ client.refusing.map Prod.fst
  answering : ∀ labels after, (∀ label ∈ labels, label.Working) →
    run step client labels = some after → labels.length ≤ work client ∧
      (Quiet after → ∀ job ∈ client.handed, (answered after).count job = 1)

theorem sound_distinct {client : Client Value} (sound : Sound client) : client.handed.Nodup :=
  List.Nodup.of_map Job.id (sound.numbered ▸ List.nodup_range)

theorem sound_answers {client : Client Value} (sound : Sound client) : Answers client := by
  have distinct := sound_distinct sound
  refine ⟨distinct, fun job member => accounted_count sound.balanced distinct member,
    fun job member => (accounted_mem_iff sound.balanced job).mpr (Or.inl member),
    sound.ordered, sound.run, sound.valued, ?_, ?_, ?_⟩
  · intro entry member
    have unaccepted : entry.1 ∉ client.accepted := fun accepted =>
      accounted_exclusive sound.decided distinct accepted (List.mem_map_of_mem member)
    refine ⟨unaccepted, fun ran => unaccepted ?_, sound.failed entry member⟩
    exact sound.ordered.subset (List.mem_append_left _ (sound.run.subset ran))
  · intro stopped
    obtain ⟨absent, empty⟩ := sound.stopped stopped
    refine ⟨empty, fun job member waiting => ?_⟩
    -- The worker is gone and its queue empty, which leaves the refused callers.
    have held := ((accounted_mem_iff sound.balanced job).mp member).resolve_left waiting
    simpa [outstanding, absent, empty, Worker.job] using held
  · intro labels after working ran
    have bound := run_measure_le work (fun _ _ _ => working_step_decreases) working ran
    refine ⟨by omega, fun quiet job member => ?_⟩
    have finished := run_preserves step_sound sound ran
    have same := run_keeps Client.handed
      (fun _ _ _ => working_step_hands_nothing) working ran
    have settled := accounted_count finished.balanced (sound_distinct finished) (same ▸ member)
    simpa [quiet_outstanding finished quiet] using settled

end VoltMod.DatabaseClient
