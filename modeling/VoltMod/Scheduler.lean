import Mathlib.Algebra.Group.Int.Defs
import VoltMod.CallbackRegistry

/-!
Core/Time/Scheduler.cpp over its registry: timers added, dropped and retired while a frame goes
over them. Frames do not nest; the clock starts at its origin and never goes back. An empty
callback is one that does nothing. The `diary` is history: what was booked, and which of it
each frame owed a run when its turn came.
-/

namespace VoltMod.Scheduling
open CallbackRegistry Transition

structure Timer where
  nextFireTime : Int64
  interval : Int64
  id : Nat
  deriving DecidableEq, Repr

abbrev Timers := Registry Timer

section Source

variable (timers : Timers)

/-- A change through the pointer Find returns. -/
def amend (id : Nat) (form : Timer → Timer) : Timers :=
  match locate id timers.entries with
  | none => timers
  | some position =>
      { timers with
        entries := timers.entries.modify position fun entry =>
          { entry with item := form entry.item } }

def addTimer (nextFireTime interval : Int64) : Timers :=
  let id := timers.nextId
  amend (add ⟨nextFireTime, interval, 0⟩ timers) id fun timer => { timer with id }

def delay (now delayMs : Int64) : Timers := addTimer timers (now + delayMs) 0

def repeatEvery (now intervalMs : Int64) : Timers := addTimer timers (now + intervalMs) intervalMs

def nextTick (now : Int64) : Timers := delay timers now 0

/-- -1 repeats every frame, 0 is one-shot, and positive values wait between calls. -/
def everyFrame : Timers := addTimer timers 0 (-1)

def onGameFrame (now : Int64) : Timers :=
  beginDispatch (fun timer => decide (timer.nextFireTime ≤ now)) timers

/-- A new deadline through the reference the frame's loop has to the timer. -/
def rearm (position : Nat) (nextFireTime : Int64) : Timers :=
  { timers with
    entries := timers.entries.modify position fun entry =>
      { entry with item := { entry.item with nextFireTime } } }

/-- What OnGameFrame does once the timer's callback is back; it may have dropped the timer. -/
def afterCallback (now : Int64) (position : Nat) : Timers :=
  match timers.entries[position]? with
  | none => timers
  | some entry =>
      let timer := entry.item
      if (find timer.id timers).isNone then timers
      else if 0 < timer.interval then rearm timers position (now + timer.interval)
      else if timer.interval < 0 then rearm timers position now
      else (remove timer.id timers).2

/-- The rest of the loop's turn: the timer is the one before the loop's index. -/
def callbackReturns (now : Int64) : Option Timers :=
  match timers.frames with
  | [] => none
  | frame :: _ =>
      if frame.inCall then returnCall (afterCallback timers now (frame.index - 1)) else none

end Source

section Diary

inductive Kind where
  | once
  | every (interval : Int64)
  | everyFrame
  deriving DecidableEq, Repr

/-- A registration: what it asks for, when it is next due, whether its Subscription dropped,
and how often it ran to its end. -/
structure Booking where
  id : Nat
  kind : Kind
  due : Int
  dropped : Bool
  runs : Nat
  deriving DecidableEq, Repr

def registered (booking : Booking) : Bool :=
  !booking.dropped && (booking.kind ≠ .once || booking.runs = 0)

def isDue (booking : Booking) (now : Int64) : Bool :=
  booking.kind = .everyFrame || booking.due ≤ now.toInt

/-- A frame: what was registered when it began, and of each whose turn has come whether it
was still registered and due. -/
structure Page where
  now : Int64
  since : Nat
  opening : List Nat
  turns : List (Nat × Bool)
  running : Option Nat
  deriving DecidableEq, Repr

structure Diary where
  bookings : List Booking
  page : Option Page
  finished : List Page

def book (kind : Kind) (due : Int) (diary : Diary) : Diary :=
  { diary with
    bookings := diary.bookings ++ [⟨diary.bookings.length + 1, kind, due, false, 0⟩] }

def cancelled (id : Nat) (booking : Booking) : Booking :=
  if booking.id = id then { booking with dropped := true } else booking

def cancel (id : Nat) (diary : Diary) : Diary :=
  { diary with bookings := diary.bookings.map (cancelled id) }

def openPage (now : Int64) (diary : Diary) : Diary :=
  let opening := (diary.bookings.filter registered).map (·.id)
  let page : Page := ⟨now, diary.bookings.length, opening, [], none⟩
  if opening = [] then { diary with finished := diary.finished ++ [page] }
  else { diary with page := some page }

/-- Whether the booking is registered and due. -/
def owed (bookings : List Booking) (now : Int64) (id : Nat) : Bool :=
  bookings.any fun booking => booking.id = id && registered booking && isDue booking now

def turn (diary : Diary) : Diary :=
  match diary.page with
  | none => diary
  | some page =>
      match page.opening[page.turns.length]? with
      | none => diary
      | some id =>
          let owes := owed diary.bookings page.now id
          { diary with
            page := some { page with
              turns := page.turns ++ [(id, owes)]
              running := if owes then some id else none } }

/-- A run is over: an interval begins anew. -/
def ran (id : Nat) (now : Int64) (booking : Booking) : Booking :=
  if booking.id = id then
    { booking with
      runs := booking.runs + 1
      due := match booking.kind with
        | .every interval => now.toInt + interval.toInt
        | _ => booking.due }
  else booking

def finishRun (diary : Diary) : Diary :=
  match diary.page with
  | none => diary
  | some page =>
      match page.running with
      | none => diary
      | some id =>
          { diary with
            bookings := diary.bookings.map (ran id page.now)
            page := some { page with running := none } }

def closePage (diary : Diary) : Diary :=
  match diary.page with
  | none => diary
  | some page => { diary with page := none, finished := diary.finished ++ [page] }

end Diary

/-- `now` is OnGameFrame's own. -/
structure Scheduler where
  timers : Timers
  now : Int64
  clock : Int64
  diary : Diary

def start : Scheduler := ⟨empty, 0, 0, ⟨[], none, []⟩⟩

inductive Label where
  | delay (delayMs now : Int64)
  | repeatEvery (intervalMs now : Int64)
  | nextTick (now : Int64)
  | everyFrame
  | drop (id : Nat)
  | frame (now : Int64)
  | iterate
  | callbackReturns
  | endFrame

def later (scheduler : Scheduler) (now : Int64) : Bool :=
  decide (scheduler.clock ≤ now)

def step (scheduler : Scheduler) : Label → Option Scheduler
  | .delay delayMs now =>
      if calling scheduler.timers && later scheduler now then
        some { scheduler with
          timers := delay scheduler.timers now delayMs
          clock := now
          diary := book .once (now.toInt + delayMs.toInt) scheduler.diary }
      else none
  | .repeatEvery intervalMs now =>
      if calling scheduler.timers && later scheduler now then
        some { scheduler with
          timers := repeatEvery scheduler.timers now intervalMs
          clock := now
          diary := book (.every intervalMs) (now.toInt + intervalMs.toInt) scheduler.diary }
      else none
  | .nextTick now =>
      if calling scheduler.timers && later scheduler now then
        some { scheduler with
          timers := nextTick scheduler.timers now
          clock := now
          diary := book .once now.toInt scheduler.diary }
      else none
  | .everyFrame =>
      if calling scheduler.timers then
        some { scheduler with
          timers := everyFrame scheduler.timers
          diary := book .everyFrame 0 scheduler.diary }
      else none
  | .drop id =>
      if calling scheduler.timers then
        some { scheduler with
          timers := (remove id scheduler.timers).2
          diary := cancel id scheduler.diary }
      else none
  | .frame now =>
      if scheduler.timers.frames.isEmpty && later scheduler now then
        some ⟨onGameFrame scheduler.timers now, now, now, openPage now scheduler.diary⟩
      else none
  | .iterate => (iterate scheduler.timers).map fun timers =>
      { scheduler with timers, diary := turn scheduler.diary }
  | .callbackReturns => (callbackReturns scheduler.timers scheduler.now).map fun timers =>
      { scheduler with timers, diary := finishRun scheduler.diary }
  | .endFrame => (endDispatch scheduler.timers).map fun timers =>
      { scheduler with timers, diary := closePage scheduler.diary }

/-- The timers a dispatch called are those owed a run. -/
def Matches (frame : Frame Timer) (page : Page) : Prop :=
  frame.visited.map (·.id) = (page.turns.filter (·.2)).map (·.1)

/-- One-shots run at most once, everything else stays registered until it is dropped, and
every frame runs, of what was registered when it began, what is still registered and due. -/
structure Kept (scheduler : Scheduler) : Prop where
  stays : ∀ id, (find id scheduler.timers).isSome ↔
    ∃ booking ∈ scheduler.diary.bookings, booking.id = id ∧ registered booking = true
  once : ∀ booking ∈ scheduler.diary.bookings, booking.kind = .once → booking.runs ≤ 1
  running : List.Forall₂ Matches scheduler.timers.frames scheduler.diary.page.toList
  finished : List.Forall₂ Matches scheduler.timers.finished scheduler.diary.finished
  whole : ∀ page ∈ scheduler.diary.finished, page.turns.map (·.1) = page.opening

def fits (time : Int) : Bool := decide (-2 ^ 63 ≤ time) && decide (time < 2 ^ 63)

/-- No deadline is past what the clock's type holds, and no Repeat with an interval of 0 comes
back from a run still registered. -/
def proper (scheduler : Scheduler) : Label → Bool
  | .delay delayMs now => fits (now.toInt + delayMs.toInt)
  | .repeatEvery intervalMs now => fits (now.toInt + intervalMs.toInt)
  | .callbackReturns => scheduler.diary.page.all fun page =>
      scheduler.diary.bookings.all fun booking =>
        match booking.kind with
        | .every interval => page.running ≠ some booking.id || !registered booking ||
            (interval ≠ 0 && fits (page.now.toInt + interval.toInt))
        | _ => true
  | _ => true

end VoltMod.Scheduling
