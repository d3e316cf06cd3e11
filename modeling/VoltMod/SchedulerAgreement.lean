import VoltMod.CallbackRegistryEdits
import VoltMod.Scheduler

/-! The scheduler's registry holds the diary's bookings: those registered, and in a frame also
those it began with. Its calls are therefore the runs the diary owes. -/

namespace VoltMod.Scheduling
open CallbackRegistry Transition

def intervalOf : Kind → Int64
  | .once => 0
  | .every interval => interval
  | .everyFrame => -1

def entryOf (next : Nat → Int64) (booking : Booking) : Entry Timer :=
  ⟨⟨booking.id, next booking.id, intervalOf booking.kind, booking.id⟩, !registered booking⟩

/-- In a frame also what it began with and has been dropped or retired since. -/
def storedOf (diary : Diary) : List Booking :=
  match diary.page with
  | none => diary.bookings.filter registered
  | some page =>
      (diary.bookings.take page.since).filter (fun booking => booking.id ∈ page.opening) ++
        diary.bookings.drop page.since

/-- At any time from then on the deadline has passed exactly when the booking is due. -/
def Agrees (time next : Int64) (booking : Booking) : Prop :=
  (booking.kind ≠ .everyFrame ∧ next.toInt = booking.due) ∨
    (next ≤ time ∧ isDue booking time = true)

structure Going (next : Nat → Int64) (scheduler : Scheduler) (frame : Frame Timer)
    (page : Page) : Prop where
  now : scheduler.now = page.now
  clock : page.now ≤ scheduler.clock
  since : page.since ≤ scheduler.diary.bookings.length
  opening : ((scheduler.diary.bookings.take page.since).filter
    fun booking => booking.id ∈ page.opening).map (·.id) = page.opening
  listed : ∀ booking ∈ scheduler.diary.bookings.take page.since, registered booking = true →
    booking.id ∈ page.opening
  agree : ∀ booking ∈ scheduler.diary.bookings.take page.since, registered booking = true →
    Agrees page.now (next booking.id) booking
  index : frame.index = page.turns.length
  count : frame.count = page.opening.length
  wanted : frame.wanted = fun timer => decide (timer.nextFireTime ≤ page.now)
  turns : page.turns.map (·.1) <+: page.opening
  inCall : frame.inCall = page.running.isSome
  running : ∀ id, page.running = some id → page.turns.getLast? = some (id, true)
  unrun : ∀ booking ∈ scheduler.diary.bookings, page.running = some booking.id →
    booking.kind = .once → booking.runs = 0
  visited : Matches frame page

structure Shows (next : Nat → Int64) (scheduler : Scheduler) : Prop where
  ids : scheduler.diary.bookings.map (·.id) =
    (List.range scheduler.diary.bookings.length).map Nat.succ
  nextId : scheduler.timers.nextId = scheduler.diary.bookings.length + 1
  live : scheduler.timers.live = (scheduler.diary.bookings.filter registered).length
  entries : scheduler.timers.entries = (storedOf scheduler.diary).map (entryOf next)
  depth : scheduler.timers.dispatchDepth = scheduler.timers.frames.length
  agree : ∀ booking ∈ scheduler.diary.bookings, registered booking = true →
    Agrees scheduler.clock (next booking.id) booking
  clock : 0 ≤ scheduler.clock.toInt
  once : ∀ booking ∈ scheduler.diary.bookings, booking.kind = .once → booking.runs ≤ 1
  finished : List.Forall₂ Matches scheduler.timers.finished scheduler.diary.finished
  whole : ∀ page ∈ scheduler.diary.finished, page.turns.map (·.1) = page.opening
  outside : scheduler.diary.page = none → scheduler.timers.frames = []
  inside : ∀ page, scheduler.diary.page = some page →
    ∃ frame, scheduler.timers.frames = [frame] ∧ Going next scheduler frame page

section Deadlines

variable {time now deadline : Int64} {booking : Booking}

theorem isDue_later (due : isDue booking time = true) (passes : time ≤ now) :
    isDue booking now = true := by
  simp only [isDue, Bool.or_eq_true, decide_eq_true_eq] at due ⊢
  exact due.imp_right fun past => Int.le_trans past (Int64.le_iff_toInt_le.mp passes)

theorem Agrees.later (agrees : Agrees time deadline booking) (passes : time ≤ now) :
    Agrees now deadline booking :=
  agrees.imp_right fun ⟨past, due⟩ => ⟨Int64.le_trans past passes, isDue_later due passes⟩

theorem Agrees.due_iff (agrees : Agrees time deadline booking) (passes : time ≤ now) :
    deadline ≤ now ↔ isDue booking now = true := by
  rcases agrees with ⟨timed, same⟩ | ⟨past, due⟩
  · simp [isDue, timed, Int64.le_iff_toInt_le, same]
  · exact iff_of_true (Int64.le_trans past passes) (isDue_later due passes)

theorem add_fits {first second : Int64} (fit : fits (first.toInt + second.toInt) = true) :
    (first + second).toInt = first.toInt + second.toInt := by
  simp only [fits, Bool.and_eq_true, decide_eq_true_eq] at fit
  rw [Int64.toInt_add]
  exact Int.bmod_eq_of_le (by omega) (by omega)

end Deadlines

section Bookings

variable {bookings : List Booking}

theorem ids_growing (ids : bookings.map (·.id) = (List.range bookings.length).map Nat.succ) :
    bookings.Pairwise fun first later => first.id < later.id := by
  have growing : (bookings.map (·.id)).Pairwise (· < ·) := by
    rw [ids, List.pairwise_map]
    exact List.pairwise_lt_range.imp Nat.succ_lt_succ
  exact List.pairwise_map.mp growing

theorem storedOf_sublist (diary : Diary) : (storedOf diary).Sublist diary.bookings := by
  rw [storedOf]
  split
  · exact List.filter_sublist
  · next page _ =>
      conv_rhs => rw [← List.take_append_drop page.since diary.bookings]
      exact List.filter_sublist.append (List.Sublist.refl _)

theorem booking_unique
    (ids : bookings.map (·.id) = (List.range bookings.length).map Nat.succ)
    {first second : Booking} (one : first ∈ bookings) (other : second ∈ bookings)
    (same : first.id = second.id) : first = second := by
  obtain ⟨position, inside, rfl⟩ := List.mem_iff_getElem.mp one
  obtain ⟨place, there, rfl⟩ := List.mem_iff_getElem.mp other
  have growing := List.pairwise_iff_getElem.mp (ids_growing ids)
  rcases Nat.lt_trichotomy position place with before | rfl | after
  · exact absurd same (Nat.ne_of_lt (growing _ _ inside there before))
  · rfl
  · exact absurd same (Nat.ne_of_gt (growing _ _ there inside after))

theorem id_bounded (ids : bookings.map (·.id) = (List.range bookings.length).map Nat.succ)
    {booking : Booking} (member : booking ∈ bookings) : booking.id ≤ bookings.length := by
  have inside : booking.id ∈ bookings.map (·.id) := List.mem_map_of_mem member
  rw [ids] at inside
  obtain ⟨place, below, same⟩ := List.mem_map.mp inside
  have less := List.mem_range.mp below
  omega

end Bookings

section Shows

variable {next : Nat → Int64} {scheduler : Scheduler}

theorem Shows.growing (shows : Shows next scheduler) : Growing scheduler.timers.entries := by
  rw [shows.entries, Growing, List.pairwise_map]
  exact (ids_growing shows.ids).sublist (storedOf_sublist _)

theorem Shows.stored (shows : Shows next scheduler) {booking : Booking}
    (member : booking ∈ scheduler.diary.bookings) (live : registered booking = true) :
    booking ∈ storedOf scheduler.diary := by
  rw [storedOf]
  split
  · exact List.mem_filter.mpr ⟨member, live⟩
  · next page opened =>
      obtain ⟨frame, _, going⟩ := shows.inside page opened
      rw [← List.take_append_drop page.since scheduler.diary.bookings] at member
      rcases List.mem_append.mp member with early | late
      · refine List.mem_append_left _ (List.mem_filter.mpr ⟨early, ?_⟩)
        simpa using going.listed booking early live
      · exact List.mem_append_right _ late

/-- Find knows the registered bookings. -/
theorem Shows.stays (shows : Shows next scheduler) (id : Nat) :
    (find id scheduler.timers).isSome ↔
      ∃ booking ∈ scheduler.diary.bookings, booking.id = id ∧ registered booking = true := by
  rw [find_isSome_iff shows.growing, shows.entries]
  constructor
  · rintro ⟨entry, member, same, unmarked⟩
    obtain ⟨booking, inside, rfl⟩ := List.mem_map.mp member
    exact ⟨booking, (storedOf_sublist _).subset inside, same, by simpa [entryOf] using unmarked⟩
  · rintro ⟨booking, member, same, live⟩
    exact ⟨entryOf next booking, List.mem_map_of_mem (shows.stored member live), same, by
      simp [entryOf, live]⟩

theorem Shows.kept (shows : Shows next scheduler) : Kept scheduler where
  stays := shows.stays
  once := shows.once
  running := by
    cases opened : scheduler.diary.page with
    | none =>
        rw [shows.outside opened]
        exact .nil
    | some page =>
        obtain ⟨frame, running, going⟩ := shows.inside page opened
        rw [running]
        exact .cons going.visited .nil
  finished := shows.finished
  whole := shows.whole

theorem amend_last (growing : Growing scheduler.timers.entries)
    (below : ∀ entry ∈ scheduler.timers.entries, entry.id < scheduler.timers.nextId)
    (deadline interval : Int64) :
    addTimer scheduler.timers deadline interval =
      { scheduler.timers with
        entries := scheduler.timers.entries ++
          [⟨⟨scheduler.timers.nextId, deadline, interval, scheduler.timers.nextId⟩, false⟩]
        live := scheduler.timers.live + 1
        nextId := scheduler.timers.nextId + 1 } := by
  let last : Entry Timer := ⟨⟨scheduler.timers.nextId, deadline, interval, 0⟩, false⟩
  have grown : Growing (scheduler.timers.entries ++ [last]) := by
    refine List.pairwise_append.mpr ⟨growing, List.pairwise_singleton _ _, ?_⟩
    intro entry member other here
    rw [List.mem_singleton.mp here]
    exact below entry member
  have here : (scheduler.timers.entries ++ [last])[scheduler.timers.entries.length]? = some last := by
    simp
  have located : locate scheduler.timers.nextId (scheduler.timers.entries ++ [last]) =
      some scheduler.timers.entries.length := locate_at grown here
  simp only [addTimer, amend, add]
  rw [located]
  simp [modify_middle]

theorem storedOf_book (shows : Shows next scheduler) (kind : Kind) (due : Int) :
    storedOf (book kind due scheduler.diary) = storedOf scheduler.diary ++
      [⟨scheduler.diary.bookings.length + 1, kind, due, false, 0⟩] := by
  have live : registered ⟨scheduler.diary.bookings.length + 1, kind, due, false, 0⟩ = true := by
    simp [registered]
  cases opened : scheduler.diary.page with
  | none => simp [storedOf, book, opened, live]
  | some page =>
      obtain ⟨frame, _, going⟩ := shows.inside page opened
      simp [storedOf, book, opened, List.take_append_of_le_length going.since,
        List.drop_append_of_le_length going.since]

theorem entryOf_other {booking : Booking} {id : Nat} (apart : booking.id ≠ id) (deadline : Int64) :
    entryOf (Function.update next id deadline) booking = entryOf next booking := by
  simp [entryOf, Function.update_of_ne apart]

/-- A booking is a timer at the end, for the later frames only. -/
theorem Shows.book (shows : Shows next scheduler) {kind : Kind} {due : Int}
    {deadline clock : Int64} (passes : scheduler.clock ≤ clock)
    (agrees : Agrees clock deadline ⟨scheduler.diary.bookings.length + 1, kind, due, false, 0⟩) :
    Shows (Function.update next scheduler.timers.nextId deadline) { scheduler with
      timers := addTimer scheduler.timers deadline (intervalOf kind)
      clock
      diary := book kind due scheduler.diary } := by
  -- The new id is behind all others, so no older deadline moves.
  have older : ∀ booking ∈ scheduler.diary.bookings, booking.id ≠ scheduler.timers.nextId := by
    intro booking member
    have bounded := id_bounded shows.ids member
    rw [shows.nextId]
    omega
  have below : ∀ entry ∈ scheduler.timers.entries, entry.id < scheduler.timers.nextId := by
    rw [shows.entries, shows.nextId]
    intro entry member
    obtain ⟨booking, inside, rfl⟩ := List.mem_map.mp member
    exact Nat.lt_succ_of_le (id_bounded shows.ids ((storedOf_sublist _).subset inside))
  have live : registered ⟨scheduler.diary.bookings.length + 1, kind, due, false, 0⟩ = true := by
    simp [registered]
  have sorted : ∀ booking ∈ (Scheduling.book kind due scheduler.diary).bookings,
      booking ∈ scheduler.diary.bookings ∨
        booking = ⟨scheduler.diary.bookings.length + 1, kind, due, false, 0⟩ := by
    intro booking member
    simpa [Scheduling.book] using member
  rw [amend_last shows.growing below]
  constructor
  case ids => simp [Scheduling.book, shows.ids, List.range_succ]
  case nextId => simp [Scheduling.book, shows.nextId]
  case live => simp [Scheduling.book, shows.live, live]
  case entries =>
    have unchanged : (storedOf scheduler.diary).map
        (entryOf (Function.update next scheduler.timers.nextId deadline)) =
          (storedOf scheduler.diary).map (entryOf next) :=
      List.map_congr_left fun booking member =>
        entryOf_other (older booking ((storedOf_sublist _).subset member)) deadline
    rw [storedOf_book shows, List.map_append, List.map_singleton, unchanged, ← shows.entries]
    simp [entryOf, live, shows.nextId]
  case depth => exact shows.depth
  case agree =>
    intro booking member registered
    rcases sorted booking member with old | rfl
    · rw [Function.update_of_ne (older booking old)]
      exact (shows.agree booking old registered).later passes
    · simpa [shows.nextId] using agrees
  case clock => exact Int.le_trans shows.clock (Int64.le_iff_toInt_le.mp passes)
  case once =>
    intro booking member single
    rcases sorted booking member with old | rfl
    · exact shows.once booking old single
    · exact Nat.zero_le 1
  case finished => exact shows.finished
  case whole => exact shows.whole
  case outside => exact shows.outside
  case inside =>
    intro page opened
    obtain ⟨frame, running, going⟩ := shows.inside page opened
    have early : (Scheduling.book kind due scheduler.diary).bookings.take page.since =
        scheduler.diary.bookings.take page.since :=
      List.take_append_of_le_length going.since
    refine ⟨frame, running, { going with
      clock := Int64.le_trans going.clock passes
      since := by simpa [Scheduling.book] using Nat.le_succ_of_le going.since
      opening := by simpa only [early] using going.opening
      listed := by simpa only [early] using going.listed
      agree := ?_
      unrun := ?_ }⟩
    · rw [early]
      intro booking member registered
      rw [Function.update_of_ne (older booking (List.mem_of_mem_take member))]
      exact going.agree booking member registered
    · intro booking member here single
      rcases sorted booking member with old | rfl
      · exact going.unrun booking old here single
      · rfl

/-- Inside a frame a change to bookings under their ids is one to what is stored. -/
theorem storedOf_map {diary : Diary} {page : Page} (opened : diary.page = some page)
    (form : Booking → Booking) (ids : ∀ booking, (form booking).id = booking.id) :
    storedOf { diary with bookings := diary.bookings.map form } =
      (storedOf diary).map form := by
  simp only [storedOf, opened, List.map_append, ← List.map_take, ← List.map_drop, List.filter_map]
  congr 3
  funext booking
  simp [ids]

/-- What ends one registration and leaves the others as they are. -/
structure Ends (id : Nat) (form : Booking → Booking) (bookings : List Booking) : Prop where
  ids : ∀ booking, (form booking).id = booking.id
  kinds : ∀ booking, (form booking).kind = booking.kind
  others : ∀ booking, booking.id ≠ id → form booking = booking
  ends : ∀ booking ∈ bookings, booking.id = id → registered (form booking) = false

theorem Ends.live {id : Nat} {form : Booking → Booking} {bookings : List Booking}
    (ends : Ends id form bookings) : (bookings.map form).filter registered =
      (bookings.filter registered).filter fun booking => booking.id ≠ id := by
  induction bookings with
  | nil => rfl
  | cons booking rest ih =>
      have below : Ends id form rest := { ends with
        ends := fun other member => ends.ends other (List.mem_cons_of_mem _ member) }
      rw [List.map_cons]
      by_cases same : booking.id = id
      · rw [List.filter_cons_of_neg (by simp [ends.ends booking List.mem_cons_self same]), ih below]
        cases live : registered booking <;> simp [live, same]
      · rw [ends.others booking same]
        cases live : registered booking <;> simp [live, same, ih below]

theorem Ends.entry {id : Nat} {form : Booking → Booking} {bookings : List Booking}
    (ends : Ends id form bookings) (next : Nat → Int64) {booking : Booking}
    (member : booking ∈ bookings) : entryOf next (form booking) =
      if (entryOf next booking).id = id then (entryOf next booking).mark
      else entryOf next booking := by
  by_cases same : booking.id = id
  · simp [entryOf, ends.ids, ends.kinds, ends.ends booking member same, same, Entry.mark]
  · simp [entryOf, ends.others booking same, same]

theorem one_less {bookings : List Booking} {booking : Booking}
    (growing : bookings.Pairwise fun first later => first.id < later.id)
    (member : booking ∈ bookings) :
    (bookings.filter fun other => other.id ≠ booking.id).length = bookings.length - 1 := by
  obtain ⟨before, after, rfl⟩ := List.append_of_mem member
  obtain ⟨_, tail, across⟩ := List.pairwise_append.mp growing
  obtain ⟨above, _⟩ := List.pairwise_cons.mp tail
  have early : before.filter (fun other => other.id ≠ booking.id) = before :=
    List.filter_eq_self.mpr fun other inside => by
      simpa using Nat.ne_of_lt (across other inside booking List.mem_cons_self)
  have late : after.filter (fun other => other.id ≠ booking.id) = after :=
    List.filter_eq_self.mpr fun other inside => by
      simpa using Nat.ne_of_gt (above other inside)
  rw [List.filter_append, List.filter_cons_of_neg (by simp), early, late]
  simp

/-- Outside every frame nothing stored is marked. -/
theorem Shows.unmarked (shows : Shows next scheduler) (outside : scheduler.timers.dispatchDepth = 0)
    {entry : Entry Timer} (member : entry ∈ scheduler.timers.entries) : entry.removed = false := by
  cases opened : scheduler.diary.page with
  | none =>
      rw [shows.entries, storedOf, opened] at member
      obtain ⟨booking, inside, rfl⟩ := List.mem_map.mp member
      simp [entryOf, (List.mem_filter.mp inside).2]
  | some page =>
      obtain ⟨frame, running, _⟩ := shows.inside page opened
      rw [shows.depth, running] at outside
      cases outside

/-- Remove ends a registration as the diary does, at once or by a mark. -/
theorem Shows.remove (shows : Shows next scheduler) {id : Nat} {form : Booking → Booking}
    (ends : Ends id form scheduler.diary.bookings) :
    (remove id scheduler.timers).2 = { scheduler.timers with
      live := ((scheduler.diary.bookings.map form).filter registered).length
      entries := (storedOf { scheduler.diary with
        bookings := scheduler.diary.bookings.map form }).map (entryOf next) } := by
  -- Inside a pass the entry is only marked; outside it goes at once.
  have entries : (storedOf { scheduler.diary with
      bookings := scheduler.diary.bookings.map form }).map (entryOf next) =
        if 0 < scheduler.timers.dispatchDepth then
          scheduler.timers.entries.map fun entry => if entry.id = id then entry.mark else entry
        else scheduler.timers.entries.filter fun entry => entry.id ≠ id := by
    cases opened : scheduler.diary.page with
    | none =>
        have outside : scheduler.timers.dispatchDepth = 0 := by
          rw [shows.depth, shows.outside opened]
          rfl
        rw [if_neg (by omega), shows.entries]
        simp only [storedOf, opened, ends.live, List.filter_map]
        rfl
    | some page =>
        obtain ⟨frame, running, _⟩ := shows.inside page opened
        have inside : 0 < scheduler.timers.dispatchDepth := by simp [shows.depth, running]
        rw [if_pos inside, storedOf_map opened form ends.ids, shows.entries, List.map_map,
          List.map_map]
        exact List.map_congr_left fun booking member =>
          ends.entry next ((storedOf_sublist _).subset member)
  rcases @remove_cases _ scheduler.timers id shows.growing with
    ⟨missing, same⟩ | ⟨found, same⟩
  · rw [shows.stays] at missing
    have lives : ((scheduler.diary.bookings.map form).filter registered).length =
        scheduler.timers.live := by
      rw [ends.live, shows.live]
      congr 1
      refine List.filter_eq_self.mpr fun booking member => ?_
      obtain ⟨inside, live⟩ := List.mem_filter.mp member
      simpa using fun named => missing ⟨booking, inside, named, live⟩
    have unchanged : (storedOf { scheduler.diary with
        bookings := scheduler.diary.bookings.map form }).map (entryOf next) =
          scheduler.timers.entries := by
      have marked : ∀ entry ∈ scheduler.timers.entries, entry.id = id → entry.removed = true := by
        intro entry member named
        rw [shows.entries] at member
        obtain ⟨booking, inside, rfl⟩ := List.mem_map.mp member
        cases live : registered booking with
        | true => exact absurd ⟨booking, (storedOf_sublist _).subset inside, named, live⟩ missing
        | false => simp [entryOf, live]
      rw [entries]
      split
      · refine (List.map_congr_left fun entry member => ?_).trans (List.map_id _)
        split
        · next named => simp [Entry.mark, ← marked entry member named]
        · rfl
      · next outside =>
          refine List.filter_eq_self.mpr fun entry member => ?_
          have live := shows.unmarked (Nat.eq_zero_of_not_pos outside) member
          simpa using fun named => by rw [marked entry member named] at live; cases live
    rw [same, lives, unchanged]
  · obtain ⟨booking, member, named, live⟩ := (shows.stays id).mp found
    have less := one_less ((ids_growing shows.ids).sublist List.filter_sublist)
      (List.mem_filter.mpr ⟨member, live⟩)
    rw [same, entries, ends.live, ← named, less, shows.live]

/-- Bookings change under their ids: none comes back, and deadlines still agree. -/
theorem Going.map {frame : Frame Timer} {page : Page} {later : Nat → Int64}
    {timers : Timers} {diary : Diary} (going : Going next scheduler frame page)
    (form : Booking → Booking) (bookings : diary.bookings = scheduler.diary.bookings.map form)
    (ids : ∀ booking, (form booking).id = booking.id)
    (lives : ∀ booking ∈ scheduler.diary.bookings, registered (form booking) = true →
      registered booking = true)
    (agree : ∀ booking ∈ scheduler.diary.bookings, registered (form booking) = true →
      Agrees page.now (next booking.id) booking →
      Agrees page.now (later booking.id) (form booking))
    (unrun : ∀ booking ∈ scheduler.diary.bookings, page.running = some booking.id →
      (form booking).kind = .once → (form booking).runs = 0) :
    Going later { scheduler with timers, diary } frame page :=
  have early : diary.bookings.take page.since =
      (scheduler.diary.bookings.take page.since).map form := by
    rw [bookings, List.map_take]
  { going with
    since := by simpa [bookings] using going.since
    opening := by
      have same : ((fun booking : Booking => decide (booking.id ∈ page.opening)) ∘ form) =
          fun booking => decide (booking.id ∈ page.opening) := by
        funext booking
        simp [ids]
      have kept : ((fun booking : Booking => booking.id) ∘ form) = fun booking => booking.id := by
        funext booking
        simp [ids]
      rw [early, List.filter_map, List.map_map, same, kept]
      exact going.opening
    listed := by
      rw [early]
      intro changed member live
      obtain ⟨booking, inside, rfl⟩ := List.mem_map.mp member
      rw [ids]
      exact going.listed booking inside (lives booking (List.mem_of_mem_take inside) live)
    agree := by
      rw [early]
      intro changed member live
      obtain ⟨booking, inside, rfl⟩ := List.mem_map.mp member
      have old := List.mem_of_mem_take inside
      rw [ids]
      exact agree booking old live (going.agree booking inside (lives booking old live))
    unrun := by
      intro changed member here single
      obtain ⟨booking, inside, rfl⟩ := List.mem_map.mp (bookings ▸ member)
      rw [ids] at here
      exact unrun booking inside here single }

theorem cancelled_fields (id : Nat) (booking : Booking) :
    (cancelled id booking).id = booking.id ∧ (cancelled id booking).kind = booking.kind ∧
      (cancelled id booking).due = booking.due ∧ (cancelled id booking).runs = booking.runs := by
  rw [cancelled]
  split
  · exact ⟨rfl, rfl, rfl, rfl⟩
  · exact ⟨rfl, rfl, rfl, rfl⟩

theorem cancelled_ends (id : Nat) (bookings : List Booking) :
    Ends id (cancelled id) bookings where
  ids := fun booking => (cancelled_fields id booking).1
  kinds := fun booking => (cancelled_fields id booking).2.1
  others := fun booking apart => if_neg apart
  ends := fun booking _ same => by simp [cancelled, same, registered]

theorem cancelled_lives {id : Nat} {booking : Booking}
    (live : registered (cancelled id booking) = true) : registered booking = true := by
  by_cases same : booking.id = id
  · simp [cancelled, same, registered] at live
  · rwa [cancelled, if_neg same] at live

theorem cancelled_agrees {id : Nat} {time deadline : Int64} {booking : Booking}
    (agrees : Agrees time deadline booking) : Agrees time deadline (cancelled id booking) := by
  obtain ⟨_, kinds, due, _⟩ := cancelled_fields id booking
  simpa only [Agrees, isDue, kinds, due] using agrees

/-- A Subscription drops its timer. -/
theorem Shows.cancel (shows : Shows next scheduler) (id : Nat) :
    Shows next { scheduler with
      timers := (CallbackRegistry.remove id scheduler.timers).2
      diary := Scheduling.cancel id scheduler.diary } := by
  rw [shows.remove (cancelled_ends id _)]
  constructor
  case ids =>
    have kept : ((fun booking : Booking => booking.id) ∘ cancelled id) = fun booking => booking.id :=
      funext fun booking => (cancelled_fields id booking).1
    simpa [Scheduling.cancel, List.map_map, kept] using shows.ids
  case nextId => simpa [Scheduling.cancel] using shows.nextId
  case live => rfl
  case entries => rfl
  case depth => exact shows.depth
  case agree =>
    intro changed member live
    obtain ⟨booking, inside, rfl⟩ := List.mem_map.mp member
    rw [(cancelled_fields id booking).1]
    exact cancelled_agrees (shows.agree booking inside (cancelled_lives live))
  case clock => exact shows.clock
  case once =>
    intro changed member single
    obtain ⟨booking, inside, rfl⟩ := List.mem_map.mp member
    obtain ⟨_, kinds, _, runs⟩ := cancelled_fields id booking
    rw [runs]
    exact shows.once booking inside (kinds ▸ single)
  case finished => exact shows.finished
  case whole => exact shows.whole
  case outside => exact shows.outside
  case inside =>
    intro page opened
    obtain ⟨frame, running, going⟩ := shows.inside page opened
    refine ⟨frame, running, going.map (cancelled id) rfl
      (fun booking => (cancelled_fields id booking).1) (fun _ _ live => cancelled_lives live)
      (fun _ _ _ agrees => cancelled_agrees agrees) ?_⟩
    intro booking member here single
    obtain ⟨_, kinds, _, runs⟩ := cancelled_fields id booking
    rw [runs]
    exact going.unrun booking member here (kinds ▸ single)

theorem mem_live_ids
    {bookings : List Booking} (ids : bookings.map (·.id) = (List.range bookings.length).map Nat.succ)
    {booking : Booking} (member : booking ∈ bookings) :
    booking.id ∈ (bookings.filter registered).map (·.id) ↔ registered booking = true := by
  constructor
  · intro inside
    obtain ⟨other, live, same⟩ := List.mem_map.mp inside
    obtain ⟨there, registered⟩ := List.mem_filter.mp live
    rwa [booking_unique ids there member same] at registered
  · exact fun live => List.mem_map_of_mem (List.mem_filter.mpr ⟨member, live⟩)

theorem Shows.closed (shows : Shows next scheduler) (outside : scheduler.timers.frames = []) :
    scheduler.diary.page = none := by
  cases opened : scheduler.diary.page with
  | none => rfl
  | some page =>
      obtain ⟨frame, running, _⟩ := shows.inside page opened
      rw [outside] at running
      cases running

/-- A frame begins with what is registered. -/
theorem Shows.frame (shows : Shows next scheduler) {now : Int64} (passes : scheduler.clock ≤ now)
    (outside : scheduler.timers.frames = []) :
    Shows next ⟨onGameFrame scheduler.timers now, now, now, openPage now scheduler.diary⟩ := by
  have closed := shows.closed outside
  have entries : scheduler.timers.entries =
      (scheduler.diary.bookings.filter registered).map (entryOf next) := by
    rw [shows.entries, storedOf, closed]
  have agree : ∀ booking ∈ scheduler.diary.bookings, registered booking = true →
      Agrees now (next booking.id) booking :=
    fun booking member live => (shows.agree booking member live).later passes
  have clock := Int.le_trans shows.clock (Int64.le_iff_toInt_le.mp passes)
  -- With nothing registered the frame is over at once; its page is closed as it was opened.
  cases empty : scheduler.diary.bookings.filter registered with
  | nil =>
      simp only [onGameFrame, beginDispatch, openPage, entries, empty, List.map_nil, List.length_nil,
        if_true]
      exact { shows with
        entries := by simp [storedOf, closed, empty]
        agree := agree
        clock := clock
        finished := List.rel_append shows.finished (.cons (by simp [Matches]) .nil)
        whole := by
          intro page member
          rcases List.mem_append.mp member with old | new
          · exact shows.whole page old
          · cases List.mem_singleton.mp new
            rfl
        inside := by
          intro page opened
          cases closed.symm.trans opened }
  | cons first rest =>
      have listed : (scheduler.diary.bookings.filter registered).map (·.id) ≠ [] := by simp [empty]
      have stored : scheduler.diary.bookings.filter
          (fun booking => booking.id ∈ (scheduler.diary.bookings.filter registered).map (·.id)) =
            scheduler.diary.bookings.filter registered :=
        List.filter_congr fun booking member => by
          rw [Bool.eq_iff_iff, decide_eq_true_eq, mem_live_ids shows.ids member]
      have count : scheduler.timers.entries.length =
          ((scheduler.diary.bookings.filter registered).map (·.id)).length := by simp [entries]
      have many : scheduler.timers.entries.length ≠ 0 := by simp [entries, empty]
      simp only [onGameFrame, beginDispatch, openPage, if_neg many, if_neg listed]
      exact { shows with
        entries := by simp [storedOf, stored, entries]
        depth := by simp [shows.depth]
        agree := agree
        clock := clock
        outside := by rintro ⟨⟩
        inside := by
          rintro _ ⟨⟩
          refine ⟨_, by rw [outside], ?_⟩
          constructor
          case now => rfl
          case clock => exact Int64.le_refl now
          case since => exact Nat.le_refl _
          case opening => simp only [List.take_length, stored]
          case listed =>
            intro booking member live
            rw [List.take_length] at member
            exact (mem_live_ids shows.ids member).mpr live
          case agree =>
            intro booking member live
            rw [List.take_length] at member
            exact agree booking member live
          case index => rfl
          case count => exact count
          case wanted => rfl
          case turns => exact List.nil_prefix
          case inCall => rfl
          case running => rintro _ ⟨⟩
          case unrun => rintro _ _ ⟨⟩
          case visited => rfl }

theorem owed_stored (ids : scheduler.diary.bookings.map (·.id) =
      (List.range scheduler.diary.bookings.length).map Nat.succ)
    {booking : Booking} (member : booking ∈ scheduler.diary.bookings) (now : Int64) :
    owed scheduler.diary.bookings now booking.id = (registered booking && isDue booking now) := by
  rw [Bool.eq_iff_iff, owed, List.any_eq_true]
  constructor
  · rintro ⟨other, inside, met⟩
    simp only [Bool.and_eq_true, decide_eq_true_eq] at met
    rw [← booking_unique ids inside member met.1.1]
    simp [met.1.2, met.2]
  · intro met
    exact ⟨booking, member, by simpa using met⟩

/-- What the loop meets at the places it was opened with. -/
theorem Going.met {frame : Frame Timer} {page : Page} (going : Going next scheduler frame page)
    (shows : Shows next scheduler) (opened : scheduler.diary.page = some page) {position : Nat}
    (more : position < page.opening.length) :
    ∃ booking ∈ scheduler.diary.bookings.take page.since,
      scheduler.timers.entries[position]? = some (entryOf next booking) ∧
      page.opening[position]? = some booking.id := by
  have length := congrArg List.length going.opening
  rw [List.length_map] at length
  have inside := length.symm ▸ more
  refine ⟨_, (List.mem_filter.mp (List.getElem_mem inside)).1, ?_, ?_⟩
  · rw [shows.entries, storedOf, opened]
    simp only [List.map_append]
    rw [List.getElem?_append_left (by rw [List.length_map]; exact inside), List.getElem?_map,
      List.getElem?_eq_getElem inside, Option.map_some]
  · conv_lhs => rw [← going.opening]
    rw [List.getElem?_map, List.getElem?_eq_getElem inside, Option.map_some]

theorem Shows.iterate (shows : Shows next scheduler) {after : Timers}
    (taken : CallbackRegistry.iterate scheduler.timers = some after) :
    Shows next { scheduler with timers := after, diary := turn scheduler.diary } := by
  rw [CallbackRegistry.iterate] at taken
  cases opened : scheduler.diary.page with
  | none =>
      rw [shows.outside opened] at taken
      cases taken
  | some page =>
      obtain ⟨frame, running, going⟩ := shows.inside page opened
      rw [running] at taken
      simp only at taken
      split at taken
      · cases taken
      · next calm =>
          simp only [Bool.or_eq_true, decide_eq_true_eq, not_or, Nat.not_le] at calm
          have more := calm.2
          rw [going.index, going.count] at more
          -- The entry the walk stands at is the booking whose turn the diary says it is.
          obtain ⟨booking, early, here, turned⟩ := going.met shows opened more
          rw [← going.index] at here
          have member := List.mem_of_mem_take early
          rw [here] at taken
          cases taken
          have owes := owed_stored shows.ids member page.now
          -- The registry asks of the entry what the diary asks of the booking: registered, and due.
          have called : (!(entryOf next booking).removed &&
              frame.wanted (entryOf next booking).item) =
                owed scheduler.diary.bookings page.now booking.id := by
            rw [owes, going.wanted]
            cases live : registered booking with
            | false => simp [entryOf, live]
            | true =>
                have due := (going.agree booking early live).due_iff (Int64.le_refl page.now)
                simp only [entryOf, live, Bool.not_true, Bool.not_false, Bool.true_and]
                rw [Bool.eq_iff_iff, decide_eq_true_eq, due]
          -- The turns taken stay a front of those the page opened with.
          have front : page.turns.map (·.1) ++ [booking.id] <+: page.opening := by
            obtain ⟨rest, split⟩ := going.turns
            rw [← split, List.getElem?_append_right (by simp), List.length_map, Nat.sub_self]
              at turned
            cases rest with
            | nil => cases turned
            | cons first rest =>
                cases turned
                exact ⟨rest, by simp [← split]⟩
          have diary : turn scheduler.diary = { scheduler.diary with
              page := some { page with
                turns := page.turns ++
                  [(booking.id, owed scheduler.diary.bookings page.now booking.id)]
                running := if owed scheduler.diary.bookings page.now booking.id then
                  some booking.id else none } } := by
            simp only [turn, opened, turned]
          have visited := going.visited
          rw [diary]
          exact { shows with
            entries := by rw [shows.entries, storedOf, storedOf, opened]
            depth := by rw [shows.depth, running]; rfl
            outside := by rintro ⟨⟩
            inside := by
              rintro _ ⟨⟩
              refine ⟨_, rfl, ?_⟩
              rw [Frame.visit, called]
              -- Owed, its callback begins; not owed, the walk goes on.
              cases owing : owed scheduler.diary.bookings page.now booking.id with
              | false =>
                  exact { going with
                    index := by simp [going.index]
                    turns := by simpa using front
                    inCall := by simp [calm.1]
                    running := by rintro _ ⟨⟩
                    unrun := by rintro _ _ ⟨⟩
                    visited := by simpa [Matches] using visited }
              | true =>
                  have live : registered booking = true := by
                    rw [owes, Bool.and_eq_true] at owing
                    exact owing.1
                  exact { going with
                    index := by simp [going.index]
                    turns := by simpa using front
                    inCall := rfl
                    running := by
                      rintro _ ⟨⟩
                      simp
                    unrun := by
                      intro other inside here single
                      have same := booking_unique shows.ids inside member
                        (Option.some.inj here).symm
                      rw [← same] at live
                      simpa [registered, single] using (Bool.and_eq_true_iff.mp live).2
                    visited := by
                      have before : frame.visited.map (fun handle => handle.id) =
                        (page.turns.filter (·.2)).map (·.1) := visited
                      simp [Matches, before, entryOf] } }

section Returns

variable {id : Nat} {now : Int64} {booking : Booking}

theorem ran_fields (id : Nat) (now : Int64) (booking : Booking) :
    (ran id now booking).id = booking.id ∧ (ran id now booking).kind = booking.kind := by
  rw [ran]
  split
  · exact ⟨rfl, rfl⟩
  · exact ⟨rfl, rfl⟩

theorem ran_other (apart : booking.id ≠ id) : ran id now booking = booking := if_neg apart

theorem ran_registered : registered (ran booking.id now booking) =
    (registered booking && decide (booking.kind ≠ .once)) := by
  by_cases single : booking.kind = .once
  · simp [ran, registered, single]
  · simp [ran, registered, single]

theorem ran_lives (live : registered (ran id now booking) = true) : registered booking = true := by
  by_cases same : booking.id = id
  · subst same
    rw [ran_registered, Bool.and_eq_true] at live
    exact live.1
  · rwa [ran_other same] at live

/-- A run leaves every registration but a one-shot's as it was. -/
theorem ran_live (now : Int64) (growing : scheduler.diary.bookings.map (·.id) =
      (List.range scheduler.diary.bookings.length).map Nat.succ)
    (member : booking ∈ scheduler.diary.bookings)
    (lasting : registered booking = true → booking.kind ≠ .once) {other : Booking}
    (inside : other ∈ scheduler.diary.bookings) :
    registered (ran booking.id now other) = registered other := by
  by_cases same : other.id = booking.id
  · rw [booking_unique growing inside member same, ran_registered]
    cases live : registered booking with
    | false => rfl
    | true => simp [lasting live]
  · rw [ran_other same]

theorem ran_count (shows : Shows next scheduler) (member : booking ∈ scheduler.diary.bookings)
    (lasting : registered booking = true → booking.kind ≠ .once) :
    ((scheduler.diary.bookings.map (ran booking.id now)).filter registered).length =
      scheduler.timers.live := by
  rw [shows.live, List.filter_map, List.length_map]
  congr 1
  exact List.filter_congr fun other inside => ran_live now shows.ids member lasting inside

/-- What the timers come to when a callback is back: the diary's run, under deadlines that
differ for that timer only. -/
def Settled (next later : Nat → Int64) (scheduler : Scheduler) (id : Nat) (now : Int64)
    (after : Timers) : Prop :=
  after = { scheduler.timers with
    live := ((scheduler.diary.bookings.map (ran id now)).filter registered).length
    entries := (storedOf { scheduler.diary with
      bookings := scheduler.diary.bookings.map (ran id now) }).map (entryOf later) } ∧
  ∀ other, other ≠ id → later other = next other

theorem Shows.dropped (shows : Shows next scheduler) {page : Page}
    (opened : scheduler.diary.page = some page) (member : booking ∈ scheduler.diary.bookings)
    (gone : registered booking = false) :
    Settled next next scheduler booking.id now scheduler.timers := by
  have lasting : registered booking = true → booking.kind ≠ .once := by simp [gone]
  refine ⟨?_, fun _ _ => rfl⟩
  rw [ran_count shows member lasting, storedOf_map opened _ fun other => (ran_fields _ _ other).1,
    List.map_map]
  have same : (storedOf scheduler.diary).map (entryOf next ∘ ran booking.id now) =
      scheduler.timers.entries := by
    rw [shows.entries]
    refine List.map_congr_left fun other inside => ?_
    have kept := ran_live now shows.ids member lasting ((storedOf_sublist _).subset inside)
    obtain ⟨ids, kinds⟩ := ran_fields booking.id now other
    simp [entryOf, ids, kinds, kept]
  rw [same]

theorem Shows.rearm (shows : Shows next scheduler) {page : Page} {position : Nat}
    (opened : scheduler.diary.page = some page) (member : booking ∈ scheduler.diary.bookings)
    (here : scheduler.timers.entries[position]? = some (entryOf next booking))
    (lasting : booking.kind ≠ .once) (deadline : Int64) :
    Settled next (Function.update next booking.id deadline) scheduler booking.id now
      (Scheduling.rearm scheduler.timers position deadline) := by
  refine ⟨?_, fun other apart => Function.update_of_ne apart ..⟩
  rw [ran_count shows member fun _ => lasting,
    storedOf_map opened _ fun other => (ran_fields _ _ other).1, Scheduling.rearm,
    modify_located shows.growing here, shows.entries, List.map_map, List.map_map]
  congr 1
  refine List.map_congr_left fun other inside => ?_
  have kept := ran_live now shows.ids member (fun _ => lasting)
    ((storedOf_sublist _).subset inside)
  obtain ⟨ids, kinds⟩ := ran_fields booking.id now other
  by_cases same : other.id = booking.id
  · simp [entryOf, ids, kinds, kept, same]
  · simp [entryOf, ids, kinds, kept, same, Function.update_of_ne]

theorem Shows.retire (shows : Shows next scheduler) (member : booking ∈ scheduler.diary.bookings)
    (single : booking.kind = .once) :
    Settled next next scheduler booking.id now
      (CallbackRegistry.remove booking.id scheduler.timers).2 := by
  refine ⟨shows.remove ⟨fun other => (ran_fields _ _ other).1, fun other => (ran_fields _ _ other).2,
    fun other apart => ran_other apart, ?_⟩, fun _ _ => rfl⟩
  intro other inside same
  rw [booking_unique shows.ids inside member same, ran_registered]
  simp [single]

theorem proper_interval {page : Page} {interval : Int64}
    (met : proper scheduler .callbackReturns = true) (opened : scheduler.diary.page = some page)
    (member : booking ∈ scheduler.diary.bookings) (running : page.running = some booking.id)
    (live : registered booking = true) (kind : booking.kind = .every interval) :
    interval ≠ 0 ∧ fits (page.now.toInt + interval.toInt) = true := by
  simp only [proper, opened, Option.all_some, List.all_eq_true] at met
  simpa [kind, running, live] using met booking member

/-- The timer whose callback is back: dropped meanwhile, retired, or armed anew. -/
theorem Shows.afterCallback (shows : Shows next scheduler) {page : Page}
    {position : Nat} (met : proper scheduler .callbackReturns = true)
    (opened : scheduler.diary.page = some page)
    (member : booking ∈ scheduler.diary.bookings) (running : page.running = some booking.id)
    (here : scheduler.timers.entries[position]? = some (entryOf next booking)) :
    ∃ later, Settled next later scheduler booking.id page.now
        (Scheduling.afterCallback scheduler.timers page.now position) ∧
      (registered (ran booking.id page.now booking) = true →
        Agrees page.now (later booking.id) (ran booking.id page.now booking)) := by
  have found : (find booking.id scheduler.timers).isSome = registered booking := by
    rw [Bool.eq_iff_iff, shows.stays]
    constructor
    · rintro ⟨other, inside, same, live⟩
      rwa [booking_unique shows.ids inside member same] at live
    · exact fun live => ⟨booking, member, rfl, live⟩
  -- Cancelled while it ran, it is not armed again; else its kind says when it is next due.
  cases live : registered booking with
  | false =>
      refine ⟨next, ?_, ?_⟩
      · have missing : (find booking.id scheduler.timers).isNone = true := by
          simpa [live] using found
        have same : Scheduling.afterCallback scheduler.timers page.now position =
            scheduler.timers := by
          simp only [Scheduling.afterCallback, here, entryOf, missing, if_true]
        rw [same]
        exact shows.dropped opened member live
      · intro again
        rw [ran_registered, live] at again
        cases again
  | true =>
      have present : (find booking.id scheduler.timers).isNone = false := by
        simpa [live] using found
      have rest : Scheduling.afterCallback scheduler.timers page.now position =
          if 0 < intervalOf booking.kind then
            Scheduling.rearm scheduler.timers position (page.now + intervalOf booking.kind)
          else if intervalOf booking.kind < 0 then
            Scheduling.rearm scheduler.timers position page.now
          else (CallbackRegistry.remove booking.id scheduler.timers).2 := by
        simp only [Scheduling.afterCallback, here, entryOf, present, Bool.false_eq_true, if_false]
      rw [rest]
      cases kind : booking.kind with
      | once =>
          refine ⟨next, shows.retire member kind, ?_⟩
          intro again
          rw [ran_registered] at again
          simp [kind] at again
      | everyFrame =>
          refine ⟨_, shows.rearm opened member here (by simp [kind]) page.now, fun _ => .inr ?_⟩
          simp [ran, isDue, kind]
      | every interval =>
          obtain ⟨nonzero, fit⟩ := proper_interval met opened member running live kind
          by_cases positive : 0 < interval
          · simp only [intervalOf, positive, if_true]
            refine ⟨_, shows.rearm opened member here (by simp [kind]) (page.now + interval),
              fun _ => .inl ?_⟩
            simp [ran, kind, add_fits fit]
          · have negative : interval < 0 := by
              rw [Int64.lt_iff_toInt_lt] at positive ⊢
              have other : interval.toInt ≠ (0 : Int64).toInt := fun same =>
                nonzero (Int64.toInt_inj.mp same)
              omega
            simp only [intervalOf, positive, negative, if_true, if_false]
            refine ⟨_, shows.rearm opened member here (by simp [kind]) page.now, fun _ => .inr ?_⟩
            rw [Int64.lt_iff_toInt_lt, Int64.toInt_zero] at negative
            simp only [Function.update_self, Int64.le_refl, true_and]
            simp only [isDue, ran, if_true, kind, Bool.or_eq_true, decide_eq_true_eq]
            omega

/-- The callback that is running was called at the place before the loop's index. -/
theorem Going.called {frame : Frame Timer} {page : Page} (shows : Shows next scheduler)
    (opened : scheduler.diary.page = some page) (going : Going next scheduler frame page)
    (running : page.running = some id) :
    ∃ booking ∈ scheduler.diary.bookings, booking.id = id ∧
      scheduler.timers.entries[frame.index - 1]? = some (entryOf next booking) := by
  have last := going.running id running
  obtain ⟨front, turns⟩ := List.getLast?_eq_some_iff.mp last
  obtain ⟨rest, split⟩ := going.turns
  rw [turns] at split
  simp only [List.map_append, List.map_singleton, List.append_assoc] at split
  have place : frame.index - 1 = front.length := by simp [going.index, turns]
  have inside : frame.index - 1 < page.opening.length := by
    rw [place, ← split]
    simp
  obtain ⟨booking, early, here, named⟩ := going.met shows opened inside
  refine ⟨booking, List.mem_of_mem_take early, ?_, here⟩
  rw [place, ← split, List.getElem?_append_right (by simp)] at named
  simpa using named.symm

theorem Shows.callbackReturns (shows : Shows next scheduler) {after : Timers}
    (met : proper scheduler .callbackReturns = true)
    (taken : callbackReturns scheduler.timers scheduler.now = some after) :
    ∃ later, Shows later { scheduler with timers := after, diary := finishRun scheduler.diary } := by
  rw [Scheduling.callbackReturns] at taken
  cases opened : scheduler.diary.page with
  | none =>
      rw [shows.outside opened] at taken
      cases taken
  | some page =>
      obtain ⟨frame, frames, going⟩ := shows.inside page opened
      rw [frames] at taken
      simp only at taken
      split at taken
      · next inCall =>
          rw [going.inCall] at inCall
          obtain ⟨id, running⟩ := Option.isSome_iff_exists.mp inCall
          obtain ⟨booking, member, rfl, here⟩ := going.called shows opened running
          obtain ⟨later, ⟨settled, others⟩, agrees⟩ :=
            shows.afterCallback met opened member running here
          rw [going.now, settled, returnCall, frames] at taken
          simp only [going.inCall, inCall, if_true, Option.some.injEq] at taken
          subst taken
          -- Only the deadline of the one that ran moves.
          have agree : ∀ time : Int64, page.now ≤ time → ∀ other ∈ scheduler.diary.bookings,
              registered (ran booking.id page.now other) = true →
              Agrees time (next other.id) other →
              Agrees time (later other.id) (ran booking.id page.now other) := by
            intro time passes other inside live before
            by_cases same : other.id = booking.id
            · obtain rfl := booking_unique shows.ids inside member same
              exact (agrees live).later passes
            · rwa [others _ same, ran_other same]
          have ids : ((fun booking : Booking => booking.id) ∘ ran booking.id page.now) =
              fun booking => booking.id :=
            funext fun other => (ran_fields booking.id page.now other).1
          have diary : finishRun scheduler.diary = { scheduler.diary with
              bookings := scheduler.diary.bookings.map (ran booking.id page.now)
              page := some { page with running := none } } := by
            simp only [finishRun, opened, running]
          rw [diary]
          refine ⟨later, ?_⟩
          constructor
          case ids => simpa [List.map_map, ids] using shows.ids
          case nextId => simpa using shows.nextId
          case live => rfl
          case entries => simp only [storedOf, opened]
          case depth => simp [shows.depth, frames]
          case agree =>
            intro changed inside live
            obtain ⟨other, old, rfl⟩ := List.mem_map.mp inside
            rw [(ran_fields _ _ other).1]
            exact agree scheduler.clock going.clock other old live
              (shows.agree other old (ran_lives live))
          case clock => exact shows.clock
          case once =>
            intro changed inside single
            obtain ⟨other, old, rfl⟩ := List.mem_map.mp inside
            rw [(ran_fields _ _ other).2] at single
            by_cases same : other.id = booking.id
            · rw [ran, if_pos same]
              exact Nat.succ_le_succ (Nat.le_of_eq (going.unrun other old (same ▸ running) single))
            · rw [ran_other same]
              exact shows.once other old single
          case finished => exact shows.finished
          case whole => exact shows.whole
          case outside => rintro ⟨⟩
          case inside =>
            rintro _ ⟨⟩
            have rested : Going next scheduler { frame with inCall := false }
                { page with running := none } :=
              { going with inCall := rfl, running := by rintro _ ⟨⟩, unrun := by rintro _ _ ⟨⟩ }
            exact ⟨_, rfl, rested.map (ran booking.id page.now) rfl
              (fun other => (ran_fields _ _ other).1) (fun _ _ => ran_lives)
              (agree page.now (Int64.le_refl _)) (by rintro _ _ ⟨⟩)⟩
      · cases taken

end Returns

theorem storedOf_live {bookings : List Booking} {page : Page}
    (listed : ∀ booking ∈ bookings.take page.since, registered booking = true →
      booking.id ∈ page.opening) :
    ((bookings.take page.since).filter (fun booking => booking.id ∈ page.opening) ++
      bookings.drop page.since).filter registered = bookings.filter registered := by
  conv_rhs => rw [← List.take_append_drop page.since bookings]
  rw [List.filter_append, List.filter_append, List.filter_filter]
  congr 1
  refine List.filter_congr fun booking member => ?_
  cases live : registered booking with
  | false => rfl
  | true => simp [listed booking member live]

theorem Shows.endFrame (shows : Shows next scheduler) {after : Timers}
    (taken : endDispatch scheduler.timers = some after) :
    Shows next { scheduler with timers := after, diary := closePage scheduler.diary } := by
  rw [endDispatch] at taken
  cases opened : scheduler.diary.page with
  | none =>
      rw [shows.outside opened] at taken
      cases taken
  | some page =>
      obtain ⟨frame, frames, going⟩ := shows.inside page opened
      rw [frames] at taken
      simp only at taken
      split at taken
      · next complete =>
          simp only [Bool.and_eq_true, decide_eq_true_eq, going.index, going.count] at complete
          cases taken
          have diary : closePage scheduler.diary = { scheduler.diary with
              page := none, finished := scheduler.diary.finished ++ [page] } := by
            simp only [closePage, opened]
          have stored : storedOf scheduler.diary =
              (scheduler.diary.bookings.take page.since).filter
                (fun booking => booking.id ∈ page.opening) ++
                  scheduler.diary.bookings.drop page.since := by
            simp only [storedOf, opened]
          have kept : (storedOf scheduler.diary).filter registered =
              scheduler.diary.bookings.filter registered := by
            rw [stored]
            exact storedOf_live going.listed
          have swept : scheduler.timers.entries.filter (fun entry => !entry.removed) =
              (scheduler.diary.bookings.filter registered).map (entryOf next) := by
            have alike : ((fun entry : Entry Timer => !entry.removed) ∘ entryOf next) =
                registered := by
              funext booking
              simp [entryOf]
            rw [shows.entries, List.filter_map, alike, kept]
          rw [diary]
          exact { shows with
            entries := by
              simp only [storedOf, shows.depth, frames, List.length_singleton, Nat.sub_self,
                decide_true, Bool.true_and]
              rw [← swept]
              split
              · rfl
              · next full =>
                  have same : scheduler.timers.entries.length = scheduler.timers.live := by
                    simpa using full
                  have length := congrArg List.length swept
                  rw [List.length_map, ← shows.live, ← same] at length
                  exact (List.filter_sublist.eq_of_length length).symm
            depth := by simp [shows.depth, frames]
            finished := List.rel_append shows.finished (.cons going.visited .nil)
            whole := by
              intro other member
              rcases List.mem_append.mp member with old | new
              · exact shows.whole other old
              · cases List.mem_singleton.mp new
                exact going.turns.eq_of_length_le (by simpa using complete.2)
            outside := fun _ => rfl
            inside := by rintro _ ⟨⟩ }
      · cases taken

/-- A registration that reads the clock. -/
theorem taken_later {now : Int64} {made after : Scheduler}
    (taken : (if calling scheduler.timers && later scheduler now then some made else none) =
      some after) : scheduler.clock ≤ now ∧ made = after := by
  split at taken
  · next ready =>
      simp only [later, Bool.and_eq_true, decide_eq_true_eq] at ready
      exact ⟨ready.2, Option.some.inj taken⟩
  · cases taken

theorem step_shows {label : Label} {after : Scheduler} (shows : Shows next scheduler)
    (met : proper scheduler label = true) (taken : step scheduler label = some after) :
    ∃ later, Shows later after := by
  cases label with
  | delay delayMs now =>
      obtain ⟨passes, rfl⟩ := taken_later taken
      refine ⟨_, @Shows.book next scheduler shows .once _ _ now passes (.inl ⟨?_, add_fits met⟩)⟩
      simp
  | repeatEvery intervalMs now =>
      obtain ⟨passes, rfl⟩ := taken_later taken
      refine ⟨_, @Shows.book next scheduler shows (.every intervalMs) _ _ now passes
        (.inl ⟨?_, add_fits met⟩)⟩
      simp
  | nextTick now =>
      obtain ⟨passes, rfl⟩ := taken_later taken
      refine ⟨_, @Shows.book next scheduler shows .once now.toInt (now + 0) now passes
        (.inl ⟨?_, ?_⟩)⟩
      · simp
      · simp
  | everyFrame =>
      simp only [step] at taken
      split at taken
      · cases taken
        have origin : 0 ≤ scheduler.clock := Int64.le_iff_toInt_le.mpr shows.clock
        exact ⟨_, @Shows.book next scheduler shows .everyFrame 0 0 _ (Int64.le_refl _)
          (.inr ⟨origin, rfl⟩)⟩
      · cases taken
  | drop id =>
      simp only [step] at taken
      split at taken
      · cases taken
        exact ⟨_, shows.cancel id⟩
      · cases taken
  | frame now =>
      simp only [step] at taken
      split at taken
      · next ready =>
          simp only [later, Bool.and_eq_true, List.isEmpty_iff, decide_eq_true_eq] at ready
          cases taken
          exact ⟨_, shows.frame ready.2 ready.1⟩
      · cases taken
  | iterate =>
      obtain ⟨timers, turned, rfl⟩ := Option.map_eq_some_iff.mp taken
      exact ⟨_, shows.iterate turned⟩
  | callbackReturns =>
      obtain ⟨timers, returned, rfl⟩ := Option.map_eq_some_iff.mp taken
      exact shows.callbackReturns met returned
  | endFrame =>
      obtain ⟨timers, ended, rfl⟩ := Option.map_eq_some_iff.mp taken
      exact ⟨_, shows.endFrame ended⟩

end Shows

theorem start_shows : Shows (fun _ => 0) start := by
  constructor
  case ids => rfl
  case nextId => rfl
  case live => rfl
  case entries => rfl
  case depth => rfl
  case agree => nofun
  case clock => decide
  case once => nofun
  case finished => exact .nil
  case whole => nofun
  case outside => exact fun _ => rfl
  case inside => nofun

/-- Where every step is proper the timers are kept as they were asked for. -/
theorem timers_kept (labels : List Label)
    (met : Guarded step (fun scheduler label => proper scheduler label = true) start labels) :
    Always step Kept start labels := by
  refine @always_of_guarded _ _ _ (fun scheduler => ∃ next, Shows next scheduler) _ _ ?_ ?_ _
    ⟨_, start_shows⟩ _ met
  · rintro before label after ⟨next, shows⟩ proper taken
    exact step_shows shows proper taken
  · rintro state ⟨next, shows⟩
    exact shows.kept

/-- A Repeat of 10 and an EveryFrame, a one-shot booked by the first's callback, and a drop. -/
def errand : List Label :=
  [.repeatEvery 10 0, .everyFrame, .frame 10, .iterate, .delay 5 11, .callbackReturns, .iterate,
    .drop 2, .callbackReturns, .endFrame, .frame 16, .iterate, .iterate, .callbackReturns,
    .endFrame]

theorem errand_kept : Guarded step (fun scheduler label => proper scheduler label = true) start
      errand ∧ Always step Kept start errand ∧ (Transition.run step start errand).isSome :=
  ⟨by decide, timers_kept errand (by decide), by decide⟩

/-- A Repeat with an interval of 0 is gone after its first run, though nothing dropped it. -/
theorem repeat_zero_retired : ¬∀ labels, Always step Kept start labels := by
  intro every
  have always := (always_iff_everywhere ..).mp
    (every [.repeatEvery 0 0, .frame 0, .iterate, .callbackReturns])
  have kept := always _ _ List.prefix_rfl rfl
  have still := (kept.stays 1).mpr ⟨_, List.mem_singleton_self _, rfl, rfl⟩
  cases still

end VoltMod.Scheduling
