import Mathlib.Data.Finset.Card
import VoltMod.Visibility

/-!
Hooks/Vote.cpp. Publishing an event or asking a request's callback puts a frame on the stack:
what the service still has to do when the listener returns. Listeners may call the service
again, its timers come between outermost calls only. A reference to the running ballot is to
the service's one place for it, so it reads whichever ballot is there; where there is none the
access is `stale`. Ballots are numbered; `votes`, `ended` and `finished` are history.
-/

namespace VoltMod.Vote
open Hooks Transition

abbrev Slot := Fin maxPlayers

inductive VoteEndReason where
  | allVoted | timeUp | cancelled
  deriving DecidableEq, Repr

structure VoteTally where
  eligible : Int
  yes : Int
  no : Int
  deriving DecidableEq, Repr

def cast (tally : VoteTally) : Int := tally.yes + tally.no

/-- What a request decides with, and whether it wants to be told. -/
structure VoteRequest where
  passed : Option (VoteTally → Bool)
  finished : Bool

structure Ballot where
  id : Nat
  passed : VoteTally → Bool
  finished : Bool
  tally : VoteTally
  waiting : Finset Slot
  timeout : Bool
  close : Bool

inductive VoteOption where
  | yes | no
  deriving DecidableEq, Repr

structure VoteCount where
  ballot : Nat
  slot : Slot
  option : VoteOption
  deriving DecidableEq, Repr

/-- A ballot Finish took out of the service, in its own variable since. -/
structure Taken where
  id : Nat
  passed : VoteTally → Bool
  finished : Bool
  tally : VoteTally
  reason : VoteEndReason

/-- One run of a Finished callback. -/
structure Finished where
  id : Nat
  passed : Bool
  reason : VoteEndReason
  deriving DecidableEq, Repr

inductive Frame where
  /-- Start, in vote_changed. -/
  | start
  /-- TryCastBallot, in vote_cast for the slot it counted in that ballot. -/
  | cast (ballot : Nat) (slot : Slot)
  /-- TryCastBallot or DropVoter, in vote_changed. -/
  | counts
  /-- Finish, in the request's Passed. -/
  | passed (taken : Taken)
  /-- Finish, in the request's Finished. -/
  | finished

structure Service where
  running : Option Ballot
  frames : List Frame
  nextId : Nat
  stale : Bool
  votes : List VoteCount
  ended : List Taken
  finished : List Finished

def idle : Service := ⟨none, [], 0, false, [], [], []⟩

section Source

def slotOf (slot : Int) : Option Slot :=
  if valid : 0 ≤ slot ∧ slot < maxPlayers then some ⟨slot.toNat, by omega⟩ else none

def optionOf (option : String) : Option VoteOption :=
  if option = "option1" then some .yes else if option = "option2" then some .no else none

def publish (frame : Frame) (service : Service) : Service :=
  { service with frames := frame :: service.frames }

/-- Start up to the publishing of its counts; `humans` are the connected players no bot is. -/
def start (request : VoteRequest) (humans : Finset Slot) (service : Service) : Service :=
  match service.running, request.passed with
  | none, some passed =>
      if humans.card = 0 then service
      else publish .start { service with
        running := some ⟨service.nextId, passed, request.finished, ⟨humans.card, 0, 0⟩, humans,
          false, false⟩
        nextId := service.nextId + 1 }
  | _, _ => service

/-- Start from there on: the start is sent and the timeout armed. -/
def startRest (service : Service) : Service :=
  match service.running with
  | none => { service with stale := true }
  | some ballot => { service with running := some { ballot with timeout := true } }

def tallied (option : VoteOption) (tally : VoteTally) : VoteTally :=
  match option with
  | .yes => { tally with yes := tally.yes + 1 }
  | .no => { tally with no := tally.no + 1 }

/-- TryCastBallot up to the publishing of the ballot. -/
def tryCastBallot (slot : Int) (option : String) (service : Service) : Service :=
  match service.running, slotOf slot, optionOf option with
  | some ballot, some slot, some option =>
      if slot ∈ ballot.waiting then
        publish (.cast ballot.id slot) { service with
          running := some { ballot with tally := tallied option ballot.tally }
          votes := service.votes ++ [⟨ballot.id, slot, option⟩] }
      else service
  | _, _, _ => service

/-- TryCastBallot from there to the publishing of its counts. -/
def castRest (slot : Slot) (service : Service) : Service :=
  match service.running with
  | none => { service with stale := true }
  | some ballot =>
      publish .counts { service with
        running := some { ballot with waiting := ballot.waiting.erase slot } }

/-- DropVoter up to the publishing of its counts. -/
def dropVoter (slot : Int) (service : Service) : Service :=
  match service.running, slotOf slot with
  | some ballot, some slot =>
      if slot ∈ ballot.waiting then
        publish .counts { service with
          running := some { ballot with
            waiting := ballot.waiting.erase slot
            tally := { ballot.tally with eligible := ballot.tally.eligible - 1 } } }
      else service
  | _, _ => service

def closeIfAllVoted (service : Service) : Service :=
  match service.running with
  | none => { service with stale := true }
  | some ballot =>
      if cast ballot.tally < ballot.tally.eligible then service
      else { service with running := some { ballot with close := true } }

def decision (taken : Taken) : Bool :=
  taken.reason ≠ .cancelled && taken.passed taken.tally

/-- Finish once it is known whether the vote passed. -/
def finishRest (taken : Taken) (service : Service) : Service :=
  if taken.finished then
    publish .finished { service with
      finished := service.finished ++ [⟨taken.id, decision taken, taken.reason⟩] }
  else service

/-- Finish up to the asking of the request's Passed; a cancelled vote is not asked about. -/
def finish (reason : VoteEndReason) (service : Service) : Service :=
  match service.running with
  | none => { service with stale := true }
  | some ballot =>
      let taken := ⟨ballot.id, ballot.passed, ballot.finished, ballot.tally, reason⟩
      let emptied := { service with running := none, ended := service.ended ++ [taken] }
      if reason = .cancelled then finishRest taken emptied else publish (.passed taken) emptied

def endVote (reason : VoteEndReason) (service : Service) : Service :=
  if service.running.isSome then finish reason service else service

def resume : Frame → Service → Service
  | .start => startRest
  | .cast _ slot => castRest slot
  | .counts => closeIfAllVoted
  | .passed taken => finishRest taken
  | .finished => id

end Source

inductive Label where
  | start (request : VoteRequest) (humans : Finset Slot)
  | tryCastBallot (slot : Int) (option : String)
  | dropVoter (slot : Int)
  | endVote (reason : VoteEndReason)
  /-- The listener or callback on top returns. -/
  | resume
  | timeout
  | close

def armed (timer : Ballot → Bool) (service : Service) : Bool :=
  service.frames.isEmpty && service.running.any timer

def step (service : Service) : Label → Option Service
  | .start request humans => some (start request humans service)
  | .tryCastBallot slot option => some (tryCastBallot slot option service)
  | .dropVoter slot => some (dropVoter slot service)
  | .endVote reason => some (endVote reason service)
  | .resume =>
      match service.frames with
      | [] => none
      | frame :: rest => some (resume frame { service with frames := rest })
  | .timeout => if armed (·.timeout) service then some (finish .timeUp service) else none
  | .close => if armed (·.close) service then some (finish .allVoted service) else none

/-- The slots whose ballot is being published, in the ballot they were counted in. -/
def counting (ballot : Nat) (frames : List Frame) : List Slot :=
  frames.filterMap fun
    | .cast other slot => if other = ballot then some slot else none
    | _ => none

def deciding (frames : List Frame) : List Taken :=
  frames.filterMap fun
    | .passed taken => some taken
    | _ => none

def outcome (taken : Taken) : Finished := ⟨taken.id, decision taken, taken.reason⟩

def outcomes (taken : List Taken) : List Finished := (taken.filter (·.finished)).map outcome

def countOf (votes : List VoteCount) (ballot : Nat) (option : VoteOption) : Nat :=
  votes.countP fun vote => vote.ballot = ballot && vote.option = option

structure OwnCounts (votes : List VoteCount) (ballot : Nat) (tally : VoteTally) : Prop where
  yes : tally.yes = countOf votes ballot .yes
  no : tally.no = countOf votes ballot .no

structure Kept (service : Service) : Prop where
  untouched : service.stale = false
  once : (service.votes.map fun vote => (vote.ballot, vote.slot)).Nodup
  balanced : service.frames = [] → ∀ ballot, service.running = some ballot →
    cast ballot.tally + ballot.waiting.card = ballot.tally.eligible
  endedOnce : (service.ended.map (·.id)).Nodup
  finishedOnce : (service.finished.map (·.id)).Nodup
  told : service.frames = [] → service.finished.Perm (outcomes service.ended)
  own : ∀ taken ∈ service.ended, OwnCounts service.votes taken.id taken.tally

section Guard

variable (service : Service)

/-- A ballot is there for what is still to be done; for a vote, the one it was counted in or
one that does not wait for the voter. -/
def returns : Frame → Bool
  | .cast ballot slot =>
      service.running.any fun running => running.id = ballot || slot ∉ running.waiting
  | .start | .counts => service.running.isSome
  | .passed _ | .finished => true

def beingCounted (slot : Int) : Bool :=
  service.running.any fun ballot => (slotOf slot).any fun voter =>
    voter ∈ counting ballot.id service.frames

/-- No voter is counted again or dropped while its ballot is being published. -/
def undisturbed : Label → Bool
  | .tryCastBallot slot option => (optionOf option).isNone || !beingCounted service slot
  | .dropVoter slot => !beingCounted service slot
  | .resume => service.frames.head?.all (returns service)
  | _ => true

end Guard

section Frames

@[simp] theorem counting_nil (ballot : Nat) : counting ballot [] = [] := rfl

@[simp] theorem counting_cast (ballot : Nat) (slot : Slot) (rest : List Frame) :
    counting ballot (.cast ballot slot :: rest) = slot :: counting ballot rest := by
  simp [counting]

theorem counting_other {ballot other : Nat} (apart : other ≠ ballot) (slot : Slot)
    (rest : List Frame) : counting ballot (.cast other slot :: rest) = counting ballot rest := by
  simp [counting, apart]

theorem counting_tail {ballot : Nat} {frame : Frame} {rest : List Frame}
    (none : counting ballot (frame :: rest) = []) : counting ballot rest = [] := by
  rw [counting, List.filterMap_eq_nil_iff] at none ⊢
  exact fun other member => none other (List.mem_cons_of_mem _ member)

@[simp] theorem counting_start (ballot : Nat) (rest : List Frame) :
    counting ballot (.start :: rest) = counting ballot rest := rfl

@[simp] theorem counting_counts (ballot : Nat) (rest : List Frame) :
    counting ballot (.counts :: rest) = counting ballot rest := rfl

@[simp] theorem counting_passed (ballot : Nat) (taken : Taken) (rest : List Frame) :
    counting ballot (.passed taken :: rest) = counting ballot rest := rfl

@[simp] theorem counting_finished (ballot : Nat) (rest : List Frame) :
    counting ballot (.finished :: rest) = counting ballot rest := rfl

@[simp] theorem deciding_nil : deciding [] = [] := rfl

@[simp] theorem deciding_passed (taken : Taken) (rest : List Frame) :
    deciding (.passed taken :: rest) = taken :: deciding rest := rfl

@[simp] theorem deciding_cast (ballot : Nat) (slot : Slot) (rest : List Frame) :
    deciding (.cast ballot slot :: rest) = deciding rest := rfl

@[simp] theorem deciding_start (rest : List Frame) : deciding (.start :: rest) = deciding rest :=
  rfl

@[simp] theorem deciding_counts (rest : List Frame) : deciding (.counts :: rest) = deciding rest :=
  rfl

@[simp] theorem deciding_finished (rest : List Frame) :
    deciding (.finished :: rest) = deciding rest := rfl

end Frames

/-- The running ballot's account: every vote counted is of a slot it no longer waits for, but
for those it is publishing. -/
structure Current (votes : List VoteCount) (ballot : Ballot) (publishing : List Slot) : Prop where
  balance : cast ballot.tally + ballot.waiting.card = ballot.tally.eligible + publishing.length
  waiting : ∀ slot ∈ publishing, slot ∈ ballot.waiting
  distinct : publishing.Nodup
  voters : ∀ vote ∈ votes, vote.ballot = ballot.id → vote.slot ∈ ballot.waiting →
    vote.slot ∈ publishing
  own : OwnCounts votes ballot.id ballot.tally

structure Tracked (service : Service) : Prop where
  untouched : service.stale = false
  current : ∀ ballot, service.running = some ballot →
    Current service.votes ballot (counting ballot.id service.frames)
  newer : ∀ ballot, service.running = some ballot → ballot.id < service.nextId
  alive : ∀ ballot, service.running = some ballot → ∀ taken ∈ service.ended, taken.id ≠ ballot.id
  votesOlder : ∀ vote ∈ service.votes, vote.ballot < service.nextId
  endedOlder : ∀ taken ∈ service.ended, taken.id < service.nextId
  framesOlder : ∀ ballot, service.nextId ≤ ballot → counting ballot service.frames = []
  once : (service.votes.map fun vote => (vote.ballot, vote.slot)).Nodup
  endedOnce : (service.ended.map (·.id)).Nodup
  told : (service.finished ++ outcomes (deciding service.frames)).Perm (outcomes service.ended)
  own : ∀ taken ∈ service.ended, OwnCounts service.votes taken.id taken.tally

section Counts

variable {votes : List VoteCount} {ballot : Ballot} {publishing : List Slot} {slot : Slot}

theorem countOf_append (votes : List VoteCount) (vote : VoteCount) (ballot : Nat)
    (option : VoteOption) : countOf (votes ++ [vote]) ballot option =
      countOf votes ballot option +
        if vote.ballot = ballot ∧ vote.option = option then 1 else 0 := by
  simp [countOf, List.countP_append, List.countP_singleton]

theorem OwnCounts.cast {tally : VoteTally} {id : Nat} (own : OwnCounts votes id tally)
    (option : VoteOption) : OwnCounts (votes ++ [⟨id, slot, option⟩]) id (tallied option tally) := by
  constructor
  · cases option <;> simp [countOf_append, tallied, own.yes]
  · cases option <;> simp [countOf_append, tallied, own.no]

theorem OwnCounts.other {tally : VoteTally} {id : Nat} (own : OwnCounts votes id tally)
    {vote : VoteCount} (apart : vote.ballot ≠ id) : OwnCounts (votes ++ [vote]) id tally := by
  constructor
  · simp [countOf_append, apart, own.yes]
  · simp [countOf_append, apart, own.no]

theorem cast_tallied (option : VoteOption) (tally : VoteTally) :
    cast (tallied option tally) = cast tally + 1 ∧
      (tallied option tally).eligible = tally.eligible := by
  cases option <;> simp [tallied, cast] <;> omega

theorem Current.count (current : Current votes ballot publishing) (inside : slot ∈ ballot.waiting)
    (free : slot ∉ publishing) (option : VoteOption) :
    Current (votes ++ [⟨ballot.id, slot, option⟩])
      { ballot with tally := tallied option ballot.tally } (slot :: publishing) where
  balance := by
    have counted := cast_tallied option ballot.tally
    have before := current.balance
    simp only [List.length_cons]
    omega
  waiting := by simpa using ⟨inside, current.waiting⟩
  distinct := current.distinct.cons free
  voters := by
    intro vote member same waits
    rcases List.mem_append.mp member with old | new
    · exact List.mem_cons_of_mem _ (current.voters vote old same waits)
    · cases List.mem_singleton.mp new
      exact List.mem_cons_self
  own := current.own.cast option

/-- What was being published is accounted for. -/
theorem Current.published (current : Current votes ballot (slot :: publishing)) :
    Current votes { ballot with waiting := ballot.waiting.erase slot } publishing where
  balance := by
    have inside := current.waiting slot List.mem_cons_self
    have before := current.balance
    have some := Finset.card_pos.mpr ⟨slot, inside⟩
    simp only [Finset.card_erase_of_mem inside]
    simp only [List.length_cons] at before
    omega
  waiting := by
    intro other member
    refine Finset.mem_erase.mpr ⟨?_, current.waiting other (List.mem_cons_of_mem _ member)⟩
    rintro rfl
    exact (List.nodup_cons.mp current.distinct).1 member
  distinct := (List.nodup_cons.mp current.distinct).2
  voters := by
    intro vote member same waits
    obtain ⟨apart, inside⟩ := Finset.mem_erase.mp waits
    rcases List.mem_cons.mp (current.voters vote member same inside) with here | there
    · exact absurd here apart
    · exact there
  own := current.own

theorem Current.absent (current : Current votes ballot publishing) (outside : slot ∉ ballot.waiting) :
    Current votes { ballot with waiting := ballot.waiting.erase slot } publishing := by
  rwa [Finset.erase_eq_of_notMem outside]

theorem Current.drop (current : Current votes ballot publishing) (inside : slot ∈ ballot.waiting)
    (free : slot ∉ publishing) :
    Current votes
      { ballot with
        waiting := ballot.waiting.erase slot
        tally := { ballot.tally with eligible := ballot.tally.eligible - 1 } } publishing where
  balance := by
    have before := current.balance
    have some := Finset.card_pos.mpr ⟨slot, inside⟩
    simp only [Finset.card_erase_of_mem inside, cast] at before ⊢
    omega
  waiting := by
    intro other member
    refine Finset.mem_erase.mpr ⟨?_, current.waiting other member⟩
    rintro rfl
    exact free member
  distinct := current.distinct
  voters := by
    intro vote member same waits
    exact current.voters vote member same (Finset.mem_erase.mp waits).2
  own := ⟨current.own.yes, current.own.no⟩

theorem Current.timers (current : Current votes ballot publishing) (timeout close : Bool) :
    Current votes { ballot with timeout, close } publishing :=
  ⟨current.balance, current.waiting, current.distinct, current.voters, current.own⟩

end Counts

section Steps

variable {service : Service} {ballot after : Ballot} {frames rest : List Frame} {taken : Taken}

/-- The running ballot and the stack change, the history does not. -/
theorem Tracked.edit (tracked : Tracked service) (running : service.running = some ballot)
    (same : after.id = ballot.id)
    (current : Current service.votes after (counting after.id frames))
    (older : ∀ id, service.nextId ≤ id → counting id frames = [])
    (asked : deciding frames = deciding service.frames) :
    Tracked { service with running := some after, frames } :=
  { tracked with
    current := by
      rintro _ ⟨⟩
      exact current
    newer := by
      rintro _ ⟨⟩
      exact same ▸ tracked.newer ballot running
    alive := by
      rintro _ ⟨⟩
      exact same ▸ tracked.alive ballot running
    framesOlder := older
    told := by simpa only [asked] using tracked.told }

theorem Tracked.reframe (tracked : Tracked service)
    (counted : ∀ id, counting id frames = counting id service.frames)
    (asked : deciding frames = deciding service.frames) : Tracked { service with frames } :=
  { tracked with
    current := by
      intro ballot running
      rw [counted]
      exact tracked.current ballot running
    framesOlder := by
      intro id above
      rw [counted]
      exact tracked.framesOlder id above
    told := by simpa only [asked] using tracked.told }

theorem Current.begin {votes : List VoteCount} {id : Nat} (passed : VoteTally → Bool)
    (finished : Bool) (humans : Finset Slot) (unvoted : ∀ vote ∈ votes, vote.ballot ≠ id) :
    Current votes ⟨id, passed, finished, ⟨humans.card, 0, 0⟩, humans, false, false⟩ [] := by
  have none : ∀ option, countOf votes id option = 0 := by
    intro option
    rw [countOf, List.countP_eq_zero]
    intro vote member
    simp [unvoted vote member]
  constructor
  case balance => simp [cast]
  case waiting => simp
  case distinct => exact List.nodup_nil
  case voters => exact fun vote member same _ => absurd same (unvoted vote member)
  case own => exact ⟨by simp [none], by simp [none]⟩

theorem start_tracked (tracked : Tracked service) (request : VoteRequest)
    (humans : Finset Slot) : Tracked (start request humans service) := by
  rw [start]
  split
  · next passed empty given =>
      split
      · exact tracked
      · exact { tracked with
          current := by
            rintro _ ⟨⟩
            have unpublished := tracked.framesOlder _ le_rfl
            simp only [publish, counting_start, unpublished]
            exact .begin _ _ _ fun vote member => (tracked.votesOlder vote member).ne
          newer := by
            rintro _ ⟨⟩
            exact Nat.lt_succ_self _
          alive := by
            rintro _ ⟨⟩ taken member
            exact (tracked.endedOlder taken member).ne
          votesOlder := fun vote member => (tracked.votesOlder vote member).trans
            (Nat.lt_succ_self _)
          endedOlder := fun taken member => (tracked.endedOlder taken member).trans
            (Nat.lt_succ_self _)
          framesOlder := fun id above => tracked.framesOlder id (Nat.le_of_succ_le above) }
  · exact tracked

theorem outcomes_append (first second : List Taken) :
    outcomes (first ++ second) = outcomes first ++ outcomes second := by
  simp [outcomes]

theorem finishRest_tracked (asked : Tracked (publish (.passed taken) service)) :
    Tracked (finishRest taken service) := by
  have told : (service.finished ++ outcomes (taken :: deciding service.frames)).Perm
      (outcomes service.ended) := asked.told
  rw [finishRest]
  split
  · next wanted =>
      refine { asked with told := ?_ }
      simpa [publish, outcomes, wanted, outcome] using told
  · next unwanted =>
      refine { asked with told := ?_ }
      simpa [outcomes, unwanted] using told

theorem finish_tracked (tracked : Tracked service) (running : service.running = some ballot)
    (reason : VoteEndReason) : Tracked (finish reason service) := by
  have asked : ∀ taken : Taken, taken.id = ballot.id → taken.tally = ballot.tally →
      Tracked (publish (.passed taken)
        { service with running := none, ended := service.ended ++ [taken] }) := by
    intro taken same counts
    exact { tracked with
      current := nofun
      newer := nofun
      alive := nofun
      endedOlder := by
        intro other member
        rcases List.mem_append.mp member with old | new
        · exact tracked.endedOlder other old
        · cases List.mem_singleton.mp new
          exact same ▸ tracked.newer ballot running
      endedOnce := by
        simp only [publish, List.map_append, List.map_singleton]
        refine List.concat_eq_append ▸ tracked.endedOnce.concat ?_
        intro member
        obtain ⟨other, inside, twice⟩ := List.mem_map.mp member
        exact tracked.alive ballot running other inside (twice.trans same)
      told := by
        have moved : (service.finished ++ outcomes (taken :: deciding service.frames)).Perm
            (outcomes (service.ended ++ [taken])) := by
          rw [← List.singleton_append, outcomes_append, outcomes_append]
          refine (List.perm_append_comm.append_left _).trans ?_
          rw [← List.append_assoc]
          exact tracked.told.append_right _
        exact moved
      own := by
        intro other member
        rcases List.mem_append.mp member with old | new
        · exact tracked.own other old
        · cases List.mem_singleton.mp new
          rw [same, counts]
          exact (tracked.current ballot running).own }
  simp only [finish, running]
  split
  · exact finishRest_tracked (asked _ rfl rfl)
  · exact asked _ rfl rfl

theorem resume_tracked {frame : Frame} (tracked : Tracked service)
    (top : service.frames = frame :: rest) (met : returns service frame = true) :
    Tracked (resume frame { service with frames := rest }) := by
  cases frame with
  | start =>
      obtain ⟨ballot, running⟩ := Option.isSome_iff_exists.mp met
      have same := tracked.current ballot running
      have older := tracked.framesOlder
      rw [top] at same older
      simp only [resume, startRest, running]
      exact tracked.edit running rfl (same.timers true ballot.close) older (by simp [top])
  | cast other slot =>
      obtain ⟨ballot, running, there⟩ := (Option.any_eq_true ..).mp met
      simp only [Bool.or_eq_true, decide_eq_true_eq] at there
      have same := tracked.current ballot running
      have older := tracked.framesOlder
      rw [top] at same older
      simp only [resume, castRest, running]
      refine tracked.edit running rfl ?_ ?_ (by simp [top])
      · by_cases here : other = ballot.id
        · subst here
          rw [counting_cast] at same
          exact same.published
        · -- A later ballot has taken the place: it does not wait for the voter.
          rw [counting_other here] at same
          exact same.absent (there.resolve_left (Ne.symm here))
      · intro id above
        simpa using counting_tail (older id above)
  | counts =>
      obtain ⟨ballot, running⟩ := Option.isSome_iff_exists.mp met
      have same := tracked.current ballot running
      have older := tracked.framesOlder
      rw [top] at same older
      simp only [resume, closeIfAllVoted, running]
      split
      · exact tracked.edit running rfl same older (by simp [top])
      · exact tracked.edit running rfl (same.timers ballot.timeout true) older (by simp [top])
  | passed taken =>
      refine finishRest_tracked ?_
      simpa [publish, ← top] using tracked
  | finished => exact tracked.reframe (by simp [top]) (by simp [top])

theorem armed_running {timer : Ballot → Bool} (ready : armed timer service = true) :
    ∃ ballot, service.running = some ballot := by
  rw [armed, Bool.and_eq_true, Option.any_eq_true] at ready
  obtain ⟨_, ballot, running, _⟩ := ready
  exact ⟨ballot, running⟩

theorem tryCastBallot_tracked {slot : Int} {option : String} (tracked : Tracked service)
    (free : undisturbed service (.tryCastBallot slot option) = true) :
    Tracked (tryCastBallot slot option service) := by
  rw [tryCastBallot]
  split
  · next ballot voter choice running named chosen =>
      split
      · next waits =>
          have new : voter ∉ counting ballot.id service.frames := by
            simpa [undisturbed, chosen, beingCounted, running, named] using free
          have counted := (tracked.current ballot running).count waits new choice
          exact { tracked with
            current := by
              rintro _ ⟨⟩
              simpa [publish] using counted
            newer := by
              rintro _ ⟨⟩
              exact tracked.newer ballot running
            alive := by
              rintro _ ⟨⟩
              exact tracked.alive ballot running
            votesOlder := by
              intro vote member
              rcases List.mem_append.mp member with old | last
              · exact tracked.votesOlder vote old
              · cases List.mem_singleton.mp last
                exact tracked.newer ballot running
            framesOlder := by
              intro id above
              have apart : ballot.id ≠ id := ((tracked.newer ballot running).trans_le above).ne
              simpa [publish, counting_other apart] using tracked.framesOlder id above
            once := by
              simp only [publish, List.map_append, List.map_singleton]
              refine List.concat_eq_append ▸ tracked.once.concat ?_
              intro member
              obtain ⟨vote, inside, same⟩ := List.mem_map.mp member
              obtain ⟨sameBallot, sameSlot⟩ := Prod.mk.inj same
              have published := (tracked.current ballot running).voters vote inside sameBallot
                (sameSlot ▸ waits)
              exact new (sameSlot ▸ published)
            own := by
              intro taken member
              exact (tracked.own taken member).other (tracked.alive ballot running taken member).symm }
      · exact tracked
  · exact tracked

theorem dropVoter_tracked {slot : Int} (tracked : Tracked service)
    (free : undisturbed service (.dropVoter slot) = true) :
    Tracked (dropVoter slot service) := by
  rw [dropVoter]
  split
  · next ballot voter running named =>
      split
      · next waits =>
          have same := tracked.current ballot running
          have new : voter ∉ counting ballot.id service.frames := by
            simpa [undisturbed, beingCounted, running, named] using free
          exact tracked.edit running rfl (same.drop waits new) tracked.framesOlder rfl
      · exact tracked
  · exact tracked

theorem step_tracked {label : Label} {next : Service} (tracked : Tracked service)
    (met : undisturbed service label = true) (taken : step service label = some next) :
    Tracked next := by
  cases label with
  | start request humans =>
      cases taken
      exact start_tracked tracked request humans
  | tryCastBallot slot option =>
      cases taken
      exact tryCastBallot_tracked tracked met
  | dropVoter slot =>
      cases taken
      exact dropVoter_tracked tracked met
  | endVote reason =>
      cases taken
      rw [endVote]
      split
      · next there =>
          obtain ⟨ballot, running⟩ := Option.isSome_iff_exists.mp there
          exact finish_tracked tracked running reason
      · exact tracked
  | resume =>
      simp only [step] at taken
      split at taken
      · cases taken
      · next frame rest top =>
          cases taken
          exact resume_tracked tracked top (by simpa [undisturbed, top] using met)
  | timeout =>
      obtain ⟨ready, same⟩ := Option.ite_none_right_eq_some.mp taken
      cases same
      obtain ⟨ballot, running⟩ := armed_running ready
      exact finish_tracked tracked running .timeUp
  | close =>
      obtain ⟨ready, same⟩ := Option.ite_none_right_eq_some.mp taken
      cases same
      obtain ⟨ballot, running⟩ := armed_running ready
      exact finish_tracked tracked running .allVoted

end Steps

theorem tracked_kept {service : Service} (tracked : Tracked service) : Kept service where
  untouched := tracked.untouched
  once := tracked.once
  balanced := by
    intro outermost ballot running
    simpa [outermost] using (tracked.current ballot running).balance
  endedOnce := tracked.endedOnce
  finishedOnce := by
    have ids : (outcomes service.ended).map (·.id) = (service.ended.filter (·.finished)).map (·.id) := by
      simp [outcomes, outcome]
    have distinct : ((outcomes service.ended).map (·.id)).Nodup := by
      rw [ids]
      exact tracked.endedOnce.sublist (List.filter_sublist.map _)
    have all := ((tracked.told.map (·.id)).nodup_iff).mpr distinct
    rw [List.map_append] at all
    exact all.of_append_left
  told := by
    intro outermost
    simpa [outermost, outcomes] using tracked.told
  own := tracked.own

theorem idle_tracked : Tracked idle := by
  constructor <;> simp [idle, outcomes]

def humans : Finset Slot := {⟨1, by decide⟩, ⟨2, by decide⟩}

def majority : VoteRequest := ⟨some fun tally => decide (tally.no < tally.yes), true⟩

end VoltMod.Vote
