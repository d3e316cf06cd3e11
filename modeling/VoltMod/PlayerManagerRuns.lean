import VoltMod.PlayerManager

/-! Every run of the roster in which nobody is removed amid the raises about them. The invariant
keeps a phase for each slot: which of its player's events are still to be called, and who has
heard. -/
namespace VoltMod.PlayerManager
open Players (Player)
open Transition

variable {Subscriber : Type}

section Sound
variable [DecidableEq Subscriber] {handlers : Handlers Subscriber}
  {manager after : Manager Subscriber} {rest pushed : List (Task Subscriber)}
  {head : Task Subscriber}

theorem start_sound : Sound handlers (start : Manager Subscriber) where
  phase _ := .vacant fun _ _ _ => rfl
  ordered := List.Pairwise.nil
  emptied := nofun
  announcing := nofun
  seated := nofun
  inTurn _ := rfl
  there := nofun
  told _ _ _ _ _ _ split := by simp [start] at split
  indexed := nofun

/-- A slot counted on to be empty has its Drop still below, unless that was the head's to do. -/
theorem emptied_pushed (sound : Sound handlers manager) (split : manager.tasks = head :: rest)
    (tame : ∀ task ∈ pushed, Tame task) {task : Task Subscriber} (inside : task ∈ pushed ++ rest)
    {slot : Int} (empties : task.empties slot = true)
    (occupied : (get slot manager.bySlot).isSome = true) :
    (.drop slot ∈ pushed ++ rest ∨ .erase slot ∈ pushed ++ rest) ∨
      head = .drop slot ∨ head = .erase slot := by
  have below : task ∈ rest := by
    apply (List.mem_append.mp inside).resolve_left
    intro above
    rw [tame_empties (tame task above)] at empties
    cases empties
  have known :=
    sound.emptied task (split ▸ List.mem_cons_of_mem head below) slot empties occupied
  rw [split] at known
  rcases known with drop | erase
  · rcases List.mem_cons.mp drop with same | later
    · exact Or.inr (Or.inl same.symm)
    · exact Or.inl (Or.inl (List.mem_append_right _ later))
  · rcases List.mem_cons.mp erase with same | later
    · exact Or.inr (Or.inr same.symm)
    · exact Or.inl (Or.inr (List.mem_append_right _ later))

/-- Whoever is still to be told of a player's joining has heard the slot change, or will before. -/
theorem announcing_pushed (sound : Sound handlers manager) (split : manager.tasks = head :: rest)
    (tame : ∀ task ∈ pushed, Tame task)
    (noCall : ∀ slot subscriber, head ≠ .call .changed slot none subscriber) {slot : Int}
    {occupant : Occupant} {subscriber : Subscriber}
    (inside : .call .connected slot (some occupant) subscriber ∈ pushed ++ rest)
    {other : Subscriber} (told : other ∈ handlers.of .changed) :
    .call .changed slot none other ∈ pushed ++ rest ∨
      Announced slot occupant other manager.log := by
  have below : .call .connected slot (some occupant) subscriber ∈ rest :=
    (List.mem_append.mp inside).resolve_left fun above =>
      (tame _ above).noJoin slot occupant subscriber rfl
  refine (sound.announcing slot occupant subscriber (split ▸ List.mem_cons_of_mem head below) other
    told).imp_left fun waiting => List.mem_append_right _ ?_
  rw [split] at waiting
  exact (List.mem_cons.mp waiting).resolve_left fun same => noCall slot other same.symm

/-- A task about nobody gives way to others about nobody. -/
theorem replaced_sound (sound : Sound handlers manager) (split : manager.tasks = head :: rest)
    (silent : ∀ slot, head.concerns slot = false) (noDrop : ∀ slot, head ≠ .drop slot)
    (noCall : ∀ slot subscriber, head ≠ .call .changed slot none subscriber)
    (tame : ∀ task ∈ pushed, Tame task)
    (quiet : ∀ task ∈ pushed, ∀ slot, task.concerns slot = false) :
    Sound handlers { manager with tasks := pushed ++ rest } := by
  have ordered := sound.ordered
  rw [split] at ordered
  refine { sound with
    phase := fun slot => ?_
    ordered := tame_ordered tame (List.pairwise_cons.mp ordered).2
    emptied := ?_
    announcing := fun _ _ _ inside _ told => announcing_pushed sound split tame noCall inside told }
  · have phase := sound.phase slot
    rw [split, filter_apart head (silent slot)] at phase
    have nothing : pushed.filter (Task.concerns slot) = [] :=
      List.filter_eq_nil_iff.mpr fun task inside => by simp [quiet task inside]
    rwa [List.filter_append, nothing, List.nil_append]
  · intro task inside slot empties occupied
    rcases emptied_pushed sound split tame inside empties occupied with known | drop | erase
    · exact known
    · exact absurd drop (noDrop slot)
    · have silent := silent slot
      rw [erase] at silent
      exact absurd rfl (of_decide_eq_false silent)

/-- A player's next call is about the player in the slot, and leaves the phase one call on. -/
theorem phase_called {slot : Int} {signal : Signal} {occupant : Occupant} {at_ : Option Occupant}
    {subscriber : Subscriber} {tasks : List (Task Subscriber)} {log : List (Entry Subscriber)}
    (there : Bool)
    (phase : Phase handlers slot (fun other => status (heard other slot log)) at_ tasks)
    (split : tasks = .call signal slot (some occupant) subscriber :: rest) :
    at_ = some occupant ∧ Phase handlers slot (fun other => status (heard other slot
      (log ++ [.called signal slot (some occupant) subscriber there]))) at_ rest := by
  cases phase with
  | vacant silent => cases split
  | joining here left suffix told =>
      cases left with
      | nil => cases split
      | cons first left =>
          cases split
          refine ⟨rfl, .joining occupant left ((List.suffix_cons ..).trans suffix) ?_⟩
          intro other joins leaves
          have distinct := (handlers.once .connected).sublist suffix.sublist
          simp only [heard_next, told other joins leaves, Entry.news, true_and, List.mem_cons]
          by_cases same : subscriber = other
          · subst same
            simp [follow, (List.nodup_cons.mp distinct).1]
          · simp [same, Ne.symm same]
  | loading here left told =>
      cases left with
      | nil => cases split
      | cons first left =>
          cases split
          refine ⟨rfl, .loading occupant left fun other joins leaves => ?_⟩
          simp only [heard_next, told other joins leaves, Entry.news, Option.elim]
  | leaving here left suffix told =>
      cases left with
      | nil => cases split
      | cons first left =>
          cases split
          refine ⟨rfl, .leaving occupant left ((List.suffix_cons ..).trans suffix) ?_⟩
          intro other joins leaves
          have distinct := (handlers.once .disconnected).sublist suffix.sublist
          simp only [heard_next, told other joins leaves, Entry.news, true_and, List.mem_cons]
          by_cases same : subscriber = other
          · subst same
            simp [follow, (List.nodup_cons.mp distinct).1]
          · simp [same, Ne.symm same]

theorem phase_member {slot : Int} {news : Subscriber → Option Bool} {at_ : Option Occupant}
    {tasks : List (Task Subscriber)} (phase : Phase handlers slot news at_ tasks)
    {signal : Signal} {occupant : Occupant} {subscriber : Subscriber}
    (member : .call signal slot (some occupant) subscriber ∈ tasks) : at_ = some occupant := by
  cases phase with
  | vacant silent => cases member
  | joining here left suffix told =>
      obtain ⟨_, _, same⟩ := mem_calls.mp member
      cases same
      rfl
  | loading here left told =>
      obtain ⟨_, _, same⟩ := mem_calls.mp member
      cases same
      rfl
  | leaving here left suffix told =>
      rcases List.mem_append.mp member with call | erase
      · obtain ⟨_, _, same⟩ := mem_calls.mp call
        cases same
        rfl
      · cases List.mem_singleton.mp erase

/-- Whom a call is still to be about is in the slot. -/
theorem waiting_there (sound : Sound handlers manager) {signal : Signal} {slot : Int}
    {occupant : Occupant} {subscriber : Subscriber}
    (member : .call signal slot (some occupant) subscriber ∈ manager.tasks) :
    get slot manager.bySlot = some occupant := by
  refine phase_member (sound.phase slot) (List.mem_filter.mpr ⟨member, ?_⟩)
  simp [Task.concerns]

theorem call_phase {signal : Signal} {slot : Int} {occupant : Option Occupant}
    {subscriber : Subscriber} (there : Bool) (sound : Sound handlers manager)
    (split : manager.tasks = .call signal slot occupant subscriber :: rest) (other : Int) :
    Phase handlers other (fun subscriber_ => status (heard subscriber_ other
      (manager.log ++ [.called signal slot occupant subscriber there])))
      (get other manager.bySlot) (rest.filter (Task.concerns other)) := by
  have phase := sound.phase other
  rw [split] at phase
  cases occupant with
  | none =>
      rw [filter_apart (.call signal slot none subscriber) rfl] at phase
      have silent : ∀ subscriber_, (Entry.called signal slot none subscriber there).news
          subscriber_ other = none := fun subscriber_ => by cases signal <;> rfl
      simpa only [heard_next, silent, Option.elim] using phase
  | some occupant =>
      by_cases same : slot = other
      · subst same
        rw [filter_own (.call signal slot (some occupant) subscriber) (decide_eq_true rfl)] at phase
        exact (phase_called there phase rfl).2
      · rw [filter_apart (.call signal slot (some occupant) subscriber) (decide_eq_false same)] at phase
        have silent : ∀ subscriber_, (Entry.called signal slot (some occupant) subscriber
            there).news subscriber_ other = none := fun subscriber_ => by
          cases signal <;> simp [Entry.news, same]
        simpa only [heard_next, silent, Option.elim] using phase

theorem call_sound {signal : Signal} {slot : Int} {occupant : Option Occupant}
    {subscriber : Subscriber} (sound : Sound handlers manager)
    (split : manager.tasks = .call signal slot occupant subscriber :: rest) :
    Sound handlers { manager with
      tasks := .inHandler :: rest
      log := manager.log ++
        [.called signal slot occupant subscriber (isThere occupant manager.bySlot)] } := by
  have ordered := sound.ordered
  rw [split] at ordered
  obtain ⟨above, ordered⟩ := List.pairwise_cons.mp ordered
  have running : ∀ task ∈ [(.inHandler : Task Subscriber)], Tame task := fun task inside =>
    List.mem_singleton.mp inside ▸ inHandler_tame
  refine { sound with
    phase := fun other => ?_
    ordered := List.pairwise_cons.mpr ⟨fun lower _ => tame_before inHandler_tame lower, ordered⟩
    emptied := ?_
    announcing := ?_
    seated := fun other here found => List.mem_append_left _ (sound.seated other here found)
    inTurn := ?_
    there := ?_
    told := told_append sound.told ?_ }
  · exact call_phase _ sound split other
  · intro task inside other empties occupied
    rcases emptied_pushed sound split running inside empties occupied with known | drop | erase
    · exact known
    · cases drop
    · cases erase
  · intro other here joining inside told listens
    have below : .call .connected other (some here) joining ∈ manager.tasks :=
      split ▸ List.mem_cons_of_mem _ ((List.mem_cons.mp inside).resolve_left nofun)
    have found := waiting_there sound below
    rcases sound.announcing other here joining below told listens with waiting | announced
    · rw [split] at waiting
      rcases List.mem_cons.mp waiting with same | waiting
      · cases same
        exact Or.inr ⟨manager.log, [], _, rfl, sound.seated _ _ found⟩
      · exact Or.inl (List.mem_cons_of_mem _ waiting)
    · exact Or.inr (announced_append announced _)
  · intro other
    have same : occupancy other (manager.log ++ [.called signal slot occupant subscriber
        (isThere occupant manager.bySlot)]) = occupancy other manager.log := by
      simp [occupancy, Entry.stay]
    rw [same]
    exact sound.inTurn other
  · intro signal_ slot_ here subscriber_ there inside
    rcases List.mem_append.mp inside with old | new
    · exact sound.there signal_ slot_ here subscriber_ there old
    · cases List.mem_singleton.mp new
      have found := waiting_there sound (split ▸ List.mem_cons_self)
      simp [isThere, (get_some found).2, found]
  · rintro slot_ here subscriber_ there ⟨⟩ other listens
    rcases sound.announcing slot here subscriber (split ▸ List.mem_cons_self) other listens with
      waiting | announced
    · rw [split] at waiting
      have below := (List.mem_cons.mp waiting).resolve_left nofun
      exact absurd rfl ((above _ below).announces slot here subscriber other rfl)
    · exact announced

/-- With nothing still to come about a slot's player, every subscriber has heard they joined. -/
theorem phase_settled {slot : Int} {news : Subscriber → Option Bool} {occupant : Occupant}
    {tasks : List (Task Subscriber)} (phase : Phase handlers slot news (some occupant) tasks)
    (nothing : tasks = []) (subscriber : Subscriber)
    (joins : subscriber ∈ handlers.of .connected)
    (leaves : subscriber ∈ handlers.of .disconnected) : news subscriber = some true := by
  cases phase with
  | joining here left suffix told =>
      cases List.map_eq_nil_iff.mp nothing
      simpa using told subscriber joins leaves
  | loading here left told => exact told subscriber joins leaves
  | leaving here left suffix told => simp at nothing

theorem drop_none_sound {slot : Int} (sound : Sound handlers manager)
    (split : manager.tasks = .drop slot :: rest) (vacant : get slot manager.bySlot = none) :
    Sound handlers { manager with tasks := rest } := by
  refine { sound with
    phase := fun other => ?_
    ordered := (split ▸ sound.ordered).of_cons
    emptied := ?_
    announcing := fun _ _ _ inside _ told =>
      announcing_pushed sound split (List.forall_mem_nil Tame) (fun _ _ => nofun) inside told }
  · have phase := sound.phase other
    rwa [split, filter_apart (.drop slot) rfl] at phase
  · intro task inside other empties occupied
    rcases emptied_pushed sound split (List.forall_mem_nil Tame) inside empties occupied with
      known | drop | erase
    · exact known
    · cases drop
      rw [vacant] at occupied
      cases occupied
    · cases erase

theorem drop_some_sound {slot : Int} {occupant : Occupant} (sound : Sound handlers manager)
    (split : manager.tasks = .drop slot :: rest)
    (found : get slot manager.bySlot = some occupant) :
    Sound handlers { manager with
      tasks := raise handlers .disconnected slot (some occupant) ++ .erase slot :: rest } := by
  have ordered := sound.ordered
  rw [split] at ordered
  obtain ⟨above, ordered⟩ := List.pairwise_cons.mp ordered
  have leaving : ∀ task ∈ raise handlers .disconnected slot (some occupant) ++ [.erase slot],
      Tame task := by
    intro task inside
    rcases List.mem_append.mp inside with call | erase
    · exact calls_tame (by decide) _ task call
    · exact List.mem_singleton.mp erase ▸ erase_tame slot
  have whole : raise handlers .disconnected slot (some occupant) ++ .erase slot :: rest =
      (raise handlers .disconnected slot (some occupant) ++ [.erase slot]) ++ rest := by
    rw [List.append_assoc, List.singleton_append]
  rw [whole]
  refine { sound with
    phase := fun other => ?_
    ordered := tame_ordered leaving ordered
    emptied := ?_
    announcing := fun _ _ _ inside _ told =>
      announcing_pushed sound split leaving (fun _ _ => nofun) inside told }
  · have phase := sound.phase other
    rw [split, filter_apart (.drop slot) rfl] at phase
    rw [← whole, List.filter_append, raise]
    by_cases same : slot = other
    · subst same
      have nothing : rest.filter (Task.concerns slot) = [] :=
        List.filter_eq_nil_iff.mpr fun task inside => by simp [(above task inside).drops slot rfl]
      rw [found] at phase
      rw [calls_own, filter_own (.erase slot) (decide_eq_true rfl), nothing, found]
      refine .leaving occupant _ List.suffix_rfl fun subscriber joins leaves => ?_
      rw [phase_settled phase nothing subscriber joins leaves]
      simp [leaves]
    · rwa [calls_apart (Or.inr same), List.nil_append,
        filter_apart (.erase slot) (decide_eq_false same)]
  · intro task inside other empties occupied
    rcases emptied_pushed sound split leaving inside empties occupied with known | drop | erase
    · exact known
    · cases drop
      exact Or.inr (List.mem_append_left _ (List.mem_append_right _ List.mem_cons_self))
    · cases erase

/-- Where the slot is about to be emptied, its player's leaving has been told to everyone. -/
theorem phase_erased {slot : Int} {news : Subscriber → Option Bool} {at_ : Option Occupant}
    {tasks below : List (Task Subscriber)} (phase : Phase handlers slot news at_ tasks)
    (split : tasks = .erase slot :: below) :
    below = [] ∧ at_.isSome = true ∧ ∀ subscriber ∈ handlers.of .connected,
      subscriber ∈ handlers.of .disconnected → news subscriber = some false := by
  cases phase with
  | vacant silent => cases split
  | joining here left suffix told => cases left <;> cases split
  | loading here left told => cases left <;> cases split
  | leaving here left suffix told =>
      cases left with
      | nil =>
          cases split
          exact ⟨rfl, rfl, fun subscriber joins leaves => by simp [told subscriber joins leaves]⟩
      | cons first left => cases split

theorem indexed_left {bySlot : List Occupant} {index : Int → Option Occupant} {slot : Int}
    {occupant : Occupant} (found : get slot bySlot = some occupant)
    (indexed : ∀ steamId other, index steamId = some other →
      get other.player.slot bySlot = some other ∧ other.player.steamId = steamId ∧
        other.player.isBot = false) (steamId : Int) (other : Occupant)
    (here : unindexBySteamId occupant index steamId = some other) :
    index steamId = some other ∧ other.player.slot ≠ slot := by
  have same_slot := (get_some found).2
  rw [unindexBySteamId] at here
  split at here
  · next kept =>
      refine ⟨here, fun meets => ?_⟩
      obtain ⟨there, id, human⟩ := indexed steamId other here
      rw [meets, found] at there
      cases there
      rcases kept with bot | kept
      · exact Bool.false_ne_true (human ▸ bot)
      · exact kept (id ▸ here)
  · by_cases same : steamId = occupant.player.steamId
    · subst same
      rw [Function.update_self] at here
      cases here
    · rw [Function.update_of_ne same] at here
      refine ⟨here, fun meets => ?_⟩
      obtain ⟨there, id, _⟩ := indexed steamId other here
      rw [meets, found] at there
      cases there
      exact same id.symm

theorem erase_sound {slot : Int} {occupant : Occupant} (sound : Sound handlers manager)
    (split : manager.tasks = .erase slot :: rest)
    (found : get slot manager.bySlot = some occupant) :
    Sound handlers { manager with
      bySlot := manager.bySlot.filter fun other => other.player.slot ≠ slot
      bySteamId := unindexBySteamId occupant manager.bySteamId
      tasks := rest
      log := manager.log ++ [.left occupant] } := by
  refine {
    phase := fun other => ?_
    ordered := (split ▸ sound.ordered).of_cons
    emptied := ?_
    announcing := ?_
    seated := ?_
    inTurn := ?_
    there := ?_
    told := told_append sound.told nofun
    indexed := ?_ }
  · have phase := sound.phase other
    simp only [heard_next, Entry.news, Option.elim, get_vacated]
    -- Only the slot that is cleared changes its phase.
    by_cases same : slot = other
    · subst same
      rw [split, filter_own (.erase slot) (decide_eq_true rfl)] at phase
      obtain ⟨nothing, _, silent⟩ := phase_erased phase rfl
      rw [nothing, if_pos rfl]
      exact .vacant silent
    · rw [split, filter_apart (.erase slot) (decide_eq_false same)] at phase
      rwa [if_neg (Ne.symm same)]
  · intro task inside other empties occupied
    rw [get_vacated] at occupied
    split at occupied
    · cases occupied
    · next apart =>
        rcases emptied_pushed sound split (List.forall_mem_nil Tame) inside empties occupied with
          known | drop | erase
        · exact known
        · cases drop
        · exact absurd (Task.erase.inj erase).symm apart
  · intro other here joining inside told listens
    exact (announcing_pushed sound split (List.forall_mem_nil Tame) (fun _ _ => nofun) inside
      listens).imp_right (announced_append · _)
  · intro other here found_
    rw [get_vacated] at found_
    split at found_
    · cases found_
    · exact List.mem_append_left _ (sound.seated other here found_)
  · intro other
    have before := sound.inTurn other
    rw [occupancy_next, before, get_vacated]
    by_cases same : slot = other
    · subst same
      simp [Entry.stay, (get_some found).2, found, follow]
    · simp [Entry.stay, (get_some found).2, same, Ne.symm same]
  · intro signal slot_ here subscriber there inside
    exact sound.there signal slot_ here subscriber there
      ((List.mem_append.mp inside).resolve_right (by simp))
  · intro steamId other here
    obtain ⟨indexed, apart⟩ := indexed_left found sound.indexed steamId other here
    rw [get_vacated, if_neg apart]
    exact sound.indexed steamId other indexed

theorem last_alone (sound : Sound handlers manager) (split : manager.tasks = head :: rest)
    (last : head.isLast = true) : rest = [] := by
  have ordered := sound.ordered
  rw [split] at ordered
  apply List.eq_nil_iff_forall_not_mem.mpr
  intro lower inside
  have apart := ((List.pairwise_cons.mp ordered).1 lower inside).last
  rw [last] at apart
  cases apart

theorem last_empties (sound : Sound handlers manager) (split : manager.tasks = [head])
    (last : head.isLast = true) {slot : Int} (empties : head.empties slot = true) :
    get slot manager.bySlot = none := by
  cases found : get slot manager.bySlot with
  | none => rfl
  | some occupant =>
      rcases sound.emptied head (split ▸ List.mem_cons_self) slot empties (by simp [found]) with
        drop | erase
      · rw [split, List.mem_singleton] at drop
        cases drop
        cases last
      · rw [split, List.mem_singleton] at erase
        cases erase
        cases last

theorem phase_vacant {slot : Int} {news : Subscriber → Option Bool} {at_ : Option Occupant}
    {tasks : List (Task Subscriber)} (phase : Phase handlers slot news at_ tasks)
    (vacant : at_ = none) : tasks = [] ∧ ∀ subscriber ∈ handlers.of .connected,
      subscriber ∈ handlers.of .disconnected → news subscriber = some false := by
  cases phase with
  | vacant silent => exact ⟨rfl, silent⟩
  | joining => cases vacant
  | loading => cases vacant
  | leaving => cases vacant

theorem indexed_seated {index : Int → Option Occupant} {occupant : Occupant} (steamId : Int)
    (other : Occupant) (here : indexBySteamId occupant index steamId = some other) :
    index steamId = some other ∨
      other = occupant ∧ occupant.player.steamId = steamId ∧ occupant.player.isBot = false := by
  rw [indexBySteamId] at here
  split at here
  · exact Or.inl here
  · next human =>
      by_cases same : steamId = occupant.player.steamId
      · subst same
        rw [Function.update_self] at here
        exact Or.inr ⟨(Option.some.inj here).symm, rfl, by simpa using human⟩
      · rw [Function.update_of_ne same] at here
        exact Or.inl here

theorem seat_sound {occupant : Occupant} (sound : Sound handlers manager)
    (split : manager.tasks = [.seat occupant.player]) (next : Nat) :
    Sound handlers {
      bySlot := occupant :: manager.bySlot.filter fun other =>
        other.player.slot ≠ occupant.player.slot
      bySteamId := indexBySteamId occupant manager.bySteamId
      tasks := raise handlers .changed occupant.player.slot none ++
        raise handlers .connected occupant.player.slot (some occupant)
      next := next
      log := manager.log ++ [.seated occupant] } := by
  -- Seating is the last task, so whoever sat there is out.
  have vacant : get occupant.player.slot manager.bySlot = none :=
    last_empties sound split rfl (by simp [Task.empties])
  have announcing : ∀ task ∈ raise handlers .changed occupant.player.slot none, Tame task :=
    calls_tame (by decide) _
  refine {
    phase := fun other => ?_
    ordered := tame_ordered announcing (joining_ordered _ _ _)
    emptied := ?_
    announcing := ?_
    seated := ?_
    inTurn := ?_
    there := ?_
    told := told_append sound.told nofun
    indexed := ?_ }
  · have phase := sound.phase other
    rw [split, filter_apart (.seat occupant.player) rfl] at phase
    simp only [heard_next, Entry.news, Option.elim, get_seated]
    rw [List.filter_append, raise, calls_apart (Or.inl rfl), List.nil_append, raise]
    by_cases same : other = occupant.player.slot
    · subst same
      rw [if_pos rfl, calls_own]
      refine .joining occupant _ List.suffix_rfl fun subscriber joins leaves => ?_
      simp [(phase_vacant phase vacant).2 subscriber joins leaves, joins]
    · rwa [if_neg same, calls_apart (Or.inr (Ne.symm same))]
  · intro task inside other empties
    rcases List.mem_append.mp inside with call | call
    · obtain ⟨_, _, rfl⟩ := mem_calls.mp call
      cases empties
    · obtain ⟨_, _, rfl⟩ := mem_calls.mp call
      cases empties
  · intro other here joining inside told listens
    rcases List.mem_append.mp inside with call | call
    · obtain ⟨_, _, same⟩ := mem_calls.mp call
      cases same
    · obtain ⟨_, _, same⟩ := mem_calls.mp call
      cases same
      exact Or.inl (List.mem_append_left _ (mem_calls.mpr ⟨told, listens, rfl⟩))
  · intro other here found
    rw [get_seated] at found
    split at found
    · cases found
      simp
    · exact List.mem_append_left _ (sound.seated other here found)
  · intro other
    have before := sound.inTurn other
    rw [occupancy_next, before, get_seated]
    by_cases same : other = occupant.player.slot
    · subst same
      simp [Entry.stay, vacant, follow]
    · simp [Entry.stay, same, Ne.symm same]
  · intro signal slot here subscriber there inside
    exact sound.there signal slot here subscriber there
      ((List.mem_append.mp inside).resolve_right (by simp))
  · intro steamId other here
    rw [get_seated]
    rcases indexed_seated steamId other here with old | ⟨rfl, id, human⟩
    · have before := sound.indexed steamId other old
      rwa [if_neg]
      intro meets
      rw [meets, vacant] at before
      cases before.1
    · exact ⟨if_pos rfl, id, human⟩

theorem clearRest_sound {slots : List Int} (sound : Sound handlers manager)
    (split : manager.tasks = .clearRest slots :: rest) :
    Sound handlers { manager with
      bySlot := []
      bySteamId := fun _ => none
      tasks := slots.flatMap (raise handlers .changed · none) ++ rest
      log := manager.log ++ manager.bySlot.map .left } := by
  have alone := last_alone sound split rfl
  have empty : manager.bySlot = [] :=
    vacant_nil fun slot => last_empties sound (alone ▸ split) rfl rfl
  have pushed : ∀ task ∈ slots.flatMap (raise handlers .changed · none),
      Tame task ∧ ∀ slot, task.concerns slot = false := by
    intro task inside
    obtain ⟨slot, _, inside⟩ := List.mem_flatMap.mp inside
    refine ⟨calls_tame (by decide) _ task inside, ?_⟩
    obtain ⟨_, _, rfl⟩ := mem_calls.mp inside
    exact fun _ => rfl
  have kept := replaced_sound sound split (fun _ => rfl) (fun _ => nofun) (fun _ _ => nofun)
    (fun task inside => (pushed task inside).1) fun task inside => (pushed task inside).2
  cases manager with
  | mk bySlot bySteamId tasks next log =>
      cases empty
      rw [List.map_nil, List.append_nil]
      exact { kept with indexed := nofun }

theorem changed_sound {slot : Int} (sound : Sound handlers manager)
    (split : manager.tasks = .changed slot :: rest) :
    Sound handlers { manager with tasks := raise handlers .changed slot none ++ rest } := by
  refine replaced_sound sound split (fun _ => rfl) (fun _ => nofun) (fun _ _ => nofun)
    (calls_tame (by decide) _) fun task inside other => ?_
  obtain ⟨_, _, rfl⟩ := mem_calls.mp inside
  rfl

theorem return_sound (sound : Sound handlers manager)
    (split : manager.tasks = .inHandler :: rest) :
    Sound handlers { manager with tasks := rest } :=
  replaced_sound sound split (fun _ => rfl) (fun _ => nofun) (fun _ _ => nofun)
    (List.forall_mem_nil Tame) (List.forall_mem_nil _)

theorem perform_sound (sound : Sound handlers manager)
    (taken : perform handlers manager = some after) : Sound handlers after := by
  rw [perform] at taken
  split at taken
  · cases taken
  · cases taken
  · next split =>
      cases taken
      exact call_sound sound split
  · next slot rest split =>
      split at taken
      · next vacant =>
          cases taken
          exact drop_none_sound sound split vacant
      · next occupant found =>
          cases taken
          exact drop_some_sound sound split found
  · next slot rest split =>
      split at taken
      · next vacant =>
          have phase := sound.phase slot
          rw [split, filter_own (.erase slot) (decide_eq_true rfl)] at phase
          have held := (phase_erased phase rfl).2.1
          rw [vacant] at held
          cases held
      · next occupant found =>
          cases taken
          exact erase_sound sound split found
  · next player rest split =>
      cases taken
      cases last_alone sound split rfl
      rw [List.append_nil]
      exact seat_sound sound split _
  · next slot rest split =>
      cases taken
      exact changed_sound sound split
  · next slots rest split =>
      cases taken
      exact clearRest_sound sound split

theorem remove_sound {slot : Int} (sound : Sound handlers manager)
    (spared : Spared manager (.remove slot)) : Sound handlers (remove slot manager) := by
  rw [remove]
  split
  · next occupied =>
      have spared := spared occupied
      have later : ∀ task ∈ manager.tasks, task ∈ .drop slot :: .changed slot :: manager.tasks :=
        fun task inside => List.mem_cons_of_mem _ (List.mem_cons_of_mem _ inside)
      have changed : Tame (.changed slot : Task Subscriber) := ⟨rfl, nofun, nofun⟩
      refine { sound with
        phase := fun other => ?_
        ordered := ?_
        emptied := ?_
        announcing := ?_ }
      · exact sound.phase other
      · refine List.pairwise_cons.mpr ⟨fun lower inside => Task.drop_before ?_,
          List.pairwise_cons.mpr ⟨fun lower _ => tame_before changed lower, sound.ordered⟩⟩
        rcases List.mem_cons.mp inside with rfl | old
        · rfl
        · exact spared lower old
      · intro task inside other empties held
        rcases List.mem_cons.mp inside with rfl | inside
        · cases empties
        · rcases List.mem_cons.mp inside with rfl | old
          · cases empties
          · exact (sound.emptied task old other empties held).imp (later _) (later _)
      · intro other here joining inside told listens
        rcases List.mem_cons.mp inside with same | inside
        · cases same
        · rcases List.mem_cons.mp inside with same | old
          · cases same
          · exact (sound.announcing other here joining old told listens).imp_left (later _)
  · exact sound

/-- An operation begins with tasks about nobody. -/
theorem begun_sound (sound : Sound handlers manager) (idle : manager.tasks = [])
    (silent : ∀ task ∈ pushed, ∀ slot, task.concerns slot = false)
    (ordered : pushed.Pairwise Before)
    (emptied : ∀ task ∈ pushed, ∀ slot, task.empties slot = true →
      (get slot manager.bySlot).isSome = true → .drop slot ∈ pushed) :
    Sound handlers { manager with tasks := pushed } := by
  refine { sound with
    phase := fun slot => ?_
    ordered := ordered
    emptied := fun task inside slot empties held => Or.inl (emptied task inside slot empties held)
    announcing := ?_ }
  · have phase := sound.phase slot
    rw [idle] at phase
    have nothing : pushed.filter (Task.concerns slot) = [] :=
      List.filter_eq_nil_iff.mpr fun task inside => by simp [silent task inside]
    rwa [nothing]
  · intro slot occupant subscriber inside
    have silent := silent _ inside slot
    simp [Task.concerns] at silent

theorem add_sound (sound : Sound handlers manager) (idle : manager.tasks = [])
    (player : Player) :
    Sound handlers { manager with tasks := [.drop player.slot, .seat player] } := by
  refine begun_sound sound idle ?_ ?_ ?_
  · intro task inside slot
    rcases List.mem_pair.mp inside with rfl | rfl
    · rfl
    · rfl
  · exact List.pairwise_pair.mpr (Task.drop_before rfl)
  · intro task inside slot empties _
    rcases List.mem_pair.mp inside with rfl | rfl
    · cases empties
    · have same : player.slot = slot := by simpa [Task.empties] using empties
      exact same ▸ List.mem_cons_self

theorem clear_sound (sound : Sound handlers manager) (idle : manager.tasks = []) :
    Sound handlers (clear manager) := by
  refine begun_sound sound idle ?_ ?_ ?_
  · intro task inside slot
    rcases List.mem_append.mp inside with drop | last
    · obtain ⟨_, _, rfl⟩ := List.mem_map.mp drop
      rfl
    · cases List.mem_singleton.mp last
      rfl
  · rw [List.pairwise_append]
    refine ⟨?_, List.pairwise_singleton _ _, ?_⟩
    · refine List.pairwise_map.mpr (List.pairwise_of_forall fun upper lower => ?_)
      exact Task.drop_before rfl
    · intro upper drop lower last
      obtain ⟨_, _, rfl⟩ := List.mem_map.mp drop
      cases List.mem_singleton.mp last
      exact Task.drop_before rfl
  · intro task _ slot _ held
    obtain ⟨occupant, found⟩ := Option.isSome_iff_exists.mp held
    obtain ⟨member, rfl⟩ := get_some found
    exact List.mem_append_left _
      (List.mem_map_of_mem (List.mem_mergeSort.mpr (List.mem_map_of_mem member)))

theorem fullyConnected_sound (slot : Int) (sound : Sound handlers manager)
    (idle : manager.tasks = []) : Sound handlers (onClientFullyConnected handlers slot manager) := by
  rw [onClientFullyConnected]
  split
  · exact sound
  · next occupant found =>
      have tame : ∀ task ∈ raise handlers .slotFullyConnected slot none ++
          raise handlers .fullyConnected slot (some occupant), Tame task := by
        intro task inside
        rcases List.mem_append.mp inside with call | call
        · exact calls_tame (by decide) _ task call
        · exact calls_tame (by decide) _ task call
      have ordered := tame_ordered tame List.Pairwise.nil
      rw [List.append_nil] at ordered
      refine { sound with
        phase := fun other => ?_
        ordered := ordered
        emptied := ?_
        announcing := fun other here subscriber inside => ?_ }
      · have phase := sound.phase other
        rw [idle] at phase
        rw [List.filter_append, raise, calls_apart (Or.inl rfl), List.nil_append, raise]
        by_cases same : slot = other
        · subst same
          rw [calls_own, found]
          rw [found] at phase
          exact .loading occupant _ (phase_settled phase rfl)
        · rwa [calls_apart (Or.inr same)]
      · intro task inside other empties
        rw [tame_empties (tame task inside)] at empties
        cases empties
      · exact absurd rfl ((tame _ inside).noJoin other here subscriber)

theorem step_sound {label : Label} (sound : Sound handlers manager)
    (spared : Spared manager label) (taken : step handlers manager label = some after) :
    Sound handlers after := by
  cases label with
  | add player =>
      obtain ⟨idle, taken⟩ := Option.ite_none_right_eq_some.mp taken
      cases taken
      exact add_sound sound idle player
  | clear =>
      obtain ⟨idle, taken⟩ := Option.ite_none_right_eq_some.mp taken
      cases taken
      exact clear_sound sound idle
  | onClientFullyConnected slot =>
      obtain ⟨idle, taken⟩ := Option.ite_none_right_eq_some.mp taken
      cases taken
      exact fullyConnected_sound slot sound idle
  | remove slot =>
      rw [step] at taken
      split at taken
      · cases taken
        exact remove_sound sound spared
      · cases taken
        exact remove_sound sound spared
      · cases taken
  | perform => exact perform_sound sound taken
  | «return» =>
      rw [step] at taken
      split at taken
      · next split =>
          cases taken
          exact return_sound sound split
      · cases taken

theorem sound_orderly (sound : Sound handlers manager) : Orderly handlers manager where
  there := sound.there
  alternate subscriber joins leaves slot := by
    have phase := sound.phase slot
    generalize get slot manager.bySlot = occupant at phase
    generalize manager.tasks.filter (Task.concerns slot) = tasks at phase
    cases phase with
    | vacant silent => simp [silent subscriber joins leaves]
    | joining here left suffix told => simp [told subscriber joins leaves]
    | loading here left told => simp [told subscriber joins leaves]
    | leaving here left suffix told => simp [told subscriber joins leaves]
  inTurn slot := by simp [sound.inTurn slot]
  told := sound.told

/-- Every run without such a Remove raises its events in order, whatever else is removed from
inside which handler. -/
theorem spared_orderly (handlers : Handlers Subscriber) (labels : List Label)
    (spared : Guarded (step handlers) Spared start labels) :
    Always (step handlers) (Orderly handlers) start labels :=
  always_of_guarded (fun _ _ _ => step_sound) (fun _ => sound_orderly) start_sound spared

end Sound

section Kicks

/-- Two plugins watch everyone come and go. -/
def greeters : Handlers Nat where
  of signal := if signal = .connected ∨ signal = .disconnected then [0, 1] else []
  once signal := by cases signal <;> decide

def alice : Player := ⟨3, 76561197960287930, "Alice".toList⟩

def bob : Player := ⟨4, 76561197960287931, "Bob".toList⟩

/-- The first plugin kicks Alice while Bob's Connected is raised. -/
theorem kicks_another_orderly :
    Always (step greeters) (Orderly greeters) start [.add alice, .perform, .perform, .perform,
      .return, .perform, .return, .add bob, .perform, .perform, .perform, .remove 3, .perform,
      .perform, .return, .perform, .return, .perform, .perform, .return, .perform, .return] := by
  apply spared_orderly greeters _
  refine guarded_cons rfl trivial (guarded_cons rfl trivial (guarded_cons rfl trivial
    (guarded_cons rfl trivial (guarded_cons rfl trivial (guarded_cons rfl trivial
    (guarded_cons rfl trivial (guarded_cons rfl trivial (guarded_cons rfl trivial
    (guarded_cons rfl trivial (guarded_cons rfl trivial ?_))))))))))
  apply guarded_cons rfl (fun _ => by decide)
  exact guarded_cons rfl trivial (guarded_cons rfl trivial (guarded_cons rfl trivial
    (guarded_cons rfl trivial (guarded_cons rfl trivial (guarded_cons rfl trivial
    (guarded_cons rfl trivial (guarded_cons rfl trivial (guarded_cons rfl trivial
    (guarded_cons rfl trivial trivial)))))))))

/-- Kicked by the first plugin from inside their own Connected, Alice is gone when the second one
is called, which has heard her leave by then. -/
theorem kicked_while_joining :
    ∃ after, run (step greeters) start [.add alice, .perform, .perform, .perform, .remove 3,
        .perform, .perform, .return, .perform, .return, .perform, .perform, .return, .perform] =
          some after ∧
      .called .connected 3 (some ⟨0, alice⟩) 1 false ∈ after.log ∧
      heard 1 3 after.log = [false, true] ∧ ¬Orderly greeters after := by
  refine ⟨_, rfl, by decide, by decide, fun orderly => ?_⟩
  exact absurd (orderly.there .connected 3 ⟨0, alice⟩ 1 false (by decide)) Bool.false_ne_true

end Kicks

end VoltMod.PlayerManager
