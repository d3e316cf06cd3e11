import VoltMod.PlayerManager
import Mathlib.Data.List.Pairwise

/-! Players/PlayerManager.cpp: the three views of who is connected, the slot table, the index by
Steam id and the slot-ordered list, through whole runs of the connection lifecycle. -/
namespace VoltMod.PlayerManager.Views
open Players (Player)
open Transition

variable {Subscriber : Type}

/-- The manager with the list it keeps sorted. -/
structure Listed (Subscriber : Type) where
  manager : Manager Subscriber
  ordered : List Occupant

def begin : Listed Subscriber := ⟨start, []⟩

def reindex (bySlot : List Occupant) : List Occupant :=
  bySlot.mergeSort fun a b => a.player.slot ≤ b.player.slot

/-- The list behind what was performed. -/
def relist (before after : Manager Subscriber) (ordered : List Occupant) : List Occupant :=
  match before.tasks with
  | .erase slot :: _ => if (get slot before.bySlot).isSome then reindex after.bySlot else ordered
  | .seat _ :: _ => reindex after.bySlot
  | .clearRest _ :: _ => []
  | _ => ordered

def stepListed (handlers : Handlers Subscriber) (listed : Listed Subscriber) :
    Label → Option (Listed Subscriber)
  | .perform => (perform handlers listed.manager).map fun after =>
      ⟨after, relist listed.manager after listed.ordered⟩
  | label => (step handlers listed.manager label).map fun after => ⟨after, listed.ordered⟩

/-- What the views promise: who shares an id with somebody connected is found, and the list is
the roster in slot order. -/
structure Exact (listed : Listed Subscriber) : Prop where
  found : ∀ steamId, (listed.manager.bySteamId steamId).isSome = true ↔
    ∃ occupant ∈ listed.manager.bySlot,
      occupant.player.isBot = false ∧ occupant.player.steamId = steamId
  theirs : ∀ steamId occupant, listed.manager.bySteamId steamId = some occupant →
    occupant ∈ listed.manager.bySlot ∧
      occupant.player.isBot = false ∧ occupant.player.steamId = steamId
  everyone : listed.ordered.Perm listed.manager.bySlot
  sorted : listed.ordered.Pairwise fun a b => a.player.slot < b.player.slot

/-- Whoever leaves is not the last to have joined of several who share a Steam id. -/
def InTurn (listed : Listed Subscriber) (label : Label) : Prop :=
  ∀ slot rest occupant, label = .perform → listed.manager.tasks = .erase slot :: rest →
    get slot listed.manager.bySlot = some occupant → occupant.player.isBot = false →
    (∀ other ∈ listed.manager.bySlot,
      other.player.steamId = occupant.player.steamId → other = occupant) ∨
    ∃ other ∈ listed.manager.bySlot,
      other.player.steamId = occupant.player.steamId ∧ occupant.serial < other.serial

/-- Nothing waits below the rest of an Add, by whose turn the slot is empty. -/
structure Waits (bySlot : List Occupant) (tasks : List (Task Subscriber)) : Prop where
  last : tasks.Pairwise fun upper _ => upper.isLast = false
  emptied : ∀ player, .seat player ∈ tasks → (get player.slot bySlot).isSome = true →
    .drop player.slot ∈ tasks ∨ .erase player.slot ∈ tasks

def Apart (a b : Occupant) : Prop := a.player.slot ≠ b.player.slot ∧ a.serial ≠ b.serial

instance : Std.Symm Apart where
  symm _ _ apart := ⟨apart.1.symm, apart.2.symm⟩

/-- What holds in every run, whoever leaves. -/
structure Kept (listed : Listed Subscriber) : Prop where
  waits : Waits listed.manager.bySlot listed.manager.tasks
  apart : listed.manager.bySlot.Pairwise Apart
  earlier : ∀ occupant ∈ listed.manager.bySlot, occupant.serial < listed.manager.next
  theirs : ∀ steamId occupant, listed.manager.bySteamId steamId = some occupant →
    occupant ∈ listed.manager.bySlot ∧
      occupant.player.isBot = false ∧ occupant.player.steamId = steamId
  latest : ∀ steamId occupant, listed.manager.bySteamId steamId = some occupant →
    ∀ other ∈ listed.manager.bySlot, other.player.steamId = steamId →
      other.serial ≤ occupant.serial
  everyone : listed.ordered.Perm listed.manager.bySlot
  sorted : listed.ordered.Pairwise fun a b => a.player.slot < b.player.slot

def without (slot : Int) (bySlot : List Occupant) : List Occupant :=
  bySlot.filter fun other => other.player.slot ≠ slot

/-- The views behind an erased occupant. -/
def Listed.erased (listed : Listed Subscriber) (slot : Int) (occupant : Occupant)
    (tasks : List (Task Subscriber)) (log : List (Entry Subscriber)) : Listed Subscriber where
  manager := { listed.manager with
    bySlot := without slot listed.manager.bySlot
    bySteamId := unindexBySteamId occupant listed.manager.bySteamId
    tasks, log }
  ordered := reindex (without slot listed.manager.bySlot)

/-- The views with the next occupant seated. -/
def Listed.seated (listed : Listed Subscriber) (occupant : Occupant)
    (tasks : List (Task Subscriber)) (log : List (Entry Subscriber)) : Listed Subscriber where
  manager :=
    { bySlot := occupant :: without occupant.player.slot listed.manager.bySlot
      bySteamId := indexBySteamId occupant listed.manager.bySteamId
      tasks := tasks
      next := occupant.serial + 1
      log := log }
  ordered := reindex (occupant :: without occupant.player.slot listed.manager.bySlot)

/-- What a step can do to the views. -/
inductive Moves (before : Listed Subscriber) (label : Label) : Listed Subscriber → Prop where
  | waited (tasks : List (Task Subscriber)) (log : List (Entry Subscriber))
      (waits : Waits before.manager.bySlot before.manager.tasks →
        Waits before.manager.bySlot tasks)
      (nobody : ∀ slot rest, label = .perform → before.manager.tasks = .erase slot :: rest →
        get slot before.manager.bySlot = none) :
      Moves before label
        { before with manager := { before.manager with tasks := tasks, log := log } }
  | erased (slot : Int) (occupant : Occupant) (rest : List (Task Subscriber))
      (log : List (Entry Subscriber)) (asked : label = .perform)
      (split : before.manager.tasks = .erase slot :: rest)
      (there : get slot before.manager.bySlot = some occupant) :
      Moves before label (before.erased slot occupant rest log)
  | seated (occupant : Occupant) (pushed rest : List (Task Subscriber))
      (log : List (Entry Subscriber)) (next : occupant.serial = before.manager.next)
      (split : before.manager.tasks = .seat occupant.player :: rest)
      (tame : ∀ task ∈ pushed, task.isLast = false) :
      Moves before label (before.seated occupant (pushed ++ rest) log)
  | cleared (slots : List Int) (pushed rest : List (Task Subscriber))
      (log : List (Entry Subscriber)) (split : before.manager.tasks = .clearRest slots :: rest)
      (tame : ∀ task ∈ pushed, task.isLast = false) :
      Moves before label ⟨{ before.manager with
        bySlot := []
        bySteamId := fun _ => none
        tasks := pushed ++ rest
        log := log }, []⟩

section Waiting
variable {handlers : Handlers Subscriber} {bySlot : List Occupant} {head : Task Subscriber}
  {pushed rest : List (Task Subscriber)}

theorem calls_last (signal : Signal) (slot : Int) (occupant : Option Occupant) :
    ∀ task ∈ raise handlers signal slot occupant, task.isLast = false := by
  intro task member
  obtain ⟨subscriber, _, rfl⟩ := mem_calls.mp member
  rfl

theorem seat_absent (tame : ∀ task ∈ pushed, task.isLast = false) (player : Player) :
    .seat player ∉ pushed := fun member => Bool.noConfusion (tame _ member)

/-- A task gives way to others; an emptying one only where the slot is empty or still will be. -/
theorem waits_pushed (waits : Waits bySlot (head :: rest))
    (tame : ∀ task ∈ pushed, task.isLast = false)
    (empties : ∀ slot, head = .drop slot ∨ head = .erase slot →
      (get slot bySlot).isSome = true → .erase slot ∈ pushed) :
    Waits bySlot (pushed ++ rest) := by
  constructor
  · apply List.pairwise_append.mpr
    constructor
    · exact List.pairwise_of_forall_mem_list fun upper member _ _ => tame upper member
    · exact ⟨(List.pairwise_cons.mp waits.last).2, fun upper member _ _ => tame upper member⟩
  · intro player member occupied
    have below : .seat player ∈ rest :=
      (List.mem_append.mp member).resolve_left (seat_absent tame player)
    rcases waits.emptied player (List.mem_cons_of_mem _ below) occupied with drop | erase
    · rcases List.mem_cons.mp drop with same | later
      · exact Or.inr (List.mem_append_left _ (empties _ (Or.inl same.symm) occupied))
      · exact Or.inl (List.mem_append_right _ later)
    · rcases List.mem_cons.mp erase with same | later
      · exact Or.inr (List.mem_append_left _ (empties _ (Or.inr same.symm) occupied))
      · exact Or.inr (List.mem_append_right _ later)

theorem waits_alone (waits : Waits bySlot (head :: rest)) (last : head.isLast = true) :
    rest = [] := by
  apply List.eq_nil_iff_forall_not_mem.mpr
  intro lower inside
  have tame := (List.pairwise_cons.mp waits.last).1 lower inside
  rw [last] at tame
  cases tame

theorem waits_calls (tame : ∀ task ∈ pushed, task.isLast = false) : Waits bySlot pushed := by
  constructor
  · exact List.pairwise_of_forall_mem_list fun upper member _ _ => tame upper member
  · exact fun player member => absurd member (seat_absent tame player)

end Waiting

section Moves
variable {handlers : Handlers Subscriber} {listed after : Listed Subscriber} {label : Label}

theorem perform_moves (ran : stepListed handlers listed .perform = some after) :
    Moves listed .perform after := by
  obtain ⟨manager, ordered⟩ := listed
  obtain ⟨moved, performed, rfl⟩ := Option.map_eq_some_iff.mp ran
  cases split : manager.tasks with
  | nil => simp [perform, split] at performed
  | cons head rest =>
      -- Each case shows only that what it puts in front is tame and empties the slot it should.
      have waits : ∀ pushed : List (Task Subscriber), (∀ task ∈ pushed, task.isLast = false) →
          (∀ slot, head = .drop slot ∨ head = .erase slot →
            (get slot manager.bySlot).isSome = true → .erase slot ∈ pushed) →
          Waits manager.bySlot manager.tasks → Waits manager.bySlot (pushed ++ rest) := by
        intro pushed tame empties waiting
        exact waits_pushed (split ▸ waiting) tame empties
      cases head with
      | inHandler => simp [perform, split] at performed
      | call signal slot occupant subscriber =>
          simp only [perform, split, Option.some.injEq] at performed
          subst performed
          simp only [relist, split]
          exact .waited _ _ (waits [.inHandler] (by simp [Task.isLast]) (by simp)) (by simp [split])
      | drop slot =>
          cases found : get slot manager.bySlot with
          | none =>
              simp only [perform, split, found, Option.some.injEq] at performed
              subst performed
              simp only [relist, split]
              exact .waited _ _ (waits [] (by simp) (by simp [found])) (by simp [split])
          | some occupant =>
              simp only [perform, split, found, Option.some.injEq] at performed
              subst performed
              simp only [relist, split]
              have grown := waits (raise handlers .disconnected slot (some occupant) ++
                [.erase slot]) (by
                  intro task member
                  rcases List.mem_append.mp member with call | last
                  · exact calls_last _ _ _ task call
                  · cases List.mem_singleton.mp last
                    rfl) (by
                  rintro other (same | same) _
                  · cases same
                    simp
                  · cases same)
              rw [List.append_assoc] at grown
              exact .waited _ _ grown (by simp [split])
      | erase slot =>
          cases found : get slot manager.bySlot with
          | none =>
              simp only [perform, split, found, Option.some.injEq] at performed
              subst performed
              simp only [relist, split, found]
              refine .waited _ _ (waits [] (by simp) (by simp [found])) ?_
              intro other _ _ same
              cases split.symm.trans same
              exact found
          | some occupant =>
              simp only [perform, split, found, Option.some.injEq] at performed
              subst performed
              simp only [relist, split, found]
              exact .erased slot occupant rest _ rfl split found
      | seat player =>
          simp only [perform, split, Option.some.injEq] at performed
          subst performed
          simp only [relist, split]
          rw [← List.append_assoc]
          apply Moves.seated ⟨manager.next, player⟩ _ rest _ rfl split
          intro task member
          rcases List.mem_append.mp member with changed | connected
          · exact calls_last _ _ _ task changed
          · exact calls_last _ _ _ task connected
      | changed slot =>
          simp only [perform, split, Option.some.injEq] at performed
          subst performed
          simp only [relist, split]
          exact .waited _ _ (waits _ (calls_last _ _ _) (by simp)) (by simp [split])
      | clearRest slots =>
          simp only [perform, split, Option.some.injEq] at performed
          subst performed
          simp only [relist, split]
          apply Moves.cleared slots _ rest _ split
          intro task member
          obtain ⟨slot, _, called⟩ := List.mem_flatMap.mp member
          exact calls_last _ _ _ task called

theorem step_moves (ran : stepListed handlers listed label = some after) :
    Moves listed label after := by
  cases label with
  | perform => exact perform_moves ran
  | add player =>
      obtain ⟨manager, ordered⟩ := listed
      obtain ⟨moved, begun, rfl⟩ := Option.map_eq_some_iff.mp ran
      simp only [step, Option.ite_none_right_eq_some, Option.some.injEq] at begun
      obtain ⟨_, rfl⟩ := begun
      refine .waited _ _ ?_ nofun
      intro _
      constructor
      · simp [Task.isLast]
      · intro other member _
        simp only [List.mem_cons, reduceCtorEq, Task.seat.injEq, List.not_mem_nil, or_false,
          false_or] at member
        rw [member]
        exact Or.inl List.mem_cons_self
  | clear =>
      obtain ⟨manager, ordered⟩ := listed
      obtain ⟨moved, begun, rfl⟩ := Option.map_eq_some_iff.mp ran
      simp only [step, Option.ite_none_right_eq_some, Option.some.injEq] at begun
      obtain ⟨_, rfl⟩ := begun
      refine .waited _ _ ?_ nofun
      intro _
      have drops : ∀ task ∈ ((manager.bySlot.map fun occupant =>
          occupant.player.slot).mergeSort).map (Task.drop : Int → Task Subscriber),
          task.isLast = false := by
        intro task member
        obtain ⟨slot, _, rfl⟩ := List.mem_map.mp member
        rfl
      constructor
      · apply List.pairwise_append.mpr
        exact ⟨List.pairwise_of_forall_mem_list fun upper member _ _ => drops upper member,
          List.pairwise_singleton _ _, fun upper member _ _ => drops upper member⟩
      · intro player member _
        rcases List.mem_append.mp member with drop | last
        · exact absurd drop (seat_absent drops player)
        · cases List.mem_singleton.mp last
  | onClientFullyConnected slot =>
      obtain ⟨manager, ordered⟩ := listed
      obtain ⟨moved, begun, rfl⟩ := Option.map_eq_some_iff.mp ran
      simp only [step, Option.ite_none_right_eq_some, Option.some.injEq] at begun
      obtain ⟨idle, rfl⟩ := begun
      unfold onClientFullyConnected
      split
      · exact .waited manager.tasks manager.log id nofun
      · refine .waited _ _ ?_ nofun
        intro _
        apply waits_calls
        intro task member
        rcases List.mem_append.mp member with slotFeed | connected
        · exact calls_last _ _ _ task slotFeed
        · exact calls_last _ _ _ task connected
  | remove slot =>
      obtain ⟨manager, ordered⟩ := listed
      obtain ⟨moved, begun, rfl⟩ := Option.map_eq_some_iff.mp ran
      have removed : moved = remove slot manager := by
        simp only [step] at begun
        split at begun
        · exact (Option.some.inj begun).symm
        · exact (Option.some.inj begun).symm
        · cases begun
      rw [removed]
      unfold remove
      split
      · refine .waited _ _ ?_ nofun
        intro waits
        constructor
        · exact .cons (fun _ _ => rfl) (.cons (fun _ _ => rfl) waits.last)
        · intro player member occupied
          simp only [List.mem_cons, reduceCtorEq, false_or] at member
          rcases waits.emptied player member occupied with drop | erase
          · exact Or.inl (List.mem_cons_of_mem _ (List.mem_cons_of_mem _ drop))
          · exact Or.inr (List.mem_cons_of_mem _ (List.mem_cons_of_mem _ erase))
      · exact .waited manager.tasks manager.log id nofun
  | «return» =>
      obtain ⟨manager, ordered⟩ := listed
      obtain ⟨moved, begun, rfl⟩ := Option.map_eq_some_iff.mp ran
      simp only [step] at begun
      split at begun
      · next rest split =>
          cases begun
          refine .waited _ _ ?_ nofun
          intro waits
          rw [split] at waits
          have kept : Waits manager.bySlot ([] ++ rest) := waits_pushed waits nofun (by simp)
          exact kept
      · cases begun

end Moves

section Laws
variable {listed after : Listed Subscriber} {label : Label} {bySlot : List Occupant}

theorem reindex_everyone (bySlot : List Occupant) : (reindex bySlot).Perm bySlot :=
  List.mergeSort_perm bySlot _

theorem reindex_sorted (apart : bySlot.Pairwise Apart) :
    (reindex bySlot).Pairwise fun a b => a.player.slot < b.player.slot := by
  have transitive : ∀ a b c : Occupant, decide (a.player.slot ≤ b.player.slot) = true →
      decide (b.player.slot ≤ c.player.slot) = true →
      decide (a.player.slot ≤ c.player.slot) = true := by
    intro a b c first second
    exact decide_eq_true (Int.le_trans (of_decide_eq_true first) (of_decide_eq_true second))
  have total : ∀ a b : Occupant,
      (decide (a.player.slot ≤ b.player.slot) || decide (b.player.slot ≤ a.player.slot)) = true := by
    intro a b
    simpa using Int.le_total a.player.slot b.player.slot
  have inOrder := List.pairwise_mergeSort transitive total bySlot
  have different : (reindex bySlot).Pairwise Apart :=
    apart.perm (reindex_everyone bySlot).symm fun both => ⟨both.1.symm, both.2.symm⟩
  apply (inOrder.and different).imp
  intro a b both
  have ordered := of_decide_eq_true both.1
  have unequal := both.2.1
  omega

theorem mem_without {slot : Int} {other : Occupant} :
    other ∈ without slot bySlot ↔ other ∈ bySlot ∧ other.player.slot ≠ slot := by
  simp [without]

theorem same_occupant (apart : bySlot.Pairwise Apart) {a b : Occupant} (here : a ∈ bySlot)
    (there : b ∈ bySlot) (same : a.player.slot = b.player.slot ∨ a.serial = b.serial) : a = b := by
  by_contra different
  obtain ⟨slots, serials⟩ := apart.forall here there different
  exact same.elim slots serials

/-- Found is who is connected; the rest of what the views promise holds in any case. -/
theorem exact_iff (kept : Kept listed) : Exact listed ↔
    ∀ occupant ∈ listed.manager.bySlot, occupant.player.isBot = false →
      (listed.manager.bySteamId occupant.player.steamId).isSome = true := by
  constructor
  · intro good occupant connected human
    exact (good.found _).mpr ⟨occupant, connected, human, rfl⟩
  · intro found
    refine ⟨fun steamId => ⟨fun indexed => ?_, ?_⟩, kept.theirs, kept.everyone, kept.sorted⟩
    · obtain ⟨occupant, points⟩ := Option.isSome_iff_exists.mp indexed
      obtain ⟨connected, human, same⟩ := kept.theirs steamId occupant points
      exact ⟨occupant, connected, human, same⟩
    · rintro ⟨occupant, connected, human, rfl⟩
      exact found occupant connected human

theorem unindexed_iff {index : Int → Option Occupant} (occupant : Occupant)
    (theirs : ∀ steamId other, index steamId = some other →
      other.player.isBot = false ∧ other.player.steamId = steamId) (steamId : Int)
    (other : Occupant) : unindexBySteamId occupant index steamId = some other ↔
      index steamId = some other ∧ other ≠ occupant := by
  unfold unindexBySteamId
  split
  · next stays =>
      constructor
      · intro points
        constructor
        · exact points
        · rintro rfl
          obtain ⟨human, same⟩ := theirs steamId other points
          rcases stays with bot | elsewhere
          · rw [human] at bot
            cases bot
          · exact elsewhere (same.symm ▸ points)
      · exact And.left
  · next goes =>
      rw [not_or, not_not] at goes
      by_cases same : steamId = occupant.player.steamId
      · rw [same, Function.update_self, goes.2]
        constructor
        · exact fun points => nomatch points
        · rintro ⟨points, different⟩
          exact absurd (Option.some.inj points).symm different
      · rw [Function.update_of_ne same]
        constructor
        · intro points
          constructor
          · exact points
          · rintro rfl
            exact same (theirs steamId other points).2.symm
        · exact And.left

theorem without_apart {slot : Int} (apart : bySlot.Pairwise Apart) :
    (without slot bySlot).Pairwise Apart :=
  apart.sublist List.filter_sublist

theorem waits_erased {slot : Int} {rest : List (Task Subscriber)}
    (waits : Waits bySlot (.erase slot :: rest)) : Waits (without slot bySlot) rest := by
  constructor
  · exact (List.pairwise_cons.mp waits.last).2
  · intro player member occupied
    rw [without, get_vacated] at occupied
    split at occupied
    · cases occupied
    · next different =>
        have below := waits.emptied player (List.mem_cons_of_mem _ member) occupied
        rcases below with drop | erase
        · rcases List.mem_cons.mp drop with same | later
          · cases same
          · exact Or.inl later
        · rcases List.mem_cons.mp erase with same | later
          · exact absurd (Task.erase.inj same) different
          · exact Or.inr later

theorem erased_kept {slot : Int} {occupant : Occupant} {rest : List (Task Subscriber)}
    (log : List (Entry Subscriber)) (kept : Kept listed)
    (split : listed.manager.tasks = .erase slot :: rest)
    (there : get slot listed.manager.bySlot = some occupant) :
    Kept (listed.erased slot occupant rest log) := by
  obtain ⟨connected, seat⟩ := get_some there
  have points := unindexed_iff occupant fun steamId other indexed =>
    (kept.theirs steamId other indexed).2
  have waits := kept.waits
  rw [split] at waits
  constructor
  · exact waits_erased waits
  · exact without_apart kept.apart
  · exact fun other member => kept.earlier other (mem_without.mp member).1
  · intro steamId other indexed
    obtain ⟨before, different⟩ := (points steamId other).mp indexed
    obtain ⟨inside, rest⟩ := kept.theirs steamId other before
    apply And.intro _ rest
    apply mem_without.mpr
    exact ⟨inside, fun same => different
      (same_occupant kept.apart inside connected (Or.inl (same.trans seat.symm)))⟩
  · intro steamId other indexed another member
    have before := ((points steamId other).mp indexed).1
    exact kept.latest steamId other before another (mem_without.mp member).1
  · exact reindex_everyone _
  · exact reindex_sorted (without_apart kept.apart)

theorem seat_vacant {player : Player} {rest : List (Task Subscriber)}
    (waits : Waits bySlot (.seat player :: rest)) :
    rest = [] ∧ get player.slot bySlot = none := by
  have alone := waits_alone waits rfl
  subst alone
  refine ⟨rfl, ?_⟩
  cases found : get player.slot bySlot with
  | none => rfl
  | some occupant =>
      rcases waits.emptied player List.mem_cons_self (by simp [found]) with drop | erase
      · cases List.mem_singleton.mp drop
      · cases List.mem_singleton.mp erase

theorem vacant_apart {slot : Int} (vacant : get slot bySlot = none) {other : Occupant}
    (member : other ∈ bySlot) : other.player.slot ≠ slot := by
  intro same
  exact absurd same (by simpa using List.find?_eq_none.mp vacant other member)

theorem bot_iff (player : Player) : player.isBot = true ↔ player.steamId = 0 :=
  decide_eq_true_iff

theorem indexed_iff {index : Int → Option Occupant} {occupant : Occupant} (steamId : Int)
    (other : Occupant) : indexBySteamId occupant index steamId = some other ↔
      if occupant.player.isBot = false ∧ occupant.player.steamId = steamId then other = occupant
      else index steamId = some other := by
  unfold indexBySteamId
  cases bot : occupant.player.isBot with
  | true => simp
  | false =>
      rw [if_neg Bool.false_ne_true]
      by_cases same : occupant.player.steamId = steamId
      · rw [if_pos ⟨rfl, same⟩, ← same, Function.update_self, Option.some.injEq]
        exact eq_comm
      · rw [if_neg fun both => same both.2, Function.update_of_ne fun meets => same meets.symm]

theorem seated_kept {occupant : Occupant} {pushed rest : List (Task Subscriber)}
    (log : List (Entry Subscriber)) (kept : Kept listed)
    (next : occupant.serial = listed.manager.next)
    (split : listed.manager.tasks = .seat occupant.player :: rest)
    (tame : ∀ task ∈ pushed, task.isLast = false) :
    Kept (listed.seated occupant (pushed ++ rest) log) := by
  have waits := kept.waits
  rw [split] at waits
  obtain ⟨rfl, vacant⟩ := seat_vacant waits
  have apart : (occupant :: without occupant.player.slot listed.manager.bySlot).Pairwise Apart := by
    apply List.pairwise_cons.mpr
    constructor
    · intro other member
      obtain ⟨connected, slots⟩ := mem_without.mp member
      have before := kept.earlier other connected
      exact ⟨slots.symm, by omega⟩
    · exact without_apart kept.apart
  constructor
  · rw [List.append_nil]
    exact waits_calls tame
  · exact apart
  · intro other member
    rcases List.mem_cons.mp member with rfl | old
    · exact Nat.lt_succ_self _
    · have before := kept.earlier other (mem_without.mp old).1
      change other.serial < occupant.serial + 1
      omega
  · intro steamId other indexed
    have points := (indexed_iff steamId other).mp indexed
    split at points
    · next own =>
        subst points
        exact ⟨List.mem_cons_self, own⟩
    · obtain ⟨connected, theirs⟩ := kept.theirs steamId other points
      exact ⟨List.mem_cons_of_mem _ (mem_without.mpr ⟨connected, vacant_apart vacant connected⟩),
        theirs⟩
  · intro steamId other indexed another member same
    have points := (indexed_iff steamId other).mp indexed
    split at points
    · subst points
      rcases List.mem_cons.mp member with rfl | old
      · exact Nat.le_refl _
      · have before := kept.earlier another (mem_without.mp old).1
        omega
    · next foreign =>
        rcases List.mem_cons.mp member with rfl | old
        · -- A newcomer whose id the index does not give them is a bot, and no bot is indexed.
          obtain ⟨_, human, theirs⟩ := kept.theirs steamId other points
          have bot : another.player.isBot = true := by
            by_contra person
            exact foreign ⟨by simpa using person, same⟩
          rw [bot_iff, same, ← theirs, ← bot_iff, human] at bot
          cases bot
        · exact kept.latest steamId other points another (mem_without.mp old).1 same
  · exact reindex_everyone _
  · exact reindex_sorted apart

theorem moves_kept (kept : Kept listed) (moves : Moves listed label after) : Kept after := by
  cases moves with
  | waited tasks log waits nobody =>
      exact ⟨waits kept.waits, kept.apart, kept.earlier, kept.theirs, kept.latest, kept.everyone,
        kept.sorted⟩
  | erased slot occupant rest log asked split there => exact erased_kept log kept split there
  | seated occupant pushed rest log next split tame =>
      exact seated_kept log kept next split tame
  | cleared slots pushed rest log split tame =>
      have waits := kept.waits
      rw [split] at waits
      cases waits_alone waits rfl
      constructor
      · rw [List.append_nil]
        exact waits_calls tame
      · exact List.Pairwise.nil
      · nofun
      · nofun
      · nofun
      · exact List.Perm.nil
      · exact List.Pairwise.nil

/-- An index that is complete stays so exactly where who leaves does so in turn. -/
theorem erased_exact {slot : Int} {occupant : Occupant} {rest : List (Task Subscriber)}
    {log : List (Entry Subscriber)} (kept : Kept listed) (good : Exact listed)
    (split : listed.manager.tasks = .erase slot :: rest)
    (there : get slot listed.manager.bySlot = some occupant) :
    Exact (listed.erased slot occupant rest log) ↔
      (occupant.player.isBot = false →
        (∀ other ∈ listed.manager.bySlot,
          other.player.steamId = occupant.player.steamId → other = occupant) ∨
        ∃ other ∈ listed.manager.bySlot,
          other.player.steamId = occupant.player.steamId ∧ occupant.serial < other.serial) := by
  obtain ⟨connected, seat⟩ := get_some there
  have unindexed := unindexed_iff occupant fun steamId other indexed =>
    (kept.theirs steamId other indexed).2
  have complete := (exact_iff kept).mp good
  rw [exact_iff (erased_kept log kept split there)]
  constructor
  · intro found human
    obtain ⟨holder, indexed⟩ := Option.isSome_iff_exists.mp (complete occupant connected human)
    by_cases own : holder = occupant
    · subst own
      left
      intro other member same
      by_contra different
      have stays : other ∈ without slot listed.manager.bySlot := by
        apply mem_without.mpr
        exact ⟨member, fun meets => different
          (same_occupant kept.apart member connected (Or.inl (meets.trans seat.symm)))⟩
      have person : other.player.isBot = false := by
        rw [← Bool.not_eq_true, bot_iff, same, ← bot_iff, human]
        exact Bool.false_ne_true
      obtain ⟨later, points⟩ := Option.isSome_iff_exists.mp (found other stays person)
      rw [same] at points
      obtain ⟨before, apart⟩ := (unindexed _ later).mp points
      exact apart (Option.some.inj (before.symm.trans indexed))
    · right
      obtain ⟨member, _, same⟩ := kept.theirs _ holder indexed
      have bound := kept.latest _ holder indexed occupant connected rfl
      have serials : occupant.serial ≠ holder.serial := fun meets =>
        own (same_occupant kept.apart member connected (Or.inr meets.symm))
      exact ⟨holder, member, same, by omega⟩
  · intro inTurn other stays person
    obtain ⟨member, slots⟩ := mem_without.mp stays
    obtain ⟨holder, indexed⟩ := Option.isSome_iff_exists.mp (complete other member person)
    by_cases own : holder = occupant
    · subst own
      obtain ⟨_, human, same⟩ := kept.theirs _ holder indexed
      rcases inTurn human with alone | ⟨later, joined, shares, after⟩
      · rw [alone other member same.symm] at slots
        exact absurd seat slots
      · have bound := kept.latest _ holder indexed later joined (shares.trans same)
        omega
    · exact Option.isSome_iff_exists.mpr ⟨holder, (unindexed _ holder).mpr ⟨indexed, own⟩⟩

theorem seated_exact {occupant : Occupant} {pushed rest : List (Task Subscriber)}
    {log : List (Entry Subscriber)} (kept : Kept listed) (good : Exact listed)
    (next : occupant.serial = listed.manager.next)
    (split : listed.manager.tasks = .seat occupant.player :: rest)
    (tame : ∀ task ∈ pushed, task.isLast = false) :
    Exact (listed.seated occupant (pushed ++ rest) log) := by
  rw [exact_iff (seated_kept log kept next split tame)]
  intro other member human
  by_cases own : occupant.player.isBot = false ∧ occupant.player.steamId = other.player.steamId
  · have points : indexBySteamId occupant listed.manager.bySteamId other.player.steamId =
        some occupant := by rw [indexed_iff, if_pos own]
    exact Option.isSome_iff_exists.mpr ⟨occupant, points⟩
  · rcases List.mem_cons.mp member with rfl | old
    · exact absurd ⟨human, rfl⟩ own
    · obtain ⟨holder, indexed⟩ := Option.isSome_iff_exists.mp
        ((exact_iff kept).mp good other (mem_without.mp old).1 human)
      have points : indexBySteamId occupant listed.manager.bySteamId other.player.steamId =
          some holder := by
        rw [indexed_iff, if_neg own]
        exact indexed
      exact Option.isSome_iff_exists.mpr ⟨holder, points⟩

theorem moves_exact (kept : Kept listed) (good : Exact listed) (moves : Moves listed label after) :
    Exact after ↔ InTurn listed label := by
  cases moves with
  | waited tasks log waits nobody =>
      apply iff_of_true ⟨good.found, good.theirs, good.everyone, good.sorted⟩
      intro slot rest occupant asked split there
      rw [nobody slot rest asked split] at there
      cases there
  | erased slot occupant rest log asked split there =>
      rw [erased_exact kept good split there]
      constructor
      · intro inTurn otherSlot otherRest other _ alsoSplit alsoThere
        cases split.symm.trans alsoSplit
        cases there.symm.trans alsoThere
        exact inTurn
      · intro inTurn
        exact inTurn slot rest occupant asked split there
  | seated occupant pushed rest log next split tame =>
      apply iff_of_true (seated_exact kept good next split tame)
      intro slot otherRest other _ alsoSplit _
      cases split.symm.trans alsoSplit
  | cleared slots pushed rest log split tame =>
      have cleared := moves_kept kept
        (.cleared slots pushed rest log split tame : Moves listed label _)
      apply iff_of_true
      · exact (exact_iff cleared).mpr nofun
      · intro slot otherRest other _ alsoSplit _
        cases split.symm.trans alsoSplit

theorem begin_kept : Kept (begin : Listed Subscriber) :=
  ⟨⟨List.Pairwise.nil, nofun⟩, List.Pairwise.nil, nofun, nofun, nofun, List.Perm.nil,
    List.Pairwise.nil⟩

end Laws

/-- Throughout a run everybody who shares an id with somebody connected is found, and the list is
the roster in slot order, exactly where of several players with one Steam id the last to have
joined never leaves before the others. -/
theorem views_exact_iff (handlers : Handlers Subscriber) (labels : List Label) :
    Always (stepListed handlers) Exact begin labels ↔
      Guarded (stepListed handlers) InTurn begin labels := by
  have law : ∀ before label after, Kept before → Exact before →
      stepListed handlers before label = some after →
        Kept after ∧ (Exact after ↔ InTurn before label) := by
    intro before label after kept good ran
    have moves := step_moves ran
    exact ⟨moves_kept kept moves, moves_exact kept good moves⟩
  exact always_iff_guarded law begin_kept ((exact_iff begin_kept).mpr nofun) labels

def mute : Handlers Empty := ⟨fun _ => [], fun _ => List.nodup_nil⟩

/-- Two slots with one Steam id: the second to join leaves, the first is still there. -/
def rejoins : List Label :=
  [.add ⟨1, 76561197960287930, "Alice".toList⟩, .perform, .perform,
    .add ⟨2, 76561197960287930, "Alice".toList⟩, .perform, .perform,
    .remove 2, .perform, .perform, .perform]

/-- Who is connected then, and what their Steam id finds. -/
theorem rejoins_ran : (run (stepListed mute) begin rejoins).map (fun listed =>
      (listed.manager.tasks, listed.manager.bySlot,
        listed.manager.bySteamId 76561197960287930)) =
    some ([], [⟨0, ⟨1, 76561197960287930, "Alice".toList⟩⟩], none) := by
  rfl

/-- The second to join leaves: the first is connected still, and nobody is found. -/
theorem newer_leaves_first : ¬∀ labels, Always (stepListed mute) Exact begin labels := by
  intro always
  obtain ⟨listed, ran, views⟩ := Option.map_eq_some_iff.mp rejoins_ran
  have slots : listed.manager.bySlot = [⟨0, ⟨1, 76561197960287930, "Alice".toList⟩⟩] :=
    congrArg (fun view => view.2.1) views
  have indexed : listed.manager.bySteamId 76561197960287930 = none :=
    congrArg (fun view => view.2.2) views
  have good := (always_iff_everywhere ..).mp (always rejoins) rejoins listed
    (List.prefix_refl rejoins) ran
  have found := (good.found 76561197960287930).mpr
    ⟨⟨0, ⟨1, 76561197960287930, "Alice".toList⟩⟩, by simp [slots], rfl, rfl⟩
  rw [indexed] at found
  cases found

end VoltMod.PlayerManager.Views
