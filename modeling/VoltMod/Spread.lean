import Std.Data.TreeMap.Lemmas
import Mathlib.Data.List.Basic

/-!
A mark-and-spread worklist over an ordered map. Every node has a key; `reads`
says which keys a node depends on. Marking a key puts it on the stack, and
popping a key marks every unmarked node that reads it. `drain` is bounded by
fuel; `settle` gives it one round for every key it can pop.
-/

namespace VoltMod.Spread

universe u v w
variable {Key : Type u} {Mark : Type v} {Node : Type w} [Ord Key]

structure Work (Key : Type u) (Mark : Type v) [Ord Key] where
  marked : Std.TreeMap Key Mark
  pending : List Key

def mark (work : Work Key Mark) (key : Key) (reason : Mark) : Work Key Mark :=
  if key ∈ work.marked then work else
    { marked := work.marked.insert key reason
      pending := key :: work.pending }

def scan (key : Node → Key) (reads : Node → Key → Bool) (reason : Key → Mark) (gone : Key) :
    List Node → Work Key Mark → Work Key Mark
  | [], work => work
  | node :: rest, work => scan key reads reason gone rest
      (if reads node gone then mark work (key node) (reason gone) else work)

def drain (key : Node → Key) (reads : Node → Key → Bool) (reason : Key → Mark)
    (nodes : List Node) : Nat → Work Key Mark → Work Key Mark
  | 0, work => work
  | fuel + 1, work =>
      match work.pending with
      | [] => work
      | gone :: rest => drain key reads reason nodes fuel
          (scan key reads reason gone nodes { marked := work.marked, pending := rest })

def settle (key : Node → Key) (reads : Node → Key → Bool) (reason : Key → Mark)
    (nodes : List Node) (work : Work Key Mark) : Work Key Mark :=
  drain key reads reason nodes (work.pending.length + nodes.length) work

/-- The loop as it stands, with no bound on its rounds. -/
inductive Drained (key : Node → Key) (reads : Node → Key → Bool) (reason : Key → Mark)
    (nodes : List Node) : Work Key Mark → Work Key Mark → Prop where
  | done {work} : work.pending = [] → Drained key reads reason nodes work work
  | round {work last gone rest} : work.pending = gone :: rest →
      Drained key reads reason nodes
        (scan key reads reason gone nodes { marked := work.marked, pending := rest }) last →
      Drained key reads reason nodes work last

theorem mark_pending_mono (work : Work Key Mark) (added key : Key) (reason : Mark)
    (waiting : key ∈ work.pending) : key ∈ (mark work added reason).pending := by
  unfold mark
  split
  · exact waiting
  · exact List.mem_cons_of_mem added waiting

section Laws
variable [Std.TransOrd Key] [Std.LawfulEqOrd Key]

theorem mark_marked (work : Work Key Mark) (added key : Key) (reason : Mark) :
    key ∈ (mark work added reason).marked ↔ key ∈ work.marked ∨ key = added := by
  unfold mark
  by_cases hit : added ∈ work.marked
  · simp only [hit, ↓reduceIte]
    constructor
    · exact Or.inl
    · rintro (old | same)
      · exact old
      · exact same ▸ hit
  · rw [if_neg hit, Std.TreeMap.mem_insert, Std.compare_eq_iff_eq, or_comm, eq_comm]

theorem mark_fresh_pending (work : Work Key Mark) (added key : Key) (reason : Mark)
    (now : key ∈ (mark work added reason).marked) :
    key ∈ work.marked ∨ key ∈ (mark work added reason).pending := by
  rcases (mark_marked work added key reason).mp now with old | same
  · exact Or.inl old
  · by_cases hit : added ∈ work.marked
    · exact Or.inl (same ▸ hit)
    · exact Or.inr (by simp [mark, hit, same])

section Rounds
variable (key : Node → Key) (reads : Node → Key → Bool) (reason : Key → Mark)

theorem scan_marked_mono (gone : Key) (nodes : List Node) (work : Work Key Mark) (found : Key)
    (old : found ∈ work.marked) : found ∈ (scan key reads reason gone nodes work).marked := by
  induction nodes generalizing work with
  | nil => exact old
  | cons node rest ih =>
      apply ih
      split
      · exact (mark_marked ..).mpr (Or.inl old)
      · exact old

omit [Std.TransOrd Key] [Std.LawfulEqOrd Key] in
theorem scan_pending_mono (gone : Key) (nodes : List Node) (work : Work Key Mark) (found : Key)
    (waiting : found ∈ work.pending) :
    found ∈ (scan key reads reason gone nodes work).pending := by
  induction nodes generalizing work with
  | nil => exact waiting
  | cons node rest ih =>
      apply ih
      split
      · exact mark_pending_mono _ _ _ _ waiting
      · exact waiting

theorem scan_marks (gone : Key) (nodes : List Node) (work : Work Key Mark) (node : Node)
    (member : node ∈ nodes) (hit : reads node gone = true) :
    key node ∈ (scan key reads reason gone nodes work).marked := by
  induction nodes generalizing work with
  | nil => simp at member
  | cons first rest ih =>
      rcases List.mem_cons.mp member with same | later
      · subst first
        have marked : key node ∈ (mark work (key node) (reason gone)).marked :=
          (mark_marked ..).mpr (Or.inr rfl)
        simpa [scan, hit] using scan_marked_mono key reads reason gone rest _ _ marked
      · exact ih _ later

theorem scan_fresh_pending (gone : Key) (nodes : List Node) (work : Work Key Mark) (found : Key)
    (now : found ∈ (scan key reads reason gone nodes work).marked) :
    found ∈ work.marked ∨ found ∈ (scan key reads reason gone nodes work).pending := by
  induction nodes generalizing work with
  | nil => exact Or.inl now
  | cons node rest ih =>
      by_cases hit : reads node gone = true
      · simp only [scan, hit, ↓reduceIte] at now ⊢
        rcases ih _ now with fresh | waiting
        · rcases mark_fresh_pending _ _ _ _ fresh with old | queued
          · exact Or.inl old
          · exact Or.inr (scan_pending_mono key reads reason gone rest _ found queued)
        · exact Or.inr waiting
      · simp only [scan, hit, Bool.false_eq_true, ↓reduceIte] at now ⊢
        exact ih _ now

/-- The rounds still to come: the stack, and the nodes that can still be put on it. -/
def potential (nodes : List Node) (work : Work Key Mark) : Nat :=
  work.pending.length + nodes.countP fun node => key node ∉ work.marked

theorem mark_potential (nodes : List Node) (work : Work Key Mark) (node : Node)
    (member : node ∈ nodes) (why : Mark) :
    potential key nodes (mark work (key node) why) ≤ potential key nodes work := by
  by_cases hit : key node ∈ work.marked
  · simp [mark, hit]
  · let before : Node → Bool := fun n => key n ∉ work.marked
    let after : Node → Bool := fun n => key n ∉ work.marked.insert (key node) why
    have weaker : ∀ n, after n = true → before n = true := by
      intro n unmarked
      simp only [before, after, decide_eq_true_eq, Std.TreeMap.mem_insert, not_or] at unmarked ⊢
      exact unmarked.2
    have nested : nodes.filter after = (nodes.filter before).filter after := by
      rw [List.filter_filter]
      apply List.filter_congr
      intro n _
      cases outcome : after n with
      | false => rfl
      | true => simp [weaker n outcome]
    have fewer : ((nodes.filter before).filter after).length < (nodes.filter before).length := by
      apply List.length_filter_lt_length_iff_exists.mpr
      refine ⟨node, List.mem_filter.mpr ⟨member, by simpa [before] using hit⟩, ?_⟩
      simp [after]
    have counted : nodes.countP after < nodes.countP before := by
      rw [List.countP_eq_length_filter, List.countP_eq_length_filter, nested]
      exact fewer
    have added : (mark work (key node) why).pending.length = work.pending.length + 1 := by
      simp [mark, hit]
    have inserted : (mark work (key node) why).marked = work.marked.insert (key node) why := by
      simp [mark, hit]
    simp only [potential, added, inserted]
    change _ + 1 + nodes.countP after ≤ _ + nodes.countP before
    omega

theorem scan_potential (gone : Key) (nodes visited : List Node) (work : Work Key Mark)
    (inside : ∀ node ∈ visited, node ∈ nodes) :
    potential key nodes (scan key reads reason gone visited work) ≤ potential key nodes work := by
  induction visited generalizing work with
  | nil => exact Nat.le_refl _
  | cons node rest ih =>
      have tail := ih (if reads node gone then mark work (key node) (reason gone) else work)
        (fun n member => inside n (List.mem_cons_of_mem node member))
      apply Nat.le_trans tail
      split
      · exact mark_potential key nodes work node (inside node List.mem_cons_self) (reason gone)
      · exact Nat.le_refl _

/-- Keys whose readers are all marked, unless the key still waits on the stack. -/
def Covers (nodes : List Node) (start : List Key) (work : Work Key Mark) : Prop :=
  ∀ source, source ∈ work.marked ∨ source ∈ start →
    source ∈ work.pending ∨ ∀ node ∈ nodes, reads node source = true → key node ∈ work.marked

-- Popping a key takes away its excuse, so the scan of that key has to mark its readers;
-- every other key keeps the excuse or the readers it had.
theorem scan_covers (nodes : List Node) (start : List Key) (work : Work Key Mark)
    (gone : Key) (rest : List Key) (head : work.pending = gone :: rest)
    (covers : Covers key reads nodes start work) :
    Covers key reads nodes start
      (scan key reads reason gone nodes { marked := work.marked, pending := rest }) := by
  intro source reached
  by_cases same : source = gone
  · subst source
    exact Or.inr fun node member hit => scan_marks key reads reason gone nodes _ node member hit
  · have earlier : (source ∈ work.marked ∨ source ∈ start) ∨
        source ∈ (scan key reads reason gone nodes
          { marked := work.marked, pending := rest }).pending := by
      rcases reached with now | seed
      · rcases scan_fresh_pending key reads reason gone nodes _ source now with old | queued
        · exact Or.inl (Or.inl old)
        · exact Or.inr queued
      · exact Or.inl (Or.inr seed)
    rcases earlier with known | queued
    · rcases covers source known with waiting | followed
      · have inRest : source ∈ rest := by
          rw [head] at waiting
          exact (List.mem_cons.mp waiting).resolve_left same
        exact Or.inl (scan_pending_mono key reads reason gone nodes _ source inRest)
      · exact Or.inr fun node member hit =>
          scan_marked_mono key reads reason gone nodes _ _ (followed node member hit)
    · exact Or.inl queued

theorem drain_marked_mono (nodes : List Node) (fuel : Nat) (work : Work Key Mark) (found : Key)
    (old : found ∈ work.marked) : found ∈ (drain key reads reason nodes fuel work).marked := by
  induction fuel generalizing work with
  | zero => exact old
  | succ fuel ih =>
      cases head : work.pending with
      | nil => simpa [drain, head] using old
      | cons gone rest =>
          simp only [drain, head]
          exact ih _ (scan_marked_mono key reads reason gone nodes _ found old)

-- The fuel counts rounds: a pop takes one off the potential and the scan adds nothing.
theorem drain_finishes (nodes : List Node) (fuel : Nat) (work : Work Key Mark)
    (enough : potential key nodes work ≤ fuel) :
    (drain key reads reason nodes fuel work).pending = [] := by
  induction fuel generalizing work with
  | zero =>
      have empty : work.pending.length = 0 := by
        simp only [potential] at enough
        omega
      simpa [drain] using empty
  | succ fuel ih =>
      cases head : work.pending with
      | nil => simp [drain, head]
      | cons gone rest =>
          simp only [drain, head]
          apply ih
          have popped := scan_potential key reads reason gone nodes nodes
            { marked := work.marked, pending := rest } (fun _ member => member)
          simp only [potential, head, List.length_cons] at enough popped ⊢
          omega

theorem drain_covers (nodes : List Node) (start : List Key) (fuel : Nat) (work : Work Key Mark)
    (covers : Covers key reads nodes start work) :
    Covers key reads nodes start (drain key reads reason nodes fuel work) := by
  induction fuel generalizing work with
  | zero => exact covers
  | succ fuel ih =>
      cases head : work.pending with
      | nil => simpa [drain, head] using covers
      | cons gone rest =>
          simp only [drain, head]
          exact ih _ (scan_covers key reads reason nodes start work gone rest head covers)

theorem settle_finishes (nodes : List Node) (work : Work Key Mark) :
    (settle key reads reason nodes work).pending = [] := by
  apply drain_finishes
  exact Nat.add_le_add_left (List.countP_le_length) _

omit [Std.TransOrd Key] [Std.LawfulEqOrd Key] in
theorem drain_drained (nodes : List Node) (fuel : Nat) (work : Work Key Mark)
    (empty : (drain key reads reason nodes fuel work).pending = []) :
    Drained key reads reason nodes work (drain key reads reason nodes fuel work) := by
  induction fuel generalizing work with
  | zero => exact .done empty
  | succ fuel ih =>
      cases head : work.pending with
      | nil =>
          simp only [drain, head]
          exact .done head
      | cons gone rest =>
          simp only [drain, head] at empty ⊢
          exact .round head (ih _ empty)

/-- The bound is enough: the loop ends, and ends as `settle` does. -/
theorem settle_drained (nodes : List Node) (work : Work Key Mark) :
    Drained key reads reason nodes work (settle key reads reason nodes work) :=
  drain_drained key reads reason nodes _ work (settle_finishes key reads reason nodes work)

/-- `bad` is why a key is on the stack, `why` what a mark says of its key. -/
structure Justified (bad : Key → Prop) (why : Key → Mark → Prop) (work : Work Key Mark) : Prop where
  pending : ∀ source ∈ work.pending, bad source
  marked : ∀ found mark, work.marked[found]? = some mark → why found mark

variable {bad : Key → Prop} {why : Key → Mark → Prop}

theorem justified_mark {work : Work Key Mark} {added : Key} {given : Mark}
    (justified : Justified bad why work) (worse : bad added) (because : why added given) :
    Justified bad why (mark work added given) := by
  unfold mark
  split
  · exact justified
  · refine ⟨fun source member => ?_, fun found mark stored => ?_⟩
    · rcases List.mem_cons.mp member with rfl | old
      · exact worse
      · exact justified.pending source old
    · rw [Std.TreeMap.getElem?_insert] at stored
      split at stored
      · next same =>
          rw [Std.compare_eq_iff_eq] at same
          cases stored
          exact same ▸ because
      · exact justified.marked found mark stored

theorem justified_scan {gone : Key} (nodes : List Node)
    (spreads : ∀ node ∈ nodes, reads node gone = true →
      bad (key node) ∧ why (key node) (reason gone))
    {work : Work Key Mark} (justified : Justified bad why work) :
    Justified bad why (scan key reads reason gone nodes work) := by
  induction nodes generalizing work with
  | nil => exact justified
  | cons node rest ih =>
      apply ih (fun other member => spreads other (List.mem_cons_of_mem node member))
      split
      · next hit =>
          obtain ⟨reader, because⟩ := spreads node List.mem_cons_self hit
          exact justified_mark justified reader because
      · exact justified

/-- What the marks say is passed on with every round. -/
theorem justified_drained {nodes : List Node}
    (spreads : ∀ gone, bad gone → ∀ node ∈ nodes, reads node gone = true →
      bad (key node) ∧ why (key node) (reason gone))
    {work last : Work Key Mark} (justified : Justified bad why work)
    (drained : Drained key reads reason nodes work last) : Justified bad why last := by
  induction drained with
  | done _ => exact justified
  | round head _ ih =>
      have worse := justified.pending _ (head ▸ List.mem_cons_self)
      refine ih (justified_scan key reads reason nodes (spreads _ worse) ⟨?_, ?_⟩)
      · exact fun source member => justified.pending source (head ▸ List.mem_cons_of_mem _ member)
      · exact justified.marked

/-- After `settle` the marks are closed: whatever reads a marked key, or a key the
stack started with, is marked itself. -/
theorem settle_closed (nodes : List Node) (start : List Key) (work : Work Key Mark)
    (covers : Covers key reads nodes start work) (source : Key)
    (reached : source ∈ (settle key reads reason nodes work).marked ∨ source ∈ start)
    (node : Node) (member : node ∈ nodes) (hit : reads node source = true) :
    key node ∈ (settle key reads reason nodes work).marked := by
  have done := settle_finishes key reads reason nodes work
  rcases drain_covers key reads reason nodes start _ work covers source reached with
    waiting | followed
  · change source ∈ (settle key reads reason nodes work).pending at waiting
    simp [done] at waiting
  · exact followed node member hit

end Rounds
end Laws
end VoltMod.Spread
