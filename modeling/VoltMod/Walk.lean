import Mathlib.Data.List.Nodup
import Mathlib.Logic.Relation

/-!
Following a partial function from a node until it has no next node or has passed it already.
`walk` is bounded by fuel; `mem_walk` says that one round for every node with a next one, and one
more, pass everything there is to reach.
-/

namespace VoltMod.Walk

universe u
variable {Node : Type u}

def walk [DecidableEq Node] (next : Node → Option Node) : Nat → List Node → Node → List Node
  | 0, passed, _ => passed
  | fuel + 1, passed, current =>
      match next current with
      | none => passed
      | some found =>
          if found ∈ passed then passed else walk next fuel (passed ++ [found]) found

def Follows (next : Node → Option Node) (node other : Node) : Prop := next node = some other

variable {next : Node → Option Node} {start : Node}

/-- Following once from a node, and then walking, is walking from it. -/
theorem transGen_of_follows {middle node : Node} (step : next start = some middle) :
    Relation.TransGen (Follows next) start node ↔
      node = middle ∨ Relation.TransGen (Follows next) middle node := by
  rw [Relation.TransGen.head'_iff]
  constructor
  · rintro ⟨other, first, rest⟩
    cases step.symm.trans first
    exact Relation.reflTransGen_iff_eq_or_transGen.mp rest
  · rintro (rfl | rest)
    · exact ⟨_, step, .refl⟩
    · exact ⟨middle, step, rest.to_reflTransGen⟩

/-- What the rounds so far have passed, every node but the current one followed up. -/
structure Passed (next : Node → Option Node) (start : Node) (passed : List Node) (current : Node) :
    Prop where
  once : passed.Nodup
  here : current = start ∨ current ∈ passed
  reached : ∀ node ∈ passed, Relation.TransGen (Follows next) start node
  followed : ∀ node, node = start ∨ node ∈ passed → node ≠ current →
    ∃ other, next node = some other ∧ other ∈ passed

theorem passed_start (next : Node → Option Node) (start : Node) : Passed next start [] start where
  once := List.nodup_nil
  here := Or.inl rfl
  reached := nofun
  followed _ either apart :=
    either.elim (fun same => absurd same apart) fun inside => nomatch inside

theorem passed_next {passed : List Node} {current found : Node}
    (kept : Passed next start passed current) (step : next current = some found)
    (fresh : found ∉ passed) : Passed next start (passed ++ [found]) found where
  once := by
    refine List.nodup_append.mpr ⟨kept.once, List.nodup_singleton found, ?_⟩
    rintro node inside other last rfl
    exact fresh (List.mem_singleton.mp last ▸ inside)
  here := Or.inr (by simp)
  reached := by
    intro node inside
    rcases List.mem_append.mp inside with old | last
    · exact kept.reached node old
    · rw [List.mem_singleton.mp last]
      rcases kept.here with same | inside
      · exact .single (same ▸ step)
      · exact (kept.reached current inside).tail step
  followed := by
    intro node either apart
    by_cases same : node = current
    · exact ⟨found, same ▸ step, by simp⟩
    · have old : node = start ∨ node ∈ passed := by
        apply either.imp_right
        intro inside
        exact (List.mem_append.mp inside).resolve_right fun last =>
          apart (List.mem_singleton.mp last)
      obtain ⟨other, step, inside⟩ := kept.followed node old same
      exact ⟨other, step, List.mem_append_left _ inside⟩

section Rounds
variable [DecidableEq Node]

theorem passed_prefix (next : Node → Option Node) (fuel : Nat) (passed : List Node)
    (current : Node) : passed <+: walk next fuel passed current := by
  induction fuel generalizing passed current with
  | zero => exact List.prefix_rfl
  | succ fuel ih =>
      simp only [walk]
      split
      · exact List.prefix_rfl
      · next found step =>
          split
          · exact List.prefix_rfl
          · exact (List.prefix_append passed [found]).trans (ih _ _)

theorem walk_head (next : Node → Option Node) (fuel : Nat) (start : Node) :
    (walk next (fuel + 1) [] start).head? = next start := by
  rw [walk]
  cases step : next start with
  | none => rfl
  | some found =>
      obtain ⟨rest, whole⟩ := passed_prefix next fuel [found] found
      simp [← whole]

/-- With a round left for every node that has a next one, the walk ends where nothing is left to
follow up. -/
theorem walk_closed {known : List Node} (finite : ∀ node, (next node).isSome = true → node ∈ known)
    {fuel : Nat} {passed : List Node} {current : Node} (kept : Passed next start passed current)
    (enough : fuel + passed.length = known.length + 1) :
    ∀ node, node = start ∨ node ∈ walk next fuel passed current → ∀ other,
      next node = some other → other ∈ walk next fuel passed current := by
  induction fuel generalizing passed current with
  | zero =>
      intro node either other step
      by_cases same : node = current
      · -- All passed nodes would have a next one, and there are too many of them.
        subst same
        have inside : passed ⊆ known := by
          intro passing member
          by_cases same : passing = node
          · exact finite passing (by simp [same, step])
          · obtain ⟨next_, step, _⟩ := kept.followed passing (Or.inr member) same
            exact finite passing (by simp [step])
        have bound := kept.once.length_le_of_subset inside
        omega
      · obtain ⟨found, following, inside⟩ := kept.followed node either same
        cases step.symm.trans following
        exact inside
  | succ fuel ih =>
      simp only [walk]
      split
      · next ended =>
          intro node either other step
          have apart : node ≠ current := by
            rintro rfl
            cases ended.symm.trans step
          obtain ⟨found, step', inside⟩ := kept.followed node either apart
          cases step.symm.trans step'
          exact inside
      · next found step =>
          split
          · next again =>
              intro node either other following
              by_cases same : node = current
              · subst same
                cases step.symm.trans following
                exact again
              · obtain ⟨found', step', inside⟩ := kept.followed node either same
                cases following.symm.trans step'
                exact inside
          · next fresh =>
              apply ih (passed_next kept step fresh)
              rw [List.length_append, List.length_singleton]
              omega

theorem walk_reached {fuel : Nat} {passed : List Node} {current : Node}
    (kept : Passed next start passed current) :
    ∀ node ∈ walk next fuel passed current, Relation.TransGen (Follows next) start node := by
  induction fuel generalizing passed current with
  | zero => exact kept.reached
  | succ fuel ih =>
      simp only [walk]
      split
      · exact kept.reached
      · next found step =>
          split
          · exact kept.reached
          · next fresh => exact ih (passed_next kept step fresh)

/-- The walk passes exactly what can be reached by following. -/
theorem mem_walk {known : List Node} (finite : ∀ node, (next node).isSome = true → node ∈ known)
    (start node : Node) : node ∈ walk next (known.length + 1) [] start ↔
      Relation.TransGen (Follows next) start node := by
  have closed : ∀ node, node = start ∨ node ∈ walk next (known.length + 1) [] start → ∀ other,
      next node = some other → other ∈ walk next (known.length + 1) [] start :=
    walk_closed finite (passed_start next start) rfl
  constructor
  · exact walk_reached (passed_start next start) node
  · intro reached
    induction reached with
    | single step => exact closed start (Or.inl rfl) _ step
    | tail _ step ih => exact closed _ (Or.inr ih) _ step

end Rounds

end VoltMod.Walk
