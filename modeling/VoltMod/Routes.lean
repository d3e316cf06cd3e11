import Mathlib.Data.List.Nodup

/-!
The ways from a node to a goal in a graph where a node may be reached in several ways.
`routes` looks no further behind a goal it meets, and no further than its limit: where nothing
behind a goal is one and no way is longer, these are all the ways there are.
-/

namespace VoltMod.Routes

universe u v
variable {Node : Type u} {Edge : Type v} {edges : Node → List Edge} {target : Edge → Node}

inductive Leads (edges : Node → List Edge) (target : Edge → Node) :
    Node → List Edge → Node → Prop
  | here (node : Node) : Leads edges target node [] node
  | along {node last : Node} {edge : Edge} {path : List Edge} (listed : edge ∈ edges node)
      (rest : Leads edges target (target edge) path last) :
      Leads edges target node (edge :: path) last

theorem Leads.append {node middle last : Node} {front back : List Edge}
    (first : Leads edges target node front middle) (later : Leads edges target middle back last) :
    Leads edges target node (front ++ back) last := by
  induction first with
  | here _ => exact later
  | along listed _ ih => exact .along listed (ih later)

theorem Leads.edge {node : Node} {edge : Edge} (listed : edge ∈ edges node) :
    Leads edges target node [edge] (target edge) := .along listed (.here _)

/-- A way to a goal: it takes an edge at least. -/
def Reaches (edges : Node → List Edge) (target : Edge → Node) (goal : Node → Bool) (node : Node)
    (path : List Edge) : Prop :=
  path ≠ [] ∧ ∃ last, Leads edges target node path last ∧ goal last = true

/-- No goal is behind a goal on the ways from the node. -/
def GoalsLast (edges : Node → List Edge) (target : Edge → Node) (goal : Node → Bool)
    (node : Node) : Prop :=
  ∀ front middle back last, Leads edges target node front middle → goal middle = true →
    Leads edges target middle back last → back ≠ [] → goal last = false

/-- What holds of every node on the ways from a node holds so behind each of its edges. -/
theorem behind {holds : Node → Prop} {node : Node} {edge : Edge}
    (all : ∀ path last, Leads edges target node path last → holds last)
    (listed : edge ∈ edges node) :
    ∀ path last, Leads edges target (target edge) path last → holds last :=
  fun path last leads => all (edge :: path) last (.along listed leads)

theorem GoalsLast.behind {goal : Node → Bool} {node : Node} {edge : Edge}
    (lasts : GoalsLast edges target goal node) (listed : edge ∈ edges node) :
    GoalsLast edges target goal (target edge) :=
  fun front middle back last leads => lasts (edge :: front) middle back last (.along listed leads)

def routes (edges : Node → List Edge) (target : Edge → Node) (goal : Node → Bool) :
    Nat → Node → List (List Edge)
  | 0, _ => []
  | limit + 1, node => (edges node).flatMap fun edge =>
      if goal (target edge) then [[edge]]
      else (routes edges target goal limit (target edge)).map (edge :: ·)

section Exact
variable {goal : Node → Bool}

theorem reaches_cons {node : Node} {edge : Edge} {path : List Edge} :
    Reaches edges target goal node (edge :: path) ↔ edge ∈ edges node ∧
      (path = [] ∧ goal (target edge) = true ∨
        Reaches edges target goal (target edge) path) := by
  constructor
  · rintro ⟨_, last, leads, reached⟩
    cases leads with
    | along listed rest =>
        refine ⟨listed, ?_⟩
        cases rest with
        | here _ => exact .inl ⟨rfl, reached⟩
        | along next later => exact .inr ⟨List.cons_ne_nil _ _, last, .along next later, reached⟩
  · rintro ⟨listed, ⟨rfl, reached⟩ | ⟨_, last, leads, reached⟩⟩
    · exact ⟨List.cons_ne_nil _ _, _, .edge listed, reached⟩
    · exact ⟨List.cons_ne_nil _ _, last, .along listed leads, reached⟩

/-- The routes are the ways within the limit. -/
theorem mem_routes {limit : Nat} {node : Node} (lasts : GoalsLast edges target goal node)
    (path : List Edge) :
    path ∈ routes edges target goal limit node ↔
      path.length ≤ limit ∧ Reaches edges target goal node path := by
  induction limit generalizing node path with
  | zero =>
      simp only [routes, List.not_mem_nil, Nat.le_zero, List.length_eq_zero_iff, false_iff]
      rintro ⟨rfl, some, _⟩
      exact some rfl
  | succ limit ih =>
      rw [routes, List.mem_flatMap]
      constructor
      · rintro ⟨edge, listed, found⟩
        split at found
        · next reached =>
            rw [List.mem_singleton.mp found, reaches_cons]
            exact ⟨Nat.succ_le_succ (Nat.zero_le _), listed, .inl ⟨rfl, reached⟩⟩
        · obtain ⟨rest, inside, rfl⟩ := List.mem_map.mp found
          obtain ⟨short, later⟩ := (ih (lasts.behind listed) rest).mp inside
          exact ⟨Nat.succ_le_succ short, reaches_cons.mpr ⟨listed, .inr later⟩⟩
      · rintro ⟨short, reaches⟩
        cases path with
        | nil => exact absurd rfl reaches.1
        | cons edge rest =>
            obtain ⟨listed, ended | later⟩ := reaches_cons.mp reaches
            · refine ⟨edge, listed, ?_⟩
              rw [if_pos ended.2, ended.1]
              exact List.mem_singleton_self _
            · -- A goal at the edge's target would have this way's goal behind it.
              have unreached : goal (target edge) = false := by
                obtain ⟨some, last, leads, reached⟩ := later
                cases early : goal (target edge) with
                | false => rfl
                | true => exact reached.symm.trans (lasts _ _ _ _ (.edge listed) early leads some)
              refine ⟨edge, listed, ?_⟩
              rw [unreached, if_neg Bool.false_ne_true]
              exact List.mem_map_of_mem ((ih (lasts.behind listed) rest).mpr
                ⟨Nat.le_of_succ_le_succ short, later⟩)

theorem routes_nodup (once : ∀ node, (edges node).Nodup) (limit : Nat) (node : Node) :
    (routes edges target goal limit node).Nodup := by
  induction limit generalizing node with
  | zero => exact List.nodup_nil
  | succ limit ih =>
      rw [routes, List.nodup_flatMap]
      have headed : ∀ edge path, path ∈ (if goal (target edge) then [[edge]]
          else (routes edges target goal limit (target edge)).map (edge :: ·)) →
          path.head? = some edge := by
        intro edge path found
        split at found
        · rw [List.mem_singleton.mp found]
          rfl
        · obtain ⟨rest, _, rfl⟩ := List.mem_map.mp found
          rfl
      constructor
      · intro edge _
        split
        · exact List.nodup_singleton _
        · exact (ih _).map (List.cons_injective)
      · refine (once node).imp fun {edge other} apart path one another => apart ?_
        exact Option.some.inj ((headed edge path one).symm.trans (headed other path another))

end Exact

section Count
variable {Item : Type u} {items : List Item} {holds : Item → Prop}

theorem none_iff (exact : ∀ item, item ∈ items ↔ holds item) :
    items = [] ↔ ∀ item, ¬holds item := by
  rw [List.eq_nil_iff_forall_not_mem]
  exact forall_congr' fun item => not_congr (exact item)

theorem one_iff (distinct : items.Nodup) (exact : ∀ item, item ∈ items ↔ holds item)
    (item : Item) : items = [item] ↔ ∀ other, holds other ↔ other = item := by
  constructor
  · rintro rfl other
    rw [← exact, List.mem_singleton]
  · intro only
    exact List.perm_singleton.mp ((List.perm_ext_iff_of_nodup distinct
      (List.nodup_singleton item)).mpr fun other => by
        rw [exact, only, List.mem_singleton])

theorem several_iff (distinct : items.Nodup) (exact : ∀ item, item ∈ items ↔ holds item) :
    1 < items.length ↔ ∃ first second, holds first ∧ holds second ∧ first ≠ second := by
  constructor
  · intro many
    match items, many with
    | first :: second :: rest, _ =>
        refine ⟨first, second, (exact first).mp (by simp), (exact second).mp (by simp), ?_⟩
        rintro rfl
        simp at distinct
  · rintro ⟨first, second, one, other, apart⟩
    match items, (exact first).mpr one, (exact second).mpr other with
    | [item], here, there =>
        exact absurd ((List.mem_singleton.mp here).trans (List.mem_singleton.mp there).symm) apart
    | _ :: _ :: _, _, _ => simp

end Count

end VoltMod.Routes
