import Mathlib.Data.List.Basic
import Mathlib.Data.List.Nodup

/-! A dictionary in the order its keys came in, as the list of its entries. -/
namespace VoltMod.OrderedDict
variable {Key Value : Type}

def keys (dict : List (Key × Value)) : List Key := dict.map Prod.fst

@[simp] theorem keys_nil : keys ([] : List (Key × Value)) = [] := rfl

@[simp] theorem keys_cons (entry : Key × Value) (dict : List (Key × Value)) :
    keys (entry :: dict) = entry.1 :: keys dict := rfl

variable [DecidableEq Key]

def lookup (key : Key) : List (Key × Value) → Option Value
  | [] => none
  | entry :: rest => if entry.1 = key then some entry.2 else lookup key rest

/-- The value of `key` is changed where it is; a new key starts with `default` and comes last. -/
def alter (key : Key) (default : Value) (change : Value → Value) :
    List (Key × Value) → List (Key × Value)
  | [] => [(key, change default)]
  | entry :: rest =>
      if entry.1 = key then (key, change entry.2) :: rest
      else entry :: alter key default change rest

variable {key other : Key} {value default : Value} {change : Value → Value}
  {dict : List (Key × Value)}

theorem lookup_alter : lookup other (alter key default change dict) =
    if key = other then some (change ((lookup key dict).getD default)) else lookup other dict := by
  induction dict with
  | nil => rfl
  | cons entry rest hypothesis =>
      by_cases here : entry.1 = key
      · subst here
        simp only [alter, lookup, if_true]
        split <;> rfl
      · simp only [alter, if_neg here, lookup, hypothesis]
        by_cases there : entry.1 = other
        · subst there
          rw [if_pos rfl, if_pos rfl, if_neg (Ne.symm here)]
        · rw [if_neg there, if_neg there]

theorem keys_alter : keys (alter key default change dict) =
    if key ∈ keys dict then keys dict else keys dict ++ [key] := by
  induction dict with
  | nil => rfl
  | cons entry rest hypothesis =>
      by_cases here : entry.1 = key
      · subst here
        simp [alter]
      · have apart : key ≠ entry.1 := Ne.symm here
        simp only [alter, if_neg here, keys_cons, hypothesis, List.mem_cons, apart, false_or]
        by_cases held : key ∈ keys rest
        · rw [if_pos held, if_pos held]
        · rw [if_neg held, if_neg held, List.cons_append]

theorem alter_distinct (distinct : (keys dict).Nodup) :
    (keys (alter key default change dict)).Nodup := by
  rw [keys_alter]
  split
  · exact distinct
  · next absent => exact List.nodup_append.mpr ⟨distinct, List.nodup_singleton key, by
      intro other inside last member same
      obtain rfl := List.mem_singleton.mp member
      exact absent (same ▸ inside)⟩

theorem lookup_mem (distinct : (keys dict).Nodup) :
    lookup key dict = some value ↔ (key, value) ∈ dict := by
  induction dict with
  | nil => simp [lookup]
  | cons entry rest hypothesis =>
      obtain ⟨absent, distinct⟩ := List.nodup_cons.mp distinct
      by_cases here : entry.1 = key
      · obtain ⟨first, held⟩ := entry
        obtain rfl : first = key := here
        have later : (first, value) ∉ rest := by
          intro member
          have named : first ∈ keys rest := List.mem_map_of_mem member
          exact absent named
        simp [lookup, later, eq_comm]
      · have apart : (key, value) ≠ entry := fun same => here (congrArg Prod.fst same).symm
        rw [lookup, if_neg here, hypothesis distinct, List.mem_cons, or_iff_right apart]

theorem mem_of_lookup (found : lookup key dict = some value) : (key, value) ∈ dict := by
  induction dict with
  | nil => cases found
  | cons entry rest hypothesis =>
      rw [lookup] at found
      split at found
      · next here =>
          cases found
          exact here ▸ List.mem_cons_self
      · exact List.mem_cons_of_mem _ (hypothesis found)

theorem lookup_isSome : (lookup key dict).isSome ↔ key ∈ keys dict := by
  induction dict with
  | nil => simp [lookup, keys]
  | cons entry rest hypothesis =>
      rw [lookup, keys_cons, List.mem_cons]
      by_cases here : entry.1 = key
      · simp [here]
      · rw [if_neg here, hypothesis, or_iff_right (Ne.symm here)]

end VoltMod.OrderedDict
