import VoltMod.OrderedDict

/-! A table that keeps what a search gave for a key, so that the key is not searched again. -/
namespace VoltMod.Memo
open OrderedDict
variable {Key Value : Type}

/-- Every key was searched once, and what is held is what `search` gives. -/
structure Faithful (search : Key → Value) (held : List (Key × Value)) : Prop where
  once : (keys held).Nodup
  given : ∀ entry ∈ held, entry.2 = search entry.1

variable {search : Key → Value} {key : Key} {value : Value} {held : List (Key × Value)}

theorem faithful_nil : Faithful search [] where
  once := List.nodup_nil
  given := nofun

variable [DecidableEq Key]

/-- `value` is what the search gives; it is made, and then held, where the key is new. -/
def remember (key : Key) (value : Value) (held : List (Key × Value)) : Value × List (Key × Value) :=
  match lookup key held with
  | some earlier => (earlier, held)
  | none => (value, held ++ [(key, value)])

theorem remember_searched (faithful : Faithful search held) (searched : value = search key) :
    (remember key value held).1 = search key := by
  rw [remember]
  split
  · next earlier found =>
      exact faithful.given (key, earlier) (mem_of_lookup found)
  · exact searched

theorem keys_remember : keys (remember key value held).2 =
    if key ∈ keys held then keys held else keys held ++ [key] := by
  rw [remember]
  split
  · next found => rw [if_pos (lookup_isSome.mp (by rw [found]; rfl))]
  · next missing =>
      have absent : key ∉ keys held := by
        intro member
        have present := lookup_isSome.mpr member
        rw [missing] at present
        cases present
      rw [if_neg absent, keys, List.map_append]
      rfl

theorem remember_faithful (faithful : Faithful search held) (searched : value = search key) :
    Faithful search (remember key value held).2 where
  once := by
    rw [keys_remember]
    split
    · exact faithful.once
    · next absent =>
        rw [List.nodup_append]
        refine ⟨faithful.once, List.nodup_singleton key, ?_⟩
        intro other inside last member same
        rw [List.mem_singleton] at member
        exact absent (member ▸ same ▸ inside)
  given := by
    rw [remember]
    split
    · exact faithful.given
    · intro entry member
      rcases List.mem_append.mp member with old | new
      · exact faithful.given entry old
      · rw [List.mem_singleton] at new
        rw [new, searched]

end VoltMod.Memo
