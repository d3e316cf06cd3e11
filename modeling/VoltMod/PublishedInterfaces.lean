import Mathlib.Data.List.Nodup

/-! Host/Plugins/PublishedInterfaces.cpp: the interfaces plugins publish to each other. An
implementation is what a name finds; a null one is none. -/
namespace VoltMod.PublishedInterfaces

structure Service (Owner Implementation : Type) where
  name : String
  implementation : Implementation
  owner : Owner
  deriving DecidableEq, Repr

variable {Owner Implementation : Type}

def find (name : String) (services : List (Service Owner Implementation)) :
    Option Implementation :=
  (services.find? fun service => service.name = name).map Service.implementation

def Unique (services : List (Service Owner Implementation)) : Prop :=
  (services.map Service.name).Nodup

/-- What stands under a name, its owner with it. -/
def entry (name : String) (services : List (Service Owner Implementation)) :
    Option (Service Owner Implementation) :=
  services.find? fun service => service.name = name

variable [DecidableEq Owner]

/-- The first service under the name is refreshed where it is the owner's own. -/
def refresh (owner : Owner) (name : String) (implementation : Implementation) :
    List (Service Owner Implementation) → List (Service Owner Implementation)
  | [] => [⟨name, implementation, owner⟩]
  | service :: rest =>
      if service.name = name then
        (if service.owner = owner then { service with implementation } else service) :: rest
      else service :: refresh owner name implementation rest

def publish (owner : Owner) (name : String) (implementation : Option Implementation)
    (services : List (Service Owner Implementation)) : List (Service Owner Implementation) :=
  match implementation with
  | none => services
  | some implementation =>
      if name = "" then services else refresh owner name implementation services

def unpublish (owner : Owner) (name : String) :
    List (Service Owner Implementation) → List (Service Owner Implementation)
  | [] => []
  | service :: rest =>
      if service.name = name then (if service.owner = owner then rest else service :: rest)
      else service :: unpublish owner name rest

/-- With the names its owner still held. -/
def removeAll (owner : Owner) (services : List (Service Owner Implementation)) :
    List String × List (Service Owner Implementation) :=
  ((services.filter fun service => service.owner = owner).map Service.name,
    services.filter fun service => service.owner ≠ owner)

/-- What one owner has published. -/
def servicesOf (owner : Owner) (services : List (Service Owner Implementation)) :
    List (Service Owner Implementation) :=
  services.filter fun service => service.owner = owner

variable {owner other : Owner} {name : String} {services : List (Service Owner Implementation)}

theorem refresh_names (implementation : Implementation) :
    (refresh owner name implementation services).map Service.name =
      if name ∈ services.map Service.name then services.map Service.name
      else services.map Service.name ++ [name] := by
  induction services with
  | nil => rfl
  | cons service rest ih =>
      by_cases here : service.name = name
      · by_cases own : service.owner = owner
        · simp [refresh, here, own]
        · simp [refresh, here, own]
      · have apart : name ≠ service.name := fun same => here same.symm
        rw [refresh, if_neg here, List.map_cons, List.map_cons, ih]
        by_cases later : name ∈ rest.map Service.name
        · rw [if_pos later, if_pos (List.mem_cons_of_mem _ later)]
        · rw [if_neg later, if_neg (by simp [apart, later]), List.cons_append]

theorem refresh_owners {service : Service Owner Implementation} {implementation : Implementation}
    (member : service ∈ refresh owner name implementation services) :
    service.owner = owner ∨ service ∈ services := by
  induction services with
  | nil =>
      obtain rfl := List.mem_singleton.mp member
      exact Or.inl rfl
  | cons held rest ih =>
      rw [refresh] at member
      split at member
      · rcases List.mem_cons.mp member with rfl | later
        · split
          · next own => exact Or.inl own
          · exact Or.inr List.mem_cons_self
        · exact Or.inr (List.mem_cons_of_mem held later)
      · rcases List.mem_cons.mp member with rfl | later
        · exact Or.inr List.mem_cons_self
        · exact (ih later).imp id (List.mem_cons_of_mem held)

/-- A peer's live pointer is never swapped out from under it. -/
theorem refresh_beside (implementation : Implementation) :
    (removeAll owner (refresh owner name implementation services)).2 =
      (removeAll owner services).2 := by
  simp only [removeAll]
  induction services with
  | nil => simp [refresh]
  | cons service rest ih =>
      rw [refresh]
      split
      · split
        · next own => simp [own]
        · rfl
      · rw [List.filter_cons, List.filter_cons, ih]

theorem publish_unique (implementation : Option Implementation) (unique : Unique services) :
    Unique (publish owner name implementation services) := by
  unfold publish
  split
  · exact unique
  · next implementation =>
      split
      · exact unique
      · rw [Unique, refresh_names]
        split
        · exact unique
        · next fresh =>
            rw [← List.concat_eq_append]
            exact unique.concat fresh

theorem publish_owners {service : Service Owner Implementation}
    {implementation : Option Implementation}
    (member : service ∈ publish owner name implementation services) :
    service.owner = owner ∨ service ∈ services := by
  unfold publish at member
  split at member
  · exact Or.inr member
  · split at member
    · exact Or.inr member
    · exact refresh_owners member

theorem publish_beside (implementation : Option Implementation) :
    (removeAll owner (publish owner name implementation services)).2 =
      (removeAll owner services).2 := by
  unfold publish
  split
  · rfl
  · split
    · rfl
    · exact refresh_beside _

theorem unpublish_sublist : (unpublish owner name services).Sublist services := by
  induction services with
  | nil => exact List.Sublist.slnil
  | cons service rest ih =>
      rw [unpublish]
      split
      · split
        · exact List.sublist_cons_self service rest
        · exact List.Sublist.refl _
      · exact ih.cons_cons service

theorem unpublish_beside :
    (removeAll owner (unpublish owner name services)).2 = (removeAll owner services).2 := by
  simp only [removeAll]
  induction services with
  | nil => rfl
  | cons service rest ih =>
      rw [unpublish]
      split
      · split
        · next own => simp [own]
        · rfl
      · rw [List.filter_cons, List.filter_cons, ih]

omit [DecidableEq Owner] in
theorem find_entry (name : String) (services : List (Service Owner Implementation)) :
    find name services = (entry name services).map Service.implementation := rfl

omit [DecidableEq Owner] in
theorem entry_mem {service : Service Owner Implementation}
    (held : entry name services = some service) : service ∈ services ∧ service.name = name :=
  ⟨List.mem_of_find?_eq_some held, by simpa using List.find?_some held⟩

omit [DecidableEq Owner] in
theorem entry_none : entry name services = none ↔ ∀ service ∈ services, service.name ≠ name := by
  simp [entry, List.find?_eq_none]

omit [DecidableEq Owner] in
theorem entry_cons (service : Service Owner Implementation) :
    entry name (service :: services) =
      if service.name = name then some service else entry name services := by
  rw [entry, List.find?_cons]
  by_cases here : service.name = name
  · simp [here]
  · simp [here, entry]

theorem refresh_entry_other {sought : String} (implementation : Implementation)
    (different : sought ≠ name) :
    entry sought (refresh owner name implementation services) = entry sought services := by
  induction services with
  | nil => simp [refresh, entry, different.symm]
  | cons service rest ih =>
      rw [refresh]
      split
      · next here =>
          have apart : service.name ≠ sought := fun same => different (same.symm.trans here)
          split
          · rw [entry_cons, entry_cons, if_neg apart, if_neg apart]
          · rfl
      · rw [entry_cons, entry_cons, ih]

theorem refresh_entry_fresh (implementation : Implementation)
    (free : entry name services = none) :
    entry name (refresh owner name implementation services) =
      some ⟨name, implementation, owner⟩ := by
  induction services with
  | nil => simp [refresh, entry]
  | cons service rest ih =>
      have apart := entry_none.mp free service List.mem_cons_self
      rw [entry_cons, if_neg apart] at free
      rw [refresh, if_neg apart, entry_cons, if_neg apart, ih free]

theorem refresh_entry_held (implementation : Implementation)
    {service : Service Owner Implementation} (held : entry name services = some service) :
    entry name (refresh owner name implementation services) =
      some (if service.owner = owner then { service with implementation } else service) := by
  induction services with
  | nil => cases held
  | cons first rest ih =>
      rw [entry_cons] at held
      rw [refresh]
      split at held
      · next here =>
          cases held
          rw [if_pos here, entry_cons]
          by_cases own : service.owner = owner
          · simp [own, here]
          · simp [own, here]
      · next apart => rw [if_neg apart, entry_cons, if_neg apart, ih held]

theorem unpublish_entry_other {sought : String} (different : sought ≠ name) :
    entry sought (unpublish owner name services) = entry sought services := by
  induction services with
  | nil => rfl
  | cons service rest ih =>
      rw [unpublish]
      split
      · next here =>
          have apart : service.name ≠ sought := fun same => different (same.symm.trans here)
          split
          · rw [entry_cons, if_neg apart]
          · rfl
      · rw [entry_cons, entry_cons, ih]

theorem unpublish_foreign
    (foreign : ∀ service, entry name services = some service → service.owner ≠ owner) :
    unpublish owner name services = services := by
  induction services with
  | nil => rfl
  | cons service rest ih =>
      rw [unpublish]
      split
      · next here =>
          have held : entry name (service :: rest) = some service := by rw [entry_cons, if_pos here]
          rw [if_neg (foreign service held)]
      · next apart =>
          rw [ih fun later held => foreign later (by rw [entry_cons, if_neg apart, held])]

theorem unpublish_entry_own (unique : Unique services) {service : Service Owner Implementation}
    (held : entry name services = some service) (own : service.owner = owner) :
    entry name (unpublish owner name services) = none := by
  induction services with
  | nil => rfl
  | cons first rest ih =>
      obtain ⟨fresh, later⟩ := List.nodup_cons.mp unique
      rw [entry_cons] at held
      rw [unpublish]
      split at held
      · next here =>
          cases held
          rw [if_pos here, if_pos own]
          -- The name stands only once.
          refine entry_none.mpr fun other member same => fresh ?_
          rw [here, ← same]
          exact List.mem_map_of_mem member
      · next apart => rw [if_neg apart, entry_cons, if_neg apart, ih later held]

theorem removeAll_own : servicesOf owner (removeAll owner services).2 = [] := by
  simp [servicesOf, removeAll]

theorem removeAll_others (different : other ≠ owner) :
    servicesOf other (removeAll owner services).2 = servicesOf other services := by
  rw [servicesOf, removeAll, List.filter_filter]
  apply List.filter_congr
  intro service _
  by_cases own : service.owner = other
  · simp [own, different]
  · simp [own]

theorem removeAll_sublist : (removeAll owner services).2.Sublist services := List.filter_sublist

end VoltMod.PublishedInterfaces
