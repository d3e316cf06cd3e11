import Mathlib.Data.List.Nodup

/-! Host/Plugins/CommandNames.cpp: which plugin owns each console command name, the names
compared byte for byte. An owner is whatever the host tells plugins apart by. -/
namespace VoltMod.CommandNames

abbrev Name := List Char

/-- No owner is the host. -/
structure Entry (Owner : Type) where
  name : Name
  owner : Option Owner
  ownerName : String
  deriving DecidableEq, Repr

variable {Owner : Type}

def findName (name : Name) (entries : List (Entry Owner)) : Option (Entry Owner) :=
  entries.find? fun entry => entry.name = name

def reserve (name : Name) (entries : List (Entry Owner)) : List (Entry Owner) :=
  if name ≠ [] ∧ (findName name entries).isNone then entries ++ [⟨name, none, "the host"⟩]
  else entries

def ownerOf (name : Name) (entries : List (Entry Owner)) : String :=
  (findName name entries).elim "" Entry.ownerName

/-- Who holds a name, whatever else is in the table. -/
def Holds (owner : Option Owner) (name : Name) (entries : List (Entry Owner)) : Prop :=
  ∃ entry ∈ entries, entry.name = name ∧ entry.owner = owner

def Unique (entries : List (Entry Owner)) : Prop := (entries.map Entry.name).Nodup

theorem findName_some {name : Name} {entries : List (Entry Owner)} {entry : Entry Owner}
    (found : findName name entries = some entry) : entry ∈ entries ∧ entry.name = name :=
  ⟨List.mem_of_find?_eq_some found, by simpa using List.find?_some found⟩

theorem findName_none {name : Name} {entries : List (Entry Owner)}
    (missing : findName name entries = none) : name ∉ entries.map Entry.name := by
  intro member
  obtain ⟨entry, held, same⟩ := List.mem_map.mp member
  have other := List.find?_eq_none.mp missing entry held
  exact other (decide_eq_true same)

theorem unique_append {entries : List (Entry Owner)} (unique : Unique entries)
    {entry : Entry Owner} (missing : findName entry.name entries = none) :
    Unique (entries ++ [entry]) := by
  rw [Unique, List.map_append, List.nodup_append]
  refine ⟨unique, List.nodup_singleton _, fun name held other member same => ?_⟩
  rw [List.mem_singleton.mp member] at same
  exact findName_none missing (same ▸ held)

/-- A name has one owner. -/
theorem holds_unique {entries : List (Entry Owner)} (unique : Unique entries)
    {first second : Option Owner} {name : Name} (here : Holds first name entries)
    (there : Holds second name entries) : first = second := by
  obtain ⟨one, held, named, rfl⟩ := here
  obtain ⟨other, also, likewise, rfl⟩ := there
  rw [List.inj_on_of_nodup_map unique held also (named.trans likewise.symm)]

theorem holds_append {owner : Option Owner} {name : Name} {entries : List (Entry Owner)}
    {entry : Entry Owner} : Holds owner name (entries ++ [entry]) ↔
      Holds owner name entries ∨ entry.name = name ∧ entry.owner = owner := by
  simp [Holds, or_and_right, exists_or]

theorem reserve_unique {name : Name} {entries : List (Entry Owner)} (unique : Unique entries) :
    Unique (reserve name entries) := by
  unfold reserve
  split
  · next fresh => exact unique_append unique (Option.isNone_iff_eq_none.mp fresh.2)
  · exact unique

/-- Reserving adds nothing but the host's own name. -/
theorem reserve_holds {name other : Name} {owner : Option Owner} {entries : List (Entry Owner)}
    (holds : Holds owner other (reserve name entries)) : Holds owner other entries ∨ owner = none := by
  unfold reserve at holds
  split at holds
  · rcases holds_append.mp holds with old | ⟨_, same⟩
    · exact Or.inl old
    · exact Or.inr same.symm
  · exact Or.inl holds

theorem reserve_keeps {name other : Name} {owner : Option Owner} {entries : List (Entry Owner)}
    (holds : Holds owner other entries) : Holds owner other (reserve name entries) := by
  unfold reserve
  split
  · exact holds_append.mpr (Or.inl holds)
  · exact holds

/-- With no names but the host's, every reserved name becomes the host's. -/
theorem reserve_held {name : Name} {entries : List (Entry Owner)} (some_ : name ≠ [])
    (hosts : ∀ entry ∈ entries, entry.owner = none) : Holds none name (reserve name entries) := by
  unfold reserve
  split
  · exact holds_append.mpr (Or.inr ⟨rfl, rfl⟩)
  · next taken =>
      cases found : findName name entries with
      | none => exact absurd ⟨some_, by simp [found]⟩ taken
      | some entry =>
          obtain ⟨held, same⟩ := findName_some found
          exact ⟨entry, held, same, hosts entry held⟩

section Owners
variable [DecidableEq Owner]

def register (owner : Owner) (ownerName : String) (name : Name) (entries : List (Entry Owner)) :
    Bool × List (Entry Owner) :=
  if name = [] then (false, entries)
  else
    match findName name entries with
    | some entry => (decide (entry.owner = some owner), entries)
    | none => (true, entries ++ [⟨name, some owner, ownerName⟩])

def removeAll (owner : Owner) (entries : List (Entry Owner)) : List (Entry Owner) :=
  entries.filter fun entry => entry.owner ≠ some owner

/-- What registering can do: refuse, find the owner's own name, or add it. -/
theorem register_cases (owner : Owner) (ownerName : String) (name : Name)
    (entries : List (Entry Owner)) :
    register owner ownerName name entries = (false, entries) ∨
      (register owner ownerName name entries = (true, entries) ∧ name ≠ [] ∧
        Holds (some owner) name entries) ∨
      (register owner ownerName name entries =
          (true, entries ++ [⟨name, some owner, ownerName⟩]) ∧ name ≠ [] ∧
        findName name entries = none) := by
  unfold register
  split
  · exact Or.inl rfl
  · next some_ =>
      cases found : findName name entries with
      | none => exact Or.inr (Or.inr ⟨rfl, some_, rfl⟩)
      | some entry =>
          obtain ⟨held, named⟩ := findName_some found
          by_cases own : entry.owner = some owner
          · exact Or.inr (Or.inl ⟨by simp [own], some_, entry, held, named, own⟩)
          · exact Or.inl (by simp [own])

theorem register_refused {owner : Owner} {ownerName : String} {name : Name}
    {entries : List (Entry Owner)}
    (refused : (register owner ownerName name entries).1 = false) :
    register owner ownerName name entries = (false, entries) := by
  rcases register_cases owner ownerName name entries with same | ⟨same, _⟩ | ⟨same, _⟩
  · exact same
  · rw [same] at refused
    cases refused
  · rw [same] at refused
    cases refused

theorem register_unique {owner : Owner} {ownerName : String} {name : Name}
    {entries : List (Entry Owner)} (unique : Unique entries) :
    Unique (register owner ownerName name entries).2 := by
  rcases register_cases owner ownerName name entries with same | ⟨same, _⟩ | ⟨same, _, missing⟩
  · rw [same]
    exact unique
  · rw [same]
    exact unique
  · rw [same]
    exact unique_append unique missing

theorem register_held {owner : Owner} {ownerName : String} {name : Name}
    {entries : List (Entry Owner)}
    (accepted : (register owner ownerName name entries).1 = true) :
    Holds (some owner) name (register owner ownerName name entries).2 := by
  rcases register_cases owner ownerName name entries with same | ⟨same, _, held⟩ | ⟨same, _, _⟩
  · rw [same] at accepted
    cases accepted
  · rw [same]
    exact held
  · rw [same]
    exact holds_append.mpr (Or.inr ⟨rfl, rfl⟩)

theorem register_keeps {owner : Owner} {ownerName : String} {name other : Name}
    {holder : Option Owner} {entries : List (Entry Owner)} (holds : Holds holder other entries) :
    Holds holder other (register owner ownerName name entries).2 := by
  rcases register_cases owner ownerName name entries with same | ⟨same, _⟩ | ⟨same, _⟩
  · rwa [same]
  · rwa [same]
  · rw [same]
    exact holds_append.mpr (Or.inl holds)

theorem register_accepted {owner : Owner} {ownerName : String} {name : Name}
    {entries after : List (Entry Owner)} (unique : Unique entries)
    (accepted : register owner ownerName name entries = (true, after)) :
    Unique after ∧ Holds (some owner) name after ∧
      ∀ holder other, Holds holder other entries → Holds holder other after := by
  have same : (register owner ownerName name entries).2 = after := by rw [accepted]
  subst same
  refine ⟨register_unique unique, register_held ?_, fun _ _ holds => register_keeps holds⟩
  rw [accepted]

theorem removeAll_unique {owner : Owner} {entries : List (Entry Owner)} (unique : Unique entries) :
    Unique (removeAll owner entries) :=
  unique.sublist (List.filter_sublist.map _)

/-- Removing an owner takes its names and no others. -/
theorem removeAll_holds {owner : Owner} {holder : Option Owner} {name : Name}
    {entries : List (Entry Owner)} :
    Holds holder name (removeAll owner entries) ↔
      Holds holder name entries ∧ holder ≠ some owner := by
  constructor
  · rintro ⟨entry, member, named, rfl⟩
    obtain ⟨held, other⟩ := List.mem_filter.mp member
    exact ⟨⟨entry, held, named, rfl⟩, of_decide_eq_true other⟩
  · rintro ⟨⟨entry, held, named, rfl⟩, other⟩
    exact ⟨entry, List.mem_filter.mpr ⟨held, decide_eq_true other⟩, named, rfl⟩

/-- What one owner has registered. -/
def namesOf (owner : Owner) (entries : List (Entry Owner)) : List (Entry Owner) :=
  entries.filter fun entry => entry.owner = some owner

theorem register_beside (owner : Owner) (ownerName : String) (name : Name)
    (entries : List (Entry Owner)) :
    removeAll owner (register owner ownerName name entries).2 = removeAll owner entries := by
  rcases register_cases owner ownerName name entries with same | ⟨same, _⟩ | ⟨same, _⟩
  · rw [same]
  · rw [same]
  · rw [same, removeAll, List.filter_append]
    simp [removeAll]

theorem reserve_namesOf (owner : Owner) (name : Name) (entries : List (Entry Owner)) :
    namesOf owner (reserve name entries) = namesOf owner entries := by
  unfold reserve
  split
  · rw [namesOf, List.filter_append]
    simp [namesOf]
  · rfl

theorem removeAll_namesOf (owner other : Owner) (entries : List (Entry Owner)) :
    namesOf other (removeAll owner entries) =
      if other = owner then [] else namesOf other entries := by
  rw [namesOf, removeAll, List.filter_filter]
  split
  · next own => simp [own]
  · next different =>
      apply List.filter_congr
      intro entry _
      by_cases own : entry.owner = some other
      · simp [own, different]
      · simp [own]

theorem register_owners {owner holder : Owner} {ownerName : String} {name : Name}
    {entries : List (Entry Owner)} {entry : Entry Owner}
    (member : entry ∈ (register owner ownerName name entries).2)
    (owned : entry.owner = some holder) : holder = owner ∨ entry ∈ entries := by
  rcases register_cases owner ownerName name entries with same | ⟨same, _⟩ | ⟨same, _⟩
  · rw [same] at member
    exact Or.inr member
  · rw [same] at member
    exact Or.inr member
  · rw [same] at member
    rcases List.mem_append.mp member with old | new
    · exact Or.inr old
    · rw [List.mem_singleton.mp new] at owned
      exact Or.inl (Option.some.inj owned).symm

omit [DecidableEq Owner] in
theorem reserve_owners {holder : Owner} {name : Name} {entries : List (Entry Owner)}
    {entry : Entry Owner} (member : entry ∈ reserve name entries)
    (owned : entry.owner = some holder) : entry ∈ entries := by
  unfold reserve at member
  split at member
  · rcases List.mem_append.mp member with old | new
    · exact old
    · rw [List.mem_singleton.mp new] at owned
      cases owned
  · exact member

end Owners

end VoltMod.CommandNames
