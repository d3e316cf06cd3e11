import Mathlib.Logic.Function.Basic
import VoltMod.CommandNames
import VoltMod.Transition

/-! Commands/CommandRouter.cpp, one router for each plugin, all attached to the host's
CommandNames. Keys are names in lower case; the host compares the keys it is given as they
are. A plugin that goes takes its router with it. What a command does stays its `Body`;
`reserved` is history. -/
namespace VoltMod.CommandRouter
open Transition CommandNames

variable {Body Plugin : Type}

structure Definition (Body : Type) where
  name : Name
  aliases : List Name
  body : Body

/-- `aliases` leads from a lower-case alias to the lower-case name of its command. -/
structure Router (Body : Type) where
  commands : List (Name × Definition Body)
  aliases : List (Name × Name)

def noCommands : Router Body := ⟨[], []⟩

def toLower (name : Name) : Name := name.map Char.toLower

def lookup {Value : Type} (key : Name) (table : List (Name × Value)) : Option Value :=
  (table.find? fun entry => entry.1 = key).map Prod.snd

def find (name : Name) (router : Router Body) : Option (Definition Body) :=
  match lookup (toLower name) router.commands with
  | some found => some found
  | none => (lookup (toLower name) router.aliases).bind fun target => lookup target router.commands

section Adding
variable [DecidableEq Plugin]

/-- One alias of a command, indexed unless its key is taken. -/
def addAlias (plugin : Plugin) (title : String) (name : Name)
    (commands : List (Name × Definition Body))
    (tables : List (Entry Plugin) × List (Name × Name)) (alias_ : Name) :
    List (Entry Plugin) × List (Name × Name) :=
  let key := toLower alias_
  if key = [] ∨ key = name then tables
  else if (lookup key commands).isSome then tables
  else if (lookup key tables.2).isSome then tables
  else
    match register plugin title key tables.1 with
    | (false, names) => (names, tables.2)
    | (true, names) => (names, tables.2 ++ [(key, name)])

/-- Whether the command was accepted, the host's names and the router afterwards. -/
def add (plugin : Plugin) (title : String) (definition : Definition Body)
    (names : List (Entry Plugin)) (router : Router Body) :
    Bool × List (Entry Plugin) × Router Body :=
  let name := toLower definition.name
  if name = [] then (false, names, router)
  else if (lookup name router.commands).isSome ∨ (lookup name router.aliases).isSome then
    (false, names, router)
  else
    match register plugin title name names with
    | (false, names) => (false, names, router)
    | (true, names) =>
        let tables := definition.aliases.foldl (addAlias plugin title name router.commands)
          (names, router.aliases)
        (true, tables.1, ⟨router.commands ++ [(name, definition)], tables.2⟩)

end Adding

def clear (_ : Router Body) : Router Body := noCommands

/-- A loaded plugin: the name the host knows it by, and its router. -/
structure Attached (Body : Type) where
  title : String
  router : Router Body

/-- `started` from the first load on. -/
structure Host (Plugin Body : Type) where
  names : List (Entry Plugin)
  plugins : Plugin → Option (Attached Body)
  started : Bool
  reserved : List Name

def start : Host Plugin Body := ⟨[], fun _ => none, false, []⟩

inductive Label (Plugin Body : Type) where
  | reserve (name : Name)
  | load (plugin : Plugin) (title : String)
  | add (plugin : Plugin) (definition : Definition Body)
  | clear (plugin : Plugin)
  | remove (plugin : Plugin)

section Running
variable [DecidableEq Plugin]

def setPlugin (plugin : Plugin) (attached : Option (Attached Body)) (host : Host Plugin Body) :
    Host Plugin Body :=
  { host with plugins := Function.update host.plugins plugin attached }

/-- A plugin's Add through its own router. -/
def addCommand (plugin : Plugin) (definition : Definition Body) (host : Host Plugin Body) :
    Bool × Host Plugin Body :=
  match host.plugins plugin with
  | none => (false, host)
  | some attached =>
      let result := add plugin attached.title definition host.names attached.router
      (result.1, setPlugin plugin (some { attached with router := result.2.2 })
        { host with names := result.2.1 })

def step (host : Host Plugin Body) : Label Plugin Body → Option (Host Plugin Body)
  | .reserve name =>
      if host.started then none
      else some { host with names := reserve name host.names, reserved := host.reserved ++ [name] }
  | .load plugin title =>
      if (host.plugins plugin).isSome then none
      else some { setPlugin plugin (some ⟨title, noCommands⟩) host with started := true }
  | .add plugin definition => some (addCommand plugin definition host).2
  | .clear plugin =>
      (host.plugins plugin).map fun attached =>
        setPlugin plugin (some { attached with router := clear attached.router }) host
  | .remove plugin =>
      some { setPlugin plugin none host with names := removeAll plugin host.names }

end Running

/-- The command a name resolves to in one plugin. -/
def resolves (host : Host Plugin Body) (plugin : Plugin) (name : Name) :
    Option (Definition Body) :=
  (host.plugins plugin).bind fun attached => find name attached.router

def keys (router : Router Body) : List Name :=
  router.commands.map Prod.fst ++ router.aliases.map Prod.fst

/-- Every name has one plugin at most, none where its lower case is reserved; within a
router the keys differ; and an Add takes no command's place. -/
structure Exclusive [DecidableEq Plugin] (host : Host Plugin Body) : Prop where
  single : ∀ name first second, (resolves host first name).isSome = true →
    (resolves host second name).isSome = true → first = second
  reserved : ∀ name plugin, toLower name ∈ host.reserved → resolves host plugin name = none
  distinct : ∀ plugin attached, host.plugins plugin = some attached → (keys attached.router).Nodup
  accepted : ∀ plugin definition, (addCommand plugin definition host).1 = true →
    ∀ other name found, resolves host other name = some found →
      resolves (addCommand plugin definition host).2 other name = some found
  refused : ∀ plugin definition, (addCommand plugin definition host).1 = false →
    ∀ other name, resolves (addCommand plugin definition host).2 other name =
      resolves host other name

theorem lookup_isSome_iff {Value : Type} (key : Name) (table : List (Name × Value)) :
    (lookup key table).isSome = true ↔ key ∈ table.map Prod.fst := by
  simp [lookup, List.find?_isSome]

theorem lookup_append {Value : Type} (key : Name) (first second : List (Name × Value)) :
    lookup key (first ++ second) = (lookup key first).or (lookup key second) := by
  rw [lookup, List.find?_append, Option.map_or]
  rfl

theorem lookup_keeps {Value : Type} {key : Name} {table : List (Name × Value)} {value : Value}
    (found : lookup key table = some value) (more : List (Name × Value)) :
    lookup key (table ++ more) = some value := by
  rw [lookup_append, found]
  rfl

/-- A name resolves through a key of its own. -/
theorem find_key {name : Name} {router : Router Body} (found : (find name router).isSome = true) :
    toLower name ∈ keys router := by
  unfold find at found
  cases direct : lookup (toLower name) router.commands with
  | some definition =>
      refine List.mem_append_left _ ((lookup_isSome_iff _ _).mp ?_)
      rw [direct]
      rfl
  | none =>
      rw [direct] at found
      refine List.mem_append_right _ ((lookup_isSome_iff _ _).mp ?_)
      cases indirect : lookup (toLower name) router.aliases with
      | none => simp [indirect] at found
      | some target => rfl

/-- More commands and aliases under new keys take no name's command away. -/
theorem find_grows {name : Name} {router : Router Body} {definition : Definition Body}
    {key : Name} {found : Definition Body} {more : List (Name × Name)}
    (fresh : key ∉ router.aliases.map Prod.fst) (resolved : find name router = some found) :
    find name ⟨router.commands ++ [(key, definition)], router.aliases ++ more⟩ = some found := by
  unfold find at resolved ⊢
  cases direct : lookup (toLower name) router.commands with
  | some command =>
      rw [direct] at resolved
      rw [lookup_keeps direct]
      exact resolved
  | none =>
      rw [direct] at resolved
      obtain ⟨target, indirect, command⟩ := Option.bind_eq_some_iff.mp resolved
      have other : key ≠ toLower name := by
        rintro rfl
        refine fresh ((lookup_isSome_iff _ _).mp ?_)
        rw [indirect]
        rfl
      have still : lookup (toLower name) (router.commands ++ [(key, definition)]) = none := by
        rw [lookup_append, direct]
        simp [lookup, other]
      rw [still, lookup_keeps indirect]
      exact lookup_keeps command _

/-- The keys of a router differ, and the host has each under its plugin's name. -/
structure Owned (plugin : Plugin) (names : List (Entry Plugin)) (router : Router Body) :
    Prop where
  distinct : (keys router).Nodup
  held : ∀ key ∈ keys router, Holds (some plugin) key names ∧ key ≠ []

/-- What holds of the host between steps. -/
structure Sound (host : Host Plugin Body) : Prop where
  unique : Unique host.names
  owned : ∀ plugin attached, host.plugins plugin = some attached →
    Owned plugin host.names attached.router
  reserved : ∀ name ∈ host.reserved, name ≠ [] → Holds none name host.names
  idle : host.started = false →
    (∀ plugin, host.plugins plugin = none) ∧ ∀ entry ∈ host.names, entry.owner = none

theorem start_sound : Sound (start : Host Plugin Body) := by
  refine ⟨List.nodup_nil, nofun, nofun, fun _ => ⟨fun _ => rfl, nofun⟩⟩

theorem owned_keeps {plugin : Plugin} {before after : List (Entry Plugin)} {router : Router Body}
    (owned : Owned plugin before router)
    (keeps : ∀ key, Holds (some plugin) key before → Holds (some plugin) key after) :
    Owned plugin after router :=
  ⟨owned.distinct, fun key member => ⟨keeps key (owned.held key member).1, (owned.held key member).2⟩⟩

section Adding
variable [DecidableEq Plugin]

/-- What indexing aliases keeps, with the keys of the commands taken. -/
structure Indexed (plugin : Plugin) (taken : List Name)
    (before after : List (Entry Plugin) × List (Name × Name)) : Prop where
  unique : Unique after.1
  grows : ∀ holder key, Holds holder key before.1 → Holds holder key after.1
  more : before.2 <+: after.2
  distinct : (taken ++ after.2.map Prod.fst).Nodup
  owned : ∀ key ∈ after.2.map Prod.fst, Holds (some plugin) key after.1 ∧ key ≠ []

theorem addAlias_cases (plugin : Plugin) (title : String) (name : Name)
    (commands : List (Name × Definition Body))
    (tables : List (Entry Plugin) × List (Name × Name)) (alias_ : Name) :
    addAlias plugin title name commands tables alias_ = tables ∨
      ∃ key, key ≠ [] ∧ key ≠ name ∧ key ∉ commands.map Prod.fst ∧
        key ∉ tables.2.map Prod.fst ∧ (register plugin title key tables.1).1 = true ∧
        addAlias plugin title name commands tables alias_ =
          ((register plugin title key tables.1).2, tables.2 ++ [(key, name)]) := by
  by_cases proper : toLower alias_ = [] ∨ toLower alias_ = name
  · exact Or.inl (if_pos proper)
  by_cases taken : (lookup (toLower alias_) commands).isSome = true
  · exact Or.inl (by simp [addAlias, taken])
  by_cases used : (lookup (toLower alias_) tables.2).isSome = true
  · exact Or.inl (by simp [addAlias, used])
  obtain ⟨some_, other⟩ := not_or.mp proper
  cases accepted : register plugin title (toLower alias_) tables.1 with
  | mk ok names =>
      cases ok with
      | false =>
          have same := register_refused (congrArg Prod.fst accepted)
          rw [accepted] at same
          apply Or.inl
          simp only [addAlias, proper, taken, used, accepted, if_false, Bool.false_eq_true]
          rw [(Prod.mk.inj same).2]
      | true =>
          refine Or.inr ⟨toLower alias_, some_, other, ?_, ?_, by rw [accepted], ?_⟩
          · rwa [← lookup_isSome_iff]
          · rwa [← lookup_isSome_iff]
          · simp only [addAlias, proper, taken, used, accepted, if_false, Bool.false_eq_true]

theorem addAlias_indexed {plugin : Plugin} {title : String} {name : Name}
    {commands : List (Name × Definition Body)}
    {before tables : List (Entry Plugin) × List (Name × Name)}
    (indexed : Indexed plugin (commands.map Prod.fst ++ [name]) before tables) (alias_ : Name) :
    Indexed plugin (commands.map Prod.fst ++ [name]) before
      (addAlias plugin title name commands tables alias_) := by
  rcases addAlias_cases plugin title name commands tables alias_ with
    same | ⟨key, some_, other, free, new, accepted, same⟩
  · rw [same]
    exact indexed
  · rw [same]
    refine ⟨register_unique indexed.unique,
      fun holder key holds => register_keeps (indexed.grows holder key holds),
      indexed.more.trans (List.prefix_append _ _), ?_, fun held member => ?_⟩
    · rw [List.map_append, ← List.append_assoc, List.nodup_append]
      refine ⟨indexed.distinct, List.nodup_singleton _, fun taken held last member equal => ?_⟩
      rw [List.map_singleton, List.mem_singleton] at member
      subst equal
      subst member
      simp only [List.mem_append, List.mem_singleton] at held
      tauto
    · rw [List.map_append, List.map_singleton, List.mem_append, List.mem_singleton] at member
      rcases member with old | rfl
      · exact ⟨register_keeps (indexed.owned held old).1, (indexed.owned held old).2⟩
      · exact ⟨register_held accepted, some_⟩

theorem aliases_indexed {plugin : Plugin} (title : String) {name : Name}
    {commands : List (Name × Definition Body)}
    {before tables : List (Entry Plugin) × List (Name × Name)}
    (indexed : Indexed plugin (commands.map Prod.fst ++ [name]) before tables)
    (aliases : List Name) :
    Indexed plugin (commands.map Prod.fst ++ [name]) before
      (aliases.foldl (addAlias plugin title name commands) tables) := by
  induction aliases generalizing tables with
  | nil => exact indexed
  | cons alias_ rest ih => exact ih (addAlias_indexed indexed alias_)

/-- What an Add does: nothing, or one command more under a key that was free, with the
aliases that were free. -/
theorem add_cases (plugin : Plugin) (title : String) (definition : Definition Body)
    {names : List (Entry Plugin)} {router : Router Body} (unique : Unique names)
    (owned : Owned plugin names router) :
    add plugin title definition names router = (false, names, router) ∨
      ∃ names' more, add plugin title definition names router =
          (true, names', ⟨router.commands ++ [(toLower definition.name, definition)],
            router.aliases ++ more⟩) ∧
        toLower definition.name ∉ router.aliases.map Prod.fst ∧ Unique names' ∧
        (∀ holder key, Holds holder key names → Holds holder key names') ∧
        Owned plugin names' ⟨router.commands ++ [(toLower definition.name, definition)],
          router.aliases ++ more⟩ := by
  -- Three ways to refuse, in the source's order: no name, a name of its own, another plugin's.
  by_cases empty : toLower definition.name = []
  · exact Or.inl (if_pos empty)
  by_cases taken : (lookup (toLower definition.name) router.commands).isSome = true ∨
      (lookup (toLower definition.name) router.aliases).isSome = true
  · exact Or.inl (by simp only [add, empty, taken, if_true, if_false])
  cases accepted : register plugin title (toLower definition.name) names with
  | mk ok after =>
      cases ok with
      | false =>
          have same := register_refused (congrArg Prod.fst accepted)
          rw [accepted] at same
          apply Or.inl
          simp only [add, empty, taken, accepted, if_false]
          rw [(Prod.mk.inj same).2]
      | true =>
          obtain ⟨unique', held, keeps⟩ := register_accepted unique accepted
          have free : toLower definition.name ∉ router.commands.map Prod.fst ∧
              toLower definition.name ∉ router.aliases.map Prod.fst := by
            rwa [← lookup_isSome_iff, ← lookup_isSome_iff, ← not_or]
          -- The name stands before any alias is tried, so the fold starts from an indexed state.
          have first : Indexed plugin (router.commands.map Prod.fst ++ [toLower definition.name])
              (after, router.aliases) (after, router.aliases) := by
            refine ⟨unique', fun _ _ holds => holds, List.prefix_refl _, ?_, fun key member => ?_⟩
            · rw [List.append_assoc, List.singleton_append]
              refine (List.nodup_middle).mpr (List.nodup_cons.mpr ⟨?_, owned.distinct⟩)
              rw [List.mem_append]
              exact not_or.mpr free
            · have old := owned.held key (List.mem_append_right _ member)
              exact ⟨keeps _ _ old.1, old.2⟩
          have indexed := aliases_indexed title first definition.aliases
          revert indexed
          cases tables : definition.aliases.foldl
            (addAlias plugin title (toLower definition.name) router.commands)
            (after, router.aliases) with
          | mk final aliases =>
              intro indexed
              obtain ⟨more, rfl⟩ := indexed.more
              refine Or.inr ⟨final, more, ?_, free.2, indexed.unique,
                fun holder key holds => indexed.grows _ _ (keeps _ _ holds), ?_, ?_⟩
              · simp only [add, empty, taken, accepted, tables, if_false]
              · rw [keys, List.map_append]
                exact indexed.distinct
              · intro key member
                rw [keys, List.map_append, List.mem_append, List.mem_append] at member
                rcases member with (command | name) | alias_
                · have old := owned.held key (List.mem_append_left _ command)
                  exact ⟨indexed.grows _ _ (keeps _ _ old.1), old.2⟩
                · rw [List.map_singleton, List.mem_singleton] at name
                  subst name
                  exact ⟨indexed.grows _ _ held, empty⟩
                · exact indexed.owned key alias_

theorem addCommand_cases (plugin : Plugin) (definition : Definition Body)
    {host : Host Plugin Body} (sound : Sound host) :
    addCommand plugin definition host = (false, host) ∨
      ∃ attached names more, host.plugins plugin = some attached ∧
        addCommand plugin definition host = (true,
          setPlugin plugin (some { attached with router :=
            ⟨attached.router.commands ++ [(toLower definition.name, definition)],
              attached.router.aliases ++ more⟩ }) { host with names := names }) ∧
        toLower definition.name ∉ attached.router.aliases.map Prod.fst ∧ Unique names ∧
        (∀ holder key, Holds holder key host.names → Holds holder key names) ∧
        Owned plugin names ⟨attached.router.commands ++ [(toLower definition.name, definition)],
          attached.router.aliases ++ more⟩ := by
  unfold addCommand
  cases here : host.plugins plugin with
  | none => exact Or.inl rfl
  | some attached =>
      rcases add_cases plugin attached.title definition sound.unique
        (sound.owned plugin attached here) with same | ⟨names, more, same, rest⟩
      · apply Or.inl
        simp only [same, setPlugin]
        rw [Function.update_eq_self_iff.mpr here.symm]
      · refine Or.inr ⟨attached, names, more, rfl, ?_, rest⟩
        simp only [same]

theorem setPlugin_same (plugin : Plugin) (attached : Option (Attached Body))
    (host : Host Plugin Body) : (setPlugin plugin attached host).plugins plugin = attached :=
  Function.update_self ..

theorem setPlugin_other {plugin other : Plugin} (different : other ≠ plugin)
    (attached : Option (Attached Body)) (host : Host Plugin Body) :
    (setPlugin plugin attached host).plugins other = host.plugins other :=
  Function.update_of_ne different ..

theorem addCommand_sound {plugin : Plugin} {definition : Definition Body}
    {host : Host Plugin Body} (sound : Sound host) :
    Sound (addCommand plugin definition host).2 := by
  rcases addCommand_cases plugin definition sound with
    same | ⟨attached, names, more, here, same, _, unique, keeps, owned⟩
  · rw [same]
    exact sound
  · rw [same]
    refine ⟨unique, fun other found held => ?_, fun name member some_ => ?_, fun idle => ?_⟩
    · by_cases own : other = plugin
      · subst own
        rw [setPlugin_same] at held
        cases held
        exact owned
      · rw [setPlugin_other own] at held
        exact owned_keeps (sound.owned other found held) (keeps _)
    · exact keeps _ _ (sound.reserved name member some_)
    · have none_ := (sound.idle idle).1 plugin
      rw [here] at none_
      cases none_

theorem remove_sound {plugin : Plugin} {host : Host Plugin Body} (sound : Sound host) :
    Sound { setPlugin plugin none host with names := removeAll plugin host.names } := by
  refine ⟨removeAll_unique sound.unique, fun other found held => ?_, fun name member some_ => ?_,
    fun idle => ⟨fun other => ?_, fun entry member => ?_⟩⟩
  · have different : other ≠ plugin := by
      rintro rfl
      rw [setPlugin_same] at held
      cases held
    rw [setPlugin_other different] at held
    apply owned_keeps (sound.owned other found held)
    intro key holds
    exact removeAll_holds.mpr ⟨holds, fun same => different (Option.some.inj same)⟩
  · exact removeAll_holds.mpr ⟨sound.reserved name member some_, nofun⟩
  · by_cases own : other = plugin
    · subst own
      exact setPlugin_same ..
    · exact (setPlugin_other own none host).trans ((sound.idle idle).1 other)
  · exact (sound.idle idle).2 entry (List.mem_filter.mp member).1

theorem step_sound : Preserves (@step Body Plugin _) Sound := by
  intro before label after sound taken
  cases label with
  | reserve name =>
      simp only [step] at taken
      split at taken
      · cases taken
      · next early =>
          cases taken
          obtain ⟨none_, hosts⟩ := sound.idle (by simpa using early)
          refine ⟨reserve_unique sound.unique, fun plugin attached held => ?_,
            fun other member some_ => ?_, fun idle => ⟨none_, fun entry member => ?_⟩⟩
          · rw [none_] at held
            cases held
          · rcases List.mem_append.mp member with old | new
            · exact reserve_keeps (sound.reserved other old some_)
            · rw [List.mem_singleton.mp new] at some_ ⊢
              exact reserve_held some_ hosts
          · rcases reserve_holds ⟨entry, member, rfl, rfl⟩ with ⟨old, held, _, same⟩ | same
            · exact same ▸ hosts old held
            · exact same
  | load plugin title =>
      simp only [step] at taken
      split at taken
      · cases taken
      · cases taken
        -- A plugin that loads brings an empty router.
        refine ⟨sound.unique, fun other found held => ?_, sound.reserved, nofun⟩
        by_cases own : other = plugin
        · subst own
          rw [setPlugin_same] at held
          cases held
          exact ⟨List.nodup_nil, nofun⟩
        · rw [setPlugin_other own] at held
          exact sound.owned other found held
  | add plugin definition =>
      cases taken
      exact addCommand_sound sound
  | clear plugin =>
      obtain ⟨attached, here, rfl⟩ := Option.map_eq_some_iff.mp taken
      refine ⟨sound.unique, fun other found held => ?_, sound.reserved, fun idle => ?_⟩
      · by_cases own : other = plugin
        · subst own
          rw [setPlugin_same] at held
          cases held
          exact ⟨List.nodup_nil, nofun⟩
        · rw [setPlugin_other own] at held
          exact sound.owned other found held
      · have none_ := (sound.idle idle).1 plugin
        rw [here] at none_
        cases none_
  | remove plugin =>
      cases taken
      exact remove_sound sound

omit [DecidableEq Plugin] in
theorem resolved_held {host : Host Plugin Body} (sound : Sound host) {plugin : Plugin}
    {name : Name} (found : (resolves host plugin name).isSome = true) :
    Holds (some plugin) (toLower name) host.names ∧ toLower name ≠ [] := by
  unfold resolves at found
  cases here : host.plugins plugin with
  | none =>
      rw [here] at found
      cases found
  | some attached =>
      rw [here] at found
      exact (sound.owned plugin attached here).held _ (find_key found)

theorem sound_exclusive {host : Host Plugin Body} (sound : Sound host) : Exclusive host := by
  refine ⟨fun name first second here there => ?_, fun name plugin reserved => ?_,
    fun plugin attached here => (sound.owned plugin attached here).distinct,
    fun plugin definition accepted other name found resolved => ?_,
    fun plugin definition refused other name => ?_⟩
  · have same := holds_unique sound.unique (resolved_held sound here).1 (resolved_held sound there).1
    exact Option.some.inj same
  · cases found : resolves host plugin name with
    | none => rfl
    | some definition =>
        have resolved : (resolves host plugin name).isSome = true := by rw [found, Option.isSome_some]
        obtain ⟨held, some_⟩ := resolved_held sound resolved
        have same := holds_unique sound.unique held (sound.reserved _ reserved some_)
        cases same
  · rcases addCommand_cases plugin definition sound with
      same | ⟨attached, names, more, here, same, fresh, _⟩
    · rw [same] at accepted
      cases accepted
    · rw [same]
      by_cases own : other = plugin
      · subst own
        rw [resolves, here, Option.bind_some] at resolved
        rw [resolves, setPlugin_same, Option.bind_some]
        exact find_grows fresh resolved
      · rw [resolves, setPlugin_other own]
        exact resolved
  · rcases addCommand_cases plugin definition sound with
      same | ⟨attached, names, more, here, same, _⟩
    · rw [same]
    · rw [same] at refused
      cases refused

end Adding

/-- Names stay with one plugin, and with the host where their lower case is reserved,
throughout every run. -/
theorem names_exclusive_throughout [DecidableEq Plugin] (labels : List (Label Plugin Body)) :
    Always step Exclusive (start : Host Plugin Body) labels :=
  always_of_preserves step_sound (fun _ sound => sound_exclusive sound) start_sound labels

/-- The host compares names as they are: a name it reserved with a capital is found by
whoever adds it, since routers ask for its lower case. -/
theorem capital_reservation_found :
    ∃ after : Host Nat Unit,
      run step start [.reserve ['V', 'o', 'l', 't'], .load 0 "alpha",
        .add 0 ⟨['v', 'o', 'l', 't'], [], ()⟩] = some after ∧
      ['V', 'o', 'l', 't'] ∈ after.reserved ∧
      (resolves after 0 ['V', 'o', 'l', 't']).isSome = true := by
  exact ⟨_, rfl, by decide, by decide⟩

end VoltMod.CommandRouter
