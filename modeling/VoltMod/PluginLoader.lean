import VoltMod.PluginDependencies
import VoltMod.Transition

/-!
Host/Plugins/PluginLoader.cpp. A `World` is what one action meets: the scan of
the plugins directory and, for each plugin, what opening its library, its
descriptor and its Load come to. The registry keeps the views by load order; what
a plugin takes through its view, the library handles and the log lines are left
out. `runPending` sets the deferred list aside and `act` carries out one action of
it, so an action that defers another leaves that one for the next frame.
-/

namespace VoltMod.PluginLoader

open PluginDependencies Transition

structure PluginDescriptor where
  voltModVersion : Option String
  buildStamp : Bool
  load : Bool
  unload : Bool
  status : Bool

def validateDescriptor (descriptor : Option PluginDescriptor) (hostVersion : String) : Status :=
  match descriptor with
  | none => .error (.invalid "VoltMod_Plugin returned nothing")
  | some found =>
      let pluginVersion := found.voltModVersion.getD ""
      if pluginVersion ≠ hostVersion then
        .error (.invalid
          s!"it was built for VoltMod {pluginVersion} and the host is {hostVersion}; rebuild it")
      else if found.buildStamp && found.load && found.unload && found.status then .ok ()
      else .error (.invalid "its descriptor leaves out one of BuildStamp, Load, Unload and Status")

/-- `entry` is what the entry point returned once the library and its symbol were
found; `refusal` is the text of a Load that returned false. -/
structure Library where
  entry : Result (Option PluginDescriptor)
  refusal : Option String

structure World where
  installed : InstalledScan
  library : String → Library
  serverAssets : String → Bool
  hostVersion : String

structure PluginContext where
  name : String
  logTag : String
  version : String
  minLevel : LogLevel
  order : Nat

structure PluginRegistry where
  plugins : List PluginContext
  nextOrder : Nat

namespace PluginRegistry

def findPlugin (registry : PluginRegistry) (name : String) : Option PluginContext :=
  registry.plugins.find? fun plugin => plugin.name == name

def addPlugin (registry : PluginRegistry) (name logTag version : String) :
    Option PluginRegistry :=
  if name = "" ∨ (registry.findPlugin name).isSome then none else
    some { plugins := registry.plugins ++
             [⟨name, if logTag = "" then name else logTag, version, .info, registry.nextOrder⟩]
           nextOrder := registry.nextOrder + 1 }

def setMinLogLevel (registry : PluginRegistry) (name : String) (level : LogLevel) :
    PluginRegistry :=
  { registry with plugins := registry.plugins.map fun plugin =>
      if plugin.name = name then { plugin with minLevel := level } else plugin }

def removePlugin (registry : PluginRegistry) (name : String) : PluginRegistry :=
  { registry with plugins := registry.plugins.eraseP fun plugin => plugin.name == name }

def names (registry : PluginRegistry) : List String :=
  registry.plugins.map fun plugin => plugin.name

end PluginRegistry

inductive ActionKind where
  | load | unload | reload
  deriving DecidableEq, Repr

structure PendingAction where
  kind : ActionKind
  name : String
  deriving DecidableEq, Repr

structure Loader where
  registry : PluginRegistry
  mounted : Std.TreeSet String
  loaded : List PluginManifest
  pending : List PendingAction
  running : List PendingAction
  refused : Std.TreeMap String String

def start : Loader := ⟨⟨[], 1⟩, ∅, [], [], [], ∅⟩

def findLoaded (loader : Loader) (name : String) : Option PluginManifest :=
  loader.loaded.find? fun plugin => plugin.name == name

def refuse (loader : Loader) (name reason : String) : Loader :=
  { loader with refused := loader.refused.insert name reason }

def loadOne (world : World) (manifest : PluginManifest) (loader : Loader) : Loader × Status :=
  let name := manifest.name
  match (world.library name).entry with
  | .error failed => (loader, .error failed)
  | .ok descriptor =>
      match validateDescriptor descriptor world.hostVersion with
      | .error failed => (loader, .error failed)
      | .ok () =>
          match loader.registry.addPlugin name manifest.logTag manifest.version with
          | none => (loader, .error (.failed "the host already holds a view under that name"))
          | some added =>
              -- The view exists before Load runs, so the plugin's own Load already logs through it.
              let view := added.setMinLogLevel name manifest.logLevel
              let mounted :=
                if world.serverAssets name then loader.mounted.insert name else loader.mounted
              match (world.library name).refusal with
              | some failure =>
                  ({ loader with registry := view.removePlugin name
                                 mounted := mounted.erase name },
                    .error (.failed (if failure = "" then "its Load returned false" else failure)))
              | none =>
                  ({ loader with registry := view
                                 mounted := mounted
                                 loaded := loader.loaded ++ [manifest]
                                 refused := loader.refused.erase name }, .ok ())

def loadOrRefuse (world : World) (manifest : PluginManifest) (loader : Loader) : Loader :=
  match loadOne world manifest loader with
  | (after, .ok ()) => after
  | (after, .error failed) => refuse after manifest.name failed.detail

def refuseWanted (wanted : String → Bool) : List RefusedPlugin → Loader → Loader
  | [], loader => loader
  | refused :: rest, loader => refuseWanted wanted rest
      (if wanted refused.name then refuse loader refused.name refused.reason.detail else loader)

def installedAs (world : World) (name : String) : Option PluginManifest :=
  world.installed.plugins.find? fun manifest => manifest.name == name

def loadPlanned (world : World) (wanted : String → Bool) : List String → Loader → Loader
  | [], loader => loader
  | name :: rest, loader => loadPlanned world wanted rest <|
      if !wanted name || (findLoaded loader name).isSome then loader else
        match installedAs world name with
        | some manifest => loadOrRefuse world manifest loader
        | none => loader

def loadGroup (world : World) (wanted : String → Bool) (loader : Loader) : Loader :=
  let list := resolve world.installed.plugins
  loadPlanned world wanted list.toLoad
    (refuseWanted wanted list.refused (refuseWanted wanted world.installed.refused loader))

def loadAll (world : World) (loader : Loader) : Loader :=
  loadGroup world (fun _ => true) loader

def unloadOne (name : String) (loader : Loader) : Loader :=
  match findLoaded loader name with
  | none => loader
  | some _ =>
      { loader with registry := loader.registry.removePlugin name
                    mounted := loader.mounted.erase name
                    loaded := loader.loaded.eraseP fun plugin => plugin.name == name }

def runLoad (world : World) (name : String) (loader : Loader) : Loader :=
  if (findLoaded loader name).isSome then loader else
  match world.installed.refused.find? fun broken => broken.name == name with
  | some broken => refuse loader name broken.reason.detail
  | none =>
      match installedAs world name with
      | none => loader
      | some found =>
          match found.dependencies.find? fun dependency =>
              (findLoaded loader dependency).isNone with
          | some dependency =>
              refuse loader name s!"it requires '{dependency}', which is not loaded."
          | none => loadOrRefuse world found loader

def runUnload (name : String) (loader : Loader) : Loader :=
  if (findLoaded loader name).isNone then loader else
  if requiredDependents name loader.loaded = [] then unloadOne name loader else loader

def reloadGroup (name : String) (loader : Loader) : List String :=
  requiredDependents name loader.loaded ++ [name]

def going (group : List String) (loader : Loader) : List String :=
  (loader.loaded.reverse.filter fun plugin => group.contains plugin.name).map
    fun plugin => plugin.name

def unloadEach : List String → Loader → Loader
  | [], loader => loader
  | name :: rest, loader => unloadEach rest (unloadOne name loader)

def runReload (world : World) (name : String) (loader : Loader) : Loader :=
  if (findLoaded loader name).isNone then loader else
  let group := reloadGroup name loader
  loadGroup world group.contains (unloadEach (going group loader) loader)

def runAction (world : World) (action : PendingAction) (loader : Loader) : Loader :=
  match action.kind with
  | .load => runLoad world action.name loader
  | .unload => runUnload action.name loader
  | .reload => runReload world action.name loader

inductive Event where
  | loadAll (world : World)
  | defer (action : PendingAction)
  | runPending
  | act (world : World)

def step (loader : Loader) : Event → Option Loader
  | .loadAll world => some (loadAll world loader)
  | .defer action => some { loader with pending := loader.pending ++ [action] }
  | .runPending =>
      if loader.running = [] then
        some { loader with pending := [], running := loader.pending }
      else none
  | .act world =>
      match loader.running with
      | [] => none
      | action :: rest => some (runAction world action { loader with running := rest })

def loadedNames (loader : Loader) : List String :=
  loader.loaded.map fun plugin => plugin.name

/-- Every plugin in the loaded list has each plugin it requires in the list too. -/
def Satisfied (loaded : List PluginManifest) : Prop :=
  ∀ plugin ∈ loaded, ∀ dependency ∈ plugin.dependencies,
    dependency ∈ loaded.map fun provider => provider.name

/-- The loaded list and the registry's views agree, name for name. -/
structure Sound (loader : Loader) : Prop where
  distinct : (loadedNames loader).Nodup
  views : loader.registry.names = loadedNames loader

def loads (world : World) (manifest : PluginManifest) : Bool :=
  match (world.library manifest.name).entry with
  | .error _ => false
  | .ok descriptor =>
      (validateDescriptor descriptor world.hostVersion).isOk && manifest.name != "" &&
        (world.library manifest.name).refusal.isNone

theorem start_sound : Sound start := ⟨by simp [loadedNames, start], rfl⟩

theorem find_loaded_iff (loader : Loader) (name : String) :
    (findLoaded loader name).isSome = true ↔ name ∈ loadedNames loader := by
  simp only [findLoaded, List.find?_isSome, beq_iff_eq, loadedNames, List.mem_map]

theorem find_plugin_iff (registry : PluginRegistry) (name : String) :
    (registry.findPlugin name).isSome = true ↔ name ∈ registry.names := by
  simp only [PluginRegistry.findPlugin, List.find?_isSome, beq_iff_eq, PluginRegistry.names,
    List.mem_map]

theorem installed_as_name (world : World) (name : String) (manifest : PluginManifest)
    (found : installedAs world name = some manifest) : manifest.name = name := by
  have hit := List.find?_some found
  exact beq_iff_eq.mp hit

theorem map_erase_key {Entry : Type} (key : Entry → String) (entries : List Entry)
    (name : String) :
    (entries.eraseP fun entry => key entry == name).map key = (entries.map key).erase name := by
  simp only [List.erase_eq_eraseP, List.eraseP_map]
  congr 2
  funext entry
  exact Bool.beq_comm

namespace PluginRegistry

@[simp] theorem set_min_log_level_names (registry : PluginRegistry) (name : String)
    (level : LogLevel) : (registry.setMinLogLevel name level).names = registry.names := by
  simp only [names, setMinLogLevel, List.map_map]
  apply List.map_congr_left
  intro plugin _
  simp only [Function.comp_apply]
  split <;> rfl

theorem remove_plugin_names (registry : PluginRegistry) (name : String) :
    (registry.removePlugin name).names = registry.names.erase name :=
  map_erase_key (fun plugin : PluginContext => plugin.name) registry.plugins name

/-- A view is refused exactly to an empty name and to one that is taken. -/
theorem add_plugin_cases (registry : PluginRegistry) (name logTag version : String)
    (fresh : name ∉ registry.names) :
    (name = "" ∧ registry.addPlugin name logTag version = none) ∨
      (name ≠ "" ∧ ∃ added, registry.addPlugin name logTag version = some added ∧
        added.names = registry.names ++ [name]) := by
  have unheld : ¬ (registry.findPlugin name).isSome = true :=
    fun held => fresh ((find_plugin_iff registry name).mp held)
  by_cases empty : name = ""
  · exact Or.inl ⟨empty, by simp [addPlugin, empty]⟩
  · refine Or.inr ⟨empty, _, by simp only [addPlugin, empty, unheld]; rfl, ?_⟩
    simp [names]

end PluginRegistry

/-- All that LoadOne can come to. A refusing plugin's view is taken back, so either
the plugin is at the end of both lists or neither list has changed. -/
theorem load_one_cases (world : World) (manifest : PluginManifest) (loader : Loader)
    (fresh : manifest.name ∉ loader.registry.names) :
    (loads world manifest = true ∧ (loadOne world manifest loader).2 = .ok () ∧
        (loadOne world manifest loader).1.loaded = loader.loaded ++ [manifest] ∧
        (loadOne world manifest loader).1.registry.names =
          loader.registry.names ++ [manifest.name]) ∨
      (loads world manifest = false ∧ (∃ failed, (loadOne world manifest loader).2 = .error failed) ∧
        (loadOne world manifest loader).1.loaded = loader.loaded ∧
        (loadOne world manifest loader).1.registry.names = loader.registry.names) := by
  cases entry : (world.library manifest.name).entry with
  | error failed => right; simp [loads, loadOne, entry]
  | ok descriptor =>
      cases valid : validateDescriptor descriptor world.hostVersion with
      | error failed => right; simp [loads, loadOne, entry, valid, Except.isOk, Except.toBool]
      | ok _ =>
          rcases loader.registry.add_plugin_cases manifest.name manifest.logTag manifest.version
            fresh with ⟨empty, held⟩ | ⟨named, added, accepted, names⟩
          · right
            simp only [loads, loadOne, entry, valid, held]
            simp [empty]
          · cases outcome : (world.library manifest.name).refusal with
            | some failure =>
                have restored : (loader.registry.names ++ [manifest.name]).erase manifest.name =
                    loader.registry.names := by
                  rw [List.erase_append_right _ fresh]
                  simp
                right
                simp [loads, loadOne, entry, valid, accepted, outcome, names, restored,
                  PluginRegistry.remove_plugin_names]
            | none =>
                left
                simp [loads, loadOne, entry, valid, accepted, outcome, names, named, Except.isOk,
                  Except.toBool]

theorem load_or_refuse_spec (world : World) (manifest : PluginManifest) (loader : Loader)
    (sound : Sound loader) (fresh : manifest.name ∉ loadedNames loader) :
    (loadOrRefuse world manifest loader).loaded =
        loader.loaded ++ [manifest].filter (loads world) ∧
      Sound (loadOrRefuse world manifest loader) := by
  rcases load_one_cases world manifest loader (sound.views ▸ fresh) with
    ⟨loading, accepted, grown, views⟩ | ⟨failing, ⟨failed, refused⟩, same, views⟩
  · have result : loadOrRefuse world manifest loader = (loadOne world manifest loader).1 := by
      unfold loadOrRefuse
      split
      · simp [*]
      · simp_all
    rw [result]
    refine ⟨by simp [grown, loading], ?_, ?_⟩
    · simp only [loadedNames, grown, List.map_append, List.map_singleton]
      refine List.nodup_append.mpr ⟨sound.distinct, by simp, ?_⟩
      rintro name held last member rfl
      exact fresh (List.mem_singleton.mp member ▸ held)
    · simp [views, loadedNames, grown, sound.views]
  · have result : loadOrRefuse world manifest loader =
        refuse (loadOne world manifest loader).1 manifest.name failed.detail := by
      unfold loadOrRefuse
      split
      · simp_all
      · simp_all
    rw [result]
    refine ⟨by simp [refuse, same, failing], ?_, ?_⟩
    · simpa [loadedNames, refuse, same] using sound.distinct
    · simpa [loadedNames, refuse, same, views] using sound.views

theorem refuse_wanted_loaded (wanted : String → Bool) (refusals : List RefusedPlugin)
    (loader : Loader) :
    (refuseWanted wanted refusals loader).loaded = loader.loaded ∧
      (refuseWanted wanted refusals loader).registry = loader.registry := by
  induction refusals generalizing loader with
  | nil => exact ⟨rfl, rfl⟩
  | cons refused rest ih =>
      have tail := ih (if wanted refused.name then
        refuse loader refused.name refused.reason.detail else loader)
      simp only [refuseWanted, tail]
      split <;> exact ⟨rfl, rfl⟩

/-- What a group load brings up: the plan's members that are wanted and not loaded
yet, as installed now, less the ones whose Load fails. -/
def brought (world : World) (wanted : String → Bool) (kept plan : List String) :
    List PluginManifest :=
  ((plan.filter fun name => wanted name && name ∉ kept).filterMap (installedAs world)).filter
    (loads world)

theorem brought_cons (world : World) (wanted : String → Bool) (kept : List String)
    (name : String) (rest : List String) :
    brought world wanted kept (name :: rest) =
      (if wanted name = true ∧ name ∉ kept then
        (installedAs world name).toList.filter (loads world) else []) ++
        brought world wanted kept rest := by
  by_cases chosen : wanted name = true ∧ name ∉ kept
  · rw [if_pos chosen]
    cases found : installedAs world name with
    | none => simp [brought, chosen, found]
    | some manifest =>
        simp only [brought, List.filter_cons, chosen, found, List.filterMap_cons,
          not_false_eq_true, decide_true, Bool.and_self, ↓reduceIte, Option.toList_some]
        split <;> rfl
  · have passed : ¬ (wanted name && decide (name ∉ kept)) = true := by simpa using chosen
    simp only [brought, List.filter_cons, if_neg passed, if_neg chosen, List.nil_append]

theorem brought_kept_congr (world : World) (wanted : String → Bool) (plan : List String)
    (kept kept' : List String) (agree : ∀ name ∈ plan, name ∈ kept ↔ name ∈ kept') :
    brought world wanted kept plan = brought world wanted kept' plan := by
  unfold brought
  congr 2
  apply List.filter_congr
  intro name member
  simp only [agree name member]

-- Induction on the plan: the head joins the list or not, and the tail sees the same
-- names loaded but for the head's.
theorem load_planned_spec (world : World) (wanted : String → Bool) (plan : List String)
    (loader : Loader) (sound : Sound loader) (distinct : plan.Nodup) :
    (loadPlanned world wanted plan loader).loaded =
        loader.loaded ++ brought world wanted (loadedNames loader) plan ∧
      Sound (loadPlanned world wanted plan loader) := by
  induction plan generalizing loader with
  | nil => exact ⟨by simp [loadPlanned, brought], sound⟩
  | cons name rest ih =>
      obtain ⟨unseen, restDistinct⟩ := List.nodup_cons.mp distinct
      rw [brought_cons, loadPlanned]
      by_cases chosen : wanted name = true ∧ name ∉ loadedNames loader
      -- Wanted and not loaded: the one case in which the loop body opens a library.
      · have taken : ¬ (!wanted name || (findLoaded loader name).isSome) = true := by
          rw [Bool.or_eq_true, find_loaded_iff]
          simpa using chosen
        rw [if_neg taken, if_pos chosen]
        cases found : installedAs world name with
        | none => simpa using ih loader sound restDistinct
        | some manifest =>
            have named := installed_as_name world name manifest found
            obtain ⟨grown, stillSound⟩ :=
              load_or_refuse_spec world manifest loader sound (named ▸ chosen.2)
            obtain ⟨tail, tailSound⟩ := ih _ stillSound restDistinct
            -- Only this plugin can have joined the list, and the rest of the plan does not name it.
            have later : brought world wanted (loadedNames (loadOrRefuse world manifest loader))
                rest = brought world wanted (loadedNames loader) rest := by
              apply brought_kept_congr
              intro other member
              have different : other ≠ name := fun same => unseen (same ▸ member)
              simp only [loadedNames, grown, List.map_append, List.mem_append, List.mem_map,
                List.mem_filter, List.mem_singleton]
              constructor
              · rintro (old | ⟨provider, ⟨rfl, _⟩, same⟩)
                · exact old
                · exact absurd (same.symm.trans named) different
              · exact Or.inl
            simp only [tail, later, grown, Option.toList_some, List.append_assoc]
            exact ⟨trivial, tailSound⟩
      · have skipped : (!wanted name || (findLoaded loader name).isSome) = true := by
          rw [Bool.or_eq_true, find_loaded_iff]
          by_cases yes : wanted name = true
          · exact Or.inr (by_contra fun fresh => chosen ⟨yes, fresh⟩)
          · exact Or.inl (by simpa using yes)
        rw [if_pos skipped, if_neg chosen]
        exact ih loader sound restDistinct

theorem load_group_spec (world : World) (wanted : String → Bool) (loader : Loader)
    (sound : Sound loader) :
    (loadGroup world wanted loader).loaded = loader.loaded ++
        brought world wanted (loadedNames loader) (resolve world.installed.plugins).toLoad ∧
      Sound (loadGroup world wanted loader) := by
  obtain ⟨first, firstRegistry⟩ :=
    refuse_wanted_loaded wanted world.installed.refused loader
  obtain ⟨second, secondRegistry⟩ := refuse_wanted_loaded wanted
    (resolve world.installed.plugins).refused (refuseWanted wanted world.installed.refused loader)
  have same := second.trans first
  have sameRegistry := secondRegistry.trans firstRegistry
  have planned := load_planned_spec world wanted (resolve world.installed.plugins).toLoad
    (refuseWanted wanted (resolve world.installed.plugins).refused
      (refuseWanted wanted world.installed.refused loader))
    ⟨by simpa only [loadedNames, same] using sound.distinct,
      by simpa only [loadedNames, same, sameRegistry] using sound.views⟩
    (to_load_nodup _)
  simpa only [loadGroup, loadedNames, same] using planned

theorem mem_brought_iff (world : World) (wanted : String → Bool) (kept plan : List String)
    (manifest : PluginManifest) :
    manifest ∈ brought world wanted kept plan ↔
      manifest.name ∈ plan ∧ wanted manifest.name = true ∧ manifest.name ∉ kept ∧
        installedAs world manifest.name = some manifest ∧ loads world manifest = true := by
  simp only [brought, List.mem_filter, List.mem_filterMap, Bool.and_eq_true, decide_eq_true_eq]
  constructor
  · rintro ⟨⟨name, ⟨planned, yes, fresh⟩, found⟩, loading⟩
    have named := installed_as_name world name manifest found
    subst name
    exact ⟨planned, yes, fresh, found, loading⟩
  · rintro ⟨planned, yes, fresh, found, loading⟩
    exact ⟨⟨manifest.name, ⟨planned, yes, fresh⟩, found⟩, loading⟩

/-- Each plugin of the group whose Load succeeds requires only plugins that stay
loaded, or wanted ones whose own Load succeeds. -/
def Whole (world : World) (wanted : String → Bool) (kept : List PluginManifest) : Prop :=
  ∀ manifest ∈ brought world wanted (kept.map fun plugin => plugin.name)
      (resolve world.installed.plugins).toLoad,
    ∀ dependency ∈ manifest.dependencies,
      (dependency ∈ kept.map fun plugin => plugin.name) ∨
        (wanted dependency = true ∧ ∃ provider, installedAs world dependency = some provider ∧
          loads world provider = true)

theorem group_satisfied_iff (world : World) (wanted : String → Bool) (loader : Loader)
    (sound : Sound loader) (satisfied : Satisfied loader.loaded) :
    Satisfied (loadGroup world wanted loader).loaded ↔ Whole world wanted loader.loaded := by
  rw [(load_group_spec world wanted loader sound).1]
  constructor
  · intro after manifest member dependency needed
    have provided := after manifest (List.mem_append_right _ member) dependency needed
    rw [List.map_append, List.mem_append] at provided
    rcases provided with held | up
    · exact Or.inl held
    · obtain ⟨provider, joined, named⟩ := List.mem_map.mp up
      obtain ⟨_, yes, _, found, loading⟩ := (mem_brought_iff ..).mp joined
      subst dependency
      exact Or.inr ⟨yes, provider, found, loading⟩
  · intro whole plugin member dependency needed
    rw [List.map_append, List.mem_append]
    rcases List.mem_append.mp member with held | joined
    · exact Or.inl (satisfied plugin held dependency needed)
    · by_cases stays : dependency ∈ loadedNames loader
      -- Either the provider was up before the group came, or it has to come up with it.
      · exact Or.inl stays
      · have provided := whole plugin joined dependency needed
        obtain ⟨yes, provider, found, loading⟩ := provided.resolve_left stays
        obtain ⟨planned, _, _, installed, _⟩ := (mem_brought_iff ..).mp joined
        -- Resolve spared the plugin, so it spared what the plugin requires.
        have plannedToo := to_load_closed _ plugin.name plugin installed planned dependency needed
        have named := installed_as_name world dependency provider found
        subst dependency
        exact Or.inr (List.mem_map.mpr ⟨provider,
          (mem_brought_iff ..).mpr ⟨plannedToo, yes, stays, found, loading⟩, rfl⟩)

theorem erase_loaded_filter (loaded : List PluginManifest) (name : String)
    (distinct : (loaded.map fun plugin => plugin.name).Nodup) :
    (loaded.eraseP fun plugin => plugin.name == name) =
      loaded.filter fun plugin => plugin.name != name := by
  induction loaded with
  | nil => rfl
  | cons first rest ih =>
      obtain ⟨unseen, restDistinct⟩ := List.nodup_cons.mp distinct
      by_cases same : first.name = name
      · have others : (rest.filter fun plugin => plugin.name != name) = rest := by
          apply List.filter_eq_self.mpr
          intro plugin member
          have different : plugin.name ≠ name := fun hit =>
            unseen (List.mem_map.mpr ⟨plugin, member, hit.trans same.symm⟩)
          simpa using different
        simp [same, others]
      · simp [same, ih restDistinct]

theorem unload_one_spec (name : String) (loader : Loader) (sound : Sound loader) :
    (unloadOne name loader).loaded = (loader.loaded.filter fun plugin => plugin.name != name) ∧
      Sound (unloadOne name loader) := by
  cases found : findLoaded loader name with
  | none =>
      have absent : ∀ plugin ∈ loader.loaded, (plugin.name != name) = true := by
        intro plugin member
        have missed := List.find?_eq_none.mp found plugin member
        simpa using missed
      rw [unloadOne, found]
      exact ⟨(List.filter_eq_self.mpr absent).symm, sound⟩
  | some plugin =>
      rw [unloadOne, found]
      refine ⟨erase_loaded_filter loader.loaded name sound.distinct, ?_, ?_⟩
      · simp only [loadedNames]
        rw [map_erase_key fun plugin : PluginManifest => plugin.name]
        exact sound.distinct.erase name
      · simp only [loadedNames, PluginRegistry.remove_plugin_names, sound.views]
        exact (map_erase_key (fun plugin : PluginManifest => plugin.name) loader.loaded name).symm

theorem unload_each_spec (names : List String) (loader : Loader) (sound : Sound loader) :
    (unloadEach names loader).loaded =
        (loader.loaded.filter fun plugin => plugin.name ∉ names) ∧
      Sound (unloadEach names loader) := by
  induction names generalizing loader with
  | nil => exact ⟨by simp [unloadEach], sound⟩
  | cons name rest ih =>
      obtain ⟨left, leftSound⟩ := unload_one_spec name loader sound
      obtain ⟨tail, tailSound⟩ := ih _ leftSound
      refine ⟨?_, tailSound⟩
      rw [unloadEach, tail, left, List.filter_filter]
      apply List.filter_congr
      intro plugin _
      by_cases same : plugin.name = name <;> simp [same]

def staying (name : String) (loader : Loader) : List PluginManifest :=
  loader.loaded.filter fun plugin => plugin.name ∉ reloadGroup name loader

theorem unload_going_spec (name : String) (loader : Loader) (sound : Sound loader) :
    (unloadEach (going (reloadGroup name loader) loader) loader).loaded = staying name loader ∧
      Sound (unloadEach (going (reloadGroup name loader) loader) loader) := by
  obtain ⟨left, leftSound⟩ := unload_each_spec (going (reloadGroup name loader) loader) loader sound
  refine ⟨?_, leftSound⟩
  rw [left, staying]
  apply List.filter_congr
  intro plugin member
  have goes : plugin.name ∈ going (reloadGroup name loader) loader ↔
      plugin.name ∈ reloadGroup name loader := by
    simp only [going, List.mem_map, List.mem_filter, List.mem_reverse, List.contains_iff_mem]
    constructor
    · rintro ⟨other, ⟨_, inside⟩, same⟩
      exact same ▸ inside
    · intro inside
      exact ⟨plugin, ⟨member, inside⟩, rfl⟩
  simp only [goes]

/-- What stays through a reload requires nothing that goes down. -/
theorem staying_satisfied (name : String) (loader : Loader)
    (satisfied : Satisfied loader.loaded) : Satisfied (staying name loader) := by
  intro plugin member dependency needed
  obtain ⟨held, outside⟩ := List.mem_filter.mp member
  have outside : plugin.name ∉ reloadGroup name loader := by simpa using outside
  obtain ⟨provider, provides, named⟩ := List.mem_map.mp (satisfied plugin held dependency needed)
  -- A provider that goes down takes the plugin with it, which stays by assumption.
  have providerStays : dependency ∉ reloadGroup name loader := by
    intro goes
    apply outside
    have other : plugin.name ≠ name := fun same => outside (by simp [reloadGroup, same])
    have reached : dependency = name ∨ dependency ∈ requiredDependents name loader.loaded := by
      simpa [reloadGroup, or_comm] using goes
    exact List.mem_append_left _
      (required_dependents_closed name loader.loaded plugin held other dependency reached needed)
  refine List.mem_map.mpr ⟨provider, List.mem_filter.mpr ⟨provides, ?_⟩, named⟩
  simpa [named] using providerStays

theorem run_load_spec (world : World) (name : String) (loader : Loader) (sound : Sound loader) :
    Sound (runLoad world name loader) ∧
      (Satisfied loader.loaded → Satisfied (runLoad world name loader).loaded) := by
  unfold runLoad
  split
  · exact ⟨sound, id⟩
  next fresh =>
    rw [find_loaded_iff] at fresh
    split
    · exact ⟨⟨sound.distinct, sound.views⟩, id⟩
    · split
      · exact ⟨sound, id⟩
      next manifest found =>
        split
        · exact ⟨⟨sound.distinct, sound.views⟩, id⟩
        next complete =>
          have named := installed_as_name world name manifest found
          obtain ⟨grown, stillSound⟩ :=
            load_or_refuse_spec world manifest loader sound (named ▸ fresh)
          refine ⟨stillSound, ?_⟩
          intro satisfied plugin member dependency needed
          rw [grown, List.map_append, List.mem_append]
          rw [grown] at member
          rcases List.mem_append.mp member with held | joined
          · exact Or.inl (satisfied plugin held dependency needed)
          · have same := List.mem_singleton.mp (List.mem_filter.mp joined).1
            subst plugin
            have present := List.find?_eq_none.mp complete dependency needed
            have loadedNow : (findLoaded loader dependency).isSome = true := by
              simpa [Option.isSome_iff_ne_none] using present
            exact Or.inl ((find_loaded_iff loader dependency).mp loadedNow)

theorem run_unload_spec (name : String) (loader : Loader) (sound : Sound loader) :
    Sound (runUnload name loader) ∧
      (Satisfied loader.loaded → Satisfied (runUnload name loader).loaded) := by
  unfold runUnload
  split
  · exact ⟨sound, id⟩
  · split
    next unneeded =>
      -- Nothing loaded requires the plugin, or `requiredDependents` would have named it.
      obtain ⟨left, leftSound⟩ := unload_one_spec name loader sound
      refine ⟨leftSound, ?_⟩
      intro satisfied plugin member dependency needed
      rw [left] at member ⊢
      obtain ⟨held, outside⟩ := List.mem_filter.mp member
      have other : plugin.name ≠ name := by simpa using outside
      obtain ⟨provider, provides, named⟩ :=
        List.mem_map.mp (satisfied plugin held dependency needed)
      have spared : dependency ≠ name := by
        rintro rfl
        have dependent := required_dependents_closed dependency loader.loaded plugin held other
          dependency (Or.inl rfl) needed
        simp [unneeded] at dependent
      exact List.mem_map.mpr ⟨provider,
        List.mem_filter.mpr ⟨provides, by simpa [named] using spared⟩, named⟩
    · exact ⟨sound, id⟩

/-- A reload of what is not loaded does nothing. -/
theorem runReload_missing (world : World) {name : String} {loader : Loader}
    (missing : ¬(findLoaded loader name).isSome = true) : runReload world name loader = loader := by
  have none_ : (findLoaded loader name).isNone = true := by simpa using missing
  rw [runReload, if_pos none_]

-- The group goes down whole and comes back as a group load, so only the second half can
-- leave a plugin without what it requires.
theorem run_reload_spec (world : World) (name : String) (loader : Loader) (sound : Sound loader)
    (loaded : (findLoaded loader name).isSome = true) :
    Sound (runReload world name loader) ∧
      (Satisfied loader.loaded → (Satisfied (runReload world name loader).loaded ↔
        Whole world (reloadGroup name loader).contains (staying name loader))) := by
  have present : ¬ (findLoaded loader name).isNone = true := by
    simpa [Option.isSome_iff_ne_none] using loaded
  obtain ⟨left, leftSound⟩ := unload_going_spec name loader sound
  rw [runReload, if_neg present]
  refine ⟨(load_group_spec world _ _ leftSound).2, ?_⟩
  intro satisfied
  have quiet := staying_satisfied name loader satisfied
  rw [group_satisfied_iff world _ _ leftSound (left ▸ quiet), left]

/-- What a step needs for every loaded plugin to keep what it requires: loading one
plugin and unloading one ask for nothing, a group load must come up whole. -/
def Complete (loader : Loader) : Event → Prop
  | .loadAll world => Whole world (fun _ => true) loader.loaded
  | .defer _ => True
  | .runPending => True
  | .act world =>
      match loader.running with
      | ⟨.reload, name⟩ :: _ => (findLoaded loader name).isSome = true →
          Whole world (reloadGroup name loader).contains (staying name loader)
      | _ => True

theorem step_spec (before : Loader) (event : Event) (after : Loader) (sound : Sound before)
    (taken : step before event = some after) :
    Sound after ∧ (Satisfied before.loaded → (Satisfied after.loaded ↔ Complete before event)) := by
  cases event with
  | loadAll world =>
      cases taken
      exact ⟨(load_group_spec world _ before sound).2, group_satisfied_iff world _ before sound⟩
  | defer action =>
      cases taken
      exact ⟨⟨sound.distinct, sound.views⟩, fun satisfied => iff_of_true satisfied trivial⟩
  | runPending =>
      simp only [step] at taken
      split at taken
      · cases taken
        exact ⟨⟨sound.distinct, sound.views⟩, fun satisfied => iff_of_true satisfied trivial⟩
      · cases taken
  | act world =>
      cases waiting : before.running with
      | nil => simp [step, waiting] at taken
      | cons action rest =>
          obtain ⟨kind, name⟩ := action
          simp only [step, waiting, Option.some.injEq] at taken
          subst after
          have sound : Sound { before with running := rest } := ⟨sound.distinct, sound.views⟩
          cases kind with
          | load =>
              obtain ⟨kept, good⟩ := run_load_spec world name _ sound
              exact ⟨kept, fun satisfied => iff_of_true (good satisfied) (by simp [Complete, waiting])⟩
          | unload =>
              obtain ⟨kept, good⟩ := run_unload_spec name _ sound
              exact ⟨kept, fun satisfied => iff_of_true (good satisfied) (by simp [Complete, waiting])⟩
          | reload =>
              by_cases loaded : (findLoaded before name).isSome = true
              · obtain ⟨kept, exact⟩ := run_reload_spec world name _ sound loaded
                refine ⟨kept, fun satisfied => (exact satisfied).trans ?_⟩
                simp only [Complete, waiting, loaded, true_implies]
                rfl
              · have idle : runReload world name { before with running := rest } =
                    { before with running := rest } := runReload_missing world loaded
                simp only [runAction, idle]
                refine ⟨sound, fun satisfied => iff_of_true satisfied ?_⟩
                simp [Complete, waiting, loaded]

/-- In every run, every loaded plugin keeps the plugins it requires after every
completed action exactly when every group load of the run comes up whole. -/
theorem required_plugins_loaded_iff (events : List Event) :
    Always step (fun loader => Satisfied loader.loaded) start events ↔
      Guarded step Complete start events := by
  have law := fun before event after sound satisfied taken =>
    And.imp_right (· satisfied) (step_spec before event after sound taken)
  exact always_iff_guarded law start_sound (by simp [Satisfied, start]) events

def Acyclic (plugins : List PluginManifest) : Prop :=
  ∃ rank : String → Nat, ∀ plugin ∈ plugins, ∀ dependency ∈ plugin.dependencies,
    rank dependency < rank plugin.name

/-- `alpha` refuses in its Load; `zulu` requires it and loads. -/
def refusingAlpha : World where
  installed :=
    { plugins := [⟨"alpha", "1.0", "alpha", .info, []⟩, ⟨"zulu", "1.0", "zulu", .info, ["alpha"]⟩]
      refused := [] }
  library name :=
    { entry := .ok (some ⟨some "2.0", true, true, true, true⟩)
      refusal := if name = "alpha" then some "no database" else none }
  serverAssets _ := false
  hostVersion := "2.0"

theorem load_all_keeps_dependent_of_refused :
    Acyclic refusingAlpha.installed.plugins ∧
      ((run step start [.loadAll refusingAlpha]).map loadedNames = some ["zulu"]) ∧
      ¬ Always step (fun loader => Satisfied loader.loaded) start [.loadAll refusingAlpha] := by
  refine ⟨⟨fun name => if name = "zulu" then 1 else 0, by simp [refusingAlpha]⟩, by rfl, ?_⟩
  intro always
  have satisfied : Satisfied (loadAll refusingAlpha start).loaded := always.2 _ rfl
  have left : (loadAll refusingAlpha start).loaded =
      [⟨"zulu", "1.0", "zulu", .info, ["alpha"]⟩] := by rfl
  simp [Satisfied, left] at satisfied

end VoltMod.PluginLoader
