import VoltMod.Result
import VoltMod.Spread
import Mathlib.Order.Basic

/-!
Host/Plugins/PluginDependencies.cpp over `std::map`s as ordered tree maps. Both
functions drain a stack of plugin names: `resolve` spreads refusals to whatever
requires a refused plugin, `requiredDependents` spreads from one plugin to
whatever requires it. Manifest fields that only `volt list` prints are left out.
-/

namespace VoltMod.PluginDependencies

open Spread

inductive LogLevel where
  | info | warn | error
  deriving DecidableEq, Repr

structure PluginManifest where
  name : String
  version : String
  logTag : String
  logLevel : LogLevel
  dependencies : List String
  deriving DecidableEq, Repr

structure RefusedPlugin where
  name : String
  reason : Error
  deriving DecidableEq, Repr

structure InstalledScan where
  plugins : List PluginManifest
  refused : List RefusedPlugin

structure LoadList where
  toLoad : List String
  refused : List RefusedPlugin
  deriving DecidableEq

abbrev PluginsByName := Std.TreeMap String PluginManifest
abbrev RefusalsByName := Std.TreeMap String Error

def requires (entry : String × PluginManifest) (dependency : String) : Bool :=
  entry.2.dependencies.contains dependency

def missingDependency (plugins : PluginsByName) (manifest : PluginManifest) : Option String :=
  manifest.dependencies.find? fun dependency => dependency ∉ plugins

def refuseMissing (plugins : PluginsByName) :
    List (String × PluginManifest) → Work String Error → Work String Error
  | [], work => work
  | (name, manifest) :: rest, work => refuseMissing plugins rest <|
      match missingDependency plugins manifest with
      | some dependency =>
          mark work name (.notFound s!"requires '{dependency}', which is not installed")
      | none => work

def refuseUnsatisfied (plugins : PluginsByName) (refused : RefusalsByName) : RefusalsByName :=
  let spreading := refuseMissing plugins plugins.toList ⟨refused, refused.keys.reverse⟩
  (settle Prod.fst requires
    (fun gone => .notReady s!"requires '{gone}', which the host refused")
    plugins.toList spreading).marked

def emplaceManifests : List PluginManifest → PluginsByName × RefusalsByName →
    PluginsByName × RefusalsByName
  | [], maps => maps
  | manifest :: rest, (plugins, refused) => emplaceManifests rest <|
      -- The first directory keeps the name; a second one only puts the name on the refusals.
      if manifest.name ∈ plugins then
        (plugins, refused.insertIfNew manifest.name
          (.invalid "installed more than once; each plugin directory needs its own plugin name"))
      else (plugins.insert manifest.name manifest, refused)

def resolve (installed : List PluginManifest) : LoadList :=
  let (plugins, duplicates) := emplaceManifests installed (∅, ∅)
  let refused := refuseUnsatisfied plugins duplicates
  { toLoad := plugins.keys.filter fun name => name ∉ refused
    refused := refused.toList.map fun (name, reason) => ⟨name, reason⟩ }

def requiredDependents (plugin : String) (loaded : List PluginManifest) : List String :=
  (settle (fun manifest : PluginManifest => manifest.name)
    (fun manifest needed => manifest.name != plugin && manifest.dependencies.contains needed)
    (fun _ => ()) loaded ⟨∅, [plugin]⟩).marked.keys

-- `std::map::emplace` keeps what is there, so the lookup is the first manifest of that name.
theorem emplace_lookup (installed : List PluginManifest) (plugins : PluginsByName)
    (refused : RefusalsByName) (name : String) :
    (emplaceManifests installed (plugins, refused)).1[name]? =
      (plugins[name]?).or (installed.find? fun manifest => manifest.name == name) := by
  induction installed generalizing plugins refused with
  | nil => simp [emplaceManifests]
  | cons manifest rest ih =>
      by_cases held : manifest.name ∈ plugins
      · simp only [emplaceManifests, held, ↓reduceIte, ih]
        by_cases same : manifest.name = name
        · subst name
          obtain ⟨first, found⟩ := Option.isSome_iff_exists.mp
            (Std.TreeMap.mem_iff_isSome_getElem?.mp held)
          simp [found]
        · simp [same]
      · simp only [emplaceManifests, held, ↓reduceIte, ih]
        by_cases same : manifest.name = name
        · subst name
          have absent : plugins[manifest.name]? = none :=
            Std.TreeMap.getElem?_eq_none held
          simp [absent]
        · simp [Std.TreeMap.getElem?_insert, same]

theorem installed_lookup (installed : List PluginManifest) (name : String) :
    (emplaceManifests installed (∅, ∅)).1[name]? =
      installed.find? fun manifest => manifest.name == name := by
  simp [emplace_lookup]

/-- Every refusal made so far still waits to be spread. -/
def AllPending (work : Work String Error) : Prop :=
  ∀ name, name ∈ work.marked → name ∈ work.pending

theorem mark_all_pending (work : Work String Error) (name : String) (reason : Error)
    (waiting : AllPending work) : AllPending (mark work name reason) := by
  intro found now
  rcases mark_fresh_pending work name found reason now with old | queued
  · exact mark_pending_mono work name found reason (waiting found old)
  · exact queued

theorem refuse_missing_all_pending (plugins : PluginsByName)
    (entries : List (String × PluginManifest)) (work : Work String Error)
    (waiting : AllPending work) : AllPending (refuseMissing plugins entries work) := by
  induction entries generalizing work with
  | nil => exact waiting
  | cons entry rest ih =>
      apply ih
      split
      · exact mark_all_pending work _ _ waiting
      · exact waiting

theorem refuse_missing_mono (plugins : PluginsByName)
    (entries : List (String × PluginManifest)) (work : Work String Error) (name : String)
    (old : name ∈ work.marked) : name ∈ (refuseMissing plugins entries work).marked := by
  induction entries generalizing work with
  | nil => exact old
  | cons entry rest ih =>
      apply ih
      split
      · exact (mark_marked ..).mpr (Or.inl old)
      · exact old

theorem refuse_missing_marks (plugins : PluginsByName)
    (entries : List (String × PluginManifest)) (work : Work String Error)
    (name : String) (manifest : PluginManifest) (member : (name, manifest) ∈ entries)
    (dependency : String) (needed : dependency ∈ manifest.dependencies)
    (absent : dependency ∉ plugins) : name ∈ (refuseMissing plugins entries work).marked := by
  induction entries generalizing work with
  | nil => simp at member
  | cons entry rest ih =>
      rcases List.mem_cons.mp member with same | later
      · subst entry
        have missing : (missingDependency plugins manifest).isSome := by
          simp only [missingDependency, List.find?_isSome]
          exact ⟨dependency, needed, by simpa using absent⟩
        obtain ⟨first, found⟩ := Option.isSome_iff_exists.mp missing
        simp only [refuseMissing, found]
        exact refuse_missing_mono plugins rest _ name ((mark_marked ..).mpr (Or.inr rfl))
      · exact ih _ later

/-- A plugin the refusals spare requires only installed plugins they spare as well. -/
theorem refuse_unsatisfied_closed (plugins : PluginsByName) (refused : RefusalsByName)
    (name : String) (manifest : PluginManifest) (found : plugins[name]? = some manifest)
    (spared : name ∉ refuseUnsatisfied plugins refused)
    (dependency : String) (needed : dependency ∈ manifest.dependencies) :
    dependency ∈ plugins ∧ dependency ∉ refuseUnsatisfied plugins refused := by
  have member : (name, manifest) ∈ plugins.toList :=
    Std.TreeMap.mem_toList_iff_getElem?_eq_some.mpr found
  let start : Work String Error := ⟨refused, refused.keys.reverse⟩
  have seeded : AllPending start := by
    intro key marked
    simpa [start] using marked
  have covers : Covers Prod.fst requires plugins.toList []
      (refuseMissing plugins plugins.toList start) := by
    rintro source (marked | seed)
    · exact Or.inl (refuse_missing_all_pending plugins _ start seeded source marked)
    · simp at seed
  constructor
  -- A missing plugin is refused by the first pass, a refused one by the spreading.
  · by_contra absent
    apply spared
    have early := refuse_missing_marks plugins plugins.toList start name manifest member
      dependency needed absent
    exact drain_marked_mono _ _ _ _ _ _ name early
  · intro gone
    apply spared
    exact settle_closed Prod.fst requires _ plugins.toList [] _ covers dependency (Or.inl gone)
      (name, manifest) member (by simpa [requires] using needed)

theorem mem_to_load_iff (installed : List PluginManifest) (name : String) :
    name ∈ (resolve installed).toLoad ↔
      name ∈ (emplaceManifests installed (∅, ∅)).1 ∧
        name ∉ refuseUnsatisfied (emplaceManifests installed (∅, ∅)).1
          (emplaceManifests installed (∅, ∅)).2 := by
  simp [resolve, List.mem_filter]

theorem to_load_closed (installed : List PluginManifest) (name : String)
    (manifest : PluginManifest)
    (found : installed.find? (fun manifest => manifest.name == name) = some manifest)
    (planned : name ∈ (resolve installed).toLoad)
    (dependency : String) (needed : dependency ∈ manifest.dependencies) :
    dependency ∈ (resolve installed).toLoad := by
  obtain ⟨_, spared⟩ := (mem_to_load_iff installed name).mp planned
  rw [← installed_lookup] at found
  exact (mem_to_load_iff installed dependency).mpr
    (refuse_unsatisfied_closed _ _ name manifest found spared dependency needed)

theorem to_load_nodup (installed : List PluginManifest) :
    (resolve installed).toLoad.Nodup := by
  exact (Std.TreeMap.nodup_keys).filter _

/-- Whatever requires the plugin, or one of its dependents, is a dependent itself. -/
theorem required_dependents_closed (plugin : String) (loaded : List PluginManifest)
    (manifest : PluginManifest) (member : manifest ∈ loaded) (other : manifest.name ≠ plugin)
    (needed : String) (reached : needed = plugin ∨ needed ∈ requiredDependents plugin loaded)
    (requires : needed ∈ manifest.dependencies) :
    manifest.name ∈ requiredDependents plugin loaded := by
  simp only [requiredDependents, Std.TreeMap.mem_keys] at reached ⊢
  apply settle_closed _ _ _ loaded [plugin] _ ?_ needed ?_ manifest member
  · simpa [other] using requires
  · rintro source (marked | seed)
    · simp at marked
    · exact Or.inl seed
  · rcases reached with same | dependent
    · exact Or.inr (by simp [same])
    · exact Or.inl dependent

end VoltMod.PluginDependencies
