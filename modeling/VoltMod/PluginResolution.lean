import VoltMod.PluginDependencies
import Mathlib.Logic.Relation
import Mathlib.Order.Bounds.Defs

/-! What the two worklists come to: the plugins to load are the greatest set that can be loaded
together, and the dependents are the plugins with a path of requirements to the one named. -/
namespace VoltMod.PluginDependencies
open Spread

def names (manifests : List PluginManifest) : List String :=
  manifests.map fun manifest => manifest.name

/-- Each is installed exactly once and requires only others of the set. -/
def Loadable (installed : List PluginManifest) (plugins : Set String) : Prop :=
  ∀ name ∈ plugins, ∃ manifest,
    (installed.filter fun held => held.name == name) = [manifest] ∧
      ∀ dependency ∈ manifest.dependencies, dependency ∈ plugins

/-- Why a plugin is refused. The manifest read is the first of its name. -/
inductive Refusal (installed : List PluginManifest) (refused : List String) (name : String) :
    Error → Prop where
  | twice : 2 ≤ (names installed).count name → Refusal installed refused name
      (.invalid "installed more than once; each plugin directory needs its own plugin name")
  | missing {manifest dependency} :
      (installed.find? fun held => held.name == name) = some manifest →
      dependency ∈ manifest.dependencies → dependency ∉ names installed →
      Refusal installed refused name
        (.notFound s!"requires '{dependency}', which is not installed")
  | needed {manifest gone} :
      (installed.find? fun held => held.name == name) = some manifest →
      gone ∈ manifest.dependencies → gone ∈ refused →
      Refusal installed refused name (.notReady s!"requires '{gone}', which the host refused")

structure Resolution (installed : List PluginManifest) (list : LoadList) : Prop where
  greatest : IsGreatest { plugins | Loadable installed plugins } { name | name ∈ list.toLoad }
  refused : ∀ name, name ∈ list.refused.map RefusedPlugin.name ↔
    name ∈ names installed ∧ name ∉ list.toLoad
  reasons : ∀ refusal ∈ list.refused,
    Refusal installed (list.refused.map RefusedPlugin.name) refusal.name refusal.reason
  loadOrder : list.toLoad.Pairwise (· < ·)
  refusedOrder : (list.refused.map RefusedPlugin.name).Pairwise (· < ·)

theorem keys_ascending {Value : Type} (map : Std.TreeMap String Value) :
    map.keys.Pairwise (· < ·) := by
  refine Std.TreeMap.ordered_keys.imp fun {first later} before => ?_
  exact compareOfLessAndEq_eq_lt.mp before

theorem mem_emplaced (installed : List PluginManifest) (name : String) :
    name ∈ (emplaceManifests installed (∅, ∅)).1 ↔ name ∈ names installed := by
  rw [Std.TreeMap.mem_iff_isSome_getElem?, installed_lookup, List.find?_isSome]
  simp [names]

theorem emplace_duplicates (installed : List PluginManifest) (plugins : PluginsByName)
    (refused : RefusalsByName) (name : String) :
    name ∈ (emplaceManifests installed (plugins, refused)).2 ↔
      name ∈ refused ∨ 2 ≤ (if name ∈ plugins then 1 else 0) + (names installed).count name := by
  induction installed generalizing plugins refused with
  | nil =>
      simp only [emplaceManifests, names, List.map_nil, List.count_nil]
      split <;> simp
  | cons manifest rest ih =>
      rw [emplaceManifests]
      by_cases same : manifest.name = name
      · subst same
        by_cases held : manifest.name ∈ plugins
        · have often : 2 ≤ 1 + (names (manifest :: rest)).count manifest.name := by
            simp only [names, List.map_cons, List.count_cons_self]
            omega
          simp [held, ih, often]
        · have grown : manifest.name ∈ plugins.insert manifest.name manifest := by simp
          rw [if_neg held, ih, if_pos grown, if_neg held, names, names, List.map_cons,
            List.count_cons_self]
          exact or_congr_right (by omega)
      · by_cases held : manifest.name ∈ plugins
        · simp [held, ih, names, same]
        · simp [held, ih, names, same]

theorem emplace_reasons (installed : List PluginManifest) (plugins : PluginsByName)
    (refused : RefusalsByName) (name : String) (reason : Error)
    (stored : (emplaceManifests installed (plugins, refused)).2[name]? = some reason) :
    refused[name]? = some reason ∨ reason =
      .invalid "installed more than once; each plugin directory needs its own plugin name" := by
  induction installed generalizing plugins refused with
  | nil => exact Or.inl stored
  | cons manifest rest ih =>
      rw [emplaceManifests] at stored
      split at stored
      · rcases ih _ _ stored with old | same
        · rw [Std.TreeMap.getElem?_insertIfNew] at old
          split at old
          · exact Or.inr (Option.some.inj old).symm
          · exact Or.inl old
        · exact Or.inr same
      · exact ih _ _ stored

section Sound
variable {installed : List PluginManifest}

/-- No set that can be loaded has the plugin. -/
def Barred (installed : List PluginManifest) (name : String) : Prop :=
  name ∈ names installed ∧ ∀ plugins, Loadable installed plugins → name ∉ plugins

theorem count_filter (installed : List PluginManifest) (name : String) :
    (names installed).count name =
      (installed.filter fun held => held.name == name).length := by
  rw [names, List.count, List.countP_map, List.countP_eq_length_filter]
  rfl

theorem loadable_first {plugins : Set String} (loadable : Loadable installed plugins)
    {name : String} (member : name ∈ plugins) {manifest : PluginManifest}
    (found : (installed.find? fun held => held.name == name) = some manifest) :
    ∀ dependency ∈ manifest.dependencies, dependency ∈ plugins := by
  obtain ⟨only, once, closed⟩ := loadable name member
  rw [← List.head?_filter, once] at found
  cases found
  exact closed

theorem loadable_installed {plugins : Set String} (loadable : Loadable installed plugins)
    {name : String} (member : name ∈ plugins) : name ∈ names installed := by
  obtain ⟨only, once, _⟩ := loadable name member
  have inside : only ∈ installed.filter fun held => held.name == name := by simp [once]
  obtain ⟨held, same⟩ := List.mem_filter.mp inside
  exact List.mem_map.mpr ⟨only, held, by simpa using same⟩

theorem barred_twice {name : String} (twice : 2 ≤ (names installed).count name) :
    Barred installed name := by
  refine ⟨List.count_pos_iff.mp (by omega), fun plugins loadable member => ?_⟩
  obtain ⟨only, once, _⟩ := loadable name member
  rw [count_filter, once, List.length_singleton] at twice
  omega

theorem found_installed {name : String} {manifest : PluginManifest}
    (found : (installed.find? fun held => held.name == name) = some manifest) :
    name ∈ names installed :=
  List.mem_map.mpr ⟨manifest, List.mem_of_find?_eq_some found, by simpa using List.find?_some found⟩

theorem barred_missing {name dependency : String} {manifest : PluginManifest}
    (found : (installed.find? fun held => held.name == name) = some manifest)
    (needed : dependency ∈ manifest.dependencies) (absent : dependency ∉ names installed) :
    Barred installed name :=
  ⟨found_installed found, fun _ loadable member =>
    absent (loadable_installed loadable (loadable_first loadable member found dependency needed))⟩

theorem barred_needed {name gone : String} {manifest : PluginManifest}
    (found : (installed.find? fun held => held.name == name) = some manifest)
    (needed : gone ∈ manifest.dependencies) (barred : Barred installed gone) :
    Barred installed name :=
  ⟨found_installed found, fun plugins loadable member =>
    barred.2 plugins loadable (loadable_first loadable member found gone needed)⟩

/-- A refusal whose reason holds wherever all barred plugins are refused. -/
def Grounded (installed : List PluginManifest) (name : String) (reason : Error) : Prop :=
  Barred installed name ∧ ∀ refused : List String,
    (∀ gone, Barred installed gone → gone ∈ refused) → Refusal installed refused name reason

theorem refuse_missing_justified
    {entries : List (String × PluginManifest)} {work : Work String Error}
    (first : ∀ entry ∈ entries,
      (installed.find? fun held => held.name == entry.1) = some entry.2)
    (justified : Justified (Barred installed) (Grounded installed) work) :
    Justified (Barred installed) (Grounded installed)
      (refuseMissing (emplaceManifests installed (∅, ∅)).1 entries work) := by
  induction entries generalizing work with
  | nil => exact justified
  | cons entry rest ih =>
      rw [refuseMissing]
      apply ih (fun other member => first other (List.mem_cons_of_mem entry member))
      have found := first entry List.mem_cons_self
      split
      · next dependency missing =>
          have needed := List.mem_of_find?_eq_some missing
          have absent : dependency ∉ names installed := by
            rw [← mem_emplaced]
            simpa using List.find?_some missing
          have barred := barred_missing found needed absent
          exact justified_mark justified barred
            ⟨barred, fun refused _ => .missing found needed absent⟩
      · exact justified

theorem start_justified : Justified (Barred installed) (Grounded installed)
    ⟨(emplaceManifests installed (∅, ∅)).2,
      (emplaceManifests installed (∅, ∅)).2.keys.reverse⟩ := by
  have twice : ∀ name ∈ (emplaceManifests installed (∅, ∅)).2,
      2 ≤ (names installed).count name := by
    intro name member
    simpa using (emplace_duplicates installed ∅ ∅ name).mp member
  constructor
  · intro name member
    exact barred_twice (twice name (by simpa using member))
  · intro name reason stored
    have often := twice name (Std.TreeMap.mem_iff_isSome_getElem?.mpr (by simp [stored]))
    obtain rfl := (emplace_reasons installed ∅ ∅ name reason stored).resolve_left (by simp)
    exact ⟨barred_twice often, fun refused _ => .twice often⟩

theorem resolve_justified : Justified (Barred installed) (Grounded installed)
    ⟨refuseUnsatisfied (emplaceManifests installed (∅, ∅)).1
      (emplaceManifests installed (∅, ∅)).2, []⟩ := by
  have first : ∀ entry ∈ (emplaceManifests installed (∅, ∅)).1.toList,
      (installed.find? fun held => held.name == entry.1) = some entry.2 := by
    intro entry member
    rw [← installed_lookup]
    exact Std.TreeMap.mem_toList_iff_getElem?_eq_some.mp member
  have spreads : ∀ gone, Barred installed gone →
      ∀ entry ∈ (emplaceManifests installed (∅, ∅)).1.toList, requires entry gone = true →
        Barred installed entry.1 ∧ Grounded installed entry.1
          (.notReady s!"requires '{gone}', which the host refused") := by
    intro gone barred entry member hit
    have needed : gone ∈ entry.2.dependencies := by simpa [requires] using hit
    have reader := barred_needed (first entry member) needed barred
    exact ⟨reader, reader, fun refused all => .needed (first entry member) needed (all gone barred)⟩
  have settled := justified_drained Prod.fst requires _ spreads
    (refuse_missing_justified first start_justified) (settle_drained Prod.fst requires _ _ _)
  refine ⟨fun name waiting => ?_, settled.marked⟩
  cases waiting

theorem refused_barred {name : String}
    (refused : name ∈ refuseUnsatisfied (emplaceManifests installed (∅, ∅)).1
      (emplaceManifests installed (∅, ∅)).2) : Barred installed name := by
  obtain ⟨reason, stored⟩ :=
    Option.isSome_iff_exists.mp (Std.TreeMap.mem_iff_isSome_getElem?.mp refused)
  exact (resolve_justified.marked name reason stored).1

theorem to_load_loadable : Loadable installed { name | name ∈ (resolve installed).toLoad } := by
  intro name planned
  obtain ⟨held, spared⟩ := (mem_to_load_iff installed name).mp planned
  have known := (mem_emplaced installed name).mp held
  have once : ¬2 ≤ (names installed).count name := by
    intro twice
    apply spared
    have seeded := (emplace_duplicates installed ∅ ∅ name).mpr (Or.inr (by simpa using twice))
    exact drain_marked_mono _ _ _ _ _ _ name (refuse_missing_mono _ _ _ name seeded)
  have single : (installed.filter fun held => held.name == name).length = 1 := by
    have some := List.count_pos_iff.mpr known
    rw [← count_filter]
    omega
  obtain ⟨manifest, only⟩ := List.length_eq_one_iff.mp single
  have found : (installed.find? fun held => held.name == name) = some manifest := by
    rw [← List.head?_filter, only, List.head?_cons]
  exact ⟨manifest, only, to_load_closed installed name manifest found planned⟩

omit installed in
theorem refused_names (installed : List PluginManifest) :
    (resolve installed).refused.map RefusedPlugin.name =
      (refuseUnsatisfied (emplaceManifests installed (∅, ∅)).1
        (emplaceManifests installed (∅, ∅)).2).keys := by
  rw [← Std.TreeMap.map_fst_toList_eq_keys]
  simp [resolve, Function.comp_def]

theorem mem_refused_iff {name : String} :
    name ∈ (resolve installed).refused.map RefusedPlugin.name ↔
      name ∈ names installed ∧ name ∉ (resolve installed).toLoad := by
  rw [refused_names, Std.TreeMap.mem_keys, mem_to_load_iff, mem_emplaced, not_and, not_not]
  exact ⟨fun refused => ⟨(refused_barred refused).1, fun _ => refused⟩, fun held => held.2 held.1⟩

/-- The host loads as much as can be loaded together and refuses the rest, each for a reason,
whatever is installed; its loop ends. -/
theorem resolve_decides (installed : List PluginManifest) :
    Resolution installed (resolve installed) ∧
      ∃ last, Drained Prod.fst requires
          (fun gone => .notReady s!"requires '{gone}', which the host refused")
          (emplaceManifests installed (∅, ∅)).1.toList
          (refuseMissing (emplaceManifests installed (∅, ∅)).1
            (emplaceManifests installed (∅, ∅)).1.toList
            ⟨(emplaceManifests installed (∅, ∅)).2,
              (emplaceManifests installed (∅, ∅)).2.keys.reverse⟩) last ∧
        (resolve installed).refused = last.marked.toList.map fun entry => ⟨entry.1, entry.2⟩ := by
  refine ⟨⟨⟨to_load_loadable, ?_⟩, fun _ => mem_refused_iff, ?_, ?_, ?_⟩,
    _, settle_drained Prod.fst requires _ _ _, rfl⟩
  · intro plugins loadable name member
    refine (mem_to_load_iff installed name).mpr ⟨?_, fun refused => ?_⟩
    · exact (mem_emplaced installed name).mpr (loadable_installed loadable member)
    · exact (refused_barred refused).2 plugins loadable member
  · intro refusal member
    obtain ⟨⟨name, reason⟩, stored, rfl⟩ := List.mem_map.mp member
    have grounded := resolve_justified.marked name reason
      (Std.TreeMap.mem_toList_iff_getElem?_eq_some.mp stored)
    refine grounded.2 _ fun gone barred => mem_refused_iff.mpr ⟨barred.1, ?_⟩
    exact barred.2 _ to_load_loadable
  · exact (keys_ascending _).filter _
  · rw [refused_names]
    exact keys_ascending _

end Sound

section Dependents
variable (loaded : List PluginManifest) (plugin : String)

/-- A loaded plugin of the first name requires the second. -/
def Requires (name dependency : String) : Prop :=
  ∃ manifest ∈ loaded, manifest.name = name ∧ dependency ∈ manifest.dependencies

theorem dependents_sound {name : String} (dependent : name ∈ requiredDependents plugin loaded) :
    name ≠ plugin ∧ Relation.TransGen (Requires loaded) name plugin := by
  let reads := fun (manifest : PluginManifest) (needed : String) =>
    manifest.name != plugin && manifest.dependencies.contains needed
  let last := settle (fun manifest : PluginManifest => manifest.name) reads (fun _ => ()) loaded
    ⟨∅, [plugin]⟩
  have spreads : ∀ needed, Relation.ReflTransGen (Requires loaded) needed plugin →
      ∀ manifest ∈ loaded, reads manifest needed = true →
        Relation.ReflTransGen (Requires loaded) manifest.name plugin ∧
          manifest.name ≠ plugin ∧ Relation.TransGen (Requires loaded) manifest.name plugin := by
    intro needed path manifest member hit
    obtain ⟨other, requires⟩ := (Bool.and_eq_true ..).mp hit
    have edge : Requires loaded manifest.name needed :=
      ⟨manifest, member, rfl, by simpa using requires⟩
    have longer := Relation.TransGen.head' edge path
    exact ⟨longer.to_reflTransGen, by simpa using other, longer⟩
  have justified : Justified (fun name => Relation.ReflTransGen (Requires loaded) name plugin)
      (fun name _ => name ≠ plugin ∧ Relation.TransGen (Requires loaded) name plugin) last := by
    refine justified_drained _ _ _ spreads ⟨?_, fun found mark stored => ?_⟩
      (settle_drained _ _ _ loaded ⟨∅, [plugin]⟩)
    · intro name member
      rw [List.mem_singleton.mp member]
    · simp at stored
  have marked : name ∈ last.marked := Std.TreeMap.mem_keys.mp dependent
  obtain ⟨mark, stored⟩ :=
    Option.isSome_iff_exists.mp (Std.TreeMap.mem_iff_isSome_getElem?.mp marked)
  exact justified.marked name mark stored

/-- Induction on the path from its far end: what requires the plugin or a dependent is one. -/
theorem dependents_complete {name : String} (other : name ≠ plugin)
    (path : Relation.TransGen (Requires loaded) name plugin) :
    name ∈ requiredDependents plugin loaded := by
  induction path using Relation.TransGen.head_induction_on with
  | single edge =>
      obtain ⟨manifest, member, rfl, needed⟩ := edge
      exact required_dependents_closed plugin loaded manifest member other plugin (Or.inl rfl) needed
  | head edge rest ih =>
      obtain ⟨manifest, member, rfl, needed⟩ := edge
      refine required_dependents_closed plugin loaded manifest member other _ ?_ needed
      exact or_iff_not_imp_left.mpr ih

/-- The loop ends with the plugins, one each and in order, from which requirements lead to the
named one, whatever requires what. -/
theorem dependents_reach :
    (∃ last, Drained (fun manifest : PluginManifest => manifest.name)
        (fun manifest needed => manifest.name != plugin && manifest.dependencies.contains needed)
        (fun _ => ()) loaded ⟨∅, [plugin]⟩ last ∧
          requiredDependents plugin loaded = last.marked.keys) ∧
      (requiredDependents plugin loaded).Pairwise (· < ·) ∧
      ∀ name, name ∈ requiredDependents plugin loaded ↔
        name ≠ plugin ∧ Relation.TransGen (Requires loaded) name plugin :=
  ⟨⟨_, settle_drained _ _ _ loaded ⟨∅, [plugin]⟩, rfl⟩, keys_ascending _,
    fun _ => ⟨dependents_sound loaded plugin,
      fun reached => dependents_complete loaded plugin reached.1 reached.2⟩⟩

end Dependents

end VoltMod.PluginDependencies
