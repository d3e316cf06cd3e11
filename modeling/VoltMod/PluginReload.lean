import VoltMod.PluginLoader
import VoltMod.PluginResolution
import Mathlib.Data.List.Nodup

/-! What a reload takes down, and in what order. The order is the load order backwards, and the
load order is the names', so a plugin can stand before one it requires. -/
namespace VoltMod.PluginLoader
open PluginDependencies Transition
open Relation (TransGen)

/-- No plugin stands before one it requires. -/
def Layered (loaded : List PluginManifest) : Prop :=
  loaded.Pairwise fun earlier later => later.name ∉ earlier.dependencies

/-- What comes up is required neither by what is up already nor by what comes up before it. -/
def Placed (up coming : List PluginManifest) : Prop :=
  Layered coming ∧ ∀ plugin ∈ up, ∀ next ∈ coming, next.name ∉ plugin.dependencies

/-- Exactly the plugin and what requires it goes down, each before all that it requires. -/
structure TakesDown (loader : Loader) (name : String) : Prop where
  members : ∀ other, other ∈ going (reloadGroup name loader) loader ↔
    other = name ∨ TransGen (Requires loader.loaded) other name
  once : (going (reloadGroup name loader) loader).Nodup
  down : (unloadEach (going (reloadGroup name loader) loader) loader).loaded =
    loader.loaded.filter fun plugin => plugin.name ∉ going (reloadGroup name loader) loader
  order : (going (reloadGroup name loader) loader).Pairwise fun earlier later =>
    ¬TransGen (Requires loader.loaded) later earlier

/-- What a single load brings up. -/
def arrival (world : World) (name : String) (loader : Loader) : List PluginManifest :=
  if (findLoaded loader name).isSome ||
      (world.installed.refused.find? fun broken => broken.name == name).isSome then [] else
    (installedAs world name).toList.filter fun manifest =>
      (manifest.dependencies.all fun dependency => (findLoaded loader dependency).isSome) &&
        loads world manifest

/-- Nothing comes up that something already up requires. -/
def InTurn (loader : Loader) : Event → Prop
  | .loadAll world => Placed loader.loaded
      (brought world (fun _ => true) (loadedNames loader) (resolve world.installed.plugins).toLoad)
  | .defer _ | .runPending => True
  | .act world =>
      match loader.running with
      | ⟨.load, name⟩ :: _ => Placed loader.loaded (arrival world name loader)
      | ⟨.reload, name⟩ :: _ => (findLoaded loader name).isSome = true →
          Placed (staying name loader) (brought world (reloadGroup name loader).contains
            ((staying name loader).map fun plugin => plugin.name)
            (resolve world.installed.plugins).toLoad)
      | _ => True

theorem layered_append (up coming : List PluginManifest) :
    Layered (up ++ coming) ↔ Layered up ∧ Placed up coming :=
  List.pairwise_append

theorem layered_filter {loaded : List PluginManifest} (layered : Layered loaded)
    (keep : PluginManifest → Bool) : Layered (loaded.filter keep) :=
  List.Pairwise.filter keep layered

section Order
variable {loaded : List PluginManifest}

/-- From the front of a layered list requirements lead only to its front. -/
theorem required_front {front back : List PluginManifest} (layered : Layered (front ++ back))
    (distinct : (names (front ++ back)).Nodup) {name other : String} (inside : name ∈ names front)
    (path : TransGen (Requires (front ++ back)) name other)
    (known : other ∈ names (front ++ back)) : other ∈ names front := by
  have stays : ∀ first second, first ∈ names front → second ∈ names (front ++ back) →
      Requires (front ++ back) first second → second ∈ names front := by
    rintro first second inside known ⟨manifest, member, rfl, needed⟩
    obtain ⟨plugin, held, same⟩ := List.mem_map.mp inside
    obtain rfl := List.inj_on_of_nodup_map distinct (List.mem_append_left back held) member same
    rw [names, List.map_append, List.mem_append] at known
    apply known.resolve_right
    intro behind
    obtain ⟨later, after, rfl⟩ := List.mem_map.mp behind
    exact ((layered_append front back).mp layered).2.2 plugin held later after needed
  induction path using TransGen.head_induction_on with
  | single edge => exact stays _ _ inside known edge
  | head edge rest ih =>
      obtain ⟨_, ⟨manifest, member, rfl, _⟩, _⟩ := Relation.TransGen.head'_iff.mp rest
      exact ih (stays _ _ inside (List.mem_map_of_mem member) edge)

theorem layered_paths (layered : Layered loaded) (distinct : (names loaded).Nodup) :
    (names loaded).Pairwise fun first second => ¬TransGen (Requires loaded) first second := by
  -- Induction on what is behind, the rest of the list standing in front of it.
  have behind : ∀ back front, loaded = front ++ back →
      (names back).Pairwise fun first second => ¬TransGen (Requires loaded) first second := by
    intro back
    induction back with
    | nil => exact fun _ _ => List.Pairwise.nil
    | cons plugin rest ih =>
        rintro front rfl
        have split : front ++ plugin :: rest = (front ++ [plugin]) ++ rest := by simp
        refine List.Pairwise.cons (fun other member path => ?_) (ih (front ++ [plugin]) split)
        rw [split] at layered distinct path
        have inside : plugin.name ∈ names (front ++ [plugin]) := by simp [names]
        have known : other ∈ names ((front ++ [plugin]) ++ rest) := by
          rw [names, List.map_append]
          exact List.mem_append_right _ member
        have before := required_front layered distinct inside path known
        rw [names, List.map_append] at distinct
        exact (List.nodup_append.mp distinct).2.2 other before other member rfl
  exact behind loaded [] rfl

end Order

section Reload
variable {loader : Loader} {name : String}

theorem going_names (name : String) (loader : Loader) :
    going (reloadGroup name loader) loader =
      (loadedNames loader).reverse.filter (reloadGroup name loader).contains := by
  rw [going, loadedNames, ← List.map_reverse, List.filter_map]
  rfl

theorem requires_loaded {first second : String}
    (path : TransGen (Requires loader.loaded) first second) : first ∈ loadedNames loader := by
  obtain ⟨_, ⟨manifest, member, rfl, _⟩, _⟩ := Relation.TransGen.head'_iff.mp path
  exact List.mem_map_of_mem member

theorem mem_reloadGroup (name other : String) (loader : Loader) :
    other ∈ reloadGroup name loader ↔
      other = name ∨ TransGen (Requires loader.loaded) other name := by
  rw [reloadGroup, List.mem_append, List.mem_singleton]
  constructor
  · rintro (dependent | same)
    · exact Or.inr (dependents_sound _ _ dependent).2
    · exact Or.inl same
  · rintro (same | path)
    · exact Or.inr same
    · by_cases same : other = name
      · exact Or.inr same
      · exact Or.inl (dependents_complete _ _ same path)

theorem mem_going (held : name ∈ loadedNames loader) (other : String) :
    other ∈ going (reloadGroup name loader) loader ↔
      other = name ∨ TransGen (Requires loader.loaded) other name := by
  rw [going_names, List.mem_filter, List.mem_reverse, List.contains_iff_mem, mem_reloadGroup]
  constructor
  · exact And.right
  · rintro (rfl | path)
    · exact ⟨held, Or.inl rfl⟩
    · exact ⟨requires_loaded path, Or.inr path⟩

theorem takesDown_of_layered (sound : Sound loader) (layered : Layered loader.loaded)
    (held : name ∈ loadedNames loader) : TakesDown loader name := by
  refine ⟨mem_going held, ?_, (unload_each_spec _ loader sound).1, ?_⟩
  · rw [going_names]
    exact (List.nodup_reverse.mpr sound.distinct).filter _
  · rw [going_names]
    exact (List.pairwise_reverse.mpr (layered_paths layered sound.distinct)).filter _

/-- A plugin that stands before one it requires goes down after it when that one is reloaded. -/
theorem layered_of_takesDown
    (orders : ∀ name ∈ loadedNames loader, TakesDown loader name) : Layered loader.loaded := by
  refine List.pairwise_iff_forall_sublist.mpr fun {plugin later} stand needed => ?_
  have member : plugin ∈ loader.loaded := stand.subset (by simp)
  have edge : Requires loader.loaded plugin.name later.name := ⟨plugin, member, rfl, needed⟩
  have held : later.name ∈ loadedNames loader := List.mem_map_of_mem (stand.subset (by simp))
  have backwards : [later.name, plugin.name].Sublist (loadedNames loader).reverse :=
    (stand.map fun manifest : PluginManifest => manifest.name).reverse
  have group : [later.name, plugin.name].filter (reloadGroup later.name loader).contains =
      [later.name, plugin.name] := by
    apply List.filter_eq_self.mpr
    intro name member
    rw [List.contains_iff_mem, mem_reloadGroup]
    rcases List.mem_pair.mp member with rfl | rfl
    · exact Or.inl rfl
    · exact Or.inr (.single edge)
  have order := (orders later.name held).order
  rw [going_names] at order
  have pair := order.sublist (group ▸ backwards.filter _)
  exact (List.pairwise_cons.mp pair).1 plugin.name (by simp) (.single edge)

theorem takesDown_iff (sound : Sound loader) :
    (∀ name ∈ loadedNames loader, TakesDown loader name) ↔ Layered loader.loaded :=
  ⟨layered_of_takesDown, fun layered _ held => takesDown_of_layered sound layered held⟩

end Reload

section Runs

theorem run_load_arrival (world : World) (name : String) (loader : Loader) (sound : Sound loader) :
    (runLoad world name loader).loaded = loader.loaded ++ arrival world name loader := by
  unfold runLoad arrival
  split
  · next up => simp [up]
  next fresh =>
    rw [find_loaded_iff] at fresh
    split
    · next broken found => simp [found, refuse]
    next unbroken =>
      have off : (findLoaded loader name).isSome = false := by
        simpa only [← find_loaded_iff, Bool.not_eq_true] using fresh
      rw [off, unbroken, Option.isSome_none, Bool.or_self, if_neg Bool.false_ne_true]
      split
      · next missing => simp [missing]
      next manifest found =>
        rw [found, Option.toList_some]
        split
        · next dependency unmet =>
            have lacking := List.find?_some unmet
            have member := List.mem_of_find?_eq_some unmet
            have incomplete : (manifest.dependencies.all fun dependency =>
                (findLoaded loader dependency).isSome) = false := by
              rw [List.all_eq_false]
              exact ⟨dependency, member, by simpa using lacking⟩
            simp [incomplete, refuse]
        · next met =>
            have complete : (manifest.dependencies.all fun dependency =>
                (findLoaded loader dependency).isSome) = true := by
              rw [List.all_eq_true]
              intro dependency needed
              simpa [Option.isSome_iff_ne_none] using List.find?_eq_none.mp met dependency needed
            have named := installed_as_name world name manifest found
            rw [(load_or_refuse_spec world manifest loader sound (named ▸ fresh)).1]
            refine congrArg (loader.loaded ++ ·) (List.filter_congr fun held member => ?_)
            rw [List.mem_singleton.mp member, complete, Bool.true_and]

theorem step_layered {before after : Loader} {event : Event} (sound : Sound before)
    (layered : Layered before.loaded) (taken : step before event = some after) :
    Layered after.loaded ↔ InTurn before event := by
  cases event with
  | loadAll world =>
      cases taken
      -- A group adds its plugins behind the loaded ones, which stay in layers.
      rw [loadAll, (load_group_spec world _ before sound).1, layered_append]
      exact and_iff_right layered
  | defer action =>
      cases taken
      exact iff_of_true layered trivial
  | runPending =>
      simp only [step, Option.ite_none_right_eq_some, Option.some.injEq] at taken
      obtain ⟨_, rfl⟩ := taken
      exact iff_of_true layered trivial
  | act world =>
      cases waiting : before.running with
      | nil => simp [step, waiting] at taken
      | cons action rest =>
          obtain ⟨kind, name⟩ := action
          simp only [step, waiting, Option.some.injEq] at taken
          subst after
          have still : Sound { before with running := rest } := ⟨sound.distinct, sound.views⟩
          cases kind with
          | load =>
              simp only [InTurn, waiting, runAction]
              rw [run_load_arrival world name _ still, layered_append]
              exact and_iff_right layered
          | unload =>
              simp only [InTurn, waiting, runAction, iff_true]
              unfold runUnload
              split
              · exact layered
              split
              · rw [(unload_one_spec name _ still).1]
                exact layered_filter layered _
              · exact layered
          | reload =>
              simp only [InTurn, waiting, runAction]
              -- A reload takes down what needs the plugin and brings it back as a group.
              by_cases up : (findLoaded before name).isSome = true
              · have present : ¬(findLoaded { before with running := rest } name).isNone = true := by
                  simpa [findLoaded, Option.isSome_iff_ne_none] using up
                obtain ⟨left, leftSound⟩ := unload_going_spec name _ still
                have stays : Layered (staying name { before with running := rest }) :=
                  layered_filter layered _
                rw [runReload, if_neg present, (load_group_spec world _ _ leftSound).1, loadedNames,
                  left, layered_append]
                exact ⟨fun placed _ => placed.2, fun placed => ⟨stays, placed up⟩⟩
              · have idle : runReload world name { before with running := rest } =
                    { before with running := rest } := runReload_missing world up
                rw [idle]
                exact iff_of_true layered fun loaded => absurd loaded up

/-- In every run, every reload of a plugin that is up takes down exactly it and what requires it,
each before all it requires, exactly when nothing comes up after a plugin that requires it. -/
theorem reloads_in_order_iff (events : List Event) :
    Always step (fun loader => ∀ name ∈ loadedNames loader, TakesDown loader name) start events ↔
      Guarded step InTurn start events := by
  refine always_iff_guarded (fun before event after sound orders taken => ?_) start_sound
    (by simp [loadedNames, start]) events
  have later := (step_spec before event after sound taken).1
  exact ⟨later, (takesDown_iff later).trans
    (step_layered sound ((takesDown_iff sound).mp orders) taken)⟩

/-- `alpha` requires `zulu`, and comes up first. -/
def alphaFirst : World where
  installed :=
    { plugins := [⟨"alpha", "1.0", "alpha", .info, ["zulu"]⟩, ⟨"zulu", "1.0", "zulu", .info, []⟩]
      refused := [] }
  library _ :=
    { entry := .ok (some ⟨some "2.0", true, true, true, true⟩)
      refusal := none }
  serverAssets _ := false
  hostVersion := "2.0"

theorem reload_takes_required_first :
    Acyclic alphaFirst.installed.plugins ∧
      ((run step start [.loadAll alphaFirst]).map fun loader =>
        (loader.loaded.map fun plugin => (plugin.name, plugin.dependencies),
          going (reloadGroup "zulu" loader) loader)) =
        some ([("alpha", ["zulu"]), ("zulu", [])], ["zulu", "alpha"]) ∧
      ¬Always step (fun loader => ∀ name ∈ loadedNames loader, TakesDown loader name) start
        [.loadAll alphaFirst] := by
  refine ⟨⟨fun name => if name = "alpha" then 1 else 0, by simp [alphaFirst]⟩, by rfl, ?_⟩
  intro always
  have layered : Layered (loadAll alphaFirst start).loaded := layered_of_takesDown (always.2 _ rfl)
  have left : (loadAll alphaFirst start).loaded =
      [⟨"alpha", "1.0", "alpha", .info, ["zulu"]⟩, ⟨"zulu", "1.0", "zulu", .info, []⟩] := by rfl
  simp [Layered, left] at layered

end Runs

end VoltMod.PluginLoader
