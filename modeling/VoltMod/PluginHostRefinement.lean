import VoltMod.PluginHostRuns

/-! With what plugins take left out, the host is the loader: every step it takes before it shuts
down is the loader's own, or none. -/
namespace VoltMod.PluginHost
open PluginDependencies
open PluginLoader (PluginRegistry findLoaded)
open SharedState (Shared Context Distinct Sound)
open Transition

variable {Address Call Implementation Time : Type}

/-- The views without what their plugins have taken. -/
def registryOf (shared : Shared Address Call Implementation Time) : PluginRegistry :=
  ⟨shared.plugins.map Context.toPluginContext, shared.nextOrder⟩

section Registry
variable {shared : Shared Address Call Implementation Time} {plugin : Context Address}

theorem registryOf_views {before after : Shared Address Call Implementation Time}
    (views : Views before after) : registryOf after = registryOf before := by
  have first := congrArg (List.map Prod.fst) views.views
  rw [List.map_map, List.map_map] at first
  rw [registryOf, registryOf, views.order]
  exact congrArg (fun plugins => (⟨plugins, before.nextOrder⟩ : PluginRegistry)) first

theorem registryOf_find (shared : Shared Address Call Implementation Time) (name : String) :
    ((registryOf shared).findPlugin name).isSome = (SharedState.findPlugin name shared).isSome := by
  rw [Bool.eq_iff_iff, PluginLoader.find_plugin_iff, SharedState.findPlugin, List.find?_isSome]
  simp [registryOf, PluginRegistry.names]

theorem registryOf_add (shared : Shared Address Call Implementation Time) (address : Address)
    (name logTag version : String) :
    (SharedState.addPlugin address name logTag version shared).map registryOf =
      (registryOf shared).addPlugin name logTag version := by
  rw [SharedState.addPlugin, PluginRegistry.addPlugin, registryOf_find]
  split
  · rfl
  · simp [registryOf]

variable [DecidableEq Address]

/-- A view's address tells it from the others, as its name does. -/
theorem registryOf_level (distinct : Distinct shared) (member : plugin ∈ shared.plugins)
    (level : LogLevel) : registryOf (setMinLogLevel plugin.address level shared) =
      (registryOf shared).setMinLogLevel plugin.name level := by
  have views : (setMinLogLevel plugin.address level shared).plugins.map Context.toPluginContext =
      ((registryOf shared).setMinLogLevel plugin.name level).plugins := by
    simp only [setMinLogLevel, registryOf, PluginRegistry.setMinLogLevel, List.map_map]
    apply List.map_congr_left
    intro view inside
    simp only [Function.comp_apply]
    by_cases same : view = plugin
    · subst same
      rw [if_pos rfl, if_pos rfl]
    · have address : view.address ≠ plugin.address := fun here =>
        same (List.inj_on_of_nodup_map distinct.addresses inside member here)
      have name : view.name ≠ plugin.name := fun here =>
        same (List.inj_on_of_nodup_map distinct.names inside member here)
      rw [if_neg address, if_neg name]
  rw [registryOf, views]
  rfl

theorem registryOf_remove [DecidableEq Call] (sound : Sound shared) (name : String) :
    registryOf (SharedState.removePlugin name shared).2 =
      (registryOf shared).removePlugin name := by
  cases found : SharedState.findPlugin name shared with
  | none =>
      have absent : ∀ view ∈ (registryOf shared).plugins, ¬(view.name == name) = true := by
        intro view member same
        have known : ((registryOf shared).findPlugin name).isSome = true :=
          List.find?_isSome.mpr ⟨view, member, same⟩
        rw [registryOf_find, found] at known
        cases known
      rw [SharedState.removePlugin, found, PluginRegistry.removePlugin,
        List.eraseP_of_forall_not absent]
  | some plugin =>
      obtain ⟨before, after, downloads, split, result, _⟩ := SharedState.removePlugin_eq sound found
      obtain rfl : plugin.name = name := by simpa using List.find?_some found
      have distinct := sound.distinct.names
      rw [split] at distinct
      have apart : ∀ view ∈ before.map Context.toPluginContext,
          ¬(view.name == plugin.name) = true := by
        intro view member same
        obtain ⟨other, inside, rfl⟩ := List.mem_map.mp member
        exact SharedState.key_apart (fun held => held.name) distinct other
          (List.mem_append_left _ inside) (beq_iff_eq.mp same)
      rw [result, registryOf, registryOf, PluginRegistry.removePlugin, split, List.map_append,
        List.map_append, List.map_cons, List.eraseP_append_right _ apart, List.eraseP_cons_of_pos]
      exact beq_self_eq_true _

end Registry

section Actions
variable [DecidableEq Address] [DecidableEq Call]
  {host : Host Address Call Implementation Time}

/-- The view that a load has opened. -/
theorem registryOf_opened {shared added : Shared Address Call Implementation Time}
    {address : Address} {manifest : PluginManifest} (sound : Sound shared)
    (free : address ∉ shared.plugins.map Context.address)
    (opened : SharedState.addPlugin address manifest.name manifest.logTag manifest.version shared =
      some added) :
    registryOf (setMinLogLevel address manifest.logLevel added) =
      (registryOf added).setMinLogLevel manifest.name manifest.logLevel := by
  have unused : ∀ plugin ∈ shared.plugins, plugin.address ≠ address := by
    rintro plugin member rfl
    exact free (List.mem_map_of_mem member)
  obtain ⟨next, _⟩ := SharedState.addPlugin_sound sound unused opened
  simp only [SharedState.addPlugin, Option.ite_none_left_eq_some, Option.some.injEq] at opened
  obtain ⟨_, rfl⟩ := opened
  exact registryOf_level next.distinct (List.mem_append_right _ (List.mem_singleton_self _)) _

theorem loadOne_loader (world : Surroundings Address Call Implementation)
    (manifest : PluginManifest) (settled : Settled host.toTables) :
    PluginLoader.loadOne world.toWorld manifest (loader host) =
      (loader { host with toTables := (loadOne world manifest host.toTables).1 },
        (loadOne world manifest host.toTables).2) := by
  unfold PluginLoader.loadOne loadOne
  dsimp only
  have free := world.free (host.shared.plugins.map Context.address)
  generalize world.place (host.shared.plugins.map Context.address) = address at free ⊢
  -- The exits in the source's order: no library, a refused descriptor, a registry that refuses.
  cases (world.library manifest.name).entry with
  | error failed => rfl
  | ok descriptor =>
      dsimp only
      cases PluginLoader.validateDescriptor descriptor world.hostVersion with
      | error failed => rfl
      | ok _ =>
          have viewed := registryOf_add host.shared address manifest.name manifest.logTag
            manifest.version
          cases opened : SharedState.addPlugin address manifest.name manifest.logTag
              manifest.version host.shared with
          | none =>
              rw [opened] at viewed
              rw [show (loader host).registry = registryOf host.shared from rfl, ← viewed]
              rfl
          | some added =>
              rw [opened] at viewed
              rw [show (loader host).registry = registryOf host.shared from rfl, ← viewed]
              obtain ⟨sound, _, running, _, view, member, here, order, named⟩ :=
                @opened_spec _ _ _ _ _ _ _ _ _ _ _ manifest.logLevel _ settled.sound free opened
              obtain ⟨loads, quiet⟩ := play_spec sound (running.trans settled.quiet) member
                ((world.loads manifest.name).map (.request address))
              rw [here, order] at loads quiet
              have loaded := (registryOf_views loads.views).trans
                (registryOf_opened settled.sound free opened)
              have stands := played_views loads.views ⟨view, member, here, order, named⟩
              dsimp only [Option.map_some]
              generalize play address host.shared.nextOrder
                ((world.loads manifest.name).map (.request address))
                (setMinLogLevel address manifest.logLevel added) = loading
                at loads quiet loaded stands ⊢
              rw [← loaded]
              cases (world.library manifest.name).refusal with
              | some failure =>
                  dsimp only
                  rw [← registryOf_remove loads.sound]
                  rfl
              | none =>
                  obtain ⟨standing, inside, rfl, same, _⟩ := stands
                  obtain ⟨replays, _⟩ :=
                    play_spec loads.sound quiet inside (world.replays manifest.name)
                  rw [same] at replays
                  dsimp only
                  rw [← registryOf_views replays.views]
                  rfl

omit [DecidableEq Address] [DecidableEq Call] in
theorem refuseWanted_loader (wanted : String → Bool) (refusals : List RefusedPlugin) :
    loader (refuseWanted wanted refusals host) =
      PluginLoader.refuseWanted wanted refusals (loader host) := by
  induction refusals generalizing host with
  | nil => rfl
  | cons refused rest ih =>
      rw [refuseWanted, PluginLoader.refuseWanted, ih]
      split
      · rfl
      · rfl

theorem loadOrRefuse_loader (world : Surroundings Address Call Implementation)
    (manifest : PluginManifest) (settled : Settled host.toTables) :
    loader (loadOrRefuse world manifest host) =
      PluginLoader.loadOrRefuse world.toWorld manifest (loader host) := by
  rw [loadOrRefuse, PluginLoader.loadOrRefuse, loadOne_loader world manifest settled]
  generalize loadOne world manifest host.toTables = tried
  obtain ⟨after, loaded⟩ := tried
  cases loaded with
  | ok _ => rfl
  | error failed => rfl

theorem loadPlanned_loader {started : Bool} (world : Surroundings Address Call Implementation)
    (wanted : String → Bool) (plan : List String) (good : Good started host) :
    loader (loadPlanned world wanted plan host) =
      PluginLoader.loadPlanned world.toWorld wanted plan (loader host) := by
  induction plan generalizing host with
  | nil => rfl
  | cons name rest ih =>
      have next := loadPlanned_good world wanted [name] good
      rw [loadPlanned, loadPlanned] at next
      rw [loadPlanned, PluginLoader.loadPlanned, ih next]
      congr 1
      split
      · rfl
      · cases PluginLoader.installedAs world.toWorld name with
        | none => rfl
        | some manifest => exact loadOrRefuse_loader world manifest good.settled

theorem loadGroup_loader {started : Bool} (world : Surroundings Address Call Implementation)
    {wanted : String → Bool} (good : Good started host)
    (absent : ∀ name ∈ loadedNames host.toTables, wanted name = false) :
    loader (loadGroup world wanted host) =
      PluginLoader.loadGroup world.toWorld wanted (loader host) := by
  obtain ⟨first, same⟩ := refuseWanted_good world.installed.refused good absent
  obtain ⟨second, _⟩ := refuseWanted_good (resolve world.installed.plugins).refused first
    (same ▸ absent)
  rw [loadGroup, PluginLoader.loadGroup, loadPlanned_loader world wanted _ second,
    refuseWanted_loader, refuseWanted_loader]

theorem unloadOne_loader {started : Bool} (world : Surroundings Address Call Implementation)
    (name : String) (good : Good started host) :
    loader (unloadOne world name host) = PluginLoader.unloadOne name (loader host) := by
  obtain ⟨⟨⟨sound, names, _, _⟩, quiet⟩, _, _⟩ := good
  rw [unloadOne, PluginLoader.unloadOne]
  cases found : findLoaded (loader host) name with
  | none => rfl
  | some plugin =>
      have known : name ∈ loadedNames host.toTables :=
        (findLoaded_iff host name).mp (found ▸ rfl)
      obtain ⟨view, member, rfl⟩ := List.mem_map.mp (names ▸ known)
      obtain ⟨played, _⟩ := play_spec sound quiet member (world.departs view.name)
      dsimp only
      rw [find_view sound.distinct member, show (loader host).registry = registryOf host.shared
        from rfl, ← registryOf_views played.views, ← registryOf_remove played.sound]
      rfl

theorem unloadEach_loader {started : Bool} (world : Surroundings Address Call Implementation)
    (names : List String) (good : Good started host) :
    loader (unloadEach world names host) = PluginLoader.unloadEach names (loader host) := by
  induction names generalizing host with
  | nil => rfl
  | cons name rest ih =>
      rw [unloadEach, PluginLoader.unloadEach, ih (unloadOne_spec world name good).1,
        unloadOne_loader world name good]

theorem runLoad_loader {started : Bool} (world : Surroundings Address Call Implementation)
    (name : String) (good : Good started host) :
    loader (runLoad world name host) = PluginLoader.runLoad world.toWorld name (loader host) := by
  rw [runLoad, PluginLoader.runLoad]
  split
  · rfl
  cases world.installed.refused.find? fun broken => broken.name == name with
  | some broken => rfl
  | none =>
      cases PluginLoader.installedAs world.toWorld name with
      | none => rfl
      | some found =>
          dsimp only
          cases found.dependencies.find? fun dependency =>
              (findLoaded (loader host) dependency).isNone with
          | some dependency => rfl
          | none => exact loadOrRefuse_loader world found good.settled

theorem runUnload_loader {started : Bool} (world : Surroundings Address Call Implementation)
    (name : String) (good : Good started host) :
    loader (runUnload world name host) = PluginLoader.runUnload name (loader host) := by
  rw [runUnload, PluginLoader.runUnload]
  split
  · rfl
  rw [show (loader host).loaded = host.loaded from rfl]
  split
  · exact unloadOne_loader world name good
  · rfl

theorem runReload_loader {started : Bool} (world : Surroundings Address Call Implementation)
    (name : String) (good : Good started host) :
    loader (runReload world name host) =
      PluginLoader.runReload world.toWorld name (loader host) := by
  rw [runReload, PluginLoader.runReload]
  split
  · rfl
  · obtain ⟨unloaded, absent⟩ := unloadGroup_good world name good
    rw [loadGroup_loader world unloaded absent, unloadEach_loader world _ good]

theorem runAction_loader {started : Bool} (world : Surroundings Address Call Implementation)
    (action : PluginLoader.PendingAction) (good : Good started host) :
    loader (runAction world action host) =
      PluginLoader.runAction world.toWorld action (loader host) := by
  rw [runAction, PluginLoader.runAction]
  cases action.kind with
  | load => exact runLoad_loader world action.name good
  | unload => exact runUnload_loader world action.name good
  | reload => exact runReload_loader world action.name good

end Actions

/-- What an event is to the loader. -/
def loaderEvent : Event Address Call Implementation → Option PluginLoader.Event
  | .loadAll world => some (.loadAll world.toWorld)
  | .defer action => some (.defer action)
  | .runPending => some .runPending
  | .act world => some (.act world.toWorld)
  | .unloadAll _ | .registry _ => none

section Runs
variable [DecidableEq Address] [DecidableEq Call]
  {host after : Host Address Call Implementation Time}

theorem step_loader {event : Event Address Call Implementation} (kept : Kept host)
    (stays : ∀ world, event ≠ .unloadAll world) (taken : step host event = some after) :
    run PluginLoader.step (loader host) (loaderEvent event).toList = some (loader after) := by
  cases event with
  | loadAll world =>
      simp only [step, Option.ite_none_left_eq_some, Option.some.injEq] at taken
      obtain ⟨idle, rfl⟩ := taken
      obtain ⟨fresh, quiet⟩ : host.started = false ∧ host.shared.running = [] := by simpa using idle
      have good : Good host.started host := ⟨⟨kept.tidy, quiet⟩, kept.undone, rfl⟩
      exact congrArg some (loadGroup_loader world good (booting_absent kept fresh)).symm
  | unloadAll world => exact absurd rfl (stays world)
  | defer action =>
      cases taken
      rfl
  | runPending =>
      simp only [step, Option.ite_none_right_eq_some, Option.some.injEq] at taken
      obtain ⟨idle, rfl⟩ := taken
      obtain ⟨_, idle⟩ := (Bool.and_eq_true ..).mp idle
      have waits : (loader host).running = [] := of_decide_eq_true idle
      rw [loaderEvent, Option.toList_some, run, PluginLoader.step, if_pos waits]
      rfl
  | act world =>
      simp only [step] at taken
      split at taken
      · cases taken
      · next action rest running =>
          simp only [Option.ite_none_right_eq_some, Option.some.injEq] at taken
          obtain ⟨quiet, rfl⟩ := taken
          have good : Good host.started { host with running := rest } :=
            ⟨⟨kept.tidy, quiet⟩, kept.undone, rfl⟩
          have waits : (loader host).running = action :: rest := running
          rw [loaderEvent, Option.toList_some, run, PluginLoader.step, waits]
          exact congrArg some (runAction_loader world action good).symm
  | registry label =>
      simp only [step, Option.ite_none_right_eq_some] at taken
      obtain ⟨outside, taken⟩ := taken
      obtain ⟨shared, stepped, rfl⟩ := Option.map_eq_some_iff.mp taken
      have same := registryOf_views (registry_views kept.tidy.sound outside stepped)
      exact congrArg (fun registry => some { loader host with registry }) same.symm

/-- A run of the host, up to its shutdown, is a run of the loader. -/
theorem run_loader {addons : Bool} {events : List (Event Address Call Implementation)}
    (stays : ∀ event ∈ events, ∀ world, event ≠ .unloadAll world)
    (ran : run step (start addons : Host Address Call Implementation Time) events = some after) :
    run PluginLoader.step PluginLoader.start (events.filterMap loaderEvent) =
      some (loader after) :=
  run_projects loader loaderEvent (fun _ _ _ kept taken => step_kept kept taken)
    (fun _ _ _ kept stays taken => step_loader kept stays taken) (start_kept addons) stays ran

end Runs

end VoltMod.PluginHost
