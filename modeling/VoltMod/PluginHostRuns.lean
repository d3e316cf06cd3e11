import VoltMod.PluginHost

/-! A plugin that fails to load leaves nothing behind, and the loader's lists and the
registries' views stay in step through every run. -/
namespace VoltMod.PluginHost
open PluginDependencies
open CallbackList (Subscription callsOf)
open CommandNames (namesOf)
open PluginLoader (PluginContext findLoaded installedAs reloadGroup going)
open PublishedInterfaces (servicesOf)
open SharedState (Shared Context Request Beside Distinct Gone Sound Still holders total)
open Transition

variable {Address Call Implementation Time : Type} [DecidableEq Address]

/-- What tells a view from the others. -/
def identity (view : Context Address) : PluginContext × Address :=
  (view.toPluginContext, view.address)

/-- The same views stand in the same places. -/
structure Views (before after : Shared Address Call Implementation Time) : Prop where
  views : after.plugins.map identity = before.plugins.map identity
  order : after.nextOrder = before.nextOrder

section Playing
variable {shared after : Shared Address Call Implementation Time} {plugin : Context Address}

theorem setPlugin_identity {plugins : List (Context Address)} {next : Context Address}
    (addresses : (plugins.map Context.address).Nodup) (member : plugin ∈ plugins)
    (same : identity next = identity plugin) :
    (plugins.map fun held => if held.address = next.address then next else held).map identity =
      plugins.map identity := by
  obtain ⟨before, after, rfl, _, set⟩ := SharedState.setPlugin_split addresses member
  rw [set next (congrArg Prod.snd same)]
  simp [same]

theorem perform_views (distinct : Distinct shared) (member : plugin ∈ shared.plugins)
    (request : Request Call Implementation) :
    Views shared (SharedState.perform plugin shared request) := by
  have set := @setPlugin_identity _ _ plugin shared.plugins
  cases request with
  | subscribe event callback =>
      cases callback with
      | none => exact ⟨rfl, rfl⟩
      | some call => exact ⟨set distinct.addresses member rfl, rfl⟩
  | unsubscribe token =>
      simp only [SharedState.perform, SharedState.unsubscribe]
      split
      · exact ⟨rfl, rfl⟩
      · exact ⟨set distinct.addresses member rfl, rfl⟩
  | publish name implementation => exact ⟨rfl, rfl⟩
  | unpublish name => exact ⟨rfl, rfl⟩
  | registerCommand name => exact ⟨rfl, rfl⟩
  | add id installs =>
      simp only [SharedState.perform, SharedState.add]
      split
      · exact ⟨rfl, rfl⟩
      · split
        · exact ⟨set distinct.addresses member rfl, rfl⟩
        · exact ⟨rfl, rfl⟩
  | remove id =>
      simp only [SharedState.perform, SharedState.remove]
      split
      · exact ⟨set distinct.addresses member rfl, rfl⟩
      · exact ⟨rfl, rfl⟩

omit [DecidableEq Address] in
theorem views_names {before after : List (Context Address)}
    (views : after.map identity = before.map identity) :
    (after.map fun view => view.name) = before.map fun view => view.name := by
  have both := congrArg (List.map fun pair : PluginContext × Address => pair.1.name) views
  simpa [identity, Function.comp_def] using both

theorem beside_trans {address : Address} {order : Nat}
    {first second third : Shared Address Call Implementation Time}
    (here : Beside address order first second) (next : Beside address order second third) :
    Beside address order first third :=
  ⟨next.plugins.trans here.plugins,
    fun other apart event => (next.calls other apart event).trans (here.calls other apart event),
    next.services.trans here.services, next.commands.trans here.commands⟩

/-- What a plugin's own course leaves of the rest. -/
structure Played [DecidableEq Call] (address : Address) (order : Nat)
    (before after : Shared Address Call Implementation Time) : Prop where
  sound : Sound after
  beside : Beside address order before after
  views : Views before after

theorem played_same [DecidableEq Call] (sound : Sound shared) (address : Address) (order : Nat) :
    Played address order shared shared :=
  ⟨sound, ⟨rfl, fun _ _ _ => rfl, rfl, rfl⟩, rfl, rfl⟩

theorem own_step [DecidableEq Call] {before : Shared Address Call Implementation Time}
    {label : SharedState.Label Address Call Implementation} (distinct : Distinct before)
    (member : plugin ∈ before.plugins) (played : Played plugin.address plugin.order before shared)
    (owned : own plugin.address plugin.order label = true)
    (taken : SharedState.step shared label = some after) :
    Played plugin.address plugin.order before after := by
  have turned (turns : SharedState.turn label = true) :
      Played plugin.address plugin.order before after := by
    obtain ⟨sound, still⟩ := SharedState.turn_step played.sound turns taken
    refine ⟨sound, beside_trans played.beside ⟨?_, fun _ _ _ => still.calls .., ?_, ?_⟩, ?_, ?_⟩
    · rw [still.plugins]
    · rw [still.services]
    · rw [still.commands]
    · rw [still.plugins]
      exact played.views.views
    · rw [still.order]
      exact played.views.order
  cases label with
  | addPlugin address name logTag version => cases owned
  | removePlugin name => cases owned
  | registerHostCommand name => cases owned
  | dispatch event only => exact turned rfl
  | iterate => exact turned rfl
  | returnCall claims => exact turned rfl
  | endWalk => exact turned rfl
  | request owner request =>
      obtain rfl : owner = plugin.address := of_decide_eq_true owned
      simp only [SharedState.step] at taken
      split at taken
      · cases taken
      · next view found =>
          simp only [Option.ite_none_right_eq_some, Option.some.injEq] at taken
          obtain ⟨calls, rfl⟩ := taken
          have here := List.mem_of_find?_eq_some found
          have address : view.address = plugin.address := by simpa using List.find?_some found
          -- The view found now is the one that stood there at first.
          have known : identity view ∈ before.plugins.map identity := by
            rw [← played.views.views]
            exact List.mem_map_of_mem here
          obtain ⟨first, stood, same⟩ := List.mem_map.mp known
          obtain rfl := List.inj_on_of_nodup_map distinct.addresses stood member
            ((congrArg Prod.snd same).trans address)
          have order : view.order = first.order :=
            congrArg (fun pair : PluginContext × Address => pair.1.order) same.symm
          obtain ⟨sound, beside⟩ := SharedState.perform_serves played.sound here calls request
          rw [address, order] at beside
          have views := perform_views played.sound.distinct here request
          exact ⟨sound, beside_trans played.beside beside, views.views.trans played.views.views,
            views.order.trans played.views.order⟩

theorem play_spec [DecidableEq Call] (sound : Sound shared) (quiet : shared.running = [])
    (member : plugin ∈ shared.plugins)
    (labels : List (SharedState.Label Address Call Implementation)) :
    Played plugin.address plugin.order shared (play plugin.address plugin.order labels shared) ∧
      (play plugin.address plugin.order labels shared).running = [] := by
  have still := played_same sound plugin.address plugin.order
  have course : ∀ labels before, labels.all (own plugin.address plugin.order) = true →
      Played plugin.address plugin.order shared before → ∀ after,
        run SharedState.step before labels = some after →
          Played plugin.address plugin.order shared after := by
    intro labels
    induction labels with
    | nil =>
        intro before _ played after ran
        cases ran
        exact played
    | cons label rest ih =>
        intro before owned played after ran
        obtain ⟨first, others⟩ := (Bool.and_eq_true ..).mp (List.all_cons ▸ owned)
        obtain ⟨next, taken, tail⟩ := (run_cons_iff ..).mp ran
        exact ih next others (own_step sound.distinct member played first taken) after tail
  unfold play
  split
  · exact ⟨still, quiet⟩
  · next after ran =>
      split
      · next ended => exact ⟨course labels shared ended.1 still after ran, ended.2⟩
      · exact ⟨still, quiet⟩

end Playing

/-- The registries hold what they held. -/
structure Returned (before after : Shared Address Call Implementation Time) : Prop where
  plugins : after.plugins = before.plugins
  calls : ∀ order event, callsOf order (after.events event) = callsOf order (before.events event)
  services : after.services = before.services
  commands : after.commands = before.commands
  holds : ∀ id, holders id after = holders id before

section Opening
variable [DecidableEq Call] {shared after : Shared Address Call Implementation Time}

theorem returned_of_gone {plugin : Context Address} (sound : Sound shared) (later : Sound after)
    (address : plugin.address ∉ shared.plugins.map Context.address)
    (order : plugin.order ∉ shared.plugins.map fun view => view.order)
    (gone : Gone plugin after) (beside : Beside plugin.address plugin.order shared after) :
    Returned shared after := by
  have unowned : ∀ owner ∈ shared.plugins.map Context.address, owner ≠ plugin.address := by
    rintro owner member rfl
    exact address member
  have plugins : after.plugins = shared.plugins := by
    have before : (shared.plugins.filter fun held => held.address ≠ plugin.address) =
        shared.plugins := List.filter_eq_self.mpr fun held member =>
      decide_eq_true (unowned _ (List.mem_map_of_mem member))
    have kept : (after.plugins.filter fun held => held.address ≠ plugin.address) =
        after.plugins := List.filter_eq_self.mpr fun held member =>
      decide_eq_true (gone.view held member).1
    rw [← kept, beside.plugins, before]
  refine ⟨plugins, fun other event => ?_, ?_, ?_, fun id => ?_⟩
  · by_cases same : other = plugin.order
    · subst same
      rw [gone.calls event, sound.recorded.orphans _ order event]
    · exact beside.calls other same event
  · have before : (PublishedInterfaces.removeAll plugin.address shared.services).2 =
        shared.services := List.filter_eq_self.mpr fun service member =>
      decide_eq_true (unowned _ (sound.tables.publishers service member))
    have kept : (PublishedInterfaces.removeAll plugin.address after.services).2 =
        after.services := by
      refine List.filter_eq_self.mpr fun service member => decide_eq_true fun same => ?_
      have inside : service ∈ servicesOf plugin.address after.services :=
        List.mem_filter.mpr ⟨member, decide_eq_true same⟩
      rw [gone.services] at inside
      cases inside
    rw [← kept, beside.services, before]
  · have before : CommandNames.removeAll plugin.address shared.commands = shared.commands :=
      List.filter_eq_self.mpr fun entry member => decide_eq_true fun same =>
        unowned _ (sound.tables.registrants entry member _ same) rfl
    have kept : CommandNames.removeAll plugin.address after.commands = after.commands := by
      refine List.filter_eq_self.mpr fun entry member => decide_eq_true fun same => ?_
      have inside : entry ∈ namesOf plugin.address after.commands :=
        List.mem_filter.mpr ⟨member, decide_eq_true same⟩
      rw [gone.commands] at inside
      cases inside
    rw [← kept, beside.commands, before]
  · rw [later.holds.counts, sound.holds.counts, plugins]

omit [DecidableEq Call] in
theorem setMinLogLevel_map {Value : Type} (address : Address) (level : LogLevel)
    (value : Context Address → Value)
    (same : ∀ view : Context Address, value { view with minLevel := level } = value view) :
    (setMinLogLevel address level shared).plugins.map value = shared.plugins.map value := by
  rw [setMinLogLevel, List.map_map]
  apply List.map_congr_left
  intro view _
  rw [Function.comp_apply]
  split
  · exact same view
  · rfl

theorem setMinLogLevel_sound (sound : Sound shared) (address : Address) (level : LogLevel)
    (order : Nat) : Sound (setMinLogLevel address level shared) ∧
      Beside address order shared (setMinLogLevel address level shared) := by
  obtain ⟨distinct, recorded, tables, holds⟩ := sound
  have map {Value : Type} (value : Context Address → Value)
      (same : ∀ view : Context Address, value { view with minLevel := level } = value view) :=
    @setMinLogLevel_map _ _ _ _ _ shared Value address level value same
  have names := map (fun view => view.name) fun _ => rfl
  have addresses := map Context.address fun _ => rfl
  have orders := map (fun view => view.order) fun _ => rfl
  have counts (id : Nat) := map (fun view => view.addons.count id) fun _ => rfl
  have stood : ∀ held ∈ (setMinLogLevel address level shared).plugins,
      ∃ view ∈ shared.plugins, held.order = view.order ∧
        held.subscriptions = view.subscriptions := by
    intro held member
    obtain ⟨view, inside, rfl⟩ := List.mem_map.mp member
    refine ⟨view, inside, ?_⟩
    split
    · exact ⟨rfl, rfl⟩
    · exact ⟨rfl, rfl⟩
  refine ⟨⟨⟨names ▸ distinct.names, addresses ▸ distinct.addresses, orders ▸ distinct.orders,
      fun held member => ?_⟩, SharedState.recorded_same recorded rfl rfl rfl stood orders,
    SharedState.tables_same tables rfl rfl addresses, holds.queue, fun id => ?_⟩,
    ?_, fun _ _ _ => rfl, rfl, rfl⟩
  · obtain ⟨view, inside, same, _⟩ := stood held member
    rw [same]
    exact distinct.below view inside
  · apply (holds.counts id).trans
    rw [total, total, counts id]
  · simp only [setMinLogLevel]
    rw [List.filter_map]
    have apart : (fun held : Context Address => decide (held.address ≠ address)) ∘
        (fun view => if view.address = address then { view with minLevel := level } else view) =
        fun held => decide (held.address ≠ address) := by
      funext view
      rw [Function.comp_apply]
      split
      · rfl
      · rfl
    rw [apart]
    refine (List.map_congr_left fun view member => ?_).trans (List.map_id _)
    rw [if_neg (of_decide_eq_true (List.mem_filter.mp member).2)]
    rfl

/-- A new view, its level set, beside all that was there. -/
theorem opened_spec {address : Address} {name logTag version : String} {level : LogLevel}
    {added : Shared Address Call Implementation Time} (sound : Sound shared)
    (free : address ∉ shared.plugins.map Context.address)
    (opened : SharedState.addPlugin address name logTag version shared = some added) :
    Sound (setMinLogLevel address level added) ∧
      Beside address shared.nextOrder shared (setMinLogLevel address level added) ∧
      (setMinLogLevel address level added).running = shared.running ∧
      ((setMinLogLevel address level added).plugins.map fun view => view.name) =
        (shared.plugins.map fun view => view.name) ++ [name] ∧
      ∃ view ∈ (setMinLogLevel address level added).plugins, view.address = address ∧
        view.order = shared.nextOrder ∧ view.name = name := by
  have unused : ∀ plugin ∈ shared.plugins, plugin.address ≠ address := by
    rintro plugin member rfl
    exact free (List.mem_map_of_mem member)
  obtain ⟨next, _⟩ := SharedState.addPlugin_sound sound unused opened
  simp only [SharedState.addPlugin, Option.ite_none_left_eq_some, Option.some.injEq] at opened
  obtain ⟨_, same⟩ := opened
  obtain ⟨last, beside⟩ := setMinLogLevel_sound next address level shared.nextOrder
  have first : Beside address shared.nextOrder shared added := by
    subst same
    exact ⟨by simp, fun _ _ _ => rfl, rfl, rfl⟩
  subst same
  refine ⟨last, beside_trans first beside, rfl, ?_, ?_⟩
  · refine (setMinLogLevel_map address level (fun view => view.name) fun _ => rfl).trans ?_
    simp
  · refine ⟨⟨⟨name, if logTag = "" then name else logTag, version, level, shared.nextOrder⟩,
      address, [], []⟩,
      List.mem_map.mpr ⟨_, List.mem_append_right _ (List.mem_singleton_self _), ?_⟩, rfl, rfl, rfl⟩
    rw [if_pos rfl]

end Opening

theorem mem_erase_asset {mounted : Std.TreeSet String} {asset name : String} :
    asset ∈ mounted.erase name ↔ asset ≠ name ∧ asset ∈ mounted := by
  rw [Std.TreeSet.mem_erase, ne_eq, Std.compare_eq_iff_eq, ← ne_eq, ne_comm]

theorem mem_insert_asset {mounted : Std.TreeSet String} {asset name : String} :
    asset ∈ mounted.insert name ↔ asset = name ∨ asset ∈ mounted := by
  rw [Std.TreeSet.mem_insert, Std.compare_eq_iff_eq, eq_comm]

theorem mem_erase_refused {refused : Std.TreeMap String String} {other name : String} :
    other ∈ refused.erase name ↔ other ≠ name ∧ other ∈ refused := by
  rw [Std.TreeMap.mem_erase, ne_eq, Std.compare_eq_iff_eq, ← ne_eq, ne_comm]

theorem mem_insert_refused {refused : Std.TreeMap String String} {other name reason : String} :
    other ∈ refused.insert name reason ↔ other = name ∨ other ∈ refused := by
  rw [Std.TreeMap.mem_insert, Std.compare_eq_iff_eq, eq_comm]

def loadedNames (tables : Tables Address Call Implementation Time) : List String :=
  tables.loaded.map fun plugin => plugin.name

/-- The loader's lists in step with the registries. -/
structure Tidy [DecidableEq Call] (tables : Tables Address Call Implementation Time) : Prop where
  sound : Sound tables.shared
  names : (tables.shared.plugins.map fun view => view.name) = loadedNames tables
  refused : ∀ name ∈ loadedNames tables, name ∉ tables.refused
  mounted : ∀ asset ∈ tables.mounted, asset ∈ loadedNames tables

/-- The same outside every dispatch, as between actions. -/
structure Settled [DecidableEq Call] (tables : Tables Address Call Implementation Time) : Prop
    extends Tidy tables where
  quiet : tables.shared.running = []

/-- What a failed load leaves as it was. -/
structure Restored (before after : Tables Address Call Implementation Time) : Prop where
  loaded : after.loaded = before.loaded
  registries : Returned before.shared after.shared
  mounted : ∀ asset, asset ∈ after.mounted ↔ asset ∈ before.mounted

section Removing
variable [DecidableEq Call] {shared : Shared Address Call Implementation Time}
  {plugin : Context Address}

omit [DecidableEq Address] [DecidableEq Call] in
theorem find_view (distinct : Distinct shared) (member : plugin ∈ shared.plugins) :
    SharedState.findPlugin plugin.name shared = some plugin := by
  cases found : SharedState.findPlugin plugin.name shared with
  | none => exact absurd (decide_eq_true rfl) (List.find?_eq_none.mp found plugin member)
  | some other =>
      have named : other.name = plugin.name := by simpa using List.find?_some found
      rw [List.inj_on_of_nodup_map distinct.names (List.mem_of_find?_eq_some found) member named]

/-- A view goes outside every dispatch. -/
theorem removal_spec (sound : Sound shared) (quiet : shared.running = [])
    (member : plugin ∈ shared.plugins) :
    Sound (SharedState.removePlugin plugin.name shared).2 ∧
      (SharedState.removePlugin plugin.name shared).2.running = [] ∧
      Gone plugin (SharedState.removePlugin plugin.name shared).2 ∧
      Beside plugin.address plugin.order shared
        (SharedState.removePlugin plugin.name shared).2 ∧
      ((SharedState.removePlugin plugin.name shared).2.plugins.map fun view => view.name) =
        (shared.plugins.map fun view => view.name).erase plugin.name := by
  have found := find_view sound.distinct member
  have calls : SharedState.calling shared = true := by rw [SharedState.calling, quiet]
  obtain ⟨later, gone, beside⟩ := SharedState.removePlugin_spec sound calls found
  obtain ⟨before, after, downloads, split, result, _⟩ := SharedState.removePlugin_eq sound found
  have distinct := sound.distinct.names
  rw [split] at distinct
  have absent : plugin.name ∉ before.map fun view => view.name := by
    intro known
    obtain ⟨other, inside, same⟩ := List.mem_map.mp known
    exact SharedState.key_apart (fun view => view.name) distinct other
      (List.mem_append_left after inside) same
  refine ⟨later, ?_, gone, beside, ?_⟩
  · rw [result]
    exact quiet
  · rw [result, split, List.map_append, List.map_append, List.map_cons,
      List.erase_append_right _ absent, List.erase_cons_head]

end Removing

section Attempts
variable [DecidableEq Call] {tables : Tables Address Call Implementation Time}

omit [DecidableEq Address] [DecidableEq Call] in
theorem played_views {address : Address} {order : Nat}
    {before after : Shared Address Call Implementation Time} {name : String}
    (views : Views before after) (stands : ∃ view ∈ before.plugins, view.address = address ∧
      view.order = order ∧ view.name = name) :
    ∃ view ∈ after.plugins, view.address = address ∧ view.order = order ∧ view.name = name := by
  obtain ⟨view, member, rfl, rfl, rfl⟩ := stands
  have known : identity view ∈ after.plugins.map identity := by
    rw [views.views]
    exact List.mem_map_of_mem member
  obtain ⟨later, inside, same⟩ := List.mem_map.mp known
  exact ⟨later, inside, congrArg Prod.snd same,
    congrArg (fun pair : PluginContext × Address => pair.1.order) same,
    congrArg (fun pair : PluginContext × Address => pair.1.name) same⟩

/-- The registries while a plugin's Load has returned. -/
theorem loading_spec (manifest : PluginManifest) (settled : Settled tables) {address : Address}
    (free : address ∉ tables.shared.plugins.map Context.address)
    {added : Shared Address Call Implementation Time}
    (opened : SharedState.addPlugin address manifest.name manifest.logTag manifest.version
      tables.shared = some added)
    (labels : List (SharedState.Label Address Call Implementation)) :
    Sound (play address tables.shared.nextOrder labels
        (setMinLogLevel address manifest.logLevel added)) ∧
      (play address tables.shared.nextOrder labels
        (setMinLogLevel address manifest.logLevel added)).running = [] ∧
      Beside address tables.shared.nextOrder tables.shared
        (play address tables.shared.nextOrder labels
          (setMinLogLevel address manifest.logLevel added)) ∧
      ((play address tables.shared.nextOrder labels
        (setMinLogLevel address manifest.logLevel added)).plugins.map fun view => view.name) =
          loadedNames tables ++ [manifest.name] ∧
      ∃ view ∈ (play address tables.shared.nextOrder labels
          (setMinLogLevel address manifest.logLevel added)).plugins,
        view.address = address ∧ view.order = tables.shared.nextOrder ∧
          view.name = manifest.name := by
  obtain ⟨sound, beside, running, names, view, member, here, order, named⟩ :=
    @opened_spec _ _ _ _ _ _ _ _ _ _ _ manifest.logLevel _ settled.sound free opened
  obtain ⟨played, quiet⟩ := play_spec sound (running.trans settled.quiet) member labels
  rw [here, order] at played quiet
  refine ⟨played.sound, quiet, beside_trans beside played.beside, ?_,
    played_views played.views ⟨view, member, here, order, named⟩⟩
  rw [views_names played.views.views, names, settled.names]

/-- The refusing plugin's view is taken back, with whatever its Load took. -/
theorem withdrawn_spec {name : String} {address : Address}
    {loading : Shared Address Call Implementation Time} (settled : Settled tables)
    (fresh : name ∉ loadedNames tables)
    (free : address ∉ tables.shared.plugins.map Context.address) (sound : Sound loading)
    (quiet : loading.running = [])
    (beside : Beside address tables.shared.nextOrder tables.shared loading)
    (names : (loading.plugins.map fun view => view.name) = loadedNames tables ++ [name])
    (stands : ∃ view ∈ loading.plugins, view.address = address ∧
      view.order = tables.shared.nextOrder ∧ view.name = name) :
    Sound (SharedState.removePlugin name loading).2 ∧
      (SharedState.removePlugin name loading).2.running = [] ∧
      ((SharedState.removePlugin name loading).2.plugins.map fun view => view.name) =
        loadedNames tables ∧
      Returned tables.shared (SharedState.removePlugin name loading).2 := by
  obtain ⟨view, member, rfl, order, rfl⟩ := stands
  obtain ⟨later, ended, gone, apart, erased⟩ := removal_spec sound quiet member
  rw [order] at apart
  refine ⟨later, ended, ?_, ?_⟩
  · rw [erased, names, List.erase_append_right _ fresh, List.erase_cons_head, List.append_nil]
  · refine returned_of_gone settled.sound later free ?_ gone ?_
    · rw [order]
      intro known
      obtain ⟨other, inside, same⟩ := List.mem_map.mp known
      exact absurd (settled.sound.distinct.below other inside)
        (Nat.not_lt.mpr (Nat.le_of_eq same.symm))
    · rw [order]
      exact beside_trans beside apart

omit [DecidableEq Address] [DecidableEq Call] in
theorem restored_same : Restored tables tables :=
  ⟨rfl, ⟨rfl, fun _ _ => rfl, rfl, rfl, fun _ => rfl⟩, fun _ => Iff.rfl⟩

/-- Either the plugin is at the end of both lists, or all is as it was. -/
theorem loadOne_spec (world : Surroundings Address Call Implementation)
    (manifest : PluginManifest) (settled : Settled tables)
    (fresh : manifest.name ∉ loadedNames tables) :
    Settled (loadOne world manifest tables).1 ∧
      ((loadOne world manifest tables).2 = .ok () ∧
          loadedNames (loadOne world manifest tables).1 = loadedNames tables ++ [manifest.name] ∨
        (∃ failed, (loadOne world manifest tables).2 = .error failed) ∧
          Restored tables (loadOne world manifest tables).1 ∧
          (loadOne world manifest tables).1.refused = tables.refused) := by
  unfold loadOne
  dsimp only
  have free := world.free (tables.shared.plugins.map Context.address)
  generalize world.place (tables.shared.plugins.map Context.address) = address at free ⊢
  split
  · exact ⟨settled, Or.inr ⟨⟨_, rfl⟩, restored_same, rfl⟩⟩
  split
  · exact ⟨settled, Or.inr ⟨⟨_, rfl⟩, restored_same, rfl⟩⟩
  split
  · exact ⟨settled, Or.inr ⟨⟨_, rfl⟩, restored_same, rfl⟩⟩
  next added opened =>
    obtain ⟨sound, quiet, beside, names, stands⟩ :=
      loading_spec manifest settled free opened ((world.loads manifest.name).map (.request address))
    generalize play address tables.shared.nextOrder
      ((world.loads manifest.name).map (.request address))
      (setMinLogLevel address manifest.logLevel added) = loading at sound quiet beside names stands ⊢
    split
    · obtain ⟨later, ended, kept, returned⟩ :=
        withdrawn_spec settled fresh free sound quiet beside names stands
      -- Mounting and unmounting cancel out, as nothing was mounted for a name not loaded.
      have mounted : ∀ asset, asset ∈ (if world.serverAssets manifest.name = true then
          tables.mounted.insert manifest.name else tables.mounted).erase manifest.name ↔
            asset ∈ tables.mounted := by
        intro asset
        rw [mem_erase_asset]
        have unmounted : manifest.name ∉ tables.mounted := fun known =>
          fresh (settled.mounted _ known)
        constructor
        · rintro ⟨other, known⟩
          split at known
          · exact (mem_insert_asset.mp known).resolve_left other
          · exact known
        · intro known
          refine ⟨fun same => unmounted (same ▸ known), ?_⟩
          split
          · exact mem_insert_asset.mpr (Or.inr known)
          · exact known
      exact ⟨⟨⟨later, kept, settled.refused, fun asset known =>
        settled.mounted asset ((mounted asset).mp known)⟩, ended⟩,
        Or.inr ⟨⟨_, rfl⟩, ⟨rfl, returned, mounted⟩, rfl⟩⟩
    -- It loaded: what is left is to replay the players who are there already.
    · obtain ⟨view, member, rfl, order, _⟩ := stands
      obtain ⟨played, ended⟩ := play_spec sound quiet member (world.replays manifest.name)
      rw [order] at played ended
      have grown (shared : Shared Address Call Implementation Time) (mounted : Std.TreeSet String)
          (refused : Std.TreeMap String String) :
          loadedNames ⟨shared, mounted, tables.loaded ++ [manifest], refused⟩ =
            loadedNames tables ++ [manifest.name] := by simp [loadedNames]
      refine ⟨⟨⟨played.sound, ?_, fun name known => ?_, fun asset known => ?_⟩, ended⟩,
        Or.inl ⟨rfl, grown _ _ _⟩⟩
      · exact (views_names played.views.views).trans (names.trans (grown _ _ _).symm)
      · intro refusal
        obtain ⟨other, old⟩ := mem_erase_refused.mp refusal
        rcases List.mem_append.mp (grown _ _ _ ▸ known) with loaded | new
        · exact settled.refused name loaded old
        · exact other (List.mem_singleton.mp new)
      · rw [grown, List.mem_append, List.mem_singleton]
        dsimp only at known
        split at known
        · rcases mem_insert_asset.mp known with new | old
          · exact Or.inr new
          · exact Or.inl (settled.mounted asset old)
        · exact Or.inl (settled.mounted asset known)

omit [DecidableEq Address] in
theorem refuse_settled (settled : Settled tables) {name : String} (reason : String)
    (absent : name ∉ loadedNames tables) :
    Settled { tables with refused := tables.refused.insert name reason } := by
  refine ⟨⟨settled.sound, settled.names, fun other known => ?_, settled.mounted⟩, settled.quiet⟩
  rw [mem_insert_refused]
  rintro (rfl | refusal)
  · exact absent known
  · exact settled.refused other known refusal

end Attempts

section Actions
variable [DecidableEq Call] {host : Host Address Call Implementation Time}

/-- Every failed load so far left all as it was. -/
def Undone (host : Host Address Call Implementation Time) : Prop :=
  ∀ before after failed, (before, after, .error failed) ∈ host.attempts → Restored before after

/-- What an action finds and leaves. -/
structure Good (started : Bool) (host : Host Address Call Implementation Time) : Prop where
  settled : Settled host.toTables
  undone : Undone host
  started : host.started = started

omit [DecidableEq Address] in
theorem refuse_good {started : Bool} (good : Good started host) {name : String} (reason : String)
    (absent : name ∉ loadedNames host.toTables) : Good started (refuse name reason host) :=
  ⟨refuse_settled good.settled reason absent, good.undone, good.started⟩

omit [DecidableEq Address] in
theorem refuseWanted_good {started : Bool} {wanted : String → Bool}
    (refusals : List RefusedPlugin) (good : Good started host)
    (absent : ∀ name ∈ loadedNames host.toTables, wanted name = false) :
    Good started (refuseWanted wanted refusals host) ∧
      loadedNames (refuseWanted wanted refusals host).toTables = loadedNames host.toTables := by
  induction refusals generalizing host with
  | nil => exact ⟨good, rfl⟩
  | cons refused rest ih =>
      rw [refuseWanted]
      split
      · next yes =>
          exact ih (refuse_good good _ fun known => by simp [absent _ known] at yes) absent
      · exact ih good absent

theorem loadOrRefuse_good {started : Bool} (world : Surroundings Address Call Implementation)
    {manifest : PluginManifest} (good : Good started host)
    (fresh : manifest.name ∉ loadedNames host.toTables) :
    Good started (loadOrRefuse world manifest host) := by
  obtain ⟨settled, outcome⟩ := loadOne_spec world manifest good.settled fresh
  rw [loadOrRefuse]
  generalize loadOne world manifest host.toTables = tried at settled outcome ⊢
  obtain ⟨after, loaded⟩ := tried
  dsimp only at settled outcome ⊢
  rcases outcome with ⟨rfl, _⟩ | ⟨⟨failed, rfl⟩, restored, _⟩
  · refine ⟨settled, fun before left failed entry => ?_, good.started⟩
    rcases List.mem_append.mp entry with old | new
    · exact good.undone before left failed old
    · simp at new
  · have tried : Good started { host with
        toTables := after
        attempts := host.attempts ++ [(host.toTables, after, .error failed)] } := by
      refine ⟨settled, fun before left other entry => ?_, good.started⟩
      rcases List.mem_append.mp entry with old | new
      · exact good.undone before left other old
      · simp only [List.mem_singleton, Prod.mk.injEq] at new
        obtain ⟨rfl, rfl, _⟩ := new
        exact restored
    apply refuse_good tried _
    rw [loadedNames, restored.loaded]
    exact fresh

omit [DecidableEq Address] [DecidableEq Call] in
theorem findLoaded_iff (host : Host Address Call Implementation Time) (name : String) :
    (findLoaded (loader host) name).isSome = true ↔ name ∈ loadedNames host.toTables :=
  PluginLoader.find_loaded_iff (loader host) name

theorem loadPlanned_good {started : Bool} (world : Surroundings Address Call Implementation)
    (wanted : String → Bool) (plan : List String) (good : Good started host) :
    Good started (loadPlanned world wanted plan host) := by
  induction plan generalizing host with
  | nil => exact good
  | cons name rest ih =>
      rw [loadPlanned]
      apply ih
      split
      · exact good
      · next taken =>
          split
          · next manifest found =>
              refine loadOrRefuse_good world good fun known => taken ?_
              rw [PluginLoader.installed_as_name _ _ _ found] at known
              rw [(findLoaded_iff host name).mpr known, Bool.or_true]
          · exact good

theorem loadGroup_good {started : Bool} (world : Surroundings Address Call Implementation)
    {wanted : String → Bool} (good : Good started host)
    (absent : ∀ name ∈ loadedNames host.toTables, wanted name = false) :
    Good started (loadGroup world wanted host) := by
  obtain ⟨first, same⟩ := refuseWanted_good world.installed.refused good absent
  obtain ⟨second, _⟩ := refuseWanted_good (resolve world.installed.plugins).refused first
    (same ▸ absent)
  exact loadPlanned_good world wanted _ second

theorem unloadOne_spec {started : Bool} (world : Surroundings Address Call Implementation)
    (name : String) (good : Good started host) :
    Good started (unloadOne world name host) ∧
      (unloadOne world name host).loaded =
        host.loaded.filter fun plugin => plugin.name != name := by
  obtain ⟨⟨⟨sound, names, refused, mounted⟩, quiet⟩, undone, started⟩ := good
  have distinct : (loadedNames host.toTables).Nodup := names ▸ sound.distinct.names
  -- A name that is not loaded changes nothing; a loaded plugin sees its players off first.
  cases found : findLoaded (loader host) name with
  | none =>
      have absent : ∀ plugin ∈ host.loaded, (plugin.name != name) = true := by
        intro plugin member
        have missed := List.find?_eq_none.mp found plugin member
        simpa using missed
      rw [unloadOne, found]
      exact ⟨⟨⟨⟨sound, names, refused, mounted⟩, quiet⟩, undone, started⟩,
        (List.filter_eq_self.mpr absent).symm⟩
  | some plugin =>
      have known : name ∈ loadedNames host.toTables :=
        (findLoaded_iff host name).mp (found ▸ rfl)
      obtain ⟨view, member, rfl⟩ := List.mem_map.mp (names ▸ known)
      have viewed := find_view sound.distinct member
      obtain ⟨played, quiet⟩ := play_spec sound quiet member (world.departs view.name)
      obtain ⟨later, inside, _, _, named⟩ :=
        played_views played.views ⟨view, member, rfl, rfl, rfl⟩
      obtain ⟨next, ended, _, _, erased⟩ := removal_spec played.sound quiet inside
      rw [named] at next ended erased
      have left : loadedNames (unloadOne world view.name host).toTables =
          (loadedNames host.toTables).erase view.name := by
        rw [unloadOne, found]
        exact PluginLoader.map_erase_key (fun plugin : PluginManifest => plugin.name) _ _
      have remains : ∀ {other}, other ∈ loadedNames (unloadOne world view.name host).toTables →
          other ≠ view.name ∧ other ∈ loadedNames host.toTables := by
        intro other there
        rw [left] at there
        exact distinct.mem_erase_iff.mp there
      refine ⟨⟨⟨⟨?_, ?_, fun other there => ?_, fun asset there => ?_⟩, ?_⟩, ?_, ?_⟩, ?_⟩
      · rw [unloadOne, found]
        dsimp only
        rw [viewed]
        exact next
      · rw [left, ← names, ← views_names played.views.views, ← erased, unloadOne, found]
        dsimp only
        rw [viewed]
      · rw [unloadOne, found]
        exact refused other (remains there).2
      · rw [unloadOne, found] at there
        obtain ⟨other, old⟩ := mem_erase_asset.mp there
        rw [left]
        exact distinct.mem_erase_iff.mpr ⟨other, mounted asset old⟩
      · rw [unloadOne, found]
        dsimp only
        rw [viewed]
        exact ended
      · rw [unloadOne, found]
        exact undone
      · rw [unloadOne, found]
        exact started
      · rw [unloadOne, found]
        exact PluginLoader.erase_loaded_filter host.loaded view.name distinct

theorem unloadEach_spec {started : Bool} (world : Surroundings Address Call Implementation)
    (names : List String) (good : Good started host) :
    Good started (unloadEach world names host) ∧
      (unloadEach world names host).loaded =
        host.loaded.filter fun plugin => plugin.name ∉ names := by
  induction names generalizing host with
  | nil => exact ⟨good, by simp [unloadEach]⟩
  | cons name rest ih =>
      obtain ⟨next, left⟩ := unloadOne_spec world name good
      obtain ⟨last, remaining⟩ := ih next
      refine ⟨last, ?_⟩
      rw [unloadEach, remaining, left, List.filter_filter]
      apply List.filter_congr
      intro plugin _
      by_cases same : plugin.name = name
      · simp [same]
      · simp [same]

theorem unloadLast_good {started : Bool} (world : Surroundings Address Call Implementation)
    (turns : Nat) (good : Good started host) : Good started (unloadLast world turns host) := by
  induction turns generalizing host with
  | zero => exact good
  | succ turns ih =>
      rw [unloadLast]
      split
      · exact good
      · exact ih (unloadOne_spec world _ good).1

theorem runLoad_good {started : Bool} (world : Surroundings Address Call Implementation)
    (name : String) (good : Good started host) : Good started (runLoad world name host) := by
  unfold runLoad
  split
  · exact good
  next idle =>
    have absent : name ∉ loadedNames host.toTables := fun known =>
      idle ((findLoaded_iff host name).mpr known)
    split
    · exact refuse_good good _ absent
    split
    · exact good
    next found installed =>
      split
      · exact refuse_good good _ absent
      · apply loadOrRefuse_good world good
        rw [PluginLoader.installed_as_name _ _ _ installed]
        exact absent

theorem runUnload_good {started : Bool} (world : Surroundings Address Call Implementation)
    (name : String) (good : Good started host) : Good started (runUnload world name host) := by
  unfold runUnload
  split
  · exact good
  split
  · exact (unloadOne_spec world name good).1
  · exact good

/-- The group that a reload loads again is down by then. -/
theorem unloadGroup_good {started : Bool} (world : Surroundings Address Call Implementation)
    (name : String) (good : Good started host) :
    Good started (unloadEach world (going (reloadGroup name (loader host)) (loader host)) host) ∧
      ∀ other ∈ loadedNames
          (unloadEach world (going (reloadGroup name (loader host)) (loader host)) host).toTables,
        (reloadGroup name (loader host)).contains other = false := by
  obtain ⟨unloaded, left⟩ :=
    unloadEach_spec world (going (reloadGroup name (loader host)) (loader host)) good
  refine ⟨unloaded, fun other known => ?_⟩
  -- A member of the group that was loaded is among those going.
  rw [loadedNames, left] at known
  obtain ⟨plugin, stays, rfl⟩ := List.mem_map.mp known
  obtain ⟨member, apart⟩ := List.mem_filter.mp stays
  rw [← Bool.not_eq_true, List.contains_iff_mem]
  intro inside
  refine of_decide_eq_true apart (List.mem_map.mpr ⟨plugin, List.mem_filter.mpr ⟨?_, ?_⟩, rfl⟩)
  · exact List.mem_reverse.mpr member
  · exact List.contains_iff_mem.mpr inside

theorem runReload_good {started : Bool} (world : Surroundings Address Call Implementation)
    (name : String) (good : Good started host) : Good started (runReload world name host) := by
  unfold runReload
  split
  · exact good
  · obtain ⟨unloaded, absent⟩ := unloadGroup_good world name good
    exact loadGroup_good world unloaded absent

theorem runAction_good {started : Bool} (world : Surroundings Address Call Implementation)
    (action : PluginLoader.PendingAction) (good : Good started host) :
    Good started (runAction world action host) := by
  unfold runAction
  split
  · exact runLoad_good world action.name good
  · exact runUnload_good world action.name good
  · exact runReload_good world action.name good

end Actions

section Runs
variable [DecidableEq Call] {host after : Host Address Call Implementation Time}

/-- Before LoadAll nothing is loaded and no action runs. -/
structure Kept (host : Host Address Call Implementation Time) : Prop where
  tidy : Tidy host.toTables
  undone : Undone host
  booting : host.started = false → host.loaded = [] ∧ host.running = []

omit [DecidableEq Address] in
theorem kept_of_good (good : Good true host) : Kept host :=
  ⟨good.settled.toTidy, good.undone, fun before => by rw [good.started] at before; cases before⟩

omit [DecidableEq Address] in
theorem start_kept (addons : Bool) :
    Kept (start addons : Host Address Call Implementation Time) :=
  ⟨⟨SharedState.start_sound addons, rfl, nofun,
    fun _ member => absurd member Std.TreeSet.not_mem_emptyc⟩,
    fun _ _ _ entry => absurd entry List.not_mem_nil, fun _ => ⟨rfl, rfl⟩⟩

/-- The views stand through all that comes without the loader. -/
theorem registry_views {label : SharedState.Label Address Call Implementation}
    {before shared : Shared Address Call Implementation Time} (sound : Sound before)
    (outside : unhosted label = true) (taken : SharedState.step before label = some shared) :
    Views before shared := by
  have still (turns : SharedState.turn label = true) : Views before shared := by
    obtain ⟨_, same⟩ := SharedState.turn_step sound turns taken
    exact ⟨congrArg (List.map identity) same.plugins, same.order⟩
  cases label with
  | addPlugin address name logTag version => cases outside
  | removePlugin name => cases outside
  | request owner request =>
      simp only [SharedState.step] at taken
      split at taken
      · cases taken
      · next view found =>
          simp only [Option.ite_none_right_eq_some, Option.some.injEq] at taken
          obtain ⟨_, rfl⟩ := taken
          exact perform_views sound.distinct (List.mem_of_find?_eq_some found) request
  | registerHostCommand name =>
      simp only [SharedState.step, Option.ite_none_right_eq_some, Option.some.injEq] at taken
      obtain ⟨_, rfl⟩ := taken
      exact ⟨rfl, rfl⟩
  | dispatch event only => exact still rfl
  | iterate => exact still rfl
  | returnCall claims => exact still rfl
  | endWalk => exact still rfl

theorem registry_kept {label : SharedState.Label Address Call Implementation}
    {shared : Shared Address Call Implementation Time} (kept : Kept host)
    (outside : unhosted label = true) (taken : SharedState.step host.shared label = some shared) :
    Kept { host with shared } := by
  obtain ⟨⟨sound, names, refused, mounted⟩, undone, booting⟩ := kept
  obtain ⟨next, _⟩ := SharedState.step_sound sound taken
  have same := views_names (registry_views sound outside taken).views
  exact ⟨⟨next, same.trans names, refused, mounted⟩, undone, booting⟩

omit [DecidableEq Address] in
theorem booting_absent (kept : Kept host) (fresh : host.started = false) :
    ∀ name ∈ loadedNames host.toTables, (fun _ : String => true) name = false := by
  rw [loadedNames, (kept.booting fresh).1]
  exact fun _ member => by cases member

theorem step_kept {event : Event Address Call Implementation} (kept : Kept host)
    (taken : step host event = some after) : Kept after := by
  cases event with
  | loadAll world =>
      simp only [step, Option.ite_none_left_eq_some, Option.some.injEq] at taken
      obtain ⟨idle, rfl⟩ := taken
      obtain ⟨fresh, quiet⟩ : host.started = false ∧ host.shared.running = [] := by simpa using idle
      have good : Good host.started host := ⟨⟨kept.tidy, quiet⟩, kept.undone, rfl⟩
      obtain ⟨settled, undone, _⟩ := loadGroup_good world good (booting_absent kept fresh)
      exact ⟨settled.toTidy, undone, fun before => by cases before⟩
  | unloadAll world =>
      simp only [step, Option.ite_none_right_eq_some, Option.some.injEq] at taken
      obtain ⟨quiet, rfl⟩ := taken
      cases booted : host.started with
      | true =>
          exact kept_of_good (unloadLast_good world _ ⟨⟨kept.tidy, quiet⟩, kept.undone, booted⟩)
      | false =>
          -- Nothing is loaded yet, so there is no turn to take.
          obtain ⟨empty, idle⟩ := kept.booting booted
          rw [unloadAll, empty]
          exact ⟨kept.tidy, kept.undone, fun _ => ⟨empty, idle⟩⟩
  | defer action =>
      cases taken
      exact ⟨kept.tidy, kept.undone, kept.booting⟩
  | runPending =>
      simp only [step, Option.ite_none_right_eq_some, Option.some.injEq] at taken
      obtain ⟨idle, rfl⟩ := taken
      obtain ⟨booted, _⟩ := (Bool.and_eq_true ..).mp idle
      exact ⟨kept.tidy, kept.undone, fun before => absurd (booted.symm.trans before) nofun⟩
  | act world =>
      simp only [step] at taken
      split at taken
      · cases taken
      · next action rest running =>
          simp only [Option.ite_none_right_eq_some, Option.some.injEq] at taken
          obtain ⟨quiet, rfl⟩ := taken
          have booted : host.started = true := by
            by_contra before
            have none := (kept.booting (Bool.not_eq_true _ ▸ before)).2
            rw [none] at running
            cases running
          exact kept_of_good (runAction_good world action
            ⟨⟨kept.tidy, quiet⟩, kept.undone, booted⟩)
  | registry label =>
      simp only [step, Option.ite_none_right_eq_some] at taken
      obtain ⟨outside, taken⟩ := taken
      obtain ⟨shared, stepped, rfl⟩ := Option.map_eq_some_iff.mp taken
      exact registry_kept kept outside stepped

/-- The loaded plugins are the views', none of them is refused, and no failed load has left
anything behind. -/
structure InStep (host : Host Address Call Implementation Time) : Prop where
  distinct : (loadedNames host.toTables).Nodup
  allowed : ∀ name ∈ loadedNames host.toTables, name ∉ host.refused
  views : (host.shared.plugins.map fun view => view.name) = loadedNames host.toTables
  failed : ∀ before left failed, (before, left, .error failed) ∈ host.attempts →
    Restored before left

end Runs

/-- Loading is all or nothing, and the lists stay in step throughout every run. -/
theorem loads_all_or_nothing (addons : Bool) (events : List (Event Address Call Implementation)) :
    Always step InStep (start addons : Host Address Call Implementation Time) events := by
  classical
  exact always_of_preserves (fun _ _ _ kept taken => step_kept kept taken)
    (fun _ kept => ⟨kept.tidy.names ▸ kept.tidy.sound.distinct.names, kept.tidy.refused,
      kept.tidy.names, kept.undone⟩) (start_kept addons) events

end VoltMod.PluginHost
