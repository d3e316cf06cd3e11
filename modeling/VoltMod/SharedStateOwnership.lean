import VoltMod.SharedState

/-! Who owns what in the host's registries, and what one plugin's call leaves of the rest. -/
namespace VoltMod.SharedState
open CallbackList (Callbacks Subscription Tracked callsOf)
open CommandNames (namesOf)
open PublishedInterfaces (Service servicesOf)
open Transition

variable {Address Call Implementation Time : Type}

/-- One view for each name, address and load position. -/
structure Distinct (shared : Shared Address Call Implementation Time) : Prop where
  names : (shared.plugins.map fun plugin => plugin.name).Nodup
  addresses : (shared.plugins.map Context.address).Nodup
  orders : (shared.plugins.map fun plugin => plugin.order).Nodup
  below : ∀ plugin ∈ shared.plugins, plugin.order < shared.nextOrder

/-- Every view's record names its subscriptions, and nothing else is subscribed. -/
structure Recorded [DecidableEq Call] (shared : Shared Address Call Implementation Time) :
    Prop where
  tracked : ∀ event, Tracked (shared.events event)
  calls : ∀ event, shared.running.head? ≠ some event →
    CallbackList.calling (shared.events event) = true
  issued : ∀ event, ∀ token ∈ (shared.events event).issued, token < shared.nextToken
  recorded : ∀ plugin ∈ shared.plugins, ∀ event,
    (callsOf plugin.order (shared.events event)).map Subscription.token =
      (plugin.subscriptions.filter fun held => held.event = event).map Subscribed.token
  orphans : ∀ order, order ∉ shared.plugins.map (fun plugin => plugin.order) →
    ∀ event, callsOf order (shared.events event) = []

/-- Each name is there once, and owned by a live view or the host. -/
structure Tables (shared : Shared Address Call Implementation Time) : Prop where
  services : PublishedInterfaces.Unique shared.services
  publishers : ∀ service ∈ shared.services, service.owner ∈ shared.plugins.map Context.address
  commands : CommandNames.Unique shared.commands
  registrants : ∀ entry ∈ shared.commands, ∀ owner, entry.owner = some owner →
    owner ∈ shared.plugins.map Context.address

def holders (id : Nat) (shared : Shared Address Call Implementation Time) : Nat :=
  (shared.downloads.map fun downloads => DownloadQueue.holders id downloads.queue).getD 0

def total (id : Nat) (plugins : List (Context Address)) : Nat :=
  (plugins.map fun plugin => plugin.addons.count id).sum

/-- An addon is held with the host as often as the views hold it. -/
structure Holds (shared : Shared Address Call Implementation Time) : Prop where
  queue : ∀ downloads ∈ shared.downloads, DownloadQueue.Held downloads.queue
  counts : ∀ id, holders id shared = total id shared.plugins

structure Sound [DecidableEq Call] (shared : Shared Address Call Implementation Time) : Prop where
  distinct : Distinct shared
  recorded : Recorded shared
  tables : Tables shared
  holds : Holds shared

/-- All that a plugin took is there as it was. -/
structure Keeps [DecidableEq Address] (plugin : Context Address)
    (before after : Shared Address Call Implementation Time) : Prop where
  view : plugin ∈ after.plugins
  calls : ∀ event, callsOf plugin.order (after.events event) =
    callsOf plugin.order (before.events event)
  services : servicesOf plugin.address after.services = servicesOf plugin.address before.services
  commands : namesOf plugin.address after.commands = namesOf plugin.address before.commands

theorem calls_everywhere [DecidableEq Call] {shared : Shared Address Call Implementation Time}
    (recorded : Recorded shared) (calls : calling shared = true) (event : Event) :
    CallbackList.calling (shared.events event) = true := by
  cases running : shared.running with
  | nil => exact recorded.calls event (by simp [running])
  | cons inner outer =>
      by_cases same : inner = event
      · subst same
        simpa [calling, running] using calls
      · exact recorded.calls event (by simp [running, same])

theorem orders_apart {shared : Shared Address Call Implementation Time}
    (distinct : Distinct shared) {plugin other : Context Address} (here : plugin ∈ shared.plugins)
    (there : other ∈ shared.plugins) (apart : other.address ≠ plugin.address) :
    other.order ≠ plugin.order := by
  intro same
  exact apart (congrArg Context.address (List.inj_on_of_nodup_map distinct.orders there here same))

/-- One view has changed what it records, and none has come or gone. -/
structure Changed (plugin next : Context Address) (before after : List (Context Address)) :
    Prop where
  members : ∀ held ∈ after, held = next ∨ held ∈ before ∧ held.address ≠ plugin.address
  names : (after.map fun held => held.name) = before.map fun held => held.name
  addresses : after.map Context.address = before.map Context.address
  orders : (after.map fun held => held.order) = before.map fun held => held.order
  total : ∀ id, total id after + plugin.addons.count id = total id before + next.addons.count id
  rest [DecidableEq Address] : (after.filter fun held => held.address ≠ plugin.address) =
    before.filter fun held => held.address ≠ plugin.address

theorem distinct_changed {before after : Shared Address Call Implementation Time}
    {plugin next : Context Address} (distinct : Distinct before) (member : plugin ∈ before.plugins)
    (changed : Changed plugin next before.plugins after.plugins)
    (same : next.toPluginContext = plugin.toPluginContext)
    (order : after.nextOrder = before.nextOrder) : Distinct after := by
  refine ⟨changed.names ▸ distinct.names, changed.addresses ▸ distinct.addresses,
    changed.orders ▸ distinct.orders, fun held inside => ?_⟩
  rw [order]
  rcases changed.members held inside with rfl | ⟨old, _⟩
  · rw [same]
    exact distinct.below plugin member
  · exact distinct.below held old

theorem tables_same {before after : Shared Address Call Implementation Time}
    (tables : Tables before) (services : after.services = before.services)
    (commands : after.commands = before.commands)
    (addresses : after.plugins.map Context.address = before.plugins.map Context.address) :
    Tables after := by
  refine ⟨?_, ?_, ?_, ?_⟩
  · rw [services]
    exact tables.services
  · rw [services, addresses]
    exact tables.publishers
  · rw [commands]
    exact tables.commands
  · rw [commands, addresses]
    exact tables.registrants

theorem recorded_same [DecidableEq Call] {before after : Shared Address Call Implementation Time}
    (recorded : Recorded before) (events : after.events = before.events)
    (running : after.running = before.running) (token : after.nextToken = before.nextToken)
    (views : ∀ held ∈ after.plugins, ∃ plugin ∈ before.plugins, held.order = plugin.order ∧
      held.subscriptions = plugin.subscriptions)
    (orders : (after.plugins.map fun held => held.order) =
      before.plugins.map fun held => held.order) : Recorded after := by
  refine ⟨fun event => ?_, fun event outer => ?_, fun event => ?_, fun held inside event => ?_,
    fun order absent event => ?_⟩
  · rw [events]
    exact recorded.tracked event
  · rw [events]
    exact recorded.calls event (running ▸ outer)
  · rw [events, token]
    exact recorded.issued event
  · obtain ⟨plugin, member, order, subscriptions⟩ := views held inside
    rw [events, order, subscriptions]
    exact recorded.recorded plugin member event
  · rw [events]
    exact recorded.orphans order (orders ▸ absent) event

theorem update_cases (events : Event → Callbacks Call) (event : Event) (list : Callbacks Call)
    (other : Event) :
    (other = event ∧ Function.update events event list other = list) ∨
      (other ≠ event ∧ Function.update events event list other = events other) := by
  by_cases same : other = event
  · subst same
    exact Or.inl ⟨rfl, Function.update_self ..⟩
  · exact Or.inr ⟨same, Function.update_of_ne same ..⟩

/-- A change of what a plugin holds beside its subscriptions is none to the calls' record. -/
theorem recorded_beside [DecidableEq Call] {before after : Shared Address Call Implementation Time}
    {plugin next : Context Address} (recorded : Recorded before) (member : plugin ∈ before.plugins)
    (changed : Changed plugin next before.plugins after.plugins)
    (same : next.order = plugin.order ∧ next.subscriptions = plugin.subscriptions)
    (rest : after.events = before.events ∧ after.running = before.running ∧
      after.nextToken = before.nextToken) : Recorded after := by
  refine recorded_same recorded rest.1 rest.2.1 rest.2.2 (fun view inside => ?_) changed.orders
  rcases changed.members view inside with rfl | ⟨old, _⟩
  · exact ⟨plugin, member, same⟩
  · exact ⟨view, old, rfl, rfl⟩

/-- One plugin's subscriptions to one event have changed. -/
theorem recorded_changed [DecidableEq Call]
    {before after : Shared Address Call Implementation Time} {plugin next : Context Address}
    {event : Event} {list : Callbacks Call} (distinct : Distinct before)
    (recorded : Recorded before) (member : plugin ∈ before.plugins)
    (changed : Changed plugin next before.plugins after.plugins)
    (same : next.toPluginContext = plugin.toPluginContext)
    (running : after.running = before.running)
    (tracked : Tracked list) (events : after.events = Function.update before.events event list)
    (frames : list.frames = (before.events event).frames)
    (issued : ∀ token ∈ list.issued, token < after.nextToken)
    (later : before.nextToken ≤ after.nextToken)
    (others : ∀ order, order ≠ plugin.order →
      callsOf order list = callsOf order (before.events event))
    (own : (callsOf plugin.order list).map Subscription.token =
      (next.subscriptions.filter fun held => held.event = event).map Subscribed.token)
    (elsewhere : ∀ other, other ≠ event →
      (next.subscriptions.filter fun held => held.event = other) =
        plugin.subscriptions.filter fun held => held.event = other) :
    Recorded after ∧ ∀ order, order ≠ plugin.order → ∀ other,
      callsOf order (after.events other) = callsOf order (before.events other) := by
  -- Only one event's list is new, so each fact is that list's own or what it was.
  have kept : ∀ order, order ≠ plugin.order → ∀ other,
      callsOf order (after.events other) = callsOf order (before.events other) := by
    intro order apart other
    rw [events]
    rcases update_cases before.events event list other with ⟨rfl, here⟩ | ⟨_, here⟩
    · rw [here, others order apart]
    · rw [here]
  refine ⟨⟨fun other => ?_, fun other outer => ?_, fun other => ?_, fun held inside other => ?_,
    fun order absent other => ?_⟩, kept⟩
  · rw [events]
    rcases update_cases before.events event list other with ⟨rfl, here⟩ | ⟨_, here⟩
    · rwa [here]
    · rw [here]
      exact recorded.tracked other
  · have waits := recorded.calls other (running ▸ outer)
    rw [events]
    rcases update_cases before.events event list other with ⟨rfl, here⟩ | ⟨_, here⟩
    · rw [here, CallbackList.calling_frames frames]
      exact waits
    · rwa [here]
  · rw [events]
    rcases update_cases before.events event list other with ⟨rfl, here⟩ | ⟨_, here⟩
    · rwa [here]
    · rw [here]
      exact fun token old => Nat.lt_of_lt_of_le (recorded.issued other token old) later
  · rcases changed.members held inside with rfl | ⟨old, apart⟩
    · rw [events, same]
      rcases update_cases before.events event list other with ⟨rfl, here⟩ | ⟨different, here⟩
      · rw [here, own]
      · rw [here, elsewhere other different]
        exact recorded.recorded plugin member other
    · rw [kept held.order (orders_apart distinct member old apart)]
      exact recorded.recorded held old other
  · rw [changed.orders] at absent
    have apart : order ≠ plugin.order := by
      rintro rfl
      exact absent (List.mem_map.mpr ⟨plugin, member, rfl⟩)
    rw [kept order apart]
    exact recorded.orphans order absent other

variable [DecidableEq Address]

omit [DecidableEq Address] in
theorem key_apart {Key : Type} (key : Context Address → Key) {before after : List (Context Address)}
    {plugin : Context Address} (once : ((before ++ plugin :: after).map key).Nodup) :
    ∀ held ∈ before ++ after, key held ≠ key plugin := by
  rw [List.map_append, List.map_cons, List.nodup_middle, ← List.map_append] at once
  intro held inside same
  exact (List.nodup_cons.mp once).1 (same ▸ List.mem_map_of_mem inside)

/-- A view among the others, and what setting it leaves. -/
theorem setPlugin_split {plugins : List (Context Address)} {plugin : Context Address}
    (addresses : (plugins.map Context.address).Nodup) (member : plugin ∈ plugins) :
    ∃ before after, plugins = before ++ plugin :: after ∧
      (∀ other ∈ before ++ after, other.address ≠ plugin.address) ∧
      ∀ next : Context Address, next.address = plugin.address →
        (plugins.map fun held => if held.address = next.address then next else held) =
          before ++ next :: after := by
  obtain ⟨before, after, rfl⟩ := List.append_of_mem member
  have apart := key_apart Context.address addresses
  refine ⟨before, after, rfl, apart, fun next same => ?_⟩
  have kept : ∀ part : List (Context Address), (∀ other ∈ part, other ∈ before ++ after) →
      (part.map fun held => if held.address = next.address then next else held) = part := by
    intro part inside
    refine (List.map_congr_left fun other here => ?_).trans (List.map_id part)
    rw [if_neg (same ▸ apart other (inside other here))]
    rfl
  rw [List.map_append, List.map_cons, kept before fun _ => List.mem_append_left after,
    kept after fun _ => List.mem_append_right before, if_pos same.symm]

theorem setPlugin_changed {plugins : List (Context Address)} {plugin next : Context Address}
    (addresses : (plugins.map Context.address).Nodup) (member : plugin ∈ plugins)
    (same : next.toPluginContext = plugin.toPluginContext) (here : next.address = plugin.address) :
    Changed plugin next plugins
      (plugins.map fun held => if held.address = next.address then next else held) := by
  obtain ⟨before, after, rfl, apart, set⟩ := setPlugin_split addresses member
  rw [set next here]
  refine ⟨fun held inside => ?_, ?_, ?_, ?_, fun id => ?_, ?_⟩
  · rcases List.mem_append.mp inside with front | back
    · exact Or.inr ⟨List.mem_append_left _ front, apart held (List.mem_append_left _ front)⟩
    · rcases List.mem_cons.mp back with rfl | back
      · exact Or.inl rfl
      · exact Or.inr ⟨List.mem_append_right _ (List.mem_cons_of_mem _ back),
          apart held (List.mem_append_right _ back)⟩
  · simp [same]
  · simp [here]
  · simp [same]
  · simp only [total, List.map_append, List.map_cons, List.sum_append, List.sum_cons]
    omega
  · simp [List.filter_append, here]

/-- Whatever is not of one address and load position is as it was. -/
structure Beside (address : Address) (order : Nat)
    (before after : Shared Address Call Implementation Time) : Prop where
  plugins : (after.plugins.filter fun held => held.address ≠ address) =
    before.plugins.filter fun held => held.address ≠ address
  calls : ∀ other, other ≠ order → ∀ event,
    callsOf other (after.events event) = callsOf other (before.events event)
  services : (PublishedInterfaces.removeAll address after.services).2 =
    (PublishedInterfaces.removeAll address before.services).2
  commands : CommandNames.removeAll address after.commands =
    CommandNames.removeAll address before.commands

theorem beside_keeps {before after : Shared Address Call Implementation Time}
    {plugin other : Context Address} (beside : Beside plugin.address plugin.order before after)
    (distinct : Distinct before) (member : plugin ∈ before.plugins)
    (there : other ∈ before.plugins) (apart : other.address ≠ plugin.address) :
    Keeps other before after := by
  have kept : other ∈ after.plugins.filter fun held => held.address ≠ plugin.address := by
    rw [beside.plugins]
    exact List.mem_filter.mpr ⟨there, decide_eq_true apart⟩
  refine ⟨List.mem_of_mem_filter kept,
    beside.calls other.order (orders_apart distinct member there apart), ?_, ?_⟩
  · rw [← PublishedInterfaces.removeAll_others apart, beside.services,
      PublishedInterfaces.removeAll_others apart]
  · have own := CommandNames.removeAll_namesOf plugin.address other.address
    rw [← (own after.commands).trans (if_neg apart), beside.commands,
      (own before.commands).trans (if_neg apart)]

/-- A call of one plugin leaves the registries sound and the rest alone. -/
structure Serves [DecidableEq Call] (plugin : Context Address)
    (before after : Shared Address Call Implementation Time) : Prop where
  sound : Sound after
  beside : Beside plugin.address plugin.order before after

theorem serves_same [DecidableEq Call] {shared : Shared Address Call Implementation Time}
    (sound : Sound shared) (plugin : Context Address) : Serves plugin shared shared :=
  ⟨sound, rfl, fun _ _ _ => rfl, rfl, rfl⟩

section Requests
variable [DecidableEq Call] {shared : Shared Address Call Implementation Time}
  {plugin : Context Address}

theorem subscribe_serves (sound : Sound shared) (member : plugin ∈ shared.plugins)
    (calls : calling shared = true) (event : Event) (callback : Option Call) :
    Serves plugin shared (subscribe plugin event callback shared).2 := by
  cases callback with
  | none => exact serves_same sound plugin
  | some call =>
      obtain ⟨distinct, recorded, tables, holds⟩ := sound
      have open_ := calls_everywhere recorded calls event
      have fresh : shared.nextToken ∉ (shared.events event).issued := fun old =>
        Nat.lt_irrefl _ (recorded.issued event _ old)
      obtain ⟨tracked, effect⟩ := @CallbackList.add_effect _ _ _ _ plugin.order call
        (recorded.tracked event) open_ fresh
      let next : Context Address := { plugin with
        subscriptions := plugin.subscriptions ++ [⟨shared.nextToken, event⟩] }
      have changed : Changed plugin next shared.plugins
          (subscribe plugin event (some call) shared).2.plugins :=
        setPlugin_changed distinct.addresses member rfl rfl
      obtain ⟨after, kept⟩ := recorded_changed distinct recorded member changed rfl rfl tracked rfl
        (CallbackList.add_frames ..)
        (by
          intro token issued
          rcases List.mem_append.mp issued with old | new
          · exact Nat.lt_succ_of_lt (recorded.issued event token old)
          · rw [List.mem_singleton.mp new]
            exact Nat.lt_succ_self _)
        (Nat.le_succ _)
        (fun order apart => by rw [effect, CallbackList.effect, if_neg apart.symm])
        (by
          rw [effect, CallbackList.effect, if_pos rfl, List.map_append,
            recorded.recorded plugin member event]
          simp [next])
        (fun other apart => by simp [next, apart.symm])
      refine ⟨⟨distinct_changed distinct member changed rfl rfl, after,
        tables_same tables rfl rfl changed.addresses, ⟨holds.queue, fun id => ?_⟩⟩,
        changed.rest, kept, rfl, rfl⟩
      have same := changed.total id
      exact (holds.counts id).trans (Nat.add_right_cancel same).symm

omit [DecidableEq Address] in
/-- A token that a view has recorded is subscribed under its own order only. -/
theorem recorded_token (recorded : Recorded shared) (member : plugin ∈ shared.plugins)
    {held : Subscribed} (taken : held ∈ plugin.subscriptions) {order : Nat}
    {sub : Subscription Call} (there : sub ∈ callsOf order (shared.events held.event))
    (same : sub.token = held.token) : order = plugin.order := by
  have known : held.token ∈
      (callsOf plugin.order (shared.events held.event)).map Subscription.token := by
    rw [recorded.recorded plugin member held.event]
    exact List.mem_map_of_mem (List.mem_filter.mpr ⟨taken, decide_eq_true rfl⟩)
  obtain ⟨own, here, token⟩ := List.mem_map.mp known
  have tracked := recorded.tracked held.event
  obtain rfl := CallbackList.callsOf_token tracked there here (same.trans token.symm)
  exact (CallbackList.callsOf_issued tracked there).2.symm.trans
    (CallbackList.callsOf_issued tracked here).2

omit [DecidableEq Call] in
theorem tokens_without {subs : List (Subscription Call)} {token : Nat} {before after : List Nat}
    (tokens : subs.map Subscription.token = before ++ token :: after)
    (once : (before ++ token :: after).Nodup) :
    (subs.filter fun sub => sub.token ≠ token).map Subscription.token = before ++ after := by
  have absent := (List.nodup_cons.mp (List.nodup_middle.mp once)).1
  have kept : (before ++ after).filter (fun other => decide (other ≠ token)) = before ++ after := by
    refine List.filter_eq_self.mpr fun other inside => decide_eq_true ?_
    rintro rfl
    exact absent inside
  have mapped : (subs.filter fun sub => sub.token ≠ token).map Subscription.token =
      (subs.map Subscription.token).filter fun other => decide (other ≠ token) := by
    rw [List.filter_map]
    rfl
  rw [mapped, tokens, ← kept]
  simp

theorem unsubscribe_serves (sound : Sound shared) (member : plugin ∈ shared.plugins)
    (calls : calling shared = true) (token : Nat) :
    Serves plugin shared (unsubscribe plugin token shared) := by
  -- A token the plugin does not hold changes nothing; one it holds splits its list.
  cases found : plugin.subscriptions.find? fun held => held.token = token with
  | none =>
      rw [unsubscribe, found]
      exact serves_same sound plugin
  | some held =>
      obtain ⟨hit, before, after, split, earlier⟩ := List.find?_eq_some_iff_append.mp found
      obtain rfl : held.token = token := of_decide_eq_true hit
      obtain ⟨distinct, recorded, tables, holds⟩ := sound
      have taken : held ∈ plugin.subscriptions := split ▸ by simp
      have left : plugin.subscriptions.eraseP (fun other => other.token = held.token) =
          before ++ after := by
        have none_ : ∀ other ∈ before, ¬(decide (other.token = held.token)) = true := by
          intro other inside
          simpa using earlier other inside
        rw [split, List.eraseP_append_right _ none_, List.eraseP_cons_of_pos (by simp)]
      let next : Context Address := { plugin with
        subscriptions := plugin.subscriptions.eraseP fun other => other.token = held.token }
      have result : unsubscribe plugin held.token shared = setPlugin next (setEvent held.event
          (CallbackList.remove held.token (shared.events held.event)).2 shared) := by
        rw [unsubscribe, found]
      rw [result]
      have changed : Changed plugin next shared.plugins (setPlugin next (setEvent held.event
          (CallbackList.remove held.token (shared.events held.event)).2 shared)).plugins :=
        setPlugin_changed distinct.addresses member rfl rfl
      obtain ⟨tracked, effect⟩ := @CallbackList.remove_effect _ _ _ held.token
        (recorded.tracked held.event) (calls_everywhere recorded calls held.event)
      have own : (callsOf plugin.order (shared.events held.event)).map Subscription.token =
          (before.filter fun other => other.event = held.event).map Subscribed.token ++
            held.token :: (after.filter fun other => other.event = held.event).map
              Subscribed.token := by
        rw [recorded.recorded plugin member held.event, split]
        simp
      -- Tokens are unique, so removing one leaves the calls in front and behind it.
      have once := CallbackList.callsOf_nodup (recorded.tracked held.event) plugin.order
      rw [own] at once
      obtain ⟨after_, kept⟩ := recorded_changed distinct recorded member changed rfl rfl tracked rfl
        (CallbackList.remove_frames ..)
        (by
          rw [CallbackList.remove_issued]
          exact recorded.issued held.event)
        (Nat.le_refl _)
        (fun order apart => by
          rw [effect]
          apply List.filter_eq_self.mpr
          intro sub there
          refine decide_eq_true fun same => apart ?_
          exact recorded_token recorded member taken there same)
        (by
          rw [effect, tokens_without own once]
          change _ = ((plugin.subscriptions.eraseP _).filter _).map _
          rw [left, List.filter_append, List.map_append])
        (fun other apart => by
          change (plugin.subscriptions.eraseP _).filter _ = _
          rw [left, split]
          simp [apart.symm])
      refine ⟨⟨distinct_changed distinct member changed rfl rfl, after_,
        tables_same tables rfl rfl changed.addresses, ⟨holds.queue, fun id => ?_⟩⟩,
        changed.rest, kept, rfl, rfl⟩
      have same := changed.total id
      exact (holds.counts id).trans (Nat.add_right_cancel same).symm

theorem publish_serves (sound : Sound shared) (member : plugin ∈ shared.plugins) (name : String)
    (implementation : Option Implementation) :
    Serves plugin shared (publish plugin name implementation shared) := by
  obtain ⟨distinct, recorded, tables, holds⟩ := sound
  refine ⟨⟨⟨distinct.names, distinct.addresses, distinct.orders, distinct.below⟩,
    recorded_same recorded rfl rfl rfl (fun held inside => ⟨held, inside, rfl, rfl⟩) rfl,
    ⟨PublishedInterfaces.publish_unique implementation tables.services, fun service inside => ?_,
      tables.commands, tables.registrants⟩, holds.queue, holds.counts⟩,
    rfl, fun _ _ _ => rfl, PublishedInterfaces.publish_beside implementation, rfl⟩
  rcases PublishedInterfaces.publish_owners inside with own | old
  · rw [own]
    exact List.mem_map_of_mem member
  · exact tables.publishers service old

theorem unpublish_serves (sound : Sound shared) (name : String) :
    Serves plugin shared (unpublish plugin name shared) := by
  obtain ⟨distinct, recorded, tables, holds⟩ := sound
  have less : (PublishedInterfaces.unpublish plugin.address name shared.services).Sublist
      shared.services := PublishedInterfaces.unpublish_sublist
  exact ⟨⟨⟨distinct.names, distinct.addresses, distinct.orders, distinct.below⟩,
    recorded_same recorded rfl rfl rfl (fun held inside => ⟨held, inside, rfl, rfl⟩) rfl,
    ⟨tables.services.sublist (less.map _),
      fun service inside => tables.publishers service (less.subset inside), tables.commands,
      tables.registrants⟩, holds.queue, holds.counts⟩,
    rfl, fun _ _ _ => rfl, PublishedInterfaces.unpublish_beside, rfl⟩

theorem registerCommand_serves (sound : Sound shared) (member : plugin ∈ shared.plugins)
    (name : CommandNames.Name) : Serves plugin shared (registerCommand plugin name shared).2 := by
  obtain ⟨distinct, recorded, tables, holds⟩ := sound
  refine ⟨⟨⟨distinct.names, distinct.addresses, distinct.orders, distinct.below⟩,
    recorded_same recorded rfl rfl rfl (fun held inside => ⟨held, inside, rfl, rfl⟩) rfl,
    ⟨tables.services, tables.publishers, CommandNames.register_unique tables.commands,
      fun entry inside owner owned => ?_⟩, holds.queue, holds.counts⟩,
    rfl, fun _ _ _ => rfl, rfl,
    CommandNames.register_beside plugin.address plugin.name name shared.commands⟩
  rcases CommandNames.register_owners inside owned with rfl | old
  · exact List.mem_map_of_mem member
  · exact tables.registrants entry old owner owned

omit [DecidableEq Call] in
theorem Downloads.add_spec {downloads : Downloads Time} {id : Nat} {installs : Bool}
    (held : DownloadQueue.Held downloads.queue) :
    DownloadQueue.Held (downloads.add id installs).2.queue ∧
      ∀ other, DownloadQueue.holders other (downloads.add id installs).2.queue =
        DownloadQueue.holders other downloads.queue +
          if (downloads.add id installs).1 = true ∧ other = id then 1 else 0 := by
  unfold Downloads.add
  by_cases zero : id = 0
  · simp [zero, held]
  · rw [if_neg zero]
    split
    · obtain ⟨added, after, counts⟩ := DownloadQueue.add_holders held zero
      refine ⟨after, fun other => ?_⟩
      dsimp only
      rw [counts, added]
      simp
    · simp [held]

omit [DecidableEq Call] in
theorem Downloads.remove_spec {downloads : Downloads Time} {id : Nat}
    (held : DownloadQueue.Held downloads.queue) :
    DownloadQueue.Held (downloads.remove id).queue ∧
      ∀ other, DownloadQueue.holders other (downloads.remove id).queue =
        DownloadQueue.holders other downloads.queue - if other = id then 1 else 0 := by
  obtain ⟨after, counts⟩ := @DownloadQueue.remove_holders _ id _ held
  unfold Downloads.remove
  dsimp only
  split
  · exact ⟨⟨after.once, after.some_⟩, counts⟩
  · exact ⟨after, counts⟩

theorem add_serves (sound : Sound shared) (member : plugin ∈ shared.plugins) (id : Nat)
    (installs : Bool) : Serves plugin shared (add plugin id installs shared).2 := by
  cases found : shared.downloads with
  | none =>
      rw [add, found]
      exact serves_same sound plugin
  | some downloads =>
      obtain ⟨distinct, recorded, tables, holds⟩ := sound
      obtain ⟨held, counts⟩ := @Downloads.add_spec _ downloads id installs
        (holds.queue downloads found)
      have before : ∀ other, DownloadQueue.holders other downloads.queue =
          total other shared.plugins := by
        intro other
        rw [← holds.counts other, holders, found]
        rfl
      cases answer : downloads.add id installs with
      | mk added after =>
          rw [answer] at held counts
          have queue : ∀ kept ∈ some after, DownloadQueue.Held kept.queue := by
            intro kept same
            cases same
            exact held
          cases added with
          | false =>
              simp only [add, found, answer]
              refine ⟨⟨⟨distinct.names, distinct.addresses, distinct.orders, distinct.below⟩,
                recorded_same recorded rfl rfl rfl (fun held inside => ⟨held, inside, rfl, rfl⟩) rfl,
                ⟨tables.services, tables.publishers, tables.commands, tables.registrants⟩,
                queue, fun other => ?_⟩, rfl, fun _ _ _ => rfl, rfl, rfl⟩
              apply (counts other).trans
              simpa using before other
          | true =>
              simp only [add, found, answer, if_true]
              let next : Context Address := { plugin with addons := plugin.addons ++ [id] }
              have changed : Changed plugin next shared.plugins
                  (setPlugin next { shared with downloads := some after }).plugins :=
                setPlugin_changed distinct.addresses member rfl rfl
              refine ⟨⟨distinct_changed distinct member changed rfl rfl,
                recorded_beside recorded member changed ⟨rfl, rfl⟩ ⟨rfl, rfl, rfl⟩,
                tables_same tables rfl rfl changed.addresses, queue, fun other => ?_⟩,
                changed.rest, fun _ _ _ => rfl, rfl, rfl⟩
              · have sum := changed.total other
                apply (counts other).trans
                rw [before]
                simp only [next, List.count_append, List.count_singleton, true_and] at sum ⊢
                split
                · next same =>
                    simp only [same, beq_self_eq_true, if_true] at sum ⊢
                    omega
                · next apart =>
                    have other_ : (id == other) = false := by simpa using fun same => apart same.symm
                    simp only [other_, Bool.false_eq_true, if_false] at sum
                    omega

omit [DecidableEq Address] [DecidableEq Call] in
theorem withdraw_spec {id : Nat}
    (queue : ∀ downloads ∈ shared.downloads, DownloadQueue.Held downloads.queue) :
    (∀ downloads ∈ (withdraw id shared).downloads, DownloadQueue.Held downloads.queue) ∧
      ∀ other, holders other (withdraw id shared) =
        holders other shared - if other = id then 1 else 0 := by
  cases found : shared.downloads with
  | none => simp [withdraw, holders, found]
  | some downloads =>
      obtain ⟨held, counts⟩ := @Downloads.remove_spec _ downloads id (queue downloads found)
      refine ⟨fun kept inside => ?_, fun other => ?_⟩
      · simp only [withdraw, found, Option.map_some, Option.mem_def, Option.some.injEq] at inside
        exact inside ▸ held
      · simp only [holders, withdraw, found, Option.map_some, Option.getD_some]
        exact counts other

theorem remove_serves (sound : Sound shared) (member : plugin ∈ shared.plugins) (id : Nat) :
    Serves plugin shared (remove plugin id shared) := by
  unfold remove
  split
  · next taken =>
      obtain ⟨distinct, recorded, tables, holds⟩ := sound
      let next : Context Address := { plugin with addons := plugin.addons.erase id }
      have changed : Changed plugin next shared.plugins
          (withdraw id (setPlugin next shared)).plugins :=
        setPlugin_changed distinct.addresses member rfl rfl
      obtain ⟨queue, counts⟩ := @withdraw_spec _ _ _ _ (setPlugin next shared) id holds.queue
      refine ⟨⟨distinct_changed distinct member changed rfl rfl,
        recorded_beside recorded member changed ⟨rfl, rfl⟩ ⟨rfl, rfl, rfl⟩,
        tables_same tables rfl rfl changed.addresses, queue, fun other => ?_⟩,
        changed.rest, fun _ _ _ => rfl, rfl, rfl⟩
      · have sum := changed.total other
        have some_ := List.count_pos_iff.mpr taken
        rw [counts]
        change holders other shared - _ = _
        rw [holds.counts other]
        simp only [next, List.count_erase] at sum
        split
        · next same =>
            subst same
            simp only [beq_self_eq_true, if_true] at sum
            omega
        · next apart =>
            have other_ : (id == other) = false := by simpa using fun same => apart same.symm
            simp only [other_, Bool.false_eq_true, if_false] at sum
            omega
  · exact serves_same sound plugin

/-- One plugin's call leaves all that another took. -/
theorem perform_serves (sound : Sound shared) (member : plugin ∈ shared.plugins)
    (calls : calling shared = true) (request : Request Call Implementation) :
    Serves plugin shared (perform plugin shared request) := by
  cases request with
  | subscribe event callback => exact subscribe_serves sound member calls event callback
  | unsubscribe token => exact unsubscribe_serves sound member calls token
  | publish name implementation => exact publish_serves sound member name implementation
  | unpublish name => exact unpublish_serves sound name
  | registerCommand name => exact registerCommand_serves sound member name
  | add id installs => exact add_serves sound member id installs
  | remove id => exact remove_serves sound member id

end Requests

end VoltMod.SharedState
