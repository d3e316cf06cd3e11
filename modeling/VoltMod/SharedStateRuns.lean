import VoltMod.SharedStateOwnership

/-! Removing a plugin from the host's registries, and what holds of them in every run. -/
namespace VoltMod.SharedState
open CallbackList (Callbacks Subscription Tracked callsOf)
open CommandNames (namesOf)
open PublishedInterfaces (servicesOf)
open Transition

variable {Address Call Implementation Time : Type} [DecidableEq Address]

section Removing
variable [DecidableEq Call] {shared : Shared Address Call Implementation Time}
  {plugin : Context Address}

/-- What is left of a list once every subscription a view recorded is dropped. -/
theorem removeSubscribed_spec (subscriptions : List Subscribed) (events : Event → Callbacks Call)
    (tracked : ∀ event, Tracked (events event))
    (calls : ∀ event, CallbackList.calling (events event) = true) (event : Event) :
    Tracked (subscriptions.foldl removeSubscribed events event) ∧
      (subscriptions.foldl removeSubscribed events event).frames = (events event).frames ∧
      (subscriptions.foldl removeSubscribed events event).issued = (events event).issued ∧
      ∀ order, callsOf order (subscriptions.foldl removeSubscribed events event) =
        (callsOf order (events event)).filter fun sub =>
          ∀ held ∈ subscriptions, held.event = event → held.token ≠ sub.token := by
  -- Each removal leaves every list tracked and outside its call, so the next may follow.
  induction subscriptions generalizing events with
  | nil => exact ⟨tracked event, rfl, rfl, fun order => by simp⟩
  | cons held rest ih =>
      obtain ⟨next, effect⟩ := @CallbackList.remove_effect _ _ _ held.token (tracked held.event)
        (calls held.event)
      have nextTracked : ∀ other, Tracked (removeSubscribed events held other) := by
        intro other
        rcases update_cases events held.event _ other with ⟨rfl, here⟩ | ⟨_, here⟩
        · rw [removeSubscribed, here]
          exact next
        · rw [removeSubscribed, here]
          exact tracked other
      have nextCalls : ∀ other,
          CallbackList.calling (removeSubscribed events held other) = true := by
        intro other
        rcases update_cases events held.event _ other with ⟨rfl, here⟩ | ⟨_, here⟩
        · rw [removeSubscribed, here,
            CallbackList.calling_frames (CallbackList.remove_frames ..)]
          exact calls held.event
        · rw [removeSubscribed, here]
          exact calls other
      obtain ⟨last, frames, issued, left⟩ := ih (removeSubscribed events held) nextTracked nextCalls
      rw [List.foldl_cons]
      refine ⟨last, frames.trans ?_, issued.trans ?_, fun order => (left order).trans ?_⟩
      · rcases update_cases events held.event _ event with ⟨rfl, here⟩ | ⟨_, here⟩
        · rw [removeSubscribed, here, CallbackList.remove_frames]
        · rw [removeSubscribed, here]
      · rcases update_cases events held.event _ event with ⟨rfl, here⟩ | ⟨_, here⟩
        · rw [removeSubscribed, here, CallbackList.remove_issued]
        · rw [removeSubscribed, here]
      · rcases update_cases events held.event _ event with ⟨rfl, here⟩ | ⟨apart, here⟩
        · rw [removeSubscribed, here, effect, List.filter_filter]
          apply List.filter_congr
          intro sub _
          rw [Bool.eq_iff_iff]
          simp only [Bool.and_eq_true, decide_eq_true_eq, List.forall_mem_cons, forall_const]
          exact and_comm.trans (and_congr_left fun _ => ne_comm)
        · rw [removeSubscribed, here]
          apply List.filter_congr
          intro sub _
          rw [Bool.eq_iff_iff]
          simp [apart.symm]

omit [DecidableEq Address] [DecidableEq Call] in
theorem withdraw_all (ids : List Nat)
    (queue : ∀ downloads ∈ shared.downloads, DownloadQueue.Held downloads.queue) :
    ∃ downloads, ids.foldl (fun shared id => withdraw id shared) shared = { shared with downloads } ∧
      (∀ kept ∈ downloads, DownloadQueue.Held kept.queue) ∧
      ∀ other, holders other { shared with downloads } = holders other shared - ids.count other := by
  induction ids generalizing shared with
  | nil => exact ⟨shared.downloads, rfl, queue, fun other => rfl⟩
  | cons id rest ih =>
      obtain ⟨next, counts⟩ := @withdraw_spec _ _ _ _ shared id queue
      obtain ⟨downloads, same, held, left⟩ := ih next
      refine ⟨downloads, same, held, fun other => (left other).trans ?_⟩
      rw [counts, List.count_cons, Nat.sub_sub, Nat.add_comm]
      by_cases here : other = id
      · simp [here]
      · have apart : (id == other) = false := by simpa using fun same => here same.symm
        simp [here, apart]

/-- Nothing of a plugin is left behind. -/
structure Gone (plugin : Context Address) (after : Shared Address Call Implementation Time) :
    Prop where
  view : ∀ held ∈ after.plugins, held.address ≠ plugin.address ∧ held.name ≠ plugin.name ∧
    held.order ≠ plugin.order
  calls : ∀ event, callsOf plugin.order (after.events event) = []
  services : servicesOf plugin.address after.services = []
  commands : namesOf plugin.address after.commands = []

/-- What a removal comes to, field for field. -/
theorem removePlugin_eq (sound : Sound shared) {name : String}
    (found : findPlugin name shared = some plugin) :
    ∃ before after downloads, shared.plugins = before ++ plugin :: after ∧
      (removePlugin name shared).2 = { shared with
        events := plugin.subscriptions.foldl removeSubscribed shared.events
        services := (PublishedInterfaces.removeAll plugin.address shared.services).2
        commands := CommandNames.removeAll plugin.address shared.commands
        downloads
        plugins := before ++ after } ∧
      (∀ kept ∈ downloads, DownloadQueue.Held kept.queue) ∧
      ∀ id, holders id { shared with downloads } = holders id shared - plugin.addons.count id := by
  have member := List.mem_of_find?_eq_some found
  obtain rfl : plugin.name = name := by simpa using List.find?_some found
  obtain ⟨before, after, split, apart, set⟩ := setPlugin_split sound.distinct.addresses member
  obtain ⟨downloads, same, held, left⟩ := @withdraw_all _ _ _ _ { shared with
    events := plugin.subscriptions.foldl removeSubscribed shared.events
    services := (PublishedInterfaces.removeAll plugin.address shared.services).2 } plugin.addons
    sound.holds.queue
  refine ⟨before, after, downloads, split, ?_, held, left⟩
  have names : ∀ other ∈ before, ¬(decide (other.name = plugin.name)) = true := by
    have distinct := sound.distinct.names
    rw [split] at distinct
    intro other inside same
    exact key_apart (fun held => held.name) distinct other (List.mem_append_left _ inside)
      (of_decide_eq_true same)
  have erased := set { plugin with subscriptions := [], addons := [] } rfl
  simp only [removePlugin, found, removeAll, same, setPlugin, erased]
  rw [List.eraseP_append_right _ names, List.eraseP_cons_of_pos (by simp)]

/-- A removal takes all that the plugin took, and nothing else. -/
theorem removePlugin_spec (sound : Sound shared) (calls : calling shared = true) {name : String}
    (found : findPlugin name shared = some plugin) :
    Sound (removePlugin name shared).2 ∧ Gone plugin (removePlugin name shared).2 ∧
      Beside plugin.address plugin.order shared (removePlugin name shared).2 := by
  obtain ⟨before, after, downloads, split, result, queue, counts⟩ := removePlugin_eq sound found
  rw [result]
  obtain ⟨distinct, recorded, tables, holds⟩ := sound
  have member : plugin ∈ shared.plugins := split ▸ by simp
  -- The subscriptions go one after another, each from its own event.
  have spec := removeSubscribed_spec plugin.subscriptions shared.events recorded.tracked
    (calls_everywhere recorded calls)
  have kept : ∀ order, order ≠ plugin.order → ∀ event,
      callsOf order (plugin.subscriptions.foldl removeSubscribed shared.events event) =
        callsOf order (shared.events event) := by
    intro order apart event
    rw [(spec event).2.2.2]
    refine List.filter_eq_self.mpr fun sub there => decide_eq_true fun held taken same token => ?_
    subst same
    exact apart (recorded_token recorded member taken there token.symm)
  -- Every call of the plugin belongs to a recorded subscription, so none stays.
  have gone : ∀ event,
      callsOf plugin.order (plugin.subscriptions.foldl removeSubscribed shared.events event) =
        [] := by
    intro event
    rw [(spec event).2.2.2]
    apply List.filter_eq_nil_iff.mpr
    intro sub there all
    have known : sub.token ∈ (callsOf plugin.order (shared.events event)).map
        Subscription.token := List.mem_map_of_mem there
    rw [recorded.recorded plugin member event] at known
    obtain ⟨held, taken, token⟩ := List.mem_map.mp known
    obtain ⟨inside, same⟩ := List.mem_filter.mp taken
    exact of_decide_eq_true all held inside (of_decide_eq_true same) token
  have less : (before ++ after).Sublist shared.plugins := by
    rw [split]
    exact (List.sublist_cons_self plugin after).append_left before
  have others : ∀ held ∈ before ++ after, held ∈ shared.plugins ∧
      held.address ≠ plugin.address ∧ held.name ≠ plugin.name ∧ held.order ≠ plugin.order := by
    intro held inside
    refine ⟨less.subset inside, ?_, ?_, ?_⟩
    · exact key_apart Context.address (split ▸ distinct.addresses) held inside
    · exact key_apart (fun held => held.name) (split ▸ distinct.names) held inside
    · exact key_apart (fun held => held.order) (split ▸ distinct.orders) held inside
  have stays : ∀ other ∈ shared.plugins, other.address ≠ plugin.address →
      other ∈ before ++ after := by
    intro other there apart
    rw [split] at there
    rcases List.mem_append.mp there with front | back
    · exact List.mem_append_left _ front
    · rcases List.mem_cons.mp back with rfl | back
      · exact absurd rfl apart
      · exact List.mem_append_right _ back
  have owners : ∀ address ∈ shared.plugins.map Context.address, address ≠ plugin.address →
      address ∈ (before ++ after).map Context.address := by
    intro address known apart
    obtain ⟨other, there, rfl⟩ := List.mem_map.mp known
    exact List.mem_map_of_mem (stays other there apart)
  refine ⟨⟨⟨distinct.names.sublist (less.map _), distinct.addresses.sublist (less.map _),
      distinct.orders.sublist (less.map _), fun held inside =>
        distinct.below held (less.subset inside)⟩,
    ⟨fun event => (spec event).1, fun event outer => ?_, fun event => ?_,
      fun held inside event => ?_, fun order absent event => ?_⟩,
    ⟨tables.services.sublist (PublishedInterfaces.removeAll_sublist.map _),
      fun service inside => ?_, CommandNames.removeAll_unique tables.commands,
      fun entry inside owner owned => ?_⟩, queue, fun id => ?_⟩,
    ⟨fun held inside => (others held inside).2, gone, PublishedInterfaces.removeAll_own, ?_⟩,
    ⟨?_, kept, ?_, ?_⟩⟩
  · dsimp only
    rw [CallbackList.calling_frames (spec event).2.1]
    exact recorded.calls event outer
  · dsimp only
    rw [(spec event).2.2.1]
    exact recorded.issued event
  · obtain ⟨old, _, _, apart⟩ := others held inside
    dsimp only
    rw [kept held.order apart]
    exact recorded.recorded held old event
  -- The plugin is an owner nobody knows from now on, as every other such one was.
  · by_cases own : order = plugin.order
    · exact own ▸ gone event
    · dsimp only
      rw [kept order own]
      refine recorded.orphans order ?_ event
      intro known
      obtain ⟨other, there, rfl⟩ := List.mem_map.mp known
      have apart : other.address ≠ plugin.address := by
        intro same
        have one := List.inj_on_of_nodup_map distinct.addresses there member same
        exact own (congrArg (fun held : Context Address => held.order) one)
      exact absent (List.mem_map.mpr ⟨other, stays other there apart, rfl⟩)
  · obtain ⟨old, apart⟩ := List.mem_filter.mp inside
    exact owners _ (tables.publishers service old) (of_decide_eq_true apart)
  · obtain ⟨old, apart⟩ := List.mem_filter.mp inside
    apply owners owner (tables.registrants entry old owner owned)
    rintro rfl
    exact of_decide_eq_true apart owned
  · apply (counts id).trans
    rw [holds.counts id, split]
    simp [total]
    omega
  · rw [CommandNames.removeAll_namesOf, if_pos rfl]
  · rw [split]
    simp
  · simp [PublishedInterfaces.removeAll]
  · simp [CommandNames.removeAll]

omit [DecidableEq Address] in
theorem start_sound (addons : Bool) :
    Sound (start addons : Shared Address Call Implementation Time) := by
  refine ⟨⟨List.nodup_nil, List.nodup_nil, List.nodup_nil, by simp [start]⟩,
    ⟨fun _ => CallbackList.tracked_empty, fun _ _ => rfl, by simp [start, CallbackList.empty],
      by simp [start], fun _ _ _ => rfl⟩,
    ⟨List.nodup_nil, by simp [start], List.nodup_nil, by simp [start]⟩, ?_, fun id => ?_⟩
  · intro downloads member
    cases addons with
    | false => cases member
    | true =>
        cases member
        exact ⟨List.nodup_nil, by simp [DownloadQueue.empty]⟩
  · cases addons with
    | false => rfl
    | true => rfl

omit [DecidableEq Call] in
theorem keeps_all {after : Shared Address Call Implementation Time}
    (plugins : ∀ other ∈ shared.plugins, other ∈ after.plugins)
    (calls : ∀ order event, callsOf order (after.events event) =
      callsOf order (shared.events event))
    (services : after.services = shared.services)
    (commands : ∀ owner, namesOf owner after.commands = namesOf owner shared.commands) :
    ∀ other ∈ shared.plugins, Keeps other shared after := by
  intro other there
  refine ⟨plugins other there, calls other.order, ?_, commands other.address⟩
  rw [services]

theorem addPlugin_sound (sound : Sound shared) {address : Address}
    (free : ∀ plugin ∈ shared.plugins, plugin.address ≠ address)
    {name logTag version : String} {after : Shared Address Call Implementation Time}
    (added : addPlugin address name logTag version shared = some after) :
    Sound after ∧ ∀ other ∈ shared.plugins, Keeps other shared after := by
  obtain ⟨distinct, recorded, tables, holds⟩ := sound
  simp only [addPlugin, Option.ite_none_left_eq_some, not_or, Option.some.injEq] at added
  obtain ⟨⟨_, unknown⟩, rfl⟩ := added
  have fresh : shared.nextOrder ∉ shared.plugins.map fun plugin => plugin.order := by
    intro known
    obtain ⟨plugin, member, same⟩ := List.mem_map.mp known
    exact absurd (distinct.below plugin member) (Nat.not_lt.mpr (Nat.le_of_eq same.symm))
  have unnamed : name ∉ shared.plugins.map fun plugin => plugin.name := by
    intro known
    obtain ⟨plugin, member, same⟩ := List.mem_map.mp known
    refine unknown (List.find?_isSome.mpr ⟨plugin, member, decide_eq_true same⟩)
  have addressed : address ∉ shared.plugins.map Context.address := by
    intro known
    obtain ⟨plugin, member, same⟩ := List.mem_map.mp known
    exact free plugin member same
  refine ⟨⟨⟨?_, ?_, ?_, ?_⟩, ⟨recorded.tracked, recorded.calls, recorded.issued, ?_, ?_⟩,
    ⟨tables.services, fun service inside => ?_, tables.commands, fun entry inside owner owned => ?_⟩,
    holds.queue, fun id => ?_⟩,
    keeps_all (fun other there => List.mem_append_left _ there) (fun _ _ => rfl) rfl fun _ => rfl⟩
  · simpa using distinct.names.concat unnamed
  · simpa using distinct.addresses.concat addressed
  · simpa using distinct.orders.concat fresh
  · intro plugin member
    rcases List.mem_append.mp member with old | new
    · exact Nat.lt_succ_of_lt (distinct.below plugin old)
    · rw [List.mem_singleton.mp new]
      exact Nat.lt_succ_self _
  · intro plugin member event
    rcases List.mem_append.mp member with old | new
    · exact recorded.recorded plugin old event
    · rw [List.mem_singleton.mp new]
      exact congrArg (List.map Subscription.token) (recorded.orphans _ fresh event)
  · intro order absent event
    refine recorded.orphans order (fun known => absent ?_) event
    rw [List.map_append]
    exact List.mem_append_left _ known
  · rw [List.map_append]
    exact List.mem_append_left _ (tables.publishers service inside)
  · rw [List.map_append]
    exact List.mem_append_left _ (tables.registrants entry inside owner owned)
  · apply (holds.counts id).trans
    simp [total]

/-- No plugin's record, subscription, service, command or addon has changed. -/
structure Still (before after : Shared Address Call Implementation Time) : Prop where
  plugins : after.plugins = before.plugins
  order : after.nextOrder = before.nextOrder
  calls : ∀ order event, callsOf order (after.events event) = callsOf order (before.events event)
  services : after.services = before.services
  commands : after.commands = before.commands

omit [DecidableEq Address] in
/-- A dispatch goes on, and nobody's subscriptions change with it. -/
theorem turn_sound (sound : Sound shared) {event : Event}
    {list : Callbacks Call} {running : List Event} (tracked : Tracked list)
    (issued : list.issued = (shared.events event).issued)
    (same : ∀ order, callsOf order list = callsOf order (shared.events event))
    (inner : running.head? ≠ some event → CallbackList.calling list = true)
    (outer : ∀ other, other ≠ event → running.head? ≠ some other →
      CallbackList.calling (shared.events other) = true) :
    Sound { setEvent event list shared with running } ∧
      Still shared { setEvent event list shared with running } := by
  obtain ⟨distinct, recorded, tables, holds⟩ := sound
  have kept : ∀ order other, callsOf order (Function.update shared.events event list other) =
      callsOf order (shared.events other) := by
    intro order other
    rcases update_cases shared.events event list other with ⟨rfl, here⟩ | ⟨_, here⟩
    · rw [here, same]
    · rw [here]
  refine ⟨⟨⟨distinct.names, distinct.addresses, distinct.orders, distinct.below⟩,
    ⟨fun other => ?_, fun other waits => ?_, fun other => ?_, fun plugin member other => ?_,
      fun order absent other => ?_⟩,
    ⟨tables.services, tables.publishers, tables.commands, tables.registrants⟩, holds.queue,
    holds.counts⟩, rfl, rfl, kept, rfl, rfl⟩
  · change Tracked (Function.update shared.events event list other)
    rcases update_cases shared.events event list other with ⟨rfl, here⟩ | ⟨_, here⟩
    · rwa [here]
    · rw [here]
      exact recorded.tracked other
  · change CallbackList.calling (Function.update shared.events event list other) = true
    rcases update_cases shared.events event list other with ⟨rfl, here⟩ | ⟨apart, here⟩
    · rw [here]
      exact inner waits
    · rw [here]
      exact outer other apart waits
  · change ∀ token ∈ (Function.update shared.events event list other).issued, _
    rcases update_cases shared.events event list other with ⟨rfl, here⟩ | ⟨_, here⟩
    · rw [here, issued]
      exact recorded.issued other
    · rw [here]
      exact recorded.issued other
  · exact (congrArg _ (kept plugin.order other)).trans (recorded.recorded plugin member other)
  · exact (kept order other).trans (recorded.orphans order absent other)

omit [DecidableEq Address] [DecidableEq Call] in
theorem iterate_issued {before after : Callbacks Call}
    (taken : CallbackList.iterate before = some after) : after.issued = before.issued := by
  obtain ⟨_, _, _, _, rfl⟩ := CallbackList.iterate_cases taken
  rfl

/-- A list that a pass goes on over is tracked, and nobody's subscriptions change. -/
theorem list_turn {list after : Callbacks Call} {label : CallbackList.Label Call}
    (tracked : Tracked list) (taken : CallbackList.step list label = some after)
    (quiet : ∀ order subs, CallbackList.effect order label subs = subs) :
    Tracked after ∧ ∀ order, callsOf order after = callsOf order list := by
  obtain ⟨next, effect⟩ := CallbackList.step_effect tracked taken
  exact ⟨next, fun order => (effect order).trans (quiet order _)⟩

end Removing

/-- The labels that are a plugin's own: its calls and its removal. -/
def Acts (other : Context Address) : Label Address Call Implementation → Prop
  | .request address _ => address = other.address
  | .removePlugin name => name = other.name
  | _ => False

section Runs
variable {shared after : Shared Address Call Implementation Time}

/-- Whether a step is one of a dispatch. -/
def turn : Label Address Call Implementation → Bool
  | .dispatch .. | .iterate | .returnCall _ | .endWalk => true
  | _ => false

theorem turn_step [DecidableEq Call] {label : Label Address Call Implementation}
    (sound : Sound shared) (turns : turn label = true) (taken : step shared label = some after) :
    Sound after ∧ Still shared after := by
  -- A turn is a step of one event's list; the other labels are none.
  cases label with
  | addPlugin address name logTag version => cases turns
  | removePlugin name => cases turns
  | request address request => cases turns
  | registerHostCommand name => cases turns
  | dispatch event only =>
      simp only [step, Option.ite_none_right_eq_some, Option.some.injEq] at taken
      obtain ⟨calls, rfl⟩ := taken
      have open_ := calls_everywhere sound.recorded calls
      have opens : CallbackList.step (shared.events event) (.dispatch only) =
          some (CallbackList.beginWalk only (shared.events event)) := by
        rw [CallbackList.step, if_pos (open_ event)]
      obtain ⟨tracked, same⟩ := list_turn (sound.recorded.tracked event) opens fun _ _ => rfl
      exact turn_sound sound tracked rfl same (fun waits => absurd rfl waits)
        fun other _ _ => open_ other
  | iterate =>
      simp only [step] at taken
      split at taken
      · cases taken
      · next event outer running =>
          obtain ⟨list, turned, rfl⟩ := Option.map_eq_some_iff.mp taken
          have turns : CallbackList.step (shared.events event) .iterate = some list := turned
          obtain ⟨tracked, same⟩ := list_turn (sound.recorded.tracked event) turns fun _ _ => rfl
          refine turn_sound sound tracked (iterate_issued turned) same (fun waits => ?_)
            fun other _ waits => sound.recorded.calls other waits
          exact absurd (by rw [running]; rfl) waits
  | returnCall claims =>
      simp only [step] at taken
      split at taken
      · cases taken
      · next event outer running =>
          obtain ⟨list, turned, rfl⟩ := Option.map_eq_some_iff.mp taken
          have turns : CallbackList.step (shared.events event) (.returnCall claims) = some list :=
            turned
          obtain ⟨tracked, same⟩ := list_turn (sound.recorded.tracked event) turns fun _ _ => rfl
          have issued : list.issued = (shared.events event).issued := by
            obtain ⟨_, _, _, _, rfl⟩ := CallbackList.returnCall_cases turned
            rfl
          refine turn_sound sound tracked issued same (fun waits => ?_)
            fun other _ waits => sound.recorded.calls other waits
          exact absurd (by rw [running]; rfl) waits
  | endWalk =>
      simp only [step] at taken
      split at taken
      · cases taken
      · next event outer running =>
          obtain ⟨list, turned, rfl⟩ := Option.map_eq_some_iff.mp taken
          have turns : CallbackList.step (shared.events event) .endWalk = some list := turned
          obtain ⟨tracked, same⟩ := list_turn (sound.recorded.tracked event) turns fun _ _ => rfl
          obtain ⟨_, _, _, _, issued⟩ := CallbackList.endWalk_cases turned
          refine turn_sound sound tracked issued same
            (fun _ => CallbackList.endWalk_calling (sound.recorded.tracked event) turned)
            fun other apart _ => sound.recorded.calls other ?_
          rw [running]
          exact fun same => apart (Option.some.inj same).symm

theorem step_sound [DecidableEq Call] {label : Label Address Call Implementation}
    (sound : Sound shared) (taken : step shared label = some after) :
    Sound after ∧ ∀ other ∈ shared.plugins, ¬Acts other label → Keeps other shared after := by
  -- Most steps keep what every plugin has, and a pass's own steps touch no table.
  have everyone (kept : Sound after ∧ ∀ other ∈ shared.plugins, Keeps other shared after) :
      Sound after ∧ ∀ other ∈ shared.plugins, ¬Acts other label → Keeps other shared after :=
    ⟨kept.1, fun other there _ => kept.2 other there⟩
  have quiet (kept : Sound after ∧ Still shared after) :
      Sound after ∧ ∀ other ∈ shared.plugins, ¬Acts other label → Keeps other shared after :=
    everyone ⟨kept.1, keeps_all (fun _ there => kept.2.plugins ▸ there) kept.2.calls kept.2.services
      fun _ => by rw [kept.2.commands]⟩
  cases label with
  | addPlugin address name logTag version =>
      simp only [step, Option.ite_none_right_eq_some, Bool.and_eq_true, Option.some.injEq] at taken
      obtain ⟨⟨_, free⟩, rfl⟩ := taken
      apply everyone
      cases added : addPlugin address name logTag version shared with
      | none => exact ⟨sound, fun other there => ⟨there, fun _ => rfl, rfl, rfl⟩⟩
      | some next =>
          refine addPlugin_sound sound (fun plugin member => ?_) added
          exact of_decide_eq_true (List.all_eq_true.mp free plugin member)
  | removePlugin name =>
      simp only [step, Option.ite_none_right_eq_some, Option.some.injEq] at taken
      obtain ⟨calls, rfl⟩ := taken
      cases found : findPlugin name shared with
      | none =>
          have same : (removePlugin name shared).2 = shared := by rw [removePlugin, found]
          apply everyone
          rw [same]
          exact ⟨sound, fun other there => ⟨there, fun _ => rfl, rfl, rfl⟩⟩
      | some plugin =>
          obtain ⟨next, _, beside⟩ := removePlugin_spec sound calls found
          have member := List.mem_of_find?_eq_some found
          refine ⟨next, fun other there apart => beside_keeps beside sound.distinct member there
            fun same => apart ?_⟩
          have one := List.inj_on_of_nodup_map sound.distinct.addresses there member same
          have named : plugin.name = name := by simpa using List.find?_some found
          rw [Acts, one, named]
  | request address request =>
      simp only [step] at taken
      split at taken
      · cases taken
      · next plugin found =>
          simp only [Option.ite_none_right_eq_some, Option.some.injEq] at taken
          obtain ⟨calls, rfl⟩ := taken
          have member := List.mem_of_find?_eq_some found
          have here : plugin.address = address := by simpa using List.find?_some found
          obtain ⟨next, beside⟩ := perform_serves sound member calls request
          exact ⟨next, fun other there apart => beside_keeps beside sound.distinct member there
            fun same => apart (here.symm.trans same.symm)⟩
  | registerHostCommand name =>
      simp only [step, Option.ite_none_right_eq_some, Option.some.injEq] at taken
      obtain ⟨_, rfl⟩ := taken
      obtain ⟨distinct, recorded, tables, holds⟩ := sound
      refine everyone ⟨⟨⟨distinct.names, distinct.addresses, distinct.orders, distinct.below⟩,
        recorded_same recorded rfl rfl rfl (fun held inside => ⟨held, inside, rfl, rfl⟩) rfl,
        ⟨tables.services, tables.publishers, CommandNames.reserve_unique tables.commands,
          fun entry inside owner owned => tables.registrants entry
            (CommandNames.reserve_owners inside owned) owner owned⟩, holds.queue, holds.counts⟩,
        keeps_all (fun _ there => there) (fun _ _ => rfl) rfl
          fun owner => CommandNames.reserve_namesOf owner name shared.commands⟩
  | dispatch event only => exact quiet (turn_step sound rfl taken)
  | iterate => exact quiet (turn_step sound rfl taken)
  | returnCall claims => exact quiet (turn_step sound rfl taken)
  | endWalk => exact quiet (turn_step sound rfl taken)

/-- Every name has one owner, a step leaves what a plugin took unless it is that plugin's own,
a removal leaves nothing of its plugin, and what no plugin holds is not there. -/
structure Owned (shared : Shared Address Call Implementation Time) : Prop where
  tables : Tables shared
  holds : ∀ id, holders id shared = total id shared.plugins
  orphans : ∀ order, order ∉ shared.plugins.map (fun plugin => plugin.order) →
    ∀ event, callsOf order (shared.events event) = []
  frame : ∀ label after, step shared label = some after →
    ∀ other ∈ shared.plugins, ¬Acts other label → Keeps other shared after
  removal : ∀ name plugin after, findPlugin name shared = some plugin →
    step shared (.removePlugin name) = some after → Gone plugin after

theorem sound_owned [DecidableEq Call] (sound : Sound shared) : Owned shared := by
  refine ⟨sound.tables, sound.holds.counts, sound.recorded.orphans,
    fun label after taken => (step_sound sound taken).2, fun name plugin after found taken => ?_⟩
  simp only [step, Option.ite_none_right_eq_some, Option.some.injEq] at taken
  obtain ⟨calls, rfl⟩ := taken
  exact (removePlugin_spec sound calls found).2.1

end Runs

/-- The registries stay with their owners throughout every run. -/
theorem registries_owned_throughout (addons : Bool)
    (labels : List (Label Address Call Implementation)) :
    Always step Owned (start addons : Shared Address Call Implementation Time) labels := by
  classical
  exact always_of_preserves (fun _ _ _ sound taken => (step_sound sound taken).1)
    (fun _ sound => sound_owned sound) (start_sound addons) labels

end VoltMod.SharedState
