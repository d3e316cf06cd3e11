import Mathlib.Data.List.Nodup
import VoltMod.GlowVision

/-! A glow's clones reach no one else while its viewer stays in the slot. -/
namespace VoltMod.Hooks
open Transition

section Entries
variable {visibility : Visibility} {entry other : PrivateEntity}

theorem mem_replaced_self (entries : List PrivateEntity) : entry ∈ replaced entry entries := by
  induction entries with
  | nil => exact List.mem_singleton_self entry
  | cons first rest ih =>
      rw [replaced]
      split
      · exact List.mem_cons_self
      · exact List.mem_cons_of_mem first ih

theorem mem_replaced_other {entries : List PrivateEntity} (member : other ∈ entries)
    (apart : other.entity ≠ entry.entity) : other ∈ replaced entry entries := by
  induction entries with
  | nil => cases member
  | cons first rest ih =>
      rw [replaced]
      rcases List.mem_cons.mp member with rfl | later
      · rw [if_neg apart]
        exact List.mem_cons_self
      · split
        · exact List.mem_cons_of_mem entry later
        · exact List.mem_cons_of_mem first (ih later)

/-- The other entities' entries stay. -/
def Spares (ref : EntityRef) (before after : Visibility) : Prop :=
  ∀ entry ∈ before.privateEntities, entry.entity ≠ ref → entry ∈ after.privateEntities

theorem spares_same (ref : EntityRef) (visibility : Visibility) :
    Spares ref visibility visibility := fun _ member _ => member

theorem setPrivate_spares (entry : PrivateEntity) (visibility : Visibility) :
    Spares entry.entity visibility (setPrivate entry visibility) :=
  fun _ member apart => mem_replaced_other member apart

theorem showOnlyTo_spares (ref : EntityRef) (slot : Int) (visibility : Visibility) :
    Spares ref visibility (showOnlyTo ref slot visibility) := by
  unfold showOnlyTo
  split
  · exact setPrivate_spares ⟨ref, slot, .none, .none, -1⟩ visibility
  · exact spares_same ref visibility

theorem showOnlyToTeam_spares (ref : EntityRef) (team : Team) (visibility : Visibility) :
    Spares ref visibility (showOnlyToTeam ref team visibility) := by
  unfold showOnlyToTeam
  split
  · exact setPrivate_spares ⟨ref, -1, team, .none, -1⟩ visibility
  · exact spares_same ref visibility

theorem hideFromTeam_spares (ref : EntityRef) (team : Team) (visibility : Visibility) :
    Spares ref visibility (hideFromTeam ref team visibility) := by
  unfold hideFromTeam
  split
  · exact setPrivate_spares ⟨ref, -1, .none, team, -1⟩ visibility
  · exact spares_same ref visibility

theorem showToEveryone_spares (ref : EntityRef) (visibility : Visibility) :
    Spares ref visibility (showToEveryone ref visibility) :=
  fun _ member apart => List.mem_filter.mpr ⟨member, decide_eq_true apart⟩

theorem call_spares (ref : EntityRef) (visibility : Visibility) (request : Call) :
    Spares ref visibility (call ref visibility request) := by
  cases request with
  | showOnlyTo slot => exact showOnlyTo_spares ref slot visibility
  | showOnlyToTeam team => exact showOnlyToTeam_spares ref team visibility
  | hideFromTeam team => exact hideFromTeam_spares ref team visibility
  | showToEveryone => exact showToEveryone_spares ref visibility

theorem showToViewers_spares (audience : Audience) (ref : EntityRef) (visibility : Visibility) :
    Spares ref visibility (showToViewers audience ref visibility) := by
  unfold showToViewers
  split
  · exact showOnlyTo_spares ref audience.viewerSlot visibility
  · exact showOnlyToTeam_spares ref audience.viewerTeam visibility

/-- The entry keeps its entity to the audience. -/
def Shows (audience : Audience) (entry : PrivateEntity) : Prop :=
  if 0 ≤ audience.viewerSlot then entry.viewer = audience.viewerSlot
  else entry.viewer = -1 ∧ entry.shownTo = audience.viewerTeam

theorem shows_hidden {audience : Audience} (known : valid audience = true)
    (shows : Shows audience entry) (recipient : Int) (team : Team) :
    hiddenFor entry recipient team = !includes audience recipient team := by
  unfold Shows at shows
  unfold valid at known
  unfold hiddenFor includes
  by_cases slot : 0 ≤ audience.viewerSlot
  · rw [if_pos slot] at shows
    rw [shows, if_pos slot, if_pos slot]
    exact decide_not
  · rw [if_neg slot] at shows known
    obtain ⟨viewer, shownTo⟩ := shows
    have playing : audience.viewerTeam ≠ .none := by
      intro none
      rw [none] at known
      cases known
    rw [viewer, shownTo, if_neg (by decide), if_pos playing, if_neg slot]
    exact decide_not

theorem showToViewers_shows {audience : Audience} {ref : EntityRef} (named : isSet ref = true)
    (known : valid audience = true) (visibility : Visibility) :
    ∃ entry ∈ (showToViewers audience ref visibility).privateEntities,
      entry.entity = ref ∧ Shows audience entry := by
  unfold valid at known
  unfold showToViewers Shows
  split
  · next slot =>
      rw [if_pos slot] at known
      rw [showOnlyTo, named, known]
      exact ⟨_, mem_replaced_self _, rfl, rfl⟩
  · next slot =>
      rw [if_neg slot] at known
      rw [showOnlyToTeam, named, known]
      exact ⟨_, mem_replaced_self _, rfl, rfl, rfl⟩

end Entries

section Scenes
variable {scene : Scene} {entities : List Entity} {clone : Entity} {ref : EntityRef}

/-- Live entities have names of their own, and a clone is in the world. -/
structure Live (entities : List Entity) : Prop where
  distinct : (entities.map Entity.ref).Nodup
  named : ∀ clone ∈ entities, clone.made.isSome = true → isSet clone.ref = true
  placed : ∀ clone ∈ entities, clone.made.isSome = true → 0 < clone.index

theorem get_live (live : Live entities) (member : clone ∈ entities)
    (made : clone.made.isSome = true) : get clone.ref entities = some clone := by
  rw [get, if_pos (live.named clone member made)]
  cases found : entities.find? fun entity => entity.ref = clone.ref with
  | none => exact absurd (decide_eq_true rfl) (List.find?_eq_none.mp found clone member)
  | some other =>
      have same : other.ref = clone.ref := by simpa using List.find?_some found
      rw [List.inj_on_of_nodup_map live.distinct (List.mem_of_find?_eq_some found) member same]

/-- A clone for a valid viewer who kept the slot has its entry; those in `skip` may not. -/
def Covered (skip : List EntityRef) (scene : Scene) : Prop :=
  ∀ clone ∈ scene.entities, clone.ref ∉ skip → ∀ audience, clone.made = some audience →
    valid audience = true → clone.handed = false →
      ∃ entry ∈ scene.visibility.privateEntities, entry.entity = clone.ref ∧ Shows audience entry

structure Sound (scene : Scene) : Prop where
  live : Live scene.entities
  covered : Covered [] scene

theorem covered_spares {skip : List EntityRef} {after : Visibility} (covered : Covered skip scene)
    (spares : Spares ref scene.visibility after) :
    Covered (ref :: skip) ⟨after, scene.entities⟩ := by
  intro clone member outside audience made known kept
  obtain ⟨apart, unskipped⟩ := List.ne_and_not_mem_of_not_mem_cons outside
  obtain ⟨entry, inside, same, shows⟩ :=
    covered clone member unskipped audience made known kept
  exact ⟨entry, spares entry inside (same ▸ apart), same, shows⟩

theorem covered_wider {skip wider : List EntityRef} (covered : Covered skip scene)
    (inside : skip ⊆ wider) : Covered wider scene :=
  fun clone member outside => covered clone member fun skipped => outside (inside skipped)

theorem remove_sublist (ref : EntityRef) (entities : List Entity) :
    (remove ref entities).Sublist entities := by
  unfold remove
  split
  · exact List.Sublist.refl entities
  · exact List.filter_sublist

theorem live_sublist {fewer : List Entity} (live : Live entities)
    (sublist : fewer.Sublist entities) : Live fewer :=
  ⟨live.distinct.sublist (sublist.map Entity.ref),
    fun clone member => live.named clone (sublist.subset member),
    fun clone member => live.placed clone (sublist.subset member)⟩

theorem remove_gone (live : Live entities) (member : clone ∈ remove ref entities)
    (made : clone.made.isSome = true) : clone.ref ≠ ref := by
  rintro rfl
  have inside := (remove_sublist clone.ref entities).subset member
  rw [remove, get_live live inside made] at member
  simpa using List.mem_filter.mp member

theorem covered_remove {skip : List EntityRef} (covered : Covered (ref :: skip) scene)
    (live : Live scene.entities) :
    Covered skip ⟨scene.visibility, remove ref scene.entities⟩ := by
  intro clone member outside audience made known kept
  have gone := remove_gone live member (made ▸ rfl)
  exact covered clone ((remove_sublist ref scene.entities).subset member)
    (List.not_mem_cons_of_ne_of_not_mem gone outside) audience made known kept

theorem remove_sound (sound : Sound scene) (ref : EntityRef) :
    Sound ⟨scene.visibility, remove ref scene.entities⟩ :=
  ⟨live_sublist sound.live (remove_sublist ref scene.entities),
    fun clone member => sound.covered clone ((remove_sublist ref scene.entities).subset member)⟩

theorem destroyPair_sound (sound : Sound scene) (pair : GlowPair) :
    Sound (destroyPair pair scene).2 := by
  unfold destroyPair
  split
  · exact sound
  · have first := covered_spares sound.covered (showToEveryone_spares pair.relay scene.visibility)
    have second := covered_spares first
      (showToEveryone_spares pair.glow (showToEveryone pair.relay scene.visibility))
    have third := covered_remove second sound.live
    have left := live_sublist sound.live (remove_sublist pair.glow scene.entities)
    exact ⟨live_sublist left (remove_sublist pair.relay _), covered_remove third left⟩

theorem spawn_live (live : Live entities) (audience : Audience) (made : Spawned)
    (fresh : made.ref ∉ entities.map Entity.ref) : Live (entities ++ [cloneOf audience made]) := by
  refine ⟨?_, fun clone member => ?_, fun clone member => ?_⟩
  · rw [List.map_append]
    exact List.nodup_append.mpr ⟨live.distinct, List.nodup_singleton _, fun old known new same => by
      obtain rfl := List.mem_singleton.mp same
      rintro rfl
      exact fresh known⟩
  · rcases List.mem_append.mp member with old | new
    · exact live.named clone old
    · obtain rfl := List.mem_singleton.mp new
      exact fun _ => made.named
  · rcases List.mem_append.mp member with old | new
    · exact live.placed clone old
    · obtain rfl := List.mem_singleton.mp new
      exact fun _ => made.placed

theorem covered_spawn {skip : List EntityRef} (covered : Covered skip scene)
    (audience : Audience) (made : Spawned) :
    Covered (made.ref :: skip) ⟨scene.visibility, scene.entities ++ [cloneOf audience made]⟩ := by
  intro clone member outside
  obtain ⟨apart, unskipped⟩ := List.ne_and_not_mem_of_not_mem_cons outside
  rcases List.mem_append.mp member with old | new
  · exact covered clone old unskipped
  · obtain rfl := List.mem_singleton.mp new
    exact absurd rfl apart

/-- A clone is shown to its glow's viewers. -/
theorem covered_shown {skip : List EntityRef} {audience : Audience} (live : Live scene.entities)
    (covered : Covered (ref :: skip) scene) (member : clone ∈ scene.entities)
    (here : clone.ref = ref) (made : clone.made = some audience) :
    Covered skip ⟨showToViewers audience ref scene.visibility, scene.entities⟩ := by
  intro other inside outside maker made' known kept
  by_cases same : other.ref = ref
  · obtain rfl := List.inj_on_of_nodup_map live.distinct inside member (same.trans here.symm)
    obtain rfl : maker = audience := Option.some.inj (made'.symm.trans made)
    rw [same]
    exact showToViewers_shows (same ▸ live.named other inside (made ▸ rfl)) known _
  · obtain ⟨entry, there, named, shows⟩ :=
      covered other inside (List.not_mem_cons_of_ne_of_not_mem same outside) maker made' known kept
    exact ⟨entry, showToViewers_spares audience ref scene.visibility entry there (named ▸ same),
      named, shows⟩

theorem createPair_sound (moment : Moment) (audience : Audience) (config : GlowConfig) (slot : Nat)
    (pair : GlowPair) (sound : Sound scene) :
    Sound (createPair moment audience config slot pair scene).2 := by
  unfold createPair
  split
  · exact sound
  next body _ =>
    dsimp only
    split
    · exact sound
    split
    · exact sound
    next relay spawned =>
      have fresh := moment.fresh _ _ _ _ relay spawned
      have live := spawn_live sound.live audience relay fresh
      have covered := covered_spawn sound.covered audience relay
      split
      · exact ⟨live_sublist live (remove_sublist relay.ref _), covered_remove covered live⟩
      · next glow also =>
          have apart := moment.fresh _ _ _ _ glow also
          have both := spawn_live live audience glow apart
          have uncovered := covered_spawn covered audience glow
          have swapped := covered_wider uncovered (List.Perm.swap relay.ref glow.ref []).subset
          have first := covered_shown both swapped
            (List.mem_append_left _ (List.mem_append_right _ (List.mem_singleton_self _))) rfl rfl
          exact ⟨both, covered_shown both first
            (List.mem_append_right _ (List.mem_singleton_self _)) rfl rfl⟩

theorem refreshSlot_sound (moment : Moment) (audience : Audience) (config : GlowConfig)
    (slot : Nat) (pair : GlowPair) (sound : Sound scene) :
    Sound (refreshSlot moment audience config slot pair scene).2 := by
  unfold refreshSlot
  dsimp only
  have kept : Sound (if (active pair && stale moment audience slot pair scene) = true then
      destroyPair pair scene else (pair, scene)).2 := by
    split
    · exact destroyPair_sound sound pair
    · exact sound
  generalize (if (active pair && stale moment audience slot pair scene) = true then
    destroyPair pair scene else (pair, scene)) = left at kept ⊢
  split
  · exact createPair_sound moment audience config slot _ kept
  · exact kept

theorem eachPair_sound {visit : Nat → GlowPair → Scene → GlowPair × Scene}
    (visits : ∀ slot pair scene, Sound scene → Sound (visit slot pair scene).2)
    (slots : List Nat) (pairs : Nat → GlowPair) (sound : Sound scene) :
    Sound (eachPair visit slots (pairs, scene)).2 := by
  induction slots generalizing pairs scene with
  | nil => exact sound
  | cons slot rest ih => exact ih _ (visits slot (pairs slot) scene sound)

theorem refresh_sound (moment : Moment) (glow : GlowVision) (sound : Sound scene) :
    Sound (refresh moment glow scene).2 := by
  have visited := eachPair_sound
    (fun slot pair _ => refreshSlot_sound moment glow.audience glow.config slot pair)
    (List.range maxPlayers) glow.pairs sound
  unfold refresh
  generalize eachPair _ _ _ = all at visited ⊢
  exact visited

theorem destroy_sound (glow : GlowVision) (sound : Sound scene) : Sound (destroy glow scene).2 := by
  have visited := eachPair_sound (fun _ pair _ sound => destroyPair_sound sound pair)
    (List.range maxPlayers) glow.pairs sound
  unfold destroy
  generalize eachPair _ _ _ = all at visited ⊢
  exact visited

theorem mem_handOver {slot : Int} (seat : isValidSlot slot = true)
    (member : clone ∈ handOver slot entities) (kept : clone.handed = false) :
    clone ∈ entities ∧ ∀ audience, clone.made = some audience → audience.viewerSlot ≠ slot := by
  rw [handOver, if_pos seat] at member
  obtain ⟨entity, stood, rfl⟩ := List.mem_map.mp member
  by_cases mine : (entity.made.any fun audience => audience.viewerSlot = slot) = true
  · rw [if_pos mine] at kept
    cases kept
  · rw [if_neg mine]
    refine ⟨stood, fun audience made same => mine ?_⟩
    rw [made]
    exact decide_eq_true same

theorem handOver_live (slot : Int) (live : Live entities) : Live (handOver slot entities) := by
  unfold handOver
  split
  · have stood : ∀ clone ∈ entities.map fun entity =>
        if (entity.made.any fun audience => audience.viewerSlot = slot) = true then
          { entity with handed := true } else entity,
        ∃ entity ∈ entities, clone.ref = entity.ref ∧ clone.index = entity.index ∧
          clone.made = entity.made := by
      intro clone member
      obtain ⟨entity, inside, rfl⟩ := List.mem_map.mp member
      refine ⟨entity, inside, ?_⟩
      split
      · exact ⟨rfl, rfl, rfl⟩
      · exact ⟨rfl, rfl, rfl⟩
    refine ⟨?_, fun clone member made => ?_, fun clone member made => ?_⟩
    · rw [List.map_map]
      refine (List.map_congr_left fun entity _ => ?_) ▸ live.distinct
      rw [Function.comp_apply]
      split
      · rfl
      · rfl
    · obtain ⟨entity, inside, ref, _, same⟩ := stood clone member
      rw [ref]
      exact live.named entity inside (same ▸ made)
    · obtain ⟨entity, inside, _, index, same⟩ := stood clone member
      rw [index]
      exact live.placed entity inside (same ▸ made)
  · exact live

/-- The entries of the viewers who have left are dropped, their clones handed over. -/
theorem slotChanged_sound (slot : Int) (sound : Sound scene) :
    Sound ⟨slotChanged slot scene.visibility, handOver slot scene.entities⟩ := by
  refine ⟨handOver_live slot sound.live, fun clone member _ audience made known kept => ?_⟩
  by_cases seat : isValidSlot slot = true
  · obtain ⟨stood, unmoved⟩ := mem_handOver seat member kept
    obtain ⟨entry, inside, same, shows⟩ :=
      sound.covered clone stood List.not_mem_nil audience made known kept
    have stays : entry.viewer ≠ slot := by
      unfold Shows at shows
      split at shows
      · rw [shows]
        exact unmoved audience made
      · rw [shows.1]
        rintro rfl
        cases seat
    rw [slotChanged, if_pos seat]
    exact ⟨entry, List.mem_filter.mpr ⟨inside, decide_eq_true stays⟩, same, shows⟩
  · rw [handOver, if_neg seat] at member
    rw [slotChanged, if_neg seat]
    exact sound.covered clone member List.not_mem_nil audience made known kept

end Scenes

section Passes
variable {entities : List Entity} {clone : Entity} {bits : List Nat}

theorem clear_subset (index : Int) (bits : List Nat) : clear index bits ⊆ bits :=
  List.filter_subset_self _

theorem foldl_subset {Item : Type} {remain : List Nat → Item → List Nat}
    (less : ∀ bits item, remain bits item ⊆ bits) (items : List Item) (bits : List Nat) :
    items.foldl remain bits ⊆ bits := by
  induction items generalizing bits with
  | nil => exact List.Subset.refl bits
  | cons item rest ih => exact List.Subset.trans (ih (remain bits item)) (less bits item)

theorem clearPrivate_subset (recipient : Int) (team : Team) (bits : List Nat)
    (entry : PrivateEntity) : clearPrivate recipient team bits entry ⊆ bits := by
  unfold clearPrivate
  split
  · exact clear_subset entry.index bits
  · exact List.Subset.refl bits

/-- A recipient an entry hides its entity from does not get it. -/
theorem foldl_clears {entries : List PrivateEntity} {entry : PrivateEntity} (recipient : Int)
    (team : Team) (inside : entry ∈ entries) (hides : hiddenFor entry recipient team = true)
    (bits : List Nat) :
    ∀ bit ∈ entries.foldl (clearPrivate recipient team) bits, (bit : Int) ≠ entry.index := by
  induction entries generalizing bits with
  | nil => cases inside
  | cons first rest ih =>
      intro bit member
      rcases List.mem_cons.mp inside with rfl | later
      · have left := foldl_subset (clearPrivate_subset recipient team) rest _ member
        rw [clearPrivate, if_pos hides] at left
        exact of_decide_eq_true (List.mem_filter.mp left).2
      · exact ih later _ bit member

/-- A live entity's entry outlasts the pass with its index. -/
theorem resolveEntries_member {entries : List PrivateEntity} {entry : PrivateEntity}
    (live : Live entities) (inside : entry ∈ entries) (member : clone ∈ entities)
    (made : clone.made.isSome = true) (same : entry.entity = clone.ref) :
    { entry with index := clone.index } ∈ resolveEntries entities entries := by
  refine List.mem_filter.mpr ⟨List.mem_map.mpr ⟨entry, inside, ?_⟩, ?_⟩
  · rw [same, get_live live member made]
    rfl
  · exact decide_eq_true (Int.natCast_pos.mpr (live.placed clone member made))

theorem onCheckTransmit_sound {scene : Scene} (game : Game)
    (infoList : Option (List (Option CheckTransmitInfo))) (sound : Sound scene) :
    Sound ⟨(onCheckTransmit true game scene.entities infoList scene.visibility).1,
      scene.entities⟩ := by
  have resolved : (onCheckTransmit true game scene.entities infoList
      scene.visibility).1.privateEntities =
        resolveEntries scene.entities scene.visibility.privateEntities := by
    unfold onCheckTransmit
    dsimp only
    split
    · rfl
    · split
      · rfl
      · rfl
  refine ⟨sound.live, fun clone member outside audience made known kept => ?_⟩
  obtain ⟨entry, inside, same, shows⟩ :=
    sound.covered clone member outside audience made known kept
  rw [resolved]
  exact ⟨_, resolveEntries_member sound.live inside member (made ▸ rfl) same, same, shows⟩

/-- What a pass leaves for a recipient a clone's glow is not for. -/
theorem filterInfo_private {game : Game} {hidden : List HiddenPlayer}
    {entries : List PrivateEntity} {entry : PrivateEntity} {info : CheckTransmitInfo}
    {audience : Audience} (inside : entry ∈ entries) (shows : Shows audience entry)
    (known : valid audience = true)
    (left : (filterInfo game entities hidden entries info).transmitEntity = some bits)
    (foreign : includes audience (recipientOf info) (teamNum game (recipientOf info)) = false) :
    ∀ bit ∈ bits, (bit : Int) ≠ entry.index := by
  unfold filterInfo at left
  split at left
  · next none => simp [none] at left
  · obtain rfl := Option.some.inj left
    refine foldl_clears _ _ inside ?_ _
    rw [shows_hidden known shows, foreign]
    rfl

theorem filterInfo_recipient (game : Game) (entities : List Entity) (hidden : List HiddenPlayer)
    (entries : List PrivateEntity) (info : CheckTransmitInfo) :
    recipientOf (filterInfo game entities hidden entries info) = recipientOf info := by
  unfold filterInfo
  split
  · rfl
  · rfl

/-- The pass's own part of the promise. -/
theorem onCheckTransmit_private {scene : Scene} (game : Game)
    (infoList : Option (List (Option CheckTransmitInfo))) (sound : Sound scene)
    (held : ∀ clone ∈ scene.entities, ∀ audience, clone.made = some audience →
      valid audience = true ∧ clone.handed = false) :
    ∀ clone ∈ scene.entities, ∀ audience, clone.made = some audience →
      ∀ info, some info ∈ (onCheckTransmit true game scene.entities infoList scene.visibility).2.getD [] →
        ∀ bits, info.transmitEntity = some bits →
          includes audience (recipientOf info) (teamNum game (recipientOf info)) = false →
            clone.index ∉ bits := by
  intro clone member audience made info there bits set foreign
  obtain ⟨known, kept⟩ := held clone member audience made
  obtain ⟨entry, inside, same, shows⟩ :=
    sound.covered clone member List.not_mem_nil audience made known kept
  have resolved := resolveEntries_member sound.live inside member (made ▸ rfl) same
  cases infoList with
  | none => cases there
  | some infos =>
      -- The clone's own entry keeps the pass from returning early.
      have some : (resolveEntries scene.entities scene.visibility.privateEntities).isEmpty = false :=
        List.isEmpty_eq_false_iff.mpr (List.ne_nil_of_mem resolved)
      simp only [onCheckTransmit, some, Bool.not_true, Bool.false_and, Bool.or_self,
        Bool.false_eq_true, if_false, Option.getD_some, List.mem_map] at there
      obtain ⟨met, _, same⟩ := there
      obtain ⟨first, rfl, rfl⟩ := Option.map_eq_some_iff.mp same
      rw [filterInfo_recipient] at foreign
      exact fun known => filterInfo_private resolved shows ‹_› set foreign _ known rfl

end Passes

section Runs
variable {server after : Server}

/-- What a run keeps. -/
structure Kept (server : Server) : Prop where
  sound : Sound server.toScene
  bound : server.bound = true
  promised : Private server

theorem start_kept : Kept (start true) :=
  ⟨⟨⟨List.nodup_nil, nofun, nofun⟩, nofun⟩, rfl, nofun⟩

theorem covered_entries {scene : Scene} {visibility : Visibility} (sound : Sound scene)
    (same : visibility.privateEntities = scene.visibility.privateEntities) :
    Sound ⟨visibility, scene.entities⟩ := by
  refine ⟨sound.live, fun clone member outside audience made known kept => ?_⟩
  rw [same]
  exact sound.covered clone member outside audience made known kept

theorem call_sound {scene : Scene} {ref : EntityRef} (sound : Sound scene)
    (strange : isClone ref scene.entities = false) (request : Call) :
    Sound ⟨call ref scene.visibility request, scene.entities⟩ := by
  refine ⟨sound.live, fun clone member outside audience made known kept => ?_⟩
  have apart : clone.ref ≠ ref := by
    intro same
    refine Bool.eq_false_iff.mp strange (List.any_eq_true.mpr ⟨clone, member, ?_⟩)
    rw [made, Option.isSome_some, Bool.and_true]
    exact decide_eq_true same
  exact covered_spares sound.covered (call_spares ref scene.visibility request) clone member
    (List.not_mem_cons_of_ne_of_not_mem apart List.not_mem_nil) audience made known kept

theorem engineSpawn_sound {scene : Scene} {ref : EntityRef} (sound : Sound scene)
    (fresh : (scene.entities.any fun entity => entity.ref = ref) = false) (index : Nat) :
    Sound ⟨scene.visibility, scene.entities ++ [⟨ref, index, none, false⟩]⟩ := by
  have unused : ref ∉ scene.entities.map Entity.ref := by
    intro known
    obtain ⟨entity, member, same⟩ := List.mem_map.mp known
    exact Bool.eq_false_iff.mp fresh (List.any_eq_true.mpr ⟨entity, member, decide_eq_true same⟩)
  have split {clone : Entity} (member : clone ∈ scene.entities ++ [⟨ref, index, none, false⟩])
      (made : clone.made.isSome = true) : clone ∈ scene.entities := by
    rcases List.mem_append.mp member with old | new
    · exact old
    · obtain rfl := List.mem_singleton.mp new
      cases made
  refine ⟨⟨?_, fun clone member made => sound.live.named clone (split member made) made,
    fun clone member made => sound.live.placed clone (split member made) made⟩,
    fun clone member outside audience made => sound.covered clone (split member (made ▸ rfl))
      outside audience made⟩
  rw [List.map_append]
  refine List.nodup_append.mpr ⟨sound.live.distinct, List.nodup_singleton _, ?_⟩
  intro old known new same
  obtain rfl := List.mem_singleton.mp same
  rintro rfl
  exact unused known

theorem step_kept {event : Event} (kept : Kept server) (held : Held server event)
    (taken : step server event = some after) : Kept after := by
  obtain ⟨sound, bound, promised⟩ := kept
  -- Only the scene changes in most events, and one lemma for each says it stays sound.
  cases event with
  | createGlow viewerSlot config =>
      cases taken
      exact ⟨sound, bound, promised⟩
  | createTeamGlow viewerTeam config =>
      cases taken
      exact ⟨sound, bound, promised⟩
  | refresh glow moment =>
      obtain ⟨vision, _, rfl⟩ := Option.map_eq_some_iff.mp taken
      have refreshed := refresh_sound moment vision sound
      generalize refresh moment vision server.toScene = done at refreshed ⊢
      exact ⟨refreshed, bound, promised⟩
  | destroy glow =>
      obtain ⟨vision, _, rfl⟩ := Option.map_eq_some_iff.mp taken
      have destroyed := destroy_sound vision sound
      generalize destroy vision server.toScene = done at destroyed ⊢
      exact ⟨destroyed, bound, promised⟩
  | release glow =>
      obtain ⟨vision, _, rfl⟩ := Option.map_eq_some_iff.mp taken
      have destroyed := destroy_sound vision sound
      generalize destroy vision server.toScene = done at destroyed ⊢
      exact ⟨destroyed, bound, promised⟩
  | slotChanged slot =>
      cases taken
      exact ⟨slotChanged_sound slot sound, bound, promised⟩
  | setPawnHidden slot hidden =>
      cases taken
      refine ⟨covered_entries sound ?_, bound, promised⟩
      unfold setPawnHidden
      split
      · rfl
      · rfl
  | setControllerHidden slot hidden =>
      cases taken
      refine ⟨covered_entries sound ?_, bound, promised⟩
      unfold setControllerHidden
      split
      · rfl
      · rfl
  | call entity request =>
      simp only [step, Option.ite_none_left_eq_some, Option.some.injEq] at taken
      obtain ⟨strange, rfl⟩ := taken
      exact ⟨call_sound sound (Bool.eq_false_iff.mpr strange) request, bound, promised⟩
  | engineSpawn ref index =>
      simp only [step, Option.ite_none_left_eq_some, Option.some.injEq] at taken
      obtain ⟨fresh, rfl⟩ := taken
      exact ⟨engineSpawn_sound sound (Bool.eq_false_iff.mpr fresh) index, bound, promised⟩
  | engineDelete ref =>
      cases taken
      exact ⟨remove_sound sound ref, bound, promised⟩
  | checkTransmit game infoList =>
      simp only [step, bound, Option.some.injEq] at taken
      have filtered := onCheckTransmit_private game infoList sound held
      have resolved := onCheckTransmit_sound game infoList sound
      generalize onCheckTransmit true game server.entities infoList server.visibility = sent at *
      subst taken
      refine ⟨resolved, rfl, fun pass member => ?_⟩
      rcases List.mem_append.mp member with old | new
      · exact promised pass old
      · obtain rfl := List.mem_singleton.mp new
        exact filtered

end Runs

/-- While no pass meets a clone whose viewer's slot has changed hands, every pass keeps every
clone from all but its glow's viewers. -/
theorem glows_private_when_held {events : List Event} (held : Guarded step Held (start true) events) :
    Always step Private (start true) events :=
  always_of_guarded (fun _ _ _ kept held taken => step_kept kept held taken)
    (fun _ kept => kept.promised) start_kept held

section HandOver

/-- Two props stand free. -/
def spareProps (_ : Nat) (_ : String) (_ : List (String × KeyValue)) (live : List EntityRef) :
    Option Spawned :=
  if ⟨20⟩ ∉ live then some ⟨⟨20⟩, 20, by decide, by decide⟩
  else if ⟨21⟩ ∉ live then some ⟨⟨21⟩, 21, by decide, by decide⟩ else none

theorem spareProps_fresh (slot : Nat) (name : String) (values : List (String × KeyValue))
    (live : List EntityRef) (made : Spawned) (spawned : spareProps slot name values live = some made) :
    made.ref ∉ live := by
  unfold spareProps at spawned
  split at spawned
  · next free =>
      obtain rfl := Option.some.inj spawned
      exact free
  · split at spawned
    · next free =>
        obtain rfl := Option.some.inj spawned
        exact free
    · cases spawned

def oneTerrorist : Moment where
  controllers slot := if slot = 2 then some ⟨3, .t, ⟨10⟩, ⟨10⟩⟩ else none
  pawns _ := ⟨true, .t, "leet.vmdl", [], [], unset⟩
  filter _ := true
  spawn := spareProps
  fresh := spareProps_fresh

def watched (between : Event) : List Event :=
  [.engineSpawn ⟨10⟩ 10, .createGlow 5 defaultConfig, .refresh 0 oneTerrorist, between,
    .checkTransmit oneTerrorist.toGame (some [some ⟨7, some [10, 20, 21]⟩])]

/-- Another slot changing hands costs the viewer's glow nothing. -/
theorem glow_private_to_kept_viewer :
    Always step Private (start true) (watched (.slotChanged 3)) := by
  have kept : ∀ clone ∈ ([⟨⟨10⟩, 10, none, false⟩, ⟨⟨20⟩, 20, some ⟨5, .none⟩, false⟩,
      ⟨⟨21⟩, 21, some ⟨5, .none⟩, false⟩] : List Entity), ∀ audience,
      clone.made = some audience → valid audience = true ∧ clone.handed = false := by
    simp [valid, isValidSlot, maxPlayers]
  exact glows_private_when_held (guarded_cons rfl trivial (guarded_cons rfl trivial
    (guarded_cons rfl trivial (guarded_cons rfl trivial (guarded_cons rfl kept trivial)))))

/-- The viewer's own slot does: its clones are networked to everyone until they die. -/
theorem clones_seen_after_hand_over :
    ¬ Always step Private (start true) (watched (.slotChanged 5)) := by
  intro always
  have promised := (always_iff_everywhere ..).mp always _ _ (List.prefix_refl _) rfl
  exact promised _ (List.mem_singleton_self _) ⟨⟨20⟩, 20, some ⟨5, .none⟩, true⟩
    (by decide +kernel) _ rfl ⟨7, some [10, 20, 21]⟩ (List.mem_singleton_self _) _ rfl
    (by decide +kernel) (by decide +kernel)

end HandOver

end VoltMod.Hooks
