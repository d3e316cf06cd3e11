import VoltMod.ClientEvents

/-! The plugins' pictures of the players stay the host's while callbacks kick. What an
event under way still owes is kept with it: who is yet to be told, which slots a replay
has still to reach, and that a player being announced is still there. -/
namespace VoltMod.ClientEvents
open Transition

variable {Player : Type}

/-- Whose picture of which slot is allowed to lag behind, by the event under way. -/
def Lags : Outer Player → Nat → Slot → Prop
  | .connecting which _ later, plugin, slot => slot = which ∧ plugin ∈ later
  | .disconnecting which _, _, slot => slot = which
  | .sweeping which _ _, _, slot => slot = which
  | .replayingStartup loading, plugin, _ => plugin = loading
  | .replayingConnected loading _ rest, plugin, slot => plugin = loading ∧ slot ∈ rest
  | .replayingFully loading rest, plugin, slot => plugin = loading ∧ slot ∈ rest
  | .leaving unloading _, plugin, _ => plugin = unloading
  | _, _, _ => False

/-- Everyone but `later` knows the slot to be empty. -/
def Gone (host : Host Player) (slot : Slot) (later : List Nat) : Prop :=
  ∀ plugin ∈ host.plugins, plugin ∉ later → present plugin slot host.told = false

/-- The player is still there for those left to tell. -/
def Stays (host : Host Player) (slot : Slot) (later : List Nat) : Prop :=
  later ≠ [] → isConnected host slot = true ∧ ∀ left, (slot, left) ∉ host.kicks

def Unheard (host : Host Player) (plugin : Nat) (rest : List Slot) : Prop :=
  rest.Nodup ∧ ∀ slot ∈ rest, present plugin slot host.told = false

/-- What the event under way relies on when it goes on. -/
def Placed (host : Host Player) : Outer Player → Prop
  | .idle => host.kicks = []
  | .connecting slot _ later => later ⊆ host.plugins ∧ Stays host slot later
  | .fullyConnecting slot later => later ⊆ host.plugins ∧ Stays host slot later
  | .disconnecting slot later => later ⊆ host.plugins ∧ Gone host slot later
  | .starting _ later => later ⊆ host.plugins
  | .sweeping slot later _ => later ⊆ host.plugins ∧ Gone host slot later
  | .replayingStartup plugin => plugin ∈ host.plugins ∧ Unheard host plugin slots
  | .replayingConnected plugin slot rest =>
      plugin ∈ host.plugins ∧ slot ∉ rest ∧ Unheard host plugin rest
  | .replayingFully plugin rest => plugin ∈ host.plugins ∧ Unheard host plugin rest
  | .leaving plugin _ => plugin ∈ host.plugins

def Agrees (host : Host Player) (lags : Nat → Slot → Prop) : Prop :=
  ∀ plugin ∈ host.plugins, ∀ slot, ¬lags plugin slot →
    present plugin slot host.told = isConnected host slot

/-- What holds of the history in every state. -/
structure Heard (host : Host Player) : Prop where
  listed : ∀ plugin ∈ host.plugins, plugin < host.nextOrder
  heard : ∀ entry ∈ host.told, entry.1 < host.nextOrder
  ordered : ∀ newer plugin slot older,
    host.told = newer ++ (plugin, .fullyConnected slot) :: older → present plugin slot older = true

structure Sound (host : Host Player) : Prop extends Heard host where
  agrees : Agrees host fun plugin slot =>
    (∃ later, (slot, later) ∈ host.kicks) ∨ Lags host.outer plugin slot
  kicked : ∀ slot later, (slot, later) ∈ host.kicks → later ⊆ host.plugins ∧ Gone host slot later
  placed : Placed host host.outer

theorem start_sound : Sound (start : Host Player) where
  listed := by simp [start]
  heard := by simp [start]
  ordered newer plugin slot older same := by simp [start] at same
  agrees := by simp [Agrees, start]
  kicked := by simp [start]
  placed := rfl

theorem sound_agreed {host : Host Player} (sound : Sound host) : Agreed host := by
  refine ⟨fun rest plugin listed slot => ?_, sound.ordered⟩
  have quiet := sound.placed
  rw [rest] at quiet
  have same := sound.agrees plugin listed slot (by simp [show host.kicks = [] from quiet, rest, Lags])
  rw [same, isConnected]

theorem present_disconnected (plugin whom : Nat) (slot which : Slot)
    (told : List (Nat × Told Player)) :
    present plugin slot ((whom, .disconnected which) :: told) =
      if whom = plugin ∧ which = slot then false else present plugin slot told := rfl

theorem present_connected (plugin whom : Nat) (slot which : Slot) (player : Player)
    (told : List (Nat × Told Player)) :
    present plugin slot ((whom, .connected which player) :: told) =
      if whom = plugin ∧ which = slot then true else present plugin slot told := rfl

theorem tell_heard {host : Host Player} {plugin : Nat} (event : Told Player)
    (heard : Heard host) (listed : plugin < host.nextOrder)
    (there : ∀ slot, event = .fullyConnected slot → present plugin slot host.told = true) :
    Heard (tell plugin event host) := by
  refine { heard with
    heard := fun entry told => ?_
    ordered := fun newer whom slot older same => ?_ }
  · rcases List.mem_cons.mp told with rfl | old
    · exact listed
    · exact heard.heard entry old
  · cases newer with
    | nil =>
        obtain ⟨latest, rest⟩ := List.cons.inj same
        obtain ⟨rfl, rfl⟩ := Prod.mk.inj latest
        exact rest ▸ there slot rfl
    | cons first newer => exact heard.ordered newer whom slot older (List.cons.inj same).2

/-- Telling of a disconnect never makes a player present. -/
theorem tell_lost {host : Host Player} {plugin whom : Nat} {slot which : Slot}
    (absent : present plugin slot host.told = false) :
    present plugin slot (tell whom (.disconnected which) host).told = false := by
  show present plugin slot ((whom, .disconnected which) :: host.told) = false
  rw [present_disconnected, absent, ite_self]

theorem tell_gone {host : Host Player} {plugin : Nat} {slot : Slot} {later : List Nat}
    (gone : Gone host slot (plugin :: later)) :
    Gone (tell plugin (.disconnected slot) host) slot later := by
  intro other listed apart
  by_cases same : other = plugin
  · show present other slot ((plugin, .disconnected slot) :: host.told) = false
    rw [present_disconnected, if_pos ⟨same.symm, rfl⟩]
  · exact tell_lost (gone other listed (by simp [same, apart]))

theorem tell_elsewhere {host : Host Player} {plugin whom : Nat} {slot which : Slot}
    (apart : slot ≠ which) :
    present plugin slot (tell whom (.disconnected which) host).told =
      present plugin slot host.told := by
  show present plugin slot ((whom, .disconnected which) :: host.told) = _
  rw [present_disconnected, if_neg fun same => apart same.2.symm]

/-- What a nested disconnect leaves of the needs of the event it interrupts. -/
theorem placed_kept {before after : Host Player} {outer : Outer Player}
    (placed : Placed before outer) (plugins : after.plugins = before.plugins)
    (lost : ∀ plugin slot, present plugin slot before.told = false →
      present plugin slot after.told = false)
    (stays : ∀ slot, isConnected before slot = true → (∀ left, (slot, left) ∉ before.kicks) →
      isConnected after slot = true ∧ ∀ left, (slot, left) ∉ after.kicks)
    (quiet : before.kicks = [] → after.kicks = []) : Placed after outer := by
  have still {slot : Slot} {later : List Nat} (there : Stays before slot later) :
      Stays after slot later := fun waits => stays slot (there waits).1 (there waits).2
  have gone {slot : Slot} {later : List Nat} (all : Gone before slot later) :
      Gone after slot later :=
    fun plugin listed apart => lost plugin slot (all plugin (plugins ▸ listed) apart)
  have unheard {plugin : Nat} {rest : List Slot} (none : Unheard before plugin rest) :
      Unheard after plugin rest :=
    ⟨none.1, fun slot left => lost plugin slot (none.2 slot left)⟩
  -- What each event needs is of one of three kinds: players that stay, pictures that are
  -- empty, slots the loading plugin has not heard of.
  cases outer with
  | idle => exact quiet placed
  | connecting slot player later => exact ⟨plugins ▸ placed.1, still placed.2⟩
  | fullyConnecting slot later => exact ⟨plugins ▸ placed.1, still placed.2⟩
  | disconnecting slot later => exact ⟨plugins ▸ placed.1, gone placed.2⟩
  | starting map later => exact (congrArg (later ⊆ ·) plugins).mpr placed
  | sweeping slot later rest => exact ⟨plugins ▸ placed.1, gone placed.2⟩
  | replayingStartup plugin => exact ⟨plugins ▸ placed.1, unheard placed.2⟩
  | replayingConnected plugin slot rest =>
      exact ⟨plugins ▸ placed.1, placed.2.1, unheard placed.2.2⟩
  | replayingFully plugin rest => exact ⟨plugins ▸ placed.1, unheard placed.2⟩
  | leaving plugin rest => exact (congrArg (plugin ∈ ·) plugins).mpr placed

/-- A kick is about to be told to everyone. -/
theorem kick_opens {host : Host Player} {slot : Slot} (sound : Sound host)
    (busy : host.outer ≠ .idle) (inTime : InTime host (.kick slot)) :
    Sound { host with kicks := (slot, host.plugins) :: host.kicks } := by
  have stays {which : Slot} {later : List Nat} (there : Stays host which later)
      (ended : which = slot → later = []) :
      Stays { host with kicks := (slot, host.plugins) :: host.kicks } which later := by
    intro waits
    refine ⟨(there waits).1, fun left member => ?_⟩
    rcases List.mem_cons.mp member with now | older
    · exact waits (ended (Prod.mk.inj now).1)
    · exact (there waits).2 left older
  refine { sound.toHeard with agrees := ?_, kicked := ?_, placed := ?_ }
  · intro plugin listed which settled
    refine sound.agrees plugin listed which fun lags => settled ?_
    rcases lags with ⟨later, member⟩ | lags
    · exact .inl ⟨later, List.mem_cons_of_mem _ member⟩
    · exact .inr lags
  · intro which later member
    rcases List.mem_cons.mp member with now | older
    · obtain ⟨rfl, rfl⟩ := Prod.mk.inj now
      exact ⟨List.Subset.refl _, fun plugin listed apart => absurd listed apart⟩
    · exact sound.kicked which later older
  · have placed := sound.placed
    show Placed _ host.outer
    cases under : host.outer with
    | idle => exact absurd under busy
    | connecting which player later =>
        rw [under] at placed
        exact ⟨placed.1, stays placed.2 fun same => inTime.1 player later (same ▸ under)⟩
    | fullyConnecting which later =>
        rw [under] at placed
        exact ⟨placed.1, stays placed.2 fun same => inTime.2 later (same ▸ under)⟩
    | disconnecting | starting | sweeping | replayingStartup | replayingConnected
    | replayingFully | leaving =>
        rw [under] at placed
        exact placed

theorem tellKicked_over (slot : Slot) (later : List Nat) (outer kicks : List (Slot × List Nat))
    (host : Host Player) :
    tellKicked slot later outer { host with kicks := kicks } = tellKicked slot later outer host := by
  cases later with
  | nil => rfl
  | cons plugin later => rfl

/-- One more plugin is told of a kick; after the last one the slot is emptied. -/
theorem tellKicked_sound {host : Host Player} {slot : Slot} {later : List Nat}
    {outer : List (Slot × List Nat)} (kicks : host.kicks = (slot, later) :: outer)
    (sound : Sound host) : Sound (tellKicked slot later outer host) := by
  have top := sound.kicked slot later (kicks ▸ List.mem_cons_self ..)
  have below {which : Slot} {left : List Nat} (member : (which, left) ∈ outer) :
      (which, left) ∈ host.kicks := kicks ▸ List.mem_cons_of_mem _ member
  have apart {which : Slot} (none : ∀ left, (which, left) ∉ host.kicks) : which ≠ slot := by
    rintro rfl
    exact none later (kicks ▸ List.mem_cons_self ..)
  cases later with
  | nil =>
      have emptied (which : Slot) (other : which ≠ slot) :
          isConnected (tellKicked slot [] outer host) which = isConnected host which := by
        simp [tellKicked, setClient, isConnected, Function.update_of_ne other]
      refine { sound.toHeard with agrees := ?_, kicked := ?_, placed := ?_ }
      -- Emptying the slot ends this kick; the slots of the outer ones still lag.
      · intro plugin listed which settled
        by_cases same : which = slot
        · subst same
          have gone := top.2 plugin listed List.not_mem_nil
          simpa [tellKicked, setClient, isConnected] using gone
        · rw [emptied which same]
          refine sound.agrees plugin listed which fun lags => settled ?_
          rcases lags with ⟨left, member⟩ | lags
          · rcases List.mem_cons.mp (kicks ▸ member) with now | older
            · exact absurd (Prod.mk.inj now).1 same
            · exact .inl ⟨left, older⟩
          · exact .inr lags
      · exact fun which left member => sound.kicked which left (below member)
      · refine placed_kept sound.placed rfl (fun _ _ absent => absent) ?_ (by simp [kicks])
        intro which connected none
        exact ⟨(emptied which (apart none)).trans connected, fun left member =>
          none left (below member)⟩
  | cons plugin later =>
      have told := sound.listed plugin (top.1 (List.mem_cons_self ..))
      have heard := tell_heard (.disconnected slot) sound.toHeard told (by simp)
      refine { heard with agrees := ?_, kicked := ?_, placed := ?_ }
      · intro other listed which settled
        have elsewhere : which ≠ slot := by
          rintro rfl
          exact settled (.inl ⟨later, List.mem_cons_self ..⟩)
        refine (tell_elsewhere elsewhere).trans (sound.agrees other listed which fun lags => ?_)
        rcases lags with ⟨left, member⟩ | lags
        · rcases List.mem_cons.mp (kicks ▸ member) with now | older
          · exact elsewhere (Prod.mk.inj now).1
          · exact settled (.inl ⟨left, List.mem_cons_of_mem _ older⟩)
        · exact settled (.inr lags)
      · intro which left member
        rcases List.mem_cons.mp member with now | older
        · obtain ⟨rfl, rfl⟩ := Prod.mk.inj now
          exact ⟨fun other left => top.1 (List.mem_cons_of_mem _ left), tell_gone top.2⟩
        · obtain ⟨subset, gone⟩ := sound.kicked which left (below older)
          exact ⟨subset, fun other listed apart => tell_lost (gone other listed apart)⟩
      · refine placed_kept sound.placed rfl (fun _ _ => tell_lost) ?_ (by simp [kicks])
        intro which connected none
        refine ⟨connected, fun left member => ?_⟩
        rcases List.mem_cons.mp member with now | older
        · exact apart none (Prod.mk.inj now).1
        · exact none left (below older)

/-- No kick is under way, and only the pictures named lag behind. -/
structure Between (host : Host Player) (lags : Nat → Slot → Prop) : Prop extends Heard host where
  quiet : host.kicks = []
  agrees : Agrees host lags

theorem Between.unkicked {host : Host Player} {lags : Nat → Slot → Prop} {slot : Slot}
    (between : Between host lags) (left : List Nat) : (slot, left) ∉ host.kicks := by
  rw [between.quiet]
  exact List.not_mem_nil

theorem sound_between {host : Host Player} (sound : Sound host) (quiet : host.kicks = []) :
    Between host (Lags host.outer) := by
  refine { sound.toHeard with quiet := quiet, agrees := ?_ }
  intro plugin listed slot settled
  apply sound.agrees plugin listed slot
  intro lags
  rcases lags with ⟨later, member⟩ | lags
  · rw [quiet] at member
    cases member
  · exact settled lags

theorem between_sound {host : Host Player} (outer : Outer Player)
    (between : Between host (Lags outer)) (placed : Placed { host with outer := outer } outer) :
    Sound { host with outer := outer } where
  listed := between.listed
  heard := between.heard
  ordered := between.ordered
  agrees plugin listed slot settled :=
    between.agrees plugin listed slot fun lags => settled (.inr lags)
  kicked _ later member := absurd member (between.unkicked later)
  placed := placed

theorem between_mono {host : Host Player} {fewer lags : Nat → Slot → Prop}
    (between : Between host fewer) (more : ∀ plugin slot, fewer plugin slot → lags plugin slot) :
    Between host lags :=
  { between with
    agrees := fun plugin listed slot settled =>
      between.agrees plugin listed slot fun lags => settled (more plugin slot lags) }

theorem idle_sound {host : Host Player} (between : Between host fun _ _ => False) :
    Sound (idle host) :=
  between_sound .idle (between_mono between fun _ _ none => none.elim) between.quiet

/-- A Disconnected dispatch, from within the event or the sweep it belongs to. -/
theorem dispatch_disconnected {host : Host Player} {slot : Slot} {later : List Nat}
    {waiting : List Nat → Outer Player} {finish : Host Player → Host Player}
    (between : Between host fun _ which => which = slot)
    (subset : later ⊆ host.plugins) (gone : Gone host slot later)
    (lags : ∀ left plugin which, which = slot → Lags (waiting left) plugin which)
    (place : ∀ (after : Host Player) left, left ⊆ after.plugins → Gone after slot left →
      Placed after (waiting left))
    (ends : Between (setClient slot none host) (fun _ _ => False) → Sound (finish host)) :
    Sound (dispatch (.disconnected slot) waiting finish later host) := by
  cases later with
  | nil =>
      refine ends { between with agrees := fun plugin listed which _ => ?_ }
      by_cases same : which = slot
      · subst same
        simpa [setClient, isConnected] using gone plugin listed List.not_mem_nil
      · have kept := between.agrees plugin listed which same
        simpa [setClient, isConnected, Function.update_of_ne same] using kept
  | cons plugin later =>
      have listed := between.listed plugin (subset (List.mem_cons_self ..))
      have heard := tell_heard (.disconnected slot) between.toHeard listed (by simp)
      have told : Between (tell plugin (.disconnected slot) host) (Lags (waiting later)) := by
        refine { heard with quiet := between.quiet, agrees := fun other listed which settled => ?_ }
        have elsewhere : which ≠ slot := fun same => settled (lags later other which same)
        exact (tell_elsewhere elsewhere).trans (between.agrees other listed which elsewhere)
      exact between_sound (waiting later) told (place _ later (fun other left =>
        subset (List.mem_cons_of_mem _ left)) (tell_gone gone))

theorem tellDisconnected_sound {host : Host Player} {slot : Slot} {later : List Nat}
    (between : Between host fun _ which => which = slot) (subset : later ⊆ host.plugins)
    (gone : Gone host slot later) : Sound (tellDisconnected slot later host) :=
  dispatch_disconnected between subset gone (fun _ _ _ same => same)
    (fun _ _ subset gone => ⟨subset, gone⟩) idle_sound

theorem everyone_gone (host : Host Player) (slot : Slot) : Gone host slot host.plugins :=
  fun _ listed apart => absurd listed apart

theorem disconnectEveryone_sound {rest : List Slot} {host : Host Player}
    (between : Between host fun _ _ => False) : Sound (disconnectEveryone rest host) := by
  induction rest generalizing host with
  | nil => exact idle_sound between
  | cons slot rest ih =>
      unfold disconnectEveryone
      split
      · exact dispatch_disconnected (between_mono between fun _ _ none => none.elim)
          (List.Subset.refl _) (everyone_gone host slot) (fun _ _ _ same => same)
          (fun _ _ subset gone => ⟨subset, gone⟩) ih
      · exact ih between

theorem tellConnected_sound {host : Host Player} {slot : Slot} {player : Player}
    {later : List Nat} (between : Between host fun plugin which => which = slot ∧ plugin ∈ later)
    (subset : later ⊆ host.plugins) (there : later ≠ [] → isConnected host slot = true) :
    Sound (tellConnected slot player later host) := by
  cases later with
  | nil => exact idle_sound (between_mono between fun _ _ lags => absurd lags.2 List.not_mem_nil)
  | cons plugin later =>
      have connected := there (by simp)
      have listed := between.listed plugin (subset (List.mem_cons_self ..))
      have heard := tell_heard (.connected slot player) between.toHeard listed (by simp)
      have told : Between (tell plugin (.connected slot player) host)
          (Lags (.connecting slot player later)) := by
        refine { heard with quiet := between.quiet, agrees := fun other listed which settled => ?_ }
        show present other which ((plugin, .connected slot player) :: host.told) = _
        rw [present_connected]
        split
        · next same => exact same.2 ▸ connected.symm
        · next apart =>
            refine between.agrees other listed which fun lags => settled ⟨lags.1, ?_⟩
            rcases List.mem_cons.mp lags.2 with same | left
            · exact absurd ⟨same.symm, lags.1.symm⟩ apart
            · exact left
      exact between_sound (.connecting slot player later) told
        ⟨fun other left => subset (List.mem_cons_of_mem _ left),
          fun _ => ⟨connected, between.unkicked⟩⟩

theorem tellFullyConnected_sound {host : Host Player} {slot : Slot} {later : List Nat}
    (between : Between host fun _ _ => False) (subset : later ⊆ host.plugins)
    (there : later ≠ [] → isConnected host slot = true) :
    Sound (tellFullyConnected slot later host) := by
  cases later with
  | nil => exact idle_sound between
  | cons plugin later =>
      have connected := there (by simp)
      have listed := subset (List.mem_cons_self ..)
      have known : present plugin slot host.told = true :=
        (between.agrees plugin listed slot id).trans connected
      have heard := tell_heard (.fullyConnected slot) between.toHeard
        (between.listed plugin listed) (by rintro _ ⟨⟩; exact known)
      have told : Between (tell plugin (.fullyConnected slot) host) fun _ _ => False :=
        { heard with
          quiet := between.quiet
          agrees := fun other listed which _ => between.agrees other listed which id }
      exact between_sound (.fullyConnecting slot later) told
        ⟨fun other left => subset (List.mem_cons_of_mem _ left),
          fun _ => ⟨connected, between.unkicked⟩⟩

theorem tellStartup_sound {host : Host Player} {map : String} {later : List Nat}
    (between : Between host fun _ _ => False) (subset : later ⊆ host.plugins) :
    Sound (tellStartup map later host) := by
  cases later with
  | nil => exact disconnectEveryone_sound between
  | cons plugin later =>
      have listed := between.listed plugin (subset (List.mem_cons_self ..))
      have heard := tell_heard (.serverStartup map) between.toHeard listed (by simp)
      have told : Between (tell plugin (.serverStartup map) host) fun _ _ => False :=
        { heard with
          quiet := between.quiet
          agrees := fun other listed which _ => between.agrees other listed which id }
      exact between_sound (.starting map later) told fun other left =>
        subset (List.mem_cons_of_mem _ left)

theorem replayClients_sound {host : Host Player} {plugin : Nat} {rest : List Slot}
    (between : Between host fun other slot => other = plugin ∧ slot ∈ rest)
    (listed : plugin ∈ host.plugins) (unheard : Unheard host plugin rest) :
    Sound (replayClients plugin rest host) := by
  induction rest with
  | nil => exact idle_sound (between_mono between fun _ _ lags => absurd lags.2 List.not_mem_nil)
  | cons slot rest ih =>
      obtain ⟨distinct, silent⟩ := unheard
      obtain ⟨apart, distinct⟩ := List.nodup_cons.mp distinct
      have rest_silent : Unheard host plugin rest :=
        ⟨distinct, fun which left => silent which (List.mem_cons_of_mem _ left)⟩
      unfold replayClients
      split
      -- An empty slot is passed over: the plugin never heard of it, which is the truth.
      · next empty =>
          refine ih { between with agrees := fun other known which settled => ?_ } rest_silent
          by_cases here : other = plugin ∧ which = slot
          · obtain ⟨rfl, rfl⟩ := here
            have unknown := silent which (List.mem_cons_self ..)
            simp [unknown, isConnected, empty]
          · apply between.agrees other known which
            intro lags
            rcases List.mem_cons.mp lags.2 with same | left
            · exact here ⟨lags.1, same⟩
            · exact settled ⟨lags.1, left⟩
      · next client found =>
          have heard := tell_heard (.connected slot client.player) between.toHeard
            (between.listed plugin listed) (by simp)
          have told : Between (tell plugin (.connected slot client.player) host)
              fun other which => other = plugin ∧ which ∈ rest := by
            refine { heard with
              quiet := between.quiet, agrees := fun other known which settled => ?_ }
            show present other which ((plugin, .connected slot client.player) :: host.told) = _
            rw [present_connected]
            split
            · next same =>
                obtain ⟨rfl, rfl⟩ := same
                simp [tell, isConnected, found]
            · next elsewhere =>
                apply between.agrees other known which
                intro lags
                rcases List.mem_cons.mp lags.2 with same | left
                · exact elsewhere ⟨lags.1.symm, same.symm⟩
                · exact settled ⟨lags.1, left⟩
          refine between_sound (.replayingConnected plugin slot rest) told
            ⟨listed, apart, distinct, fun which left => ?_⟩
          show present plugin which ((plugin, .connected slot client.player) :: host.told) = _
          have elsewhere : ¬(plugin = plugin ∧ slot = which) := fun same => apart (same.2 ▸ left)
          rw [present_connected, if_neg elsewhere]
          exact rest_silent.2 which left

theorem replayFully_sound {host : Host Player} {plugin : Nat} {slot : Slot} {rest : List Slot}
    (between : Between host fun other which => other = plugin ∧ which ∈ rest)
    (listed : plugin ∈ host.plugins) (apart : slot ∉ rest) (unheard : Unheard host plugin rest) :
    Sound (replayFully plugin slot rest host) := by
  unfold replayFully
  split
  · next full =>
      have connected : isConnected host slot = true := by
        cases found : host.clients slot with
        | none => simp [found] at full
        | some client => simp [isConnected, found]
      have known : present plugin slot host.told = true :=
        (between.agrees plugin listed slot fun lags => apart lags.2).trans connected
      have heard := tell_heard (.fullyConnected slot) between.toHeard
        (between.listed plugin listed) (by rintro _ ⟨⟩; exact known)
      have told : Between (tell plugin (.fullyConnected slot) host)
          fun other which => other = plugin ∧ which ∈ rest :=
        { heard with quiet := between.quiet, agrees := between.agrees }
      exact between_sound (.replayingFully plugin rest) told ⟨listed, unheard⟩
  · exact replayClients_sound between listed unheard

theorem removePlugin_sound {host : Host Player} {plugin : Nat}
    (between : Between host fun other _ => other = plugin) : Sound (removePlugin plugin host) := by
  have others {other : Nat} (left : other ∈ host.plugins.filter (· ≠ plugin)) :
      other ∈ host.plugins ∧ other ≠ plugin := by simpa using left
  let fewer : Host Player := { host with plugins := host.plugins.filter (· ≠ plugin) }
  have rested : Between fewer fun _ _ => False :=
    { between with
      listed := fun other left => between.listed other (others left).1
      agrees := fun other left slot _ => between.agrees other (others left).1 slot (others left).2 }
  exact idle_sound rested

theorem disconnectClients_sound {host : Host Player} {plugin : Nat} {rest : List Slot}
    (between : Between host fun other _ => other = plugin) (listed : plugin ∈ host.plugins) :
    Sound (disconnectClients plugin rest host) := by
  induction rest with
  | nil => exact removePlugin_sound between
  | cons slot rest ih =>
      unfold disconnectClients
      split
      · have heard := tell_heard (.disconnected slot) between.toHeard
          (between.listed plugin listed) (by simp)
        have told : Between (tell plugin (.disconnected slot) host)
            fun other _ => other = plugin := by
          refine { heard with quiet := between.quiet, agrees := fun other known which apart => ?_ }
          show present other which ((plugin, .disconnected slot) :: host.told) = _
          rw [present_disconnected, if_neg fun same => apart same.1.symm]
          exact between.agrees other known which apart
        exact between_sound (.leaving plugin rest) told listed
      · exact ih

theorem slots_nodup : slots.Nodup := List.nodup_finRange maxPlayers

theorem unheard_absent {plugin : Nat} {slot : Slot} {told : List (Nat × Told Player)}
    (none : ∀ entry ∈ told, entry.1 ≠ plugin) : present plugin slot told = false := by
  induction told with
  | nil => rfl
  | cons entry older ih =>
      have silent := ih fun old member => none old (List.mem_cons_of_mem _ member)
      have other : entry.1 ≠ plugin := none entry (List.mem_cons_self ..)
      obtain ⟨whom, event⟩ := entry
      cases event with
      | serverStartup map => exact silent
      | connected which player => rw [present_connected, if_neg fun same => other same.1, silent]
      | disconnected which => rw [present_disconnected, if_neg fun same => other same.1, silent]
      | fullyConnected which => exact silent

/-- A plugin that loads knows nobody yet, and is told of everybody. -/
theorem load_sound {host : Host Player} (between : Between host fun _ _ => False)
    (inTime : InTime host .load) : Sound (load host) := by
  let more : Host Player :=
    { host with plugins := host.plugins ++ [host.nextOrder], nextOrder := host.nextOrder + 1 }
  have new : host.nextOrder ∈ more.plugins := List.mem_append_right _ (List.mem_singleton_self _)
  have unknown (slot : Slot) : present host.nextOrder slot host.told = false :=
    unheard_absent fun entry old => Nat.ne_of_lt (between.heard entry old)
  have older {other : Nat} (listed : other ∈ more.plugins) (apart : other ≠ host.nextOrder) :
      other ∈ host.plugins := by
    rcases List.mem_append.mp listed with old | last
    · exact old
    · exact absurd (List.mem_singleton.mp last) apart
  have added : Between more fun other _ => other = host.nextOrder := by
    refine { listed := ?_, heard := ?_, ordered := between.ordered, quiet := between.quiet
             agrees := ?_ }
    · intro other listed
      by_cases same : other = host.nextOrder
      · exact same ▸ Nat.lt_succ_self _
      · exact Nat.lt_succ_of_lt (between.listed other (older listed same))
    · exact fun entry told => Nat.lt_succ_of_lt (between.heard entry told)
    · exact fun other listed slot apart => between.agrees other (older listed apart) slot id
  show Sound (replayMissedEvents host.nextOrder more)
  unfold replayMissedEvents
  split
  -- Before the first map nothing is replayed, so nobody may be in.
  · next early =>
      have nobody := inTime.resolve_left fun late => late early
      refine idle_sound { added with agrees := fun other listed slot _ => ?_ }
      by_cases same : other = host.nextOrder
      · subst same
        simp [more, unknown slot, isConnected, nobody slot]
      · exact added.agrees other listed slot same
  · have heard := tell_heard (.serverStartup host.currentMap) added.toHeard
      (added.listed _ new) (by simp)
    have told : Between (tell host.nextOrder (.serverStartup more.currentMap) more)
        fun other _ => other = host.nextOrder :=
      { heard with quiet := added.quiet, agrees := added.agrees }
    exact between_sound (.replayingStartup host.nextOrder) told
      ⟨new, slots_nodup, fun slot _ => unknown slot⟩

theorem connect_sound {host : Host Player} {slot : Slot} {player : Player}
    (between : Between host fun _ _ => False) : Sound (raiseClientConnected slot player host) := by
  refine tellConnected_sound ?_ (List.Subset.refl _) (by simp [isConnected, setClient])
  refine { between with agrees := fun plugin listed which settled => ?_ }
  have elsewhere : which ≠ slot := fun same => settled ⟨same, listed⟩
  have kept := between.agrees plugin listed which id
  simpa [setClient, isConnected, Function.update_of_ne elsewhere] using kept

theorem fullyConnect_sound {host : Host Player} {slot : Slot}
    (between : Between host fun _ _ => False) (inTime : InTime host (.clientFullyConnect slot)) :
    Sound (raiseClientFullyConnected slot host) := by
  unfold raiseClientFullyConnected
  split
  · next client found =>
      have kept : Between (setClient slot (some { client with fullyConnected := true }) host)
          fun _ _ => False := by
        refine { between with agrees := fun plugin listed which _ => ?_ }
        have known := between.agrees plugin listed which id
        by_cases same : which = slot
        · subst same
          simpa [setClient, isConnected, found] using known
        · simpa [setClient, isConnected, Function.update_of_ne same] using known
      exact tellFullyConnected_sound kept (List.Subset.refl _) (by simp [isConnected, setClient])
  · next empty =>
      have nobody : host.plugins = [] := inTime.resolve_left (by simp [isConnected, empty])
      exact tellFullyConnected_sound between (List.Subset.refl _) (by simp [nobody])

theorem raise_sound {before after : Host Player} {label : Label Player}
    (raised : raise before label = some after) (sound : Sound before)
    (between : Between before fun _ _ => False) (inTime : InTime before label) : Sound after := by
  cases label with
  | serverStartup map =>
      cases raised
      exact tellStartup_sound { between with } (List.Subset.refl _)
  | clientConnected slot player =>
      cases raised
      exact connect_sound between
  | clientPutInServer slot player =>
      cases raised
      split
      · exact sound
      · exact connect_sound between
  | clientDisconnect slot =>
      cases raised
      exact tellDisconnected_sound (between_mono between fun _ _ none => none.elim)
        (List.Subset.refl _) (everyone_gone before slot)
  | clientFullyConnect slot =>
      cases raised
      exact fullyConnect_sound between inTime
  | load =>
      cases raised
      exact load_sound between inTime
  | unload plugin midMap =>
      cases raised
      have leaves : Between before fun other _ => other = plugin :=
        between_mono between fun _ _ none => none.elim
      unfold unload
      split
      · next listed =>
          split
          · exact disconnectClients_sound leaves listed
          · exact removePlugin_sound leaves
      · exact sound
  | kick slot => cases raised
  | returns => cases raised

theorem resume_sound {before after : Host Player} (resumed : resume before = some after)
    (sound : Sound before) (quiet : before.kicks = []) : Sound after := by
  have between := sound_between sound quiet
  have placed := sound.placed
  unfold resume at resumed
  cases under : before.outer with
  | idle =>
      rw [under] at resumed
      cases resumed
  | connecting slot player later =>
      rw [under] at resumed between placed
      cases resumed
      exact tellConnected_sound between placed.1 fun waits => (placed.2 waits).1
  | fullyConnecting slot later =>
      rw [under] at resumed between placed
      cases resumed
      exact tellFullyConnected_sound between placed.1 fun waits => (placed.2 waits).1
  | disconnecting slot later =>
      rw [under] at resumed between placed
      cases resumed
      exact tellDisconnected_sound between placed.1 placed.2
  | starting map later =>
      rw [under] at resumed between placed
      cases resumed
      exact tellStartup_sound between placed
  | sweeping slot later rest =>
      rw [under] at resumed between placed
      cases resumed
      exact dispatch_disconnected between placed.1 placed.2 (fun _ _ _ same => same)
        (fun _ _ subset gone => ⟨subset, gone⟩) disconnectEveryone_sound
  | replayingStartup plugin =>
      rw [under] at resumed between placed
      cases resumed
      have all : Between before fun other slot => other = plugin ∧ slot ∈ slots :=
        between_mono between fun other slot same => ⟨same, List.mem_finRange slot⟩
      exact replayClients_sound all placed.1 placed.2
  | replayingConnected plugin slot rest =>
      rw [under] at resumed between placed
      cases resumed
      exact replayFully_sound between placed.1 placed.2.1 placed.2.2
  | replayingFully plugin rest =>
      rw [under] at resumed between placed
      cases resumed
      exact replayClients_sound between placed.1 placed.2
  | leaving plugin rest =>
      rw [under] at resumed between placed
      cases resumed
      exact disconnectClients_sound between placed

/-- The step law: every event and every callback that kicks or returns keeps the pictures. -/
theorem step_sound {before after : Host Player} {label : Label Player}
    (taken : step before label = some after) (sound : Sound before)
    (inTime : InTime before label) : Sound after := by
  unfold step at taken
  split at taken
  · next rest =>
      have placed := sound.placed
      rw [rest] at placed
      have between := sound_between sound placed
      rw [rest] at between
      exact raise_sound taken sound between inTime
  · next slot busy =>
      cases taken
      have told := tellKicked_sound rfl (kick_opens sound busy inTime)
      rwa [tellKicked_over] at told
  · split at taken
    · next slot later outer kicks =>
        cases taken
        exact tellKicked_sound kicks sound
    · next quiet => exact resume_sound taken sound quiet
  · cases taken

/-- Whatever the engine raises and the callbacks kick, in whatever order: as long as every
step is in time, every plugin's picture of the players stays the host's. -/
theorem pictures_agree_throughout (labels : List (Label Player))
    (inTime : Guarded step InTime start labels) :
    Always step Agreed (start : Host Player) labels :=
  always_of_guarded (fun _ _ _ sound met taken => step_sound taken sound met)
    (fun _ => sound_agreed) start_sound inTime

/-- A player kicked from the callback of the last plugin that is told of them. -/
theorem pictures_agree_kicked :
    Always step Agreed (start : Host Unit) [.serverStartup "de_dust2", .load, .returns,
      .clientConnected 3 (), .kick 3, .returns, .returns] := by
  apply pictures_agree_throughout _
  apply guarded_cons rfl trivial
  refine guarded_cons rfl (.inr fun _ => rfl) ?_
  apply guarded_cons rfl trivial
  apply guarded_cons rfl trivial
  refine guarded_cons rfl ⟨fun _ _ waits => ?_, nofun⟩ ?_
  · exact (Outer.connecting.inj waits).2.2.symm
  · exact guarded_cons rfl trivial (guarded_cons rfl trivial trivial)

/-- The first of two plugins kicks a player from its Connected callback: the second is
told of the disconnect, then that the player is in, and nothing takes that back. -/
theorem kicked_player_still_announced :
    ∃ after : Host Unit,
      run step start [.serverStartup "de_dust2", .load, .returns, .load, .returns,
        .clientConnected 3 (), .kick 3, .returns, .returns, .returns, .returns] = some after ∧
      after.outer = .idle ∧ after.plugins = [0, 1] ∧ isConnected after 3 = false ∧
      present 1 3 after.told = true ∧ ¬Agreed after := by
  refine ⟨_, rfl, rfl, rfl, rfl, rfl, fun agreed => ?_⟩
  have known := (agreed.connected rfl 1 (by decide) 3).mp rfl
  exact absurd known (by decide)

end VoltMod.ClientEvents
