import VoltMod.ClientConVars

/-! App/ClientLanguage.cpp in every plugin over the host's one Host/Plugins/LanguageTable.hpp:
a player without a language gets the one the Steam client runs in, unless a pick comes first.
Each plugin has its own queries; the table and the slots' occupants are shared. -/
namespace VoltMod.ClientLanguage
open ConVarQueries Transition
open Hooks (isValidSlot)

variable {Other Time : Type}

/-- A query's callback: the handler here, or any other of the plugin's. -/
inductive Handler (Other : Type) where
  | language
  | other (callback : Other)
  deriving DecidableEq, Repr

abbrev Plugin (Other Time : Type) := ClientConVars (Handler Other) Time

def steamLanguages : List (String × String) :=
  [("english", "en"), ("russian", "ru"), ("ukrainian", "uk"), ("german", "de"), ("french", "fr"),
    ("spanish", "es"), ("portuguese", "pt"), ("polish", "pl"), ("turkish", "tr")]

def codeFor (steamLanguage : String) : String :=
  match steamLanguages.find? fun language => language.1 = steamLanguage with
  | none => ""
  | some language => language.2

/-- `picked` is history: the last pick since the slot changed hands. -/
structure Languages (Other Time : Type) where
  plugins : List (Plugin Other Time)
  table : Int → String
  picked : Int → Option String

def start : Languages Other Time := ⟨[], fun _ => "", fun _ => none⟩

def language (state : Languages Other Time) (slot : Int) : String :=
  if isValidSlot slot then state.table slot else ""

def setLanguage (slot : Int) (lang : String) (state : Languages Other Time) :
    Languages Other Time :=
  if isValidSlot slot then { state with table := Function.update state.table slot lang } else state

/-- A pick of the player's, or one that a plugin restores. -/
def pick (slot : Int) (lang : String) (state : Languages Other Time) : Languages Other Time :=
  { setLanguage slot lang state with
    picked :=
      if isValidSlot slot then Function.update state.picked slot (some lang) else state.picked }

def reset (slot : Int) (state : Languages Other Time) : Languages Other Time :=
  if isValidSlot slot then
    { state with
      table := Function.update state.table slot ""
      picked := Function.update state.picked slot none }
  else state

def slotChangedAll (slot : Int) (state : Languages Other Time) : Languages Other Time :=
  { state with plugins := state.plugins.map fun plugin => slotChanged plugin slot }

def connected (slot : Int) (restores : List String) (state : Languages Other Time) :
    Languages Other Time :=
  restores.foldl (fun state lang => pick slot lang state) (slotChangedAll slot (reset slot state))

def disconnected (slot : Int) (state : Languages Other Time) : Languages Other Time :=
  reset slot (slotChangedAll slot state)

/-- What a run of the handler does. -/
def heard (state : Languages Other Time) (ran : Ran (Handler Other)) : Languages Other Time :=
  match ran.callback with
  | .other _ => state
  | .language =>
      if ran.status ≠ .answered then state
      else
        -- A pick made while the query was out wins.
        if codeFor ran.value ≠ "" ∧ language state ran.slot = "" then
          setLanguage ran.slot (codeFor ran.value) state
        else state

/-- A query of the plugin's own. -/
def foreign (ask : Ask Other Time) : Ask (Handler Other) Time :=
  { ask with callback := ask.callback.map .other }

inductive Label (Other Time : Type) where
  | load (hook : Bool)
  | connected (slot : Int) (restores : List String)
  | disconnected (slot : Int)
  | fullyConnected (plugin : Nat) (slot : Int) (isBot : Bool) (now : Time) (delivered : Bool)
  | query (plugin : Nat) (ask : Ask Other Time)
  | respond (plugin : Nat) (slot : Int) (response : Response) (again : List (Ask Other Time))
  | pick (slot : Int) (lang : String)
  | serverStartup

section Source
variable [Sub Time] [LE Time] [DecidableLE Time] [OfNat Time 10]

def fullyConnected (index : Nat) (plugin : Plugin Other Time) (slot : Int) (isBot : Bool)
    (now : Time) (delivered : Bool) (state : Languages Other Time) : Languages Other Time :=
  if isBot || language state slot ≠ "" then state
  else
    let asked := (query plugin ⟨slot, "cl_language", some .language, now, delivered⟩).2
    { state with plugins := state.plugins.set index asked }

def respond (index : Nat) (plugin : Plugin Other Time) (slot : Int) (response : Response)
    (again : List (Ask Other Time)) (state : Languages Other Time) : Languages Other Time :=
  let after := onRespondCvarValue plugin slot response (again.map foreign)
  (after.ran.drop plugin.ran.length).foldl heard
    { state with plugins := state.plugins.set index after }

def step (state : Languages Other Time) : Label Other Time → Option (Languages Other Time)
  | .load hook => some { state with plugins := state.plugins ++ [ConVarQueries.start hook] }
  | .connected slot restores => some (connected slot restores state)
  | .disconnected slot => some (disconnected slot state)
  | .fullyConnected index slot isBot now delivered =>
      state.plugins[index]?.map fun plugin =>
        fullyConnected index plugin slot isBot now delivered state
  | .query index ask =>
      state.plugins[index]?.map fun plugin =>
        { state with plugins := state.plugins.set index (query plugin (foreign ask)).2 }
  | .respond index slot response again =>
      state.plugins[index]?.map fun plugin => respond index plugin slot response again state
  | .pick slot lang => some (pick slot lang state)
  | .serverStartup => some { state with plugins := state.plugins.map onServerStartup }

end Source

/-- An answer to `cl_language` that this handler of the plugin's asked the slot's present
occupant for. -/
structure Answers (plugin : Plugin Other Time) (slot : Int) (lang : String)
    (ran : Ran (Handler Other)) : Prop where
  listed : ran ∈ plugin.ran
  asked : plugin.asked[ran.asked]? =
    some ⟨slot, ran.cookie, "cl_language", .language, plugin.occupant slot⟩
  answered : ran.status = .answered
  code : codeFor ran.value = lang

/-- A pick is never overwritten, and what was not picked the present occupant answered. -/
structure Chosen (state : Languages Other Time) : Prop where
  picks : ∀ slot lang, state.picked slot = some lang → lang ≠ "" → language state slot = lang
  answers : ∀ slot, language state slot ≠ "" →
    state.picked slot = some (language state slot) ∨
      ∃ plugin ∈ state.plugins, ∃ ran, Answers plugin slot (language state slot) ran

/-- What a plugin's own calls leave of what it had asked and heard. -/
structure Extends (before after : Plugin Other Time) : Prop where
  occupant : after.occupant = before.occupant
  asked : ∃ more, after.asked = before.asked ++ more
  ran : ∀ ran ∈ before.ran, ran ∈ after.ran

theorem Extends.refl (plugin : Plugin Other Time) : Extends plugin plugin :=
  ⟨rfl, ⟨[], (List.append_nil _).symm⟩, fun _ => id⟩

theorem Extends.trans {first second third : Plugin Other Time} (one : Extends first second)
    (other : Extends second third) : Extends first third := by
  obtain ⟨more, asked⟩ := one.asked
  obtain ⟨further, again⟩ := other.asked
  exact ⟨other.occupant.trans one.occupant,
    ⟨more ++ further, by rw [again, asked, List.append_assoc]⟩,
    fun ran member => other.ran ran (one.ran ran member)⟩

theorem Extends.answers {before after : Plugin Other Time} (extends_ : Extends before after)
    {slot : Int} {lang : String} {ran : Ran (Handler Other)}
    (answers : Answers before slot lang ran) : Answers after slot lang ran := by
  obtain ⟨more, asked⟩ := extends_.asked
  refine ⟨extends_.ran ran answers.listed, ?_, answers.answered, answers.code⟩
  have inside := (List.getElem?_eq_some_iff.mp answers.asked).1
  rw [asked, extends_.occupant, List.getElem?_append_left inside]
  exact answers.asked

/-- Only this handler asks with its callback, and for one name. -/
def Named (plugin : Plugin Other Time) : Prop :=
  ∀ asked ∈ plugin.asked, asked.callback = .language → asked.name = "cl_language"

structure Kept (state : Languages Other Time) : Prop where
  tracked : ∀ plugin ∈ state.plugins, Tracked plugin
  named : ∀ plugin ∈ state.plugins, Named plugin
  picks : ∀ slot lang, state.picked slot = some lang → lang ≠ "" → language state slot = lang
  answers : ∀ slot, language state slot ≠ "" →
    state.picked slot = some (language state slot) ∨
      ∃ plugin ∈ state.plugins, ∃ ran, Answers plugin slot (language state slot) ran

section Tables
variable {state : Languages Other Time}

theorem language_set (slot other : Int) (lang : String) :
    language (setLanguage slot lang state) other =
      if other = slot ∧ isValidSlot slot = true then lang else language state other := by
  unfold language setLanguage
  by_cases here : other = slot
  · subst here
    cases valid : isValidSlot other <;> simp
  · cases valid : isValidSlot slot <;> simp [here]

theorem language_reset (slot other : Int) :
    language (reset slot state) other = if other = slot then "" else language state other := by
  unfold language reset
  by_cases here : other = slot
  · subst here
    cases valid : isValidSlot other <;> simp
  · cases valid : isValidSlot slot <;> simp [here]

theorem picked_reset (slot other : Int) : (reset slot state).picked other =
    if other = slot ∧ isValidSlot slot = true then none else state.picked other := by
  unfold reset
  by_cases here : other = slot
  · subst here
    cases valid : isValidSlot other <;> simp
  · cases valid : isValidSlot slot <;> simp [here]

theorem picked_pick (slot other : Int) (lang : String) : (pick slot lang state).picked other =
    if other = slot ∧ isValidSlot slot = true then some lang else state.picked other := by
  unfold pick
  by_cases here : other = slot
  · subst here
    cases valid : isValidSlot other <;> simp
  · cases valid : isValidSlot slot <;> simp [here]

@[simp] theorem setLanguage_plugins (slot : Int) (lang : String) :
    (setLanguage slot lang state).plugins = state.plugins := by
  unfold setLanguage
  split <;> rfl

@[simp] theorem setLanguage_picked (slot : Int) (lang : String) :
    (setLanguage slot lang state).picked = state.picked := by
  unfold setLanguage
  split <;> rfl

@[simp] theorem reset_plugins (slot : Int) : (reset slot state).plugins = state.plugins := by
  unfold reset
  split <;> rfl

theorem Kept.pick (kept : Kept state) (slot : Int) (lang : String) :
    Kept (pick slot lang state) := by
  have same : (ClientLanguage.pick slot lang state).plugins = state.plugins :=
    setLanguage_plugins slot lang
  have table : ∀ other, language (ClientLanguage.pick slot lang state) other =
      if other = slot ∧ isValidSlot slot = true then lang else language state other :=
    fun other => language_set slot other lang
  refine ⟨same ▸ kept.tracked, same ▸ kept.named, ?_, ?_⟩
  · intro other chosen
    rw [picked_pick, table]
    split
    · exact fun picked _ => Option.some.inj picked
    · exact kept.picks other chosen
  · intro other
    rw [picked_pick, table, same]
    split
    · exact fun _ => .inl rfl
    · exact kept.answers other

theorem Kept.picks_all (kept : Kept state) (slot : Int) (restores : List String) :
    Kept (restores.foldl (fun state lang => ClientLanguage.pick slot lang state) state) := by
  induction restores generalizing state with
  | nil => exact kept
  | cons lang rest ih => exact ih (kept.pick slot lang)

@[simp] theorem changed_picked (slot : Int) :
    (slotChangedAll slot state).picked = state.picked := rfl

@[simp] theorem changed_language (slot other : Int) :
    language (slotChangedAll slot state) other = language state other := rfl

/-- What a slot's next occupant is not told: the queries and the table's entry go together. -/
theorem Kept.changed (kept : Kept state) (slot : Int) :
    Kept (reset slot (slotChangedAll slot state)) := by
  refine ⟨?_, ?_, ?_, ?_⟩
  · rw [reset_plugins]
    intro plugin member
    obtain ⟨old, inside, rfl⟩ := List.mem_map.mp member
    exact slotChanged_tracked (kept.tracked old inside) slot
  · rw [reset_plugins]
    intro plugin member
    obtain ⟨old, inside, rfl⟩ := List.mem_map.mp member
    exact kept.named old inside
  · intro other lang
    rw [picked_reset, language_reset, changed_picked, changed_language]
    by_cases here : other = slot
    · subst here
      cases valid : isValidSlot other with
      | true => simp
      | false =>
          intro picked some_
          have there := kept.picks other lang (by simpa using picked) some_
          rw [if_pos rfl, ← there, language, valid]
          rfl
    · simpa [here] using kept.picks other lang
  · intro other
    rw [picked_reset, language_reset, reset_plugins, changed_picked, changed_language]
    by_cases here : other = slot
    · simp [here]
    · simp only [here, false_and, if_false]
      intro some_
      refine (kept.answers other some_).imp_right ?_
      rintro ⟨plugin, member, ran, answers⟩
      refine ⟨slotChanged plugin slot, List.mem_map_of_mem member, ran,
        answers.listed, ?_, answers.answered, answers.code⟩
      have occupant : (slotChanged plugin slot).occupant other = plugin.occupant other := by
        unfold slotChanged
        split
        · exact Function.update_of_ne here _ _
        · rfl
      rw [occupant]
      exact answers.asked

theorem reset_changed (slot : Int) :
    slotChangedAll slot (reset slot state) = reset slot (slotChangedAll slot state) := by
  unfold reset slotChangedAll
  split <;> rfl

end Tables

theorem foreign_own (ask : Ask Other Time) :
    (foreign ask).callback = some .language → (foreign ask).cvarName = "cl_language" := by
  intro mine
  obtain ⟨_, _, same⟩ := Option.map_eq_some_iff.mp mine
  cases same

section Replacing
variable {state : Languages Other Time} {plugin after : Plugin Other Time}

theorem set_answers {index : Nat} {slot : Int} {lang : String}
    (held : state.plugins[index]? = some plugin) (extends_ : Extends plugin after)
    (answers : ∃ plugin ∈ state.plugins, ∃ ran, Answers plugin slot lang ran) :
    ∃ plugin ∈ state.plugins.set index after, ∃ ran, Answers plugin slot lang ran := by
  obtain ⟨other, member, ran, answered⟩ := answers
  obtain ⟨place, there⟩ := List.mem_iff_getElem?.mp member
  have inside := (List.getElem?_eq_some_iff.mp there).1
  by_cases same : index = place
  · subst same
    obtain rfl := Option.some.inj (held.symm.trans there)
    exact ⟨after, List.mem_iff_getElem?.mpr ⟨index, List.getElem?_set_self inside⟩, ran,
      extends_.answers answered⟩
  · refine ⟨other, List.mem_iff_getElem?.mpr ⟨place, ?_⟩, ran, answered⟩
    rw [List.getElem?_set_ne same, there]

/-- A plugin's own calls. -/
theorem Kept.set (kept : Kept state) {index : Nat} (held : state.plugins[index]? = some plugin)
    (extends_ : Extends plugin after) (tracked : Tracked after) (named : Named after) :
    Kept { state with plugins := state.plugins.set index after } := by
  refine ⟨?_, ?_, kept.picks, ?_⟩
  · intro other member
    rcases List.mem_or_eq_of_mem_set member with old | rfl
    · exact kept.tracked other old
    · exact tracked
  · intro other member
    rcases List.mem_or_eq_of_mem_set member with old | rfl
    · exact kept.named other old
    · exact named
  · intro slot some_
    exact (kept.answers slot some_).imp_right (set_answers held extends_)

theorem Kept.heard (kept : Kept state) {ran : Ran (Handler Other)} (member : plugin ∈ state.plugins)
    (listed : ran ∈ plugin.ran) (present : ran.occupant = plugin.occupant ran.slot) :
    Kept (heard state ran) := by
  unfold ClientLanguage.heard
  split
  · exact kept
  · next mine =>
    split
    · exact kept
    · next answered =>
      split
      · next allowed =>
        obtain ⟨known, free⟩ := allowed
        have asked := (kept.tracked plugin member).answered ran listed
        have name : ran.name = "cl_language" :=
          kept.named plugin member _ (List.mem_of_getElem? asked) mine
        rw [name, mine, present] at asked
        refine ⟨?_, ?_, ?_, ?_⟩
        · rw [setLanguage_plugins]
          exact kept.tracked
        · rw [setLanguage_plugins]
          exact kept.named
        · intro other lang
          rw [setLanguage_picked, language_set]
          intro picked some_
          split
          · next here =>
            have there := kept.picks other lang picked some_
            rw [here.1, free] at there
            exact absurd there.symm some_
          · exact kept.picks other lang picked some_
        · intro other
          rw [setLanguage_picked, setLanguage_plugins, language_set]
          split
          · next here =>
            intro _
            exact .inr ⟨plugin, member, ran, listed, here.1 ▸ asked, by simpa using answered, rfl⟩
          · exact kept.answers other
      · exact kept

end Replacing

section Plugins
variable [Sub Time] [LE Time] [DecidableLE Time] [OfNat Time 10]
variable {plugin : Plugin Other Time}

theorem query_extends (plugin : Plugin Other Time) (ask : Ask (Handler Other) Time) :
    Extends plugin (query plugin ask).2 := by
  unfold query
  split
  · exact .refl plugin
  · split
    · exact .refl plugin
    · exact ⟨rfl, ⟨_, rfl⟩, fun _ => id⟩

theorem query_ran (plugin : Plugin Other Time) (ask : Ask (Handler Other) Time) :
    (query plugin ask).2.ran = plugin.ran := by
  unfold query
  split
  · rfl
  · split <;> rfl

theorem query_named (named : Named plugin) (ask : Ask (Handler Other) Time)
    (own : ask.callback = some .language → ask.cvarName = "cl_language") :
    Named (query plugin ask).2 := by
  unfold query
  split
  · exact named
  · next callback given =>
      split
      · exact named
      · intro asked member mine
        rcases List.mem_append.mp member with old | new
        · exact named asked old mine
        · rw [Option.mem_toList, Option.map_eq_some_iff] at new
          obtain ⟨cookie, _, rfl⟩ := new
          exact own (mine ▸ given)

theorem queryAll_keeps (plugin : Plugin Other Time) (named : Named plugin)
    (asks : List (Ask Other Time)) :
    Extends plugin (queryAll plugin (asks.map foreign)) ∧
      (queryAll plugin (asks.map foreign)).ran = plugin.ran ∧
      Named (queryAll plugin (asks.map foreign)) := by
  induction asks generalizing plugin with
  | nil => exact ⟨.refl plugin, rfl, named⟩
  | cons ask rest ih =>
      have first := query_extends plugin (foreign ask)
      obtain ⟨later, ran, named⟩ := ih _ (query_named named (foreign ask) (foreign_own ask))
      exact ⟨first.trans later, ran.trans (query_ran plugin (foreign ask)), named⟩

/-- An answer runs at most one callback, for the slot's present occupant. -/
theorem respond_keeps (named : Named plugin) (slot : Int) (response : Response)
    (again : List (Ask Other Time)) :
    Extends plugin (onRespondCvarValue plugin slot response (again.map foreign)) ∧
      Named (onRespondCvarValue plugin slot response (again.map foreign)) ∧
      ∃ new, (onRespondCvarValue plugin slot response (again.map foreign)).ran = plugin.ran ++ new ∧
        new.length ≤ 1 ∧ ∀ ran ∈ new, ran.slot = slot ∧ ran.occupant = plugin.occupant slot := by
  unfold onRespondCvarValue
  split
  · exact ⟨.refl plugin, named, [], (List.append_nil _).symm, Nat.zero_le _, nofun⟩
  · next cookie status name value _ =>
    split
    · exact ⟨.refl plugin, named, [], (List.append_nil _).symm, Nat.zero_le _, nofun⟩
    · next taken pending _ =>
      split
      · exact ⟨⟨rfl, ⟨[], (List.append_nil _).symm⟩, fun _ => id⟩, named, [],
          (List.append_nil _).symm, Nat.zero_le _, nofun⟩
      · next callback _ =>
        have ran : Extends plugin { plugin with
            pending
            ran := plugin.ran ++ [⟨taken.asked, slot, cookie, name, callback,
              plugin.occupant slot, status, value⟩] } :=
          ⟨rfl, ⟨[], (List.append_nil _).symm⟩, fun _ => List.mem_append_left _⟩
        obtain ⟨later, same, names⟩ := queryAll_keeps { plugin with
            pending
            ran := plugin.ran ++ [⟨taken.asked, slot, cookie, name, callback,
              plugin.occupant slot, status, value⟩] } named again
        refine ⟨ran.trans later, names, _, same, Nat.le_refl 1, ?_⟩
        intro entry member
        rw [List.mem_singleton.mp member]
        exact ⟨rfl, rfl⟩

theorem step_kept : Preserves (@step Other Time _ _ _ _) Kept := by
  intro before label state kept taken
  cases label with
  | load hook =>
      cases taken
      -- The new plugin has asked nothing yet.
      refine ⟨?_, ?_, kept.picks, ?_⟩
      · intro plugin member
        rcases List.mem_append.mp member with old | new
        · exact kept.tracked plugin old
        · rw [List.mem_singleton.mp new]
          exact start_tracked hook
      · intro plugin member
        rcases List.mem_append.mp member with old | new
        · exact kept.named plugin old
        · rw [List.mem_singleton.mp new]
          exact nofun
      · intro slot some_
        refine (kept.answers slot some_).imp_right ?_
        rintro ⟨plugin, member, found⟩
        exact ⟨plugin, List.mem_append_left _ member, found⟩
  | connected slot restores =>
      cases taken
      rw [connected, reset_changed]
      exact (kept.changed slot).picks_all slot restores
  | disconnected slot =>
      cases taken
      exact kept.changed slot
  | fullyConnected index slot isBot now delivered =>
      obtain ⟨plugin, held, rfl⟩ := Option.map_eq_some_iff.mp taken
      unfold fullyConnected
      split
      · exact kept
      · have member := List.mem_of_getElem? held
        exact kept.set held (query_extends plugin _) (query_tracked (kept.tracked plugin member) _)
          (query_named (kept.named plugin member) _ fun _ => rfl)
  | query index ask =>
      obtain ⟨plugin, held, rfl⟩ := Option.map_eq_some_iff.mp taken
      have member := List.mem_of_getElem? held
      exact kept.set held (query_extends plugin _) (query_tracked (kept.tracked plugin member) _)
        (query_named (kept.named plugin member) _ (foreign_own ask))
  | respond index slot response again =>
      obtain ⟨plugin, held, rfl⟩ := Option.map_eq_some_iff.mp taken
      have member := List.mem_of_getElem? held
      obtain ⟨extends_, named, new, ran, few, own⟩ :=
        respond_keeps (kept.named plugin member) slot response again
      have tracked := respond_tracked (kept.tracked plugin member) slot response
        (again.map foreign)
      have set := kept.set held extends_ tracked named
      have inside := (List.getElem?_eq_some_iff.mp held).1
      have there := List.mem_iff_getElem?.mpr ⟨index, List.getElem?_set_self
        (a := onRespondCvarValue plugin slot response (again.map foreign)) inside⟩
      rw [respond, ran, List.drop_left]
      -- An answer ends one query at most, and only its own player's.
      match new, few with
      | [], _ => exact set
      | [entry], _ =>
          obtain ⟨same, present⟩ := own entry List.mem_cons_self
          have listed : entry ∈ (onRespondCvarValue plugin slot response (again.map foreign)).ran := by
            rw [ran]
            exact List.mem_append_right _ List.mem_cons_self
          refine Kept.heard set there listed ?_
          rw [extends_.occupant, present, same]
  | pick slot lang =>
      cases taken
      exact kept.pick slot lang
  | serverStartup =>
      cases taken
      refine ⟨?_, ?_, kept.picks, ?_⟩
      · intro plugin member
        obtain ⟨old, inside, rfl⟩ := List.mem_map.mp member
        exact { kept.tracked old inside with listed := fun _ => listed_nil }
      · intro plugin member
        obtain ⟨old, inside, rfl⟩ := List.mem_map.mp member
        exact kept.named old inside
      · intro slot some_
        refine (kept.answers slot some_).imp_right ?_
        rintro ⟨plugin, member, ran, answers⟩
        exact ⟨_, List.mem_map_of_mem member, ran,
          answers.listed, answers.asked, answers.answered, answers.code⟩

end Plugins

/-- However plugins load, players come and go, and answers and picks cross. -/
theorem picks_win [Sub Time] [LE Time] [DecidableLE Time] [OfNat Time 10]
    (labels : List (Label Other Time)) :
    Always step Chosen (start : Languages Other Time) labels := by
  have fresh : Kept (start : Languages Other Time) := by
    refine ⟨nofun, nofun, nofun, fun slot some_ => absurd ?_ some_⟩
    exact ite_self ""
  exact always_of_preserves step_kept (fun _ kept => ⟨kept.picks, kept.answers⟩) fresh labels

end VoltMod.ClientLanguage
