import VoltMod.CommandRouter
import VoltMod.CommandSyntax

/-! App/PluginChat.cpp and the chat side of Commands/CommandManager.cpp, under the host's
RaiseConsoleCommand: one line goes to the plugins in their order, each over its own router and
the one table of command names. What user code does in a ballot, a capture, a command or a Said
handler is a parameter, and may change anything. -/
namespace VoltMod.ChatPipeline
open Transition CommandNames
open CommandRouter (Definition Router Host Label resolves toLower)
open MigrationText (Text)
open CommandSyntax (tokenize)

inductive CommandAccess where
  | players | anywhere | serverOnly
  deriving DecidableEq, Repr

variable {Plugin Body : Type}

/-- `listening` says whether a plugin's callback is in the host's list, `known` whether its
PlayerManager has the slot. -/
structure Server (Plugin Body : Type) where
  commands : Host Plugin Body
  listening : Plugin → Bool
  known : Plugin → Int → Bool
  capturing : Plugin → Int → Bool
  voting : Plugin → Bool

inductive Action (Plugin Body : Type) where
  | ballot (plugin : Plugin) (slot : Int) (arguments : Text)
  | captured (plugin : Plugin) (slot : Int) (text : Text)
  | dispatched (plugin : Plugin) (command : Definition Body) (slot : Int) (tokens : List Text)
  | said (plugin : Plugin) (slot : Int) (text : Text) (teamOnly : Bool)

/-- What user code answers, and the server it leaves. -/
abbrev React (Plugin Body : Type) :=
  Action Plugin Body → Server Plugin Body → Bool × Server Plugin Body

/-- Whether a plugin took the line, what it did with it, and the server afterwards. -/
abbrev Handled (Plugin Body : Type) :=
  Bool × List (Action Plugin Body) × Server Plugin Body

def validSlot (slot : Int) : Bool := decide (0 ≤ slot) && decide (slot < 64)

def stripPrefix : Text → Option Text
  | '!' :: c :: rest => some (c :: rest)
  | _ => none

def unquote (arguments : Text) : Text :=
  if 2 ≤ arguments.length ∧ arguments.head? = some '"' ∧ arguments.getLast? = some '"' then
    arguments.tail.dropLast
  else arguments

/-- `PluginContext::IsCommandRegistered` -/
def registered (server : Server Plugin Body) (name : Name) : Bool :=
  ownerOf name server.commands.names ≠ ""

/-- `CommandManager::IsForeign` -/
def isForeign (plugin : Plugin) (message : Text) (server : Server Plugin Body) : Bool :=
  match stripPrefix message with
  | none => false
  | some body =>
      match tokenize body with
      | [] => false
      | name :: _ =>
          (resolves server.commands plugin name).isNone && registered server (toLower name)

section Lines
variable (access : Body → CommandAccess) (react : React Plugin Body)

/-- `CommandManager::HandleChatMessage`, for a player the plugin has. -/
def handleChatMessage (plugin : Plugin) (slot : Int) (message : Text)
    (server : Server Plugin Body) : Handled Plugin Body :=
  match stripPrefix message with
  | none => (false, [], server)
  | some body =>
      match tokenize body with
      | [] => (false, [], server)
      | name :: tokens =>
          match resolves server.commands plugin name with
          | none => (false, [], server)
          | some command =>
              if access command.body = .serverOnly then (false, [], server)
              else
                let action := Action.dispatched plugin command slot tokens
                (true, [action], (react action server).2)

/-- `ChatInput::TryConsume`: captured input is never chat, whatever the callback answers. -/
def tryConsume (plugin : Plugin) (slot : Int) (message : Text) (server : Server Plugin Body) :
    Handled Plugin Body :=
  if server.capturing plugin slot then
    let action := Action.captured plugin slot message
    (true, [action], (react action server).2)
  else (false, [], server)

def onChat (plugin : Plugin) (teamChat : Bool) (arguments : Text) (slot : Int)
    (server : Server Plugin Body) : Handled Plugin Body :=
  let message := unquote arguments
  if message = [] ∨ validSlot slot = false then (false, [], server)
  else if isForeign plugin message server then (false, [], server)
  else if server.known plugin slot = false then (false, [], server)
  else
    let input := tryConsume react plugin slot message server
    if input.1 then input
    else
      let command := handleChatMessage access react plugin slot message server
      if command.1 then command
      else
        let chat := Action.said plugin slot message teamChat
        let (blocked, left) := react chat server
        (blocked, [chat], left)

def onConsoleCommand (plugin : Plugin) (name arguments : Text) (slot : Int)
    (server : Server Plugin Body) : Handled Plugin Body :=
  if name = "vote".toList then
    let ballot := Action.ballot plugin slot arguments
    let (counted, left) := react ballot server
    (counted, [ballot], left)
  else if name = "callvote".toList then (server.voting plugin, [], server)
  else if name ≠ "say".toList ∧ name ≠ "say_team".toList then (false, [], server)
  else onChat access react plugin (name = "say_team".toList) arguments slot server

/-- The host's pass over the callbacks there were when it began; one that is gone by its turn is
passed over, and the first that takes the line ends it. -/
def raiseConsoleCommand (name arguments : Text) (slot : Int) :
    List Plugin → Server Plugin Body → Handled Plugin Body
  | [], server => (false, [], server)
  | plugin :: rest, server =>
      if server.listening plugin then
        let here := onConsoleCommand access react plugin name arguments slot server
        if here.1 then here
        else
          let later := raiseConsoleCommand name arguments slot rest here.2.2
          (later.1, here.2.1 ++ later.2.1, later.2.2)
      else raiseConsoleCommand name arguments slot rest server

end Lines

section Titles
variable [DecidableEq Plugin]

/-- Every holder of a name can be named: the host refuses to load a plugin with no name. -/
structure Titled (host : Host Plugin Body) : Prop where
  entries : ∀ entry ∈ host.names, entry.ownerName ≠ ""
  plugins : ∀ plugin attached, host.plugins plugin = some attached → attached.title ≠ ""

theorem register_titled (plugin : Plugin) {title : String} (some_ : title ≠ "") (name : Name)
    {names : List (Entry Plugin)} (titled : ∀ entry ∈ names, entry.ownerName ≠ "") :
    ∀ entry ∈ (register plugin title name names).2, entry.ownerName ≠ "" := by
  rcases register_cases plugin title name names with same | ⟨same, _⟩ | ⟨same, _⟩
  · rwa [same]
  · rwa [same]
  · rw [same]
    intro entry member
    rcases List.mem_append.mp member with held | new
    · exact titled entry held
    · obtain rfl := List.mem_singleton.mp new
      exact some_

theorem addAlias_titled {plugin : Plugin} {title : String} (some_ : title ≠ "") {name alias_ : Name}
    {commands : List (Name × Definition Body)} {tables : List (Entry Plugin) × List (Name × Name)}
    (titled : ∀ entry ∈ tables.1, entry.ownerName ≠ "") :
    ∀ entry ∈ (CommandRouter.addAlias plugin title name commands tables alias_).1,
      entry.ownerName ≠ "" := by
  have registered_ := register_titled plugin some_ (toLower alias_) titled
  simp only [CommandRouter.addAlias]
  split
  · exact titled
  split
  · exact titled
  split
  · exact titled
  split
  · rename_i same
    rwa [same] at registered_
  · rename_i same
    rwa [same] at registered_

theorem aliases_titled {plugin : Plugin} {title : String} (some_ : title ≠ "") {name : Name}
    {commands : List (Name × Definition Body)} (aliases : List Name)
    {tables : List (Entry Plugin) × List (Name × Name)}
    (titled : ∀ entry ∈ tables.1, entry.ownerName ≠ "") :
    ∀ entry ∈ (aliases.foldl (CommandRouter.addAlias plugin title name commands) tables).1,
      entry.ownerName ≠ "" := by
  induction aliases generalizing tables with
  | nil => exact titled
  | cons alias_ rest ih => exact ih (addAlias_titled some_ titled)

theorem add_titled (plugin : Plugin) {title : String} (some_ : title ≠ "")
    (definition : Definition Body) {names : List (Entry Plugin)} (router : Router Body)
    (titled : ∀ entry ∈ names, entry.ownerName ≠ "") :
    ∀ entry ∈ (CommandRouter.add plugin title definition names router).2.1,
      entry.ownerName ≠ "" := by
  have registered_ := register_titled plugin some_ (toLower definition.name) titled
  simp only [CommandRouter.add]
  split
  · exact titled
  split
  · exact titled
  split
  · rename_i same
    rwa [same] at registered_
  · rename_i same
    rw [same] at registered_
    exact aliases_titled some_ definition.aliases registered_

theorem setPlugin_titled {host : Host Plugin Body} (titled : Titled host) (plugin : Plugin)
    (attached : Option (CommandRouter.Attached Body))
    (named : ∀ here, attached = some here → here.title ≠ "") :
    Titled (CommandRouter.setPlugin plugin attached host) := by
  refine ⟨titled.entries, fun other here found => ?_⟩
  by_cases own : other = plugin
  · subst own
    rw [CommandRouter.setPlugin_same] at found
    exact named here found
  · rw [CommandRouter.setPlugin_other own] at found
    exact titled.plugins other here found

omit [DecidableEq Plugin] in
theorem reserve_titled {name : Name} {names : List (Entry Plugin)}
    (titled : ∀ entry ∈ names, entry.ownerName ≠ "") :
    ∀ entry ∈ reserve name names, entry.ownerName ≠ "" := by
  rw [reserve]
  split
  · intro entry member
    rcases List.mem_append.mp member with held | new
    · exact titled entry held
    · obtain rfl := List.mem_singleton.mp new
      show "the host" ≠ ""
      decide
  · exact titled

theorem step_titled {before after : Host Plugin Body} {label : Label Plugin Body}
    (named : ∀ plugin title, label = .load plugin title → title ≠ "") (titled : Titled before)
    (taken : CommandRouter.step before label = some after) : Titled after := by
  cases label with
  | reserve name =>
      rw [CommandRouter.step] at taken
      split at taken
      · cases taken
      · cases taken
        exact ⟨reserve_titled titled.entries, titled.plugins⟩
  | load plugin title =>
      rw [CommandRouter.step] at taken
      split at taken
      · cases taken
      · cases taken
        have loaded := setPlugin_titled titled plugin (some ⟨title, CommandRouter.noCommands⟩)
          (by rintro here ⟨⟩; exact named plugin title rfl)
        exact ⟨loaded.entries, loaded.plugins⟩
  | add plugin definition =>
      cases taken
      rw [CommandRouter.addCommand]
      split
      · exact titled
      · rename_i attached found
        have some_ := titled.plugins plugin attached found
        have entries := add_titled plugin some_ definition attached.router titled.entries
        have kept : Titled { before with names := (CommandRouter.add plugin attached.title
            definition before.names attached.router).2.1 } := ⟨entries, titled.plugins⟩
        exact setPlugin_titled kept plugin _ (by rintro here ⟨⟩; exact some_)
  | clear plugin =>
      rw [CommandRouter.step, Option.map_eq_some_iff] at taken
      obtain ⟨attached, found, rfl⟩ := taken
      exact setPlugin_titled titled plugin _
        (by rintro here ⟨⟩; exact titled.plugins plugin attached found)
  | remove plugin =>
      cases taken
      have gone := setPlugin_titled titled plugin none (by simp)
      exact ⟨fun entry member => titled.entries entry (List.mem_filter.mp member).1, gone.plugins⟩

theorem run_titled {labels : List (Label Plugin Body)} {before after : Host Plugin Body}
    (named : ∀ plugin title, Label.load plugin title ∈ labels → title ≠ "")
    (titled : Titled before) (ran : run CommandRouter.step before labels = some after) :
    Titled after := by
  induction labels generalizing before with
  | nil =>
      cases ran
      exact titled
  | cons label rest ih =>
      obtain ⟨next, taken, tail⟩ := (run_cons_iff ..).mp ran
      have kept := step_titled (fun plugin title same => named plugin title (same ▸ List.mem_cons_self))
        titled taken
      exact ih (fun plugin title member => named plugin title (List.mem_cons_of_mem _ member)) kept
        tail

omit [DecidableEq Plugin] in
/-- A name that somebody holds is registered. -/
theorem holds_registered {server : Server Plugin Body} (titled : Titled server.commands)
    {owner : Option Plugin} {name : Name} (holds : Holds owner name server.commands.names) :
    registered server name = true := by
  obtain ⟨entry, held, named, _⟩ := holds
  rw [registered, ownerOf]
  cases found : findName name server.commands.names with
  | none => exact absurd (List.mem_map.mpr ⟨entry, held, named⟩) (findName_none found)
  | some other =>
      have title := titled.entries other (findName_some found).1
      rw [Option.elim_some]
      exact decide_eq_true title

end Titles

section Routing
variable {access : Body → CommandAccess} {react : React Plugin Body} {server : Server Plugin Body}
  {plugin : Plugin} {arguments body name : Text} {tokens : List Text} {slot : Int} {teamChat : Bool}

/-- The line is a command: what follows its prefix begins with a name. -/
def Typed (arguments name : Text) (tokens : List Text) : Prop :=
  ∃ body, stripPrefix (unquote arguments) = some body ∧ tokenize body = name :: tokens

theorem typed_foreign (typed : Typed arguments name tokens) (plugin : Plugin)
    (server : Server Plugin Body) : isForeign plugin (unquote arguments) server =
      ((resolves server.commands plugin name).isNone && registered server (toLower name)) := by
  obtain ⟨body, stripped, cut⟩ := typed
  rw [isForeign, stripped]
  simp only [cut]

/-- A plugin without the command leaves a registered name alone. -/
theorem foreign_silent (typed : Typed arguments name tokens)
    (held : registered server (toLower name) = true)
    (other : resolves server.commands plugin name = none) :
    onChat access react plugin teamChat arguments slot server = (false, [], server) := by
  have foreign : isForeign plugin (unquote arguments) server = true := by
    rw [typed_foreign typed, other, held]
    rfl
  simp only [onChat, foreign, if_true, ite_self]

/-- What the plugin with the command does: an open prompt takes the line, else the command runs. -/
def actionOf (server : Server Plugin Body) (owner : Plugin) (command : Definition Body)
    (slot : Int) (arguments : Text) (tokens : List Text) : Action Plugin Body :=
  if server.capturing owner slot then .captured owner slot (unquote arguments)
  else .dispatched owner command slot tokens

theorem owner_answers (typed : Typed arguments name tokens) (valid : validSlot slot = true)
    {command : Definition Body} (found : resolves server.commands plugin name = some command)
    (open_ : access command.body ≠ .serverOnly) (known : server.known plugin slot = true) :
    onChat access react plugin teamChat arguments slot server =
      (true, [actionOf server plugin command slot arguments tokens],
        (react (actionOf server plugin command slot arguments tokens) server).2) := by
  have foreign := typed_foreign typed plugin server
  obtain ⟨body, stripped, cut⟩ := typed
  have some_ : unquote arguments ≠ [] := by
    intro none_
    rw [none_] at stripped
    cases stripped
  rw [found, Option.isNone_some, Bool.false_and] at foreign
  simp only [onChat, some_, valid, foreign, known, tryConsume, actionOf]
  cases server.capturing plugin slot with
  | true => simp
  | false => simp [handleChatMessage, stripped, cut, found, open_]

theorem unknown_silent (unknown : server.known plugin slot = false) :
    onChat access react plugin teamChat arguments slot server = (false, [], server) := by
  simp [onChat, unknown]

end Routing

section Command
variable {access : Body → CommandAccess} {react : React Plugin Body}
  {server : Server Plugin Body} {arguments name verb : Text} {tokens : List Text} {slot : Int}

theorem chat_verb (said : verb = "say".toList ∨ verb = "say_team".toList) (plugin : Plugin)
    (server : Server Plugin Body) :
    onConsoleCommand access react plugin verb arguments slot server =
      onChat access react plugin (verb = "say_team".toList) arguments slot server := by
  rcases said with rfl | rfl
  · rfl
  · rfl

/-- Where no listening plugin that knows the player has the command, nothing happens. -/
theorem raise_silent (said : verb = "say".toList ∨ verb = "say_team".toList)
    (typed : Typed arguments name tokens) (held : registered server (toLower name) = true)
    (listeners : List Plugin) (others : ∀ plugin ∈ listeners, server.listening plugin = true →
      resolves server.commands plugin name = none ∨ server.known plugin slot = false) :
    raiseConsoleCommand access react verb arguments slot listeners server = (false, [], server) := by
  induction listeners with
  | nil => rfl
  | cons plugin rest ih =>
      have later := ih fun other member => others other (List.mem_cons_of_mem _ member)
      rw [raiseConsoleCommand]
      split
      · rename_i listening
        have here : onConsoleCommand access react plugin verb arguments slot server =
            (false, [], server) := by
          rw [chat_verb said]
          rcases others plugin List.mem_cons_self listening with other | unknown
          · exact foreign_silent typed held other
          · exact unknown_silent unknown
        simp [here, later]
      · exact later

variable [DecidableEq Plugin]

end Command

/-- Two plugins, of which the second has `ban`. -/
def banLabels : List (Label Nat CommandAccess) :=
  [.load 0 "alpha", .load 1 "beta", .add 1 ⟨"ban".toList, [], .players⟩]

def banServer : Server Nat CommandAccess where
  commands := (run CommandRouter.step CommandRouter.start banLabels).getD CommandRouter.start
  listening _ := true
  known _ _ := true
  capturing plugin _ := plugin = 0
  voting _ := false

end VoltMod.ChatPipeline
