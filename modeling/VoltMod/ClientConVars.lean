import VoltMod.PendingConVarQueries

/-!
Hooks/ClientConVars.cpp: what a client is asked for its convars and what its answers run. A
slot's occupants are numbered, and the service's queries in the order they were accepted:
`occupant`, `asked` and `ran` are history.
-/

namespace VoltMod.ConVarQueries
open Hooks Transition

universe u v
variable {Callback : Type u} {Time : Type v}

inductive ClientConVarStatus where
  | answered | notFound | notAConVar | «protected»
  deriving DecidableEq, Repr

/-- EQueryCvarValueStatus_IsValid and the cast after it. -/
def statusOf : Int → Option ClientConVarStatus
  | 0 => some .answered
  | 1 => some .notFound
  | 2 => some .notAConVar
  | 3 => some .protected
  | _ => none

/-- CCLCMsg_RespondCvarValue, every field optional. -/
structure Response where
  cookie : Option Int
  statusCode : Option Int
  name : Option String
  value : Option String
  deriving DecidableEq, Repr

/-- One call of Query. `delivered` is what its Send would come to. -/
structure Ask (Callback : Type u) (Time : Type v) where
  slot : Int
  cvarName : String
  callback : Option Callback
  now : Time
  delivered : Bool

structure Asked (Callback : Type u) where
  slot : Int
  cookie : Int
  name : String
  callback : Callback
  occupant : Nat
  deriving DecidableEq, Repr

/-- A callback's run: whose query it came with, and what it was given. -/
structure Ran (Callback : Type u) where
  asked : Nat
  slot : Int
  cookie : Int
  name : String
  callback : Callback
  occupant : Nat
  status : ClientConVarStatus
  value : String
  deriving DecidableEq, Repr

structure ClientConVars (Callback : Type u) (Time : Type v) where
  hook : Bool
  pending : PendingConVarQueries Callback Time
  occupant : Int → Nat
  asked : List (Asked Callback)
  ran : List (Ran Callback)

def start (hook : Bool) : ClientConVars Callback Time :=
  ⟨hook, ⟨fun _ => [], 0⟩, fun _ => 0, [], []⟩

section Source

variable [Sub Time] [LE Time] [DecidableLE Time] [OfNat Time 10]

/-- Query once its arguments are checked: whether it is accepted, and the table after it. -/
def request (pending : PendingConVarQueries Callback Time) (ask : Ask Callback Time)
    (asked : Nat) : Option Int × PendingConVarQueries Callback Time :=
  let pruned := prune pending ask.slot ask.now
  match find pruned ask.slot ask.cvarName with
  | some inFlight =>
      (some inFlight.cookie, retarget pruned ask.slot ask.cvarName ask.callback asked)
  | none =>
      if full pruned ask.slot then (none, pruned)
      else
        let (cookie, counted) := nextCookie pruned ask.slot
        if cookie < 0 || !ask.delivered then (none, counted)
        else
          (some cookie,
            add counted ask.slot ⟨ask.cvarName, ask.callback, ask.now, cookie, asked⟩)

def query (service : ClientConVars Callback Time) (ask : Ask Callback Time) :
    Bool × ClientConVars Callback Time :=
  match ask.callback with
  | none => (false, service)
  | some callback =>
      if !service.hook || !isValidSlot ask.slot || ask.cvarName = "" then (false, service)
      else
        let (cookie, pending) := request service.pending ask service.asked.length
        (cookie.isSome,
          { service with
            pending
            asked := service.asked ++ (cookie.map fun cookie =>
              ⟨ask.slot, cookie, ask.cvarName, callback, service.occupant ask.slot⟩).toList })

def queryAll (service : ClientConVars Callback Time) (asks : List (Ask Callback Time)) :
    ClientConVars Callback Time :=
  asks.foldl (fun service ask => (query service ask).2) service

/-- What the response says once its fields are checked: cookie, status, name and value. -/
def checked (slot : Int) (response : Response) :
    Option (Int × ClientConVarStatus × String × String) := do
  guard (isValidSlot slot)
  let cookie ← response.cookie
  let code ← response.statusCode
  let name ← response.name
  let status ← statusOf code
  if status = .answered then
    let value ← response.value
    guard !value.contains (Char.ofNat 0)
    return (cookie, status, name, value)
  else
    return (cookie, status, name, "")

/-- The query is out of the table before its callback runs, which may ask `again`. -/
def onRespondCvarValue (service : ClientConVars Callback Time) (slot : Int)
    (response : Response) (again : List (Ask Callback Time)) : ClientConVars Callback Time :=
  match checked slot response with
  | none => service
  | some (cookie, status, name, value) =>
      match take service.pending slot cookie name with
      | none => service
      | some (taken, pending) =>
          match taken.callback with
          | none => { service with pending }
          | some callback =>
              queryAll
                { service with
                  pending
                  ran := service.ran ++ [⟨taken.asked, slot, cookie, name, callback,
                    service.occupant slot, status, value⟩] }
                again

end Source

def slotChanged (service : ClientConVars Callback Time) (slot : Int) :
    ClientConVars Callback Time :=
  { service with
    pending := clear service.pending slot
    occupant :=
      if isValidSlot slot then Function.update service.occupant slot (service.occupant slot + 1)
      else service.occupant }

def onServerStartup (service : ClientConVars Callback Time) : ClientConVars Callback Time :=
  { service with pending := clearAll service.pending }

inductive Label (Callback : Type u) (Time : Type v) where
  | query (ask : Ask Callback Time)
  | respond (slot : Int) (response : Response) (again : List (Ask Callback Time))
  | slotChanged (slot : Int)
  | serverStartup

def step [Sub Time] [LE Time] [DecidableLE Time] [OfNat Time 10]
    (service : ClientConVars Callback Time) :
    Label Callback Time → Option (ClientConVars Callback Time)
  | .query ask => some (query service ask).2
  | .respond slot response again => some (onRespondCvarValue service slot response again)
  | .slotChanged slot => some (slotChanged service slot)
  | .serverStartup => some (onServerStartup service)

/-- One slot's pending queries: few, told apart by cookie and by name, each with the callback
of a query its present occupant was asked and whose callback has not run. -/
structure Listed (asked : List (Asked Callback)) (ran : List (Ran Callback)) (slot : Int)
    (occupant : Nat) (queries : List (PendingConVarQuery Callback Time)) : Prop where
  capped : queries.length ≤ maxPendingPerSlot
  cookies : (queries.map (·.cookie)).Nodup
  names : (queries.map (·.name)).Nodup
  numbers : (queries.map (·.asked)).Nodup
  known : ∀ query ∈ queries, ∃ callback, query.callback = some callback ∧
    asked[query.asked]? = some ⟨slot, query.cookie, query.name, callback, occupant⟩
  waiting : ∀ query ∈ queries, query.asked ∉ ran.map (·.asked)

structure Tracked (service : ClientConVars Callback Time) : Prop where
  counter : service.pending.cookieCounter ≤ maxCookie
  listed : ∀ slot, Listed service.asked service.ran slot (service.occupant slot)
    (service.pending.slots slot)
  once : (service.ran.map (·.asked)).Nodup
  answered : ∀ ran ∈ service.ran, service.asked[ran.asked]? =
    some ⟨ran.slot, ran.cookie, ran.name, ran.callback, ran.occupant⟩

section Lists

variable {asked : List (Asked Callback)} {ran : List (Ran Callback)} {slot : Int} {occupant : Nat}
  {queries : List (PendingConVarQuery Callback Time)}

theorem listed_nil : Listed asked ran slot occupant ([] : List (PendingConVarQuery Callback Time)) :=
  ⟨Nat.zero_le _, List.nodup_nil, List.nodup_nil, List.nodup_nil, by simp, by simp⟩

theorem Listed.sublist {fewer : List (PendingConVarQuery Callback Time)}
    (listed : Listed asked ran slot occupant queries) (sub : fewer.Sublist queries) :
    Listed asked ran slot occupant fewer where
  capped := sub.length_le.trans listed.capped
  cookies := listed.cookies.sublist (sub.map _)
  names := listed.names.sublist (sub.map _)
  numbers := listed.numbers.sublist (sub.map _)
  known := fun query member => listed.known query (sub.subset member)
  waiting := fun query member => listed.waiting query (sub.subset member)

theorem Listed.append (listed : Listed asked ran slot occupant queries)
    (more : List (Asked Callback)) : Listed (asked ++ more) ran slot occupant queries :=
  { listed with
    known := by
      intro query member
      obtain ⟨callback, same, found⟩ := listed.known query member
      exact ⟨callback, same, List.getElem?_append_left
        (List.getElem?_eq_some_iff.mp found).1 ▸ found⟩ }

theorem Listed.short (listed : Listed asked ran slot occupant queries)
    {query : PendingConVarQuery Callback Time} (member : query ∈ queries) :
    query.asked < asked.length := by
  obtain ⟨callback, _, found⟩ := listed.known query member
  exact (List.getElem?_eq_some_iff.mp found).1

/-- A fresh cookie and name under the next number. -/
theorem Listed.add (listed : Listed asked ran slot occupant queries)
    (room : queries.length < maxPendingPerSlot)
    (earlier : ∀ run ∈ ran, run.asked < asked.length)
    {name : String} {cookie : Int} {callback : Callback} {sent : Time}
    (newCookie : cookie ∉ queries.map (·.cookie)) (newName : name ∉ queries.map (·.name)) :
    Listed (asked ++ [⟨slot, cookie, name, callback, occupant⟩]) ran slot occupant
      (queries ++ [⟨name, some callback, sent, cookie, asked.length⟩]) := by
  have joined : ∀ {α : Type} {values : List α} {value : α}, values.Nodup → value ∉ values →
      (values ++ [value]).Nodup := by
    intro α values value distinct outside
    exact List.concat_eq_append ▸ distinct.concat outside
  constructor
  case capped =>
    rw [List.length_append]
    exact room
  case cookies => simpa using joined listed.cookies newCookie
  case names => simpa using joined listed.names newName
  case numbers =>
    have last : asked.length ∉ queries.map (·.asked) := by
      intro member
      obtain ⟨query, inside, same⟩ := List.mem_map.mp member
      exact absurd (listed.short inside) (by omega)
    simpa using joined listed.numbers last
  case known =>
    intro query member
    rcases List.mem_append.mp member with old | new
    · exact (listed.append _).known query old
    · cases List.mem_singleton.mp new
      exact ⟨callback, rfl, by simp⟩
  case waiting =>
    intro query member
    rcases List.mem_append.mp member with old | new
    · exact listed.waiting query old
    · cases List.mem_singleton.mp new
      intro already
      obtain ⟨run, inside, same⟩ := List.mem_map.mp already
      exact absurd (earlier run inside) (by simp at same; omega)

/-- The query in flight for a name comes under the next number, for the callback it now has. -/
theorem Listed.retarget {before after : List (PendingConVarQuery Callback Time)}
    {flying : PendingConVarQuery Callback Time} {callback : Callback}
    (listed : Listed asked ran slot occupant (before ++ flying :: after))
    (earlier : ∀ run ∈ ran, run.asked < asked.length) :
    Listed (asked ++ [⟨slot, flying.cookie, flying.name, callback, occupant⟩]) ran slot occupant
      (before ++ { flying with callback := some callback, asked := asked.length } :: after) := by
  have others : ∀ query ∈ before ++ after, query ∈ before ++ flying :: after := by
    intro query member
    rcases List.mem_append.mp member with early | late
    · exact List.mem_append_left _ early
    · exact List.mem_append_right _ (List.mem_cons_of_mem _ late)
  have sorted : ∀ query ∈ before ++
      { flying with callback := some callback, asked := asked.length } :: after,
      query = { flying with callback := some callback, asked := asked.length } ∨
        query ∈ before ++ after := by
    simp
    tauto
  constructor
  case capped => simpa using listed.capped
  case cookies => simpa using listed.cookies
  case names => simpa using listed.names
  case numbers =>
    have apart := listed.numbers
    rw [List.map_append, List.map_cons, List.nodup_middle, List.nodup_cons,
      ← List.map_append] at apart ⊢
    refine ⟨?_, apart.2⟩
    intro member
    obtain ⟨query, inside, same⟩ := List.mem_map.mp member
    exact absurd (listed.short (others query inside)) (by simp at same; omega)
  case known =>
    intro query member
    rcases sorted query member with rfl | old
    · exact ⟨callback, rfl, by simp⟩
    · exact (listed.append _).known query (others query old)
  case waiting =>
    intro query member
    rcases sorted query member with rfl | old
    · intro already
      obtain ⟨run, inside, same⟩ := List.mem_map.mp already
      exact absurd (earlier run inside) (by simp at same; omega)
    · exact listed.waiting query (others query old)

/-- What is left once a query's callback runs. -/
theorem Listed.take {before after : List (PendingConVarQuery Callback Time)}
    {taken : PendingConVarQuery Callback Time} {run : Ran Callback}
    (listed : Listed asked ran slot occupant (before ++ taken :: after))
    (same : run.asked = taken.asked) :
    Listed asked (ran ++ [run]) slot occupant (before ++ after) := by
  have fewer := listed.sublist ((List.Sublist.refl before).append (List.sublist_cons_self taken after))
  refine { fewer with waiting := ?_ }
  intro query member already
  rw [List.map_append, List.mem_append, List.map_singleton, List.mem_singleton, same] at already
  rcases already with early | now
  · exact fewer.waiting query member early
  · have apart := listed.numbers
    rw [List.map_append, List.map_cons, List.nodup_middle, List.nodup_cons, ← List.map_append] at apart
    exact apart.1 (now ▸ List.mem_map_of_mem member)

/-- Another slot's queries do not mind which of this slot's has run. -/
theorem Listed.elsewhere {other : Int} {run : Ran Callback}
    (listed : Listed asked ran slot occupant queries) (apart : other ≠ slot)
    (ofOther : ∃ record, asked[run.asked]? = some record ∧ record.slot = other) :
    Listed asked (ran ++ [run]) slot occupant queries := by
  refine { listed with waiting := ?_ }
  intro query member already
  rw [List.map_append, List.mem_append, List.map_singleton, List.mem_singleton] at already
  rcases already with early | now
  · exact listed.waiting query member early
  · obtain ⟨callback, _, found⟩ := listed.known query member
    obtain ⟨record, named, owner⟩ := ofOther
    rw [← now, found] at named
    cases named
    exact apart owner.symm

end Lists

section Steps

variable {service : ClientConVars Callback Time} {slot : Int}

theorem Tracked.earlier (tracked : Tracked service) :
    ∀ run ∈ service.ran, run.asked < service.asked.length :=
  fun run member => (List.getElem?_eq_some_iff.mp (tracked.answered run member)).1

/-- New queries for one slot and new entries at the end of the history. -/
theorem Tracked.change (tracked : Tracked service)
    {queries : List (PendingConVarQuery Callback Time)} {counter : UInt32}
    (bounded : counter ≤ maxCookie) (more : List (Asked Callback))
    (listed : Listed (service.asked ++ more) service.ran slot (service.occupant slot) queries) :
    Tracked { service with
      pending := ⟨Function.update service.pending.slots slot queries, counter⟩
      asked := service.asked ++ more } where
  counter := bounded
  listed := by
    intro other
    by_cases same : other = slot
    · subst same
      simpa using listed
    · simpa [Function.update_of_ne same] using (tracked.listed other).append more
  once := tracked.once
  answered := by
    intro run member
    have inside := tracked.answered run member
    exact List.getElem?_append_left (List.getElem?_eq_some_iff.mp inside).1 ▸ inside

theorem count_valid (table : PendingConVarQueries Callback Time) (valid : isValidSlot slot = true) :
    full table slot = decide (maxPendingPerSlot ≤ (table.slots slot).length) := by
  simp [full, count, valid]

/-- What NextCookie promises a slot with room. -/
theorem nextCookie_free {table : PendingConVarQueries Callback Time}
    (bounded : table.cookieCounter ≤ maxCookie) (valid : isValidSlot slot = true)
    (room : full table slot = false) :
    ∃ cookie : UInt32, nextCookie table slot =
        ((cookie.toNat : Int), { table with cookieCounter := cookie }) ∧
      0 < cookie.toNat ∧ cookie ≤ maxCookie ∧
      (cookie.toNat : Int) ∉ (table.slots slot).map (·.cookie) := by
  rw [count_valid table valid, decide_eq_false_iff_not, Nat.not_le] at room
  have fits : ((table.slots slot).map (·.cookie)).length < maxPendingPerSlot + 1 := by
    rw [List.length_map]
    omega
  obtain ⟨cookie, same, positive, low, free⟩ := nextCookieFrom_free bounded fits (by decide)
  exact ⟨cookie, by simp [nextCookie, valid, same], positive, low, free⟩

theorem take_cases {table pending : PendingConVarQueries Callback Time} {cookie : Int}
    {name : String} {taken : PendingConVarQuery Callback Time}
    (found : take table slot cookie name = some (taken, pending)) :
    ∃ before after, table.slots slot = before ++ taken :: after ∧
      pending = table.set slot (before ++ after) ∧ taken.cookie = cookie ∧ taken.name = name := by
  rw [take] at found
  split at found
  · obtain ⟨⟨query, left⟩, inside, same⟩ := Option.map_eq_some_iff.mp found
    cases same
    obtain ⟨sameCookie, sameName, before, after, split, rfl⟩ := takeFrom_split inside
    exact ⟨before, after, split, rfl, sameCookie, sameName⟩
  · cases found

/-- A query's callback runs: it is out of the table and its number among those that ran. -/
theorem run_tracked (tracked : Tracked service) {pending : PendingConVarQueries Callback Time}
    {before after : List (PendingConVarQuery Callback Time)}
    {taken : PendingConVarQuery Callback Time} {cookie : Int} {name value : String}
    {callback : Callback} {status : ClientConVarStatus}
    (split : service.pending.slots slot = before ++ taken :: after)
    (left : pending = service.pending.set slot (before ++ after))
    (known : service.asked[taken.asked]? =
      some ⟨slot, taken.cookie, taken.name, callback, service.occupant slot⟩)
    (named : taken.cookie = cookie ∧ taken.name = name) :
    Tracked { service with
      pending
      ran := service.ran ++ [⟨taken.asked, slot, cookie, name, callback,
        service.occupant slot, status, value⟩] } := by
  obtain ⟨rfl, rfl⟩ := named
  have owned := tracked.listed slot
  rw [split] at owned
  constructor
  case counter =>
    rw [left]
    exact tracked.counter
  case listed =>
    intro other
    rw [left]
    by_cases same : other = slot
    · subst same
      simpa [PendingConVarQueries.set] using owned.take rfl
    · simpa [PendingConVarQueries.set, Function.update_of_ne same] using
        (tracked.listed other).elsewhere (Ne.symm same) ⟨_, known, rfl⟩
  case once =>
    rw [List.map_append, List.map_singleton]
    exact List.concat_eq_append ▸ tracked.once.concat (owned.waiting taken (by simp))
  case answered =>
    intro run member
    rcases List.mem_append.mp member with early | now
    · exact tracked.answered run early
    · cases List.mem_singleton.mp now
      exact known

theorem slotChanged_tracked (tracked : Tracked service) (slot : Int) :
    Tracked (slotChanged service slot) := by
  cases valid : isValidSlot slot with
  | false => simpa [slotChanged, clear, valid] using tracked
  | true =>
      have emptied : slotChanged service slot =
          { service with
            pending := service.pending.set slot []
            occupant := Function.update service.occupant slot (service.occupant slot + 1) } := by
        simp [slotChanged, clear, valid]
      rw [emptied]
      refine { tracked with listed := ?_ }
      intro other
      by_cases same : other = slot
      · subst same
        simpa [PendingConVarQueries.set] using listed_nil
      · simpa [PendingConVarQueries.set, Function.update_of_ne same] using tracked.listed other

variable [Sub Time] [LE Time] [DecidableLE Time] [OfNat Time 10]

/-- What a query with good arguments can come to on the queries that are not too old. -/
inductive Requested (table : PendingConVarQueries Callback Time) (ask : Ask Callback Time)
    (asked : Nat) (fewer : List (PendingConVarQuery Callback Time)) :
    Option Int × PendingConVarQueries Callback Time → Prop
  | refused (counter : UInt32) : counter ≤ maxCookie →
      Requested table ask asked fewer (none, ⟨Function.update table.slots ask.slot fewer, counter⟩)
  | retargeted (before after : List (PendingConVarQuery Callback Time))
      (flying : PendingConVarQuery Callback Time) : fewer = before ++ flying :: after →
      flying.name = ask.cvarName →
      Requested table ask asked fewer (some flying.cookie,
        ⟨Function.update table.slots ask.slot
          (before ++ { flying with callback := ask.callback, asked } :: after),
          table.cookieCounter⟩)
  | added (cookie : UInt32) : fewer.length < maxPendingPerSlot → cookie ≤ maxCookie →
      (cookie.toNat : Int) ∉ fewer.map (·.cookie) → ask.cvarName ∉ fewer.map (·.name) →
      Requested table ask asked fewer (some (cookie.toNat : Int),
        ⟨Function.update table.slots ask.slot
          (fewer ++ [⟨ask.cvarName, ask.callback, ask.now, cookie.toNat, asked⟩]), cookie⟩)

theorem request_cases (table : PendingConVarQueries Callback Time) (ask : Ask Callback Time)
    (asked : Nat) (bounded : table.cookieCounter ≤ maxCookie)
    (valid : isValidSlot ask.slot = true) :
    ∃ fewer, fewer.Sublist (table.slots ask.slot) ∧
      Requested table ask asked fewer (request table ask asked) := by
  refine ⟨(table.slots ask.slot).filter fun query => !decide (10 ≤ ask.now - query.sentAtSec),
    List.filter_sublist, ?_⟩
  have pruned : prune table ask.slot ask.now = table.set ask.slot
      ((table.slots ask.slot).filter fun query => !decide (10 ≤ ask.now - query.sentAtSec)) :=
    if_pos valid
  generalize (table.slots ask.slot).filter (fun query =>
    !decide (10 ≤ ask.now - query.sentAtSec)) = fewer at pruned ⊢
  have there : (table.set ask.slot fewer).slots ask.slot = fewer := Function.update_self ..
  rw [request, pruned]
  cases found : find (table.set ask.slot fewer) ask.slot ask.cvarName with
  | some flying =>
      rw [find, if_pos valid, there] at found
      obtain ⟨before, after, split, changed⟩ := retargetFrom_split ask.callback asked found
      have named : flying.name = ask.cvarName := by simpa using List.find?_some found
      simp only [retarget, PendingConVarQueries.set, Function.update_self, changed,
        Function.update_idem]
      exact .retargeted before after flying split named
  | none =>
      rw [find, if_pos valid, there, List.find?_eq_none] at found
      cases room : full (table.set ask.slot fewer) ask.slot with
      | true => exact .refused _ bounded
      | false =>
          obtain ⟨cookie, next, _, low, free⟩ :=
            @nextCookie_free _ _ _ (table.set ask.slot fewer) bounded valid room
          rw [count_valid _ valid, there, decide_eq_false_iff_not, Nat.not_le] at room
          rw [there] at free
          simp only [next, Bool.false_eq_true, if_false]
          split
          · exact .refused cookie low
          · have here : (isValidSlot ask.slot && decide ((0 : Int) ≤ cookie.toNat)) = true := by
              simp [valid]
            simp only [add, here, if_true, PendingConVarQueries.set, Function.update_self,
              Function.update_idem]
            exact .added cookie room low free (by simpa using found)

theorem query_tracked (tracked : Tracked service) (ask : Ask Callback Time) :
    Tracked (query service ask).2 := by
  rw [query]
  split
  · exact tracked
  · next callback given =>
      split
      · exact tracked
      · next allowed =>
          have valid : isValidSlot ask.slot = true := by
            simp only [Bool.or_eq_true, not_or, Bool.not_eq_true', Bool.not_eq_false] at allowed
            exact allowed.1.2
          obtain ⟨fewer, sub, requested⟩ := request_cases service.pending ask
            service.asked.length tracked.counter valid
          have listed := (tracked.listed ask.slot).sublist sub
          generalize request service.pending ask service.asked.length = outcome at requested ⊢
          cases requested with
          | refused counter low => simpa using tracked.change low [] (by simpa using listed)
          | retargeted before after flying split named =>
              subst split
              rw [given, ← named]
              exact tracked.change tracked.counter _ (listed.retarget tracked.earlier)
          | added cookie room low free new =>
              rw [given]
              exact tracked.change low _ (listed.add room tracked.earlier free new)

theorem queryAll_tracked (tracked : Tracked service) (asks : List (Ask Callback Time)) :
    Tracked (queryAll service asks) := by
  induction asks generalizing service with
  | nil => exact tracked
  | cons ask rest ih => exact ih (query_tracked tracked ask)

theorem respond_tracked (tracked : Tracked service) (slot : Int) (response : Response)
    (again : List (Ask Callback Time)) :
    Tracked (onRespondCvarValue service slot response again) := by
  rw [onRespondCvarValue]
  split
  · exact tracked
  · next cookie status name value _ =>
      split
      · exact tracked
      · next taken pending found =>
          obtain ⟨before, after, split, left, named⟩ := take_cases found
          have owned := tracked.listed slot
          rw [split] at owned
          obtain ⟨callback, given, known⟩ := owned.known taken (by simp)
          rw [given]
          exact queryAll_tracked (run_tracked tracked split left known named) again

theorem step_tracked :
    Preserves (step : ClientConVars Callback Time → Label Callback Time → _) Tracked := by
  intro before label after tracked taken
  cases label with
  | query ask =>
      cases taken
      exact query_tracked tracked ask
  | respond slot response again =>
      cases taken
      exact respond_tracked tracked slot response again
  | slotChanged slot =>
      cases taken
      exact slotChanged_tracked tracked slot
  | serverStartup =>
      cases taken
      exact { tracked with listed := fun slot => listed_nil }

end Steps

/-- Every slot's queries, the cookie it would be given next and the callbacks that ran. -/
structure Sound (service : ClientConVars Callback Time) : Prop where
  capped : ∀ slot, (service.pending.slots slot).length ≤ maxPendingPerSlot
  cookies : ∀ slot, ((service.pending.slots slot).map (·.cookie)).Nodup
  names : ∀ slot, ((service.pending.slots slot).map (·.name)).Nodup
  next : ∀ slot, isValidSlot slot = true → full service.pending slot = false →
    0 < (nextCookie service.pending slot).1 ∧
      (nextCookie service.pending slot).1 ≤ (maxCookie.toNat : Int) ∧
      (nextCookie service.pending slot).1 ∉ (service.pending.slots slot).map (·.cookie)
  once : (service.ran.map (·.asked)).Nodup
  answered : ∀ ran ∈ service.ran, service.asked[ran.asked]? =
    some ⟨ran.slot, ran.cookie, ran.name, ran.callback, ran.occupant⟩

theorem tracked_sound {service : ClientConVars Callback Time} (tracked : Tracked service) :
    Sound service where
  capped := fun slot => (tracked.listed slot).capped
  cookies := fun slot => (tracked.listed slot).cookies
  names := fun slot => (tracked.listed slot).names
  next := by
    intro slot valid room
    obtain ⟨cookie, same, positive, low, free⟩ := nextCookie_free tracked.counter valid room
    rw [same]
    exact ⟨Int.natCast_pos.mpr positive, Int.ofNat_le.mpr (UInt32.le_iff_toNat_le.mp low), free⟩
  once := tracked.once
  answered := tracked.answered

theorem start_tracked (hook : Bool) : Tracked (start hook : ClientConVars Callback Time) where
  counter := UInt32.zero_le
  listed := fun _ => listed_nil
  once := List.nodup_nil
  answered := by simp [start]

/-- However queries, answers, slot changes and startups come, and whatever callbacks ask. -/
theorem queries_sound [Sub Time] [LE Time] [DecidableLE Time] [OfNat Time 10] (hook : Bool)
    (labels : List (Label Callback Time)) :
    Always step Sound (start hook : ClientConVars Callback Time) labels :=
  always_of_preserves step_tracked (fun _ => tracked_sound) (start_tracked hook) labels

end VoltMod.ConVarQueries
