import VoltMod.PublishedInterfaces
import VoltMod.Transition

/-! App/ServiceExchange.cpp over Host/Plugins/PublishedInterfaces.cpp. A Subscription's cleanup
withdraws by plugin and name, whatever its own Publish came to. `offered` is kept for the proofs:
the implementation where that Publish was accepted. -/
namespace VoltMod.ServiceExchange
open PublishedInterfaces Transition

structure Subscription (Owner Implementation : Type) where
  owner : Owner
  name : String
  offered : Option Implementation
  deriving DecidableEq, Repr

structure Exchange (Owner Implementation : Type) where
  services : List (Service Owner Implementation)
  /-- The Subscriptions that live, in the order they were made. -/
  subscriptions : List (Subscription Owner Implementation)
  deriving DecidableEq, Repr

inductive Call (Owner Implementation : Type) where
  | publish (owner : Owner) (name : String) (implementation : Option Implementation)
  /-- A destructor, a Reset or an assignment over it. -/
  | drop (place : Nat)
  deriving DecidableEq, Repr

variable {Owner Implementation : Type}

def start : Exchange Owner Implementation := ⟨[], []⟩

def Subscription.offer (subscription : Subscription Owner Implementation) :
    Option (Service Owner Implementation) :=
  subscription.offered.map fun implementation =>
    ⟨subscription.name, implementation, subscription.owner⟩

/-- What was accepted and is still held, the latest first. -/
def offers (subscriptions : List (Subscription Owner Implementation)) :
    List (Service Owner Implementation) :=
  (subscriptions.filterMap Subscription.offer).reverse

def latest (name : String) (subscriptions : List (Subscription Owner Implementation)) :
    Option (Service Owner Implementation) :=
  entry name (offers subscriptions)

variable [DecidableEq Owner]

/-- The implementation, where no other plugin holds the name. -/
def accepted (owner : Owner) (name : String) (implementation : Option Implementation)
    (subscriptions : List (Subscription Owner Implementation)) : Option Implementation :=
  if name ≠ "" ∧ ∀ service ∈ offers subscriptions, service.name = name → service.owner = owner then
    implementation
  else none

def publishNamed (owner : Owner) (name : String) (implementation : Option Implementation)
    (exchange : Exchange Owner Implementation) : Exchange Owner Implementation where
  services := publish owner name implementation exchange.services
  subscriptions := exchange.subscriptions ++
    [⟨owner, name, accepted owner name implementation exchange.subscriptions⟩]

def step (exchange : Exchange Owner Implementation) :
    Call Owner Implementation → Option (Exchange Owner Implementation)
  | .publish owner name implementation => some (publishNamed owner name implementation exchange)
  | .drop place => exchange.subscriptions[place]?.map fun subscription =>
      ⟨unpublish subscription.owner subscription.name exchange.services,
        exchange.subscriptions.eraseIdx place⟩

/-- Every name finds the latest accepted offer that is still held. -/
def Faithful (exchange : Exchange Owner Implementation) : Prop :=
  ∀ name, find name exchange.services =
    (latest name exchange.subscriptions).map Service.implementation

/-- No other Subscription of its plugin still offers the name it withdraws. -/
def Alone (exchange : Exchange Owner Implementation) : Call Owner Implementation → Prop
  | .publish .. => True
  | .drop place => ∀ subscription, exchange.subscriptions[place]? = some subscription →
      ∀ service ∈ offers (exchange.subscriptions.eraseIdx place),
        ¬(service.owner = subscription.owner ∧ service.name = subscription.name)

/-- The table holds each name's latest offer, its plugin with it. -/
def Mirrors (exchange : Exchange Owner Implementation) : Prop :=
  ∀ name, entry name exchange.services = latest name exchange.subscriptions

structure Sound (exchange : Exchange Owner Implementation) : Prop where
  unique : Unique exchange.services
  oneOwner : ∀ first ∈ offers exchange.subscriptions, ∀ second ∈ offers exchange.subscriptions,
    first.name = second.name → first.owner = second.owner
  mirrors : Faithful exchange → Mirrors exchange

section Offers
variable {subscriptions : List (Subscription Owner Implementation)}
  {subscription : Subscription Owner Implementation} {service : Service Owner Implementation}

omit [DecidableEq Owner]

theorem offer_some (offered : subscription.offer = some service) :
    service.owner = subscription.owner ∧ service.name = subscription.name := by
  obtain ⟨implementation, _, rfl⟩ := Option.map_eq_some_iff.mp offered
  exact ⟨rfl, rfl⟩

theorem offers_append (front back : List (Subscription Owner Implementation)) :
    offers (front ++ back) = offers back ++ offers front := by
  rw [offers, List.filterMap_append, List.reverse_append]
  rfl

theorem offers_singleton (subscription : Subscription Owner Implementation) :
    offers [subscription] = subscription.offer.toList := by
  cases offered : subscription.offer with
  | none => simp [offers, offered]
  | some service => simp [offers, offered]

theorem latest_append (name : String) (front back : List (Subscription Owner Implementation)) :
    latest name (front ++ back) = (latest name back).or (latest name front) := by
  rw [latest, offers_append, entry, List.find?_append]
  rfl

theorem latest_singleton_aside {name : String}
    (aside : ∀ service, subscription.offer = some service → service.name ≠ name) :
    latest name [subscription] = none := by
  rw [latest, offers_singleton]
  refine entry_none.mpr fun service member => aside service ?_
  exact Option.mem_toList.mp member

theorem erased {place : Nat} (held : subscriptions[place]? = some subscription) :
    ∃ front back, subscriptions = front ++ [subscription] ++ back ∧
      subscriptions.eraseIdx place = front ++ back := by
  obtain ⟨inside, rfl⟩ := List.getElem?_eq_some_iff.mp held
  refine ⟨subscriptions.take place, subscriptions.drop (place + 1), ?_,
    List.eraseIdx_eq_take_drop_succ ..⟩
  rw [List.append_assoc, List.singleton_append, ← List.drop_eq_getElem_cons inside,
    List.take_append_drop]

theorem offers_erased (place : Nat) (member : service ∈ offers (subscriptions.eraseIdx place)) :
    service ∈ offers subscriptions := by
  rw [offers, List.mem_reverse] at member ⊢
  exact ((List.eraseIdx_sublist subscriptions place).filterMap _).subset member

theorem offers_mem {place : Nat} (held : subscriptions[place]? = some subscription)
    (offered : subscription.offer = some service) : service ∈ offers subscriptions := by
  rw [offers, List.mem_reverse, List.mem_filterMap]
  exact ⟨subscription, List.mem_of_getElem? held, offered⟩

/-- For a name the erased one did not offer, the latest offer stays what it was. -/
theorem latest_erased {place : Nat} (held : subscriptions[place]? = some subscription)
    {name : String}
    (aside : ∀ service, subscription.offer = some service → service.name ≠ name) :
    latest name (subscriptions.eraseIdx place) = latest name subscriptions := by
  obtain ⟨front, back, rfl, gone⟩ := erased held
  rw [gone, latest_append, latest_append, latest_append, latest_singleton_aside aside,
    Option.none_or]

end Offers

section Calls
variable {exchange : Exchange Owner Implementation}

omit [DecidableEq Owner] in
theorem mirrors_faithful (mirrors : Mirrors exchange) : Faithful exchange := by
  intro name
  rw [find_entry, mirrors name]

omit [DecidableEq Owner] in
/-- Where a name's offers are one plugin's, the latest one tells whose they are. -/
theorem ours_iff (sound : Sound exchange) (owner : Owner) (name : String) :
    (∀ service ∈ offers exchange.subscriptions, service.name = name → service.owner = owner) ↔
      ∀ service, latest name exchange.subscriptions = some service → service.owner = owner := by
  constructor
  · intro ours service standing
    have offered := entry_mem standing
    exact ours service offered.1 offered.2
  · intro ours service member same
    cases standing : latest name exchange.subscriptions with
    | none => exact absurd same (entry_none.mp standing service member)
    | some last =>
        have offered := entry_mem standing
        have owners := sound.oneOwner service member last offered.1 (same.trans offered.2.symm)
        exact owners.trans (ours last standing)

theorem accepted_some {owner : Owner} {name : String} {implementation : Option Implementation}
    {offered : Implementation}
    (taken : accepted owner name implementation exchange.subscriptions = some offered) :
    ∀ service ∈ offers exchange.subscriptions, service.name = name → service.owner = owner := by
  unfold accepted at taken
  split at taken
  · next ours => exact ours.2
  · cases taken

theorem accepted_ours (sound : Sound exchange) {owner : Owner} {name : String}
    (named : name ≠ "") (implementation : Option Implementation)
    (ours : ∀ service, latest name exchange.subscriptions = some service →
      service.owner = owner) :
    accepted owner name implementation exchange.subscriptions = implementation :=
  if_pos ⟨named, (ours_iff sound owner name).mpr ours⟩

theorem accepted_foreign {owner : Owner} {name : String} {service : Service Owner Implementation}
    (standing : latest name exchange.subscriptions = some service)
    (foreign : service.owner ≠ owner) (implementation : Option Implementation) :
    accepted owner name implementation exchange.subscriptions = none := by
  have offered := entry_mem standing
  exact if_neg fun ours => foreign (ours.2 service offered.1 offered.2)

theorem publish_oneOwner (sound : Sound exchange) (owner : Owner) (name : String)
    (implementation : Option Implementation) :
    ∀ first ∈ offers (publishNamed owner name implementation exchange).subscriptions,
      ∀ second ∈ offers (publishNamed owner name implementation exchange).subscriptions,
        first.name = second.name → first.owner = second.owner := by
  rw [publishNamed, offers_append, offers_singleton, Subscription.offer]
  cases taken : accepted owner name implementation exchange.subscriptions with
  | none => exact sound.oneOwner
  | some offered =>
      have ours := accepted_some taken
      intro first one second other same
      rcases List.mem_cons.mp one with rfl | one
      · rcases List.mem_cons.mp other with rfl | other
        · rfl
        · exact (ours second other same.symm).symm
      · rcases List.mem_cons.mp other with rfl | other
        · exact ours first one same
        · exact sound.oneOwner first one second other same

omit [DecidableEq Owner] in
/-- A refused Publish leaves a Subscription that offers nothing. -/
theorem refused_latest (owner : Owner) (name sought : String) :
    latest sought (exchange.subscriptions ++ [⟨owner, name, none⟩]) =
      latest sought exchange.subscriptions := by
  rw [latest_append, latest_singleton_aside, Option.none_or]
  intro service offered
  cases offered

omit [DecidableEq Owner] in
theorem offered_latest (owner : Owner) (name sought : String) (offered : Implementation) :
    latest sought (exchange.subscriptions ++ [⟨owner, name, some offered⟩]) =
      if name = sought then some ⟨name, offered, owner⟩
      else latest sought exchange.subscriptions := by
  rw [latest_append, latest, offers_singleton]
  change (entry sought [⟨name, offered, owner⟩]).or _ = _
  rw [entry_cons]
  split
  · rfl
  · rfl

theorem publish_mirrors (sound : Sound exchange) (mirrors : Mirrors exchange) (owner : Owner)
    (name : String) (implementation : Option Implementation) :
    Mirrors (publishNamed owner name implementation exchange) := by
  intro sought
  change entry sought (publish owner name implementation exchange.services) =
    latest sought (exchange.subscriptions ++ [⟨owner, name, accepted ..⟩])
  cases implementation with
  | none =>
      rw [accepted, ite_self, refused_latest]
      exact mirrors sought
  | some offered =>
      simp only [publish]
      by_cases blank : name = ""
      · rw [if_pos blank, accepted, if_neg fun ours => ours.1 blank, refused_latest]
        exact mirrors sought
      rw [if_neg blank]
      by_cases same : name = sought
      · subst same
        cases standing : entry name exchange.services with
        | none =>
            have free := (mirrors name).symm.trans standing
            rw [accepted_ours sound blank _ (by simp [free]), offered_latest, if_pos rfl,
              refresh_entry_fresh offered standing]
        | some service =>
            have last := (mirrors name).symm.trans standing
            rw [refresh_entry_held offered standing]
            by_cases own : service.owner = owner
            · rw [accepted_ours sound blank _ (by simp [last, own]), offered_latest, if_pos rfl,
                if_pos own, ← own, ← (entry_mem standing).2]
            · rw [accepted_foreign last own, refused_latest, last, if_neg own]
      · rw [refresh_entry_other offered (Ne.symm same), mirrors]
        cases accepted owner name (some offered) exchange.subscriptions with
        | none => rw [refused_latest]
        | some offered => rw [offered_latest, if_neg same]

variable {place : Nat} {subscription : Subscription Owner Implementation}

omit [DecidableEq Owner] in
/-- A name that is offered stands in the table under the offering plugin. -/
theorem owner_standing (sound : Sound exchange) (mirrors : Mirrors exchange)
    {service : Service Owner Implementation} (member : service ∈ offers exchange.subscriptions) :
    ∃ standing, entry service.name exchange.services = some standing ∧
      standing.owner = service.owner := by
  cases held : entry service.name exchange.services with
  | none =>
      have free := (mirrors service.name).symm.trans held
      exact absurd rfl (entry_none.mp free service member)
  | some standing =>
      have offered := entry_mem ((mirrors service.name).symm.trans held)
      exact ⟨standing, rfl, sound.oneOwner standing offered.1 service member offered.2⟩

theorem drop_mirrors (sound : Sound exchange) (mirrors : Mirrors exchange)
    (held : exchange.subscriptions[place]? = some subscription)
    (alone : Alone exchange (.drop place)) :
    Mirrors ⟨unpublish subscription.owner subscription.name exchange.services,
      exchange.subscriptions.eraseIdx place⟩ := by
  intro name
  change entry name (unpublish _ _ _) = latest name (exchange.subscriptions.eraseIdx place)
  by_cases same : name = subscription.name
  · subst same
    by_cases own : ∃ service, entry subscription.name exchange.services = some service ∧
        service.owner = subscription.owner
    · obtain ⟨service, standing, own⟩ := own
      rw [unpublish_entry_own sound.unique standing own, latest, eq_comm, entry_none]
      intro other member same
      have offered := entry_mem ((mirrors _).symm.trans standing)
      have owners := sound.oneOwner other (offers_erased place member) service offered.1
        (same.trans offered.2.symm)
      exact alone subscription held other member ⟨owners.trans own, same⟩
    · have foreign : ∀ service, entry subscription.name exchange.services = some service →
          service.owner ≠ subscription.owner := fun service standing same =>
        own ⟨service, standing, same⟩
      rw [unpublish_foreign foreign, mirrors, latest_erased held]
      -- Had it offered the name, what stands there would be its plugin's.
      intro service offered same
      have member : service ∈ offers exchange.subscriptions := offers_mem held offered
      obtain ⟨standing, taken, owners⟩ := owner_standing sound mirrors member
      rw [same] at taken
      exact foreign standing taken (owners.trans (offer_some offered).1)
  · rw [unpublish_entry_other same, mirrors, latest_erased held]
    intro service offered different
    exact same (different.symm.trans (offer_some offered).2)

theorem drop_unfaithful (sound : Sound exchange) (mirrors : Mirrors exchange)
    (held : exchange.subscriptions[place]? = some subscription)
    (faithful : Faithful ⟨unpublish subscription.owner subscription.name exchange.services,
      exchange.subscriptions.eraseIdx place⟩) : Alone exchange (.drop place) := by
  rintro _ also service member ⟨own, same⟩
  cases held.symm.trans also
  obtain ⟨standing, taken, owners⟩ :=
    owner_standing sound mirrors (offers_erased place member)
  rw [same] at taken
  have gone := unpublish_entry_own sound.unique taken (owners.trans own)
  have found := faithful subscription.name
  rw [find_entry, gone, Option.map_none, eq_comm, Option.map_eq_none_iff] at found
  exact entry_none.mp found service member same

theorem drop_sound (sound : Sound exchange) (mirrors : Mirrors exchange)
    (held : exchange.subscriptions[place]? = some subscription) :
    Sound ⟨unpublish subscription.owner subscription.name exchange.services,
      exchange.subscriptions.eraseIdx place⟩ where
  unique := sound.unique.sublist (unpublish_sublist.map _)
  oneOwner first one second other :=
    sound.oneOwner first (offers_erased place one) second (offers_erased place other)
  mirrors faithful :=
    drop_mirrors sound mirrors held (drop_unfaithful sound mirrors held faithful)

omit [DecidableEq Owner] in
theorem start_sound : Sound (start : Exchange Owner Implementation) where
  unique := List.nodup_nil
  oneOwner := nofun
  mirrors _ _ := rfl

/-- Find is faithful after every call of a run exactly when none of its drops left another
Subscription of that plugin offering the name. -/
theorem finds_latest_iff (calls : List (Call Owner Implementation)) :
    Always step Faithful start calls ↔ Guarded step Alone start calls := by
  refine always_iff_guarded ?_ start_sound (fun _ => rfl) calls
  intro before call after sound faithful taken
  have mirrors := sound.mirrors faithful
  cases call with
  | publish owner name implementation =>
      cases taken
      have mirrored := publish_mirrors sound mirrors owner name implementation
      exact ⟨⟨publish_unique _ sound.unique, publish_oneOwner sound _ _ _, fun _ => mirrored⟩,
        iff_of_true (mirrors_faithful mirrored) trivial⟩
  | drop place =>
      obtain ⟨subscription, held, rfl⟩ := Option.map_eq_some_iff.mp taken
      exact ⟨drop_sound sound mirrors held, drop_unfaithful sound mirrors held,
        fun alone => mirrors_faithful (drop_mirrors sound mirrors held alone)⟩

end Calls

/-- A plugin that publishes its name again, the new Subscription assigned over the first. -/
theorem reassigned_withdraws :
    ¬Always step Faithful (start : Exchange Nat Nat)
      [.publish 0 "bans.IBanService/2" (some 1), .publish 0 "bans.IBanService/2" (some 2),
        .drop 0] := by
  rintro ⟨_, always⟩
  have final := ((always _ rfl).2 _ rfl).2 _ rfl
  exact absurd (final "bans.IBanService/2") (by decide)

end VoltMod.ServiceExchange
