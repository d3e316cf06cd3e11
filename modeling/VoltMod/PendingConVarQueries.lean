import Mathlib.Data.List.Nodup
import Mathlib.Data.List.Perm.Subperm
import Mathlib.Data.List.Range
import Mathlib.Data.Nat.ModEq
import Mathlib.Logic.Function.Iterate
import VoltMod.Visibility

/-!
Hooks/PendingConVarQueries.cpp: the queries a slot's client has yet to answer, and the cookies
that tell them apart. Time is any arithmetic the caller's clock has. `asked` in an entry is
history: which of the service's queries its callback came with.
-/

namespace VoltMod.ConVarQueries
open Hooks

universe u v
variable {Callback : Type u} {Time : Type v}

structure PendingConVarQuery (Callback : Type u) (Time : Type v) where
  name : String
  callback : Option Callback
  sentAtSec : Time
  cookie : Int
  asked : Nat

structure PendingConVarQueries (Callback : Type u) (Time : Type v) where
  slots : Int → List (PendingConVarQuery Callback Time)
  cookieCounter : UInt32

def maxPendingPerSlot : Nat := 11

def maxCookie : UInt32 := 0x7FFFFFFF

section Source

variable (table : PendingConVarQueries Callback Time) (slot : Int)

def PendingConVarQueries.set (queries : List (PendingConVarQuery Callback Time)) :
    PendingConVarQueries Callback Time :=
  { table with slots := Function.update table.slots slot queries }

def prune [Sub Time] [LE Time] [DecidableLE Time] [OfNat Time 10] (now : Time) :
    PendingConVarQueries Callback Time :=
  if isValidSlot slot then
    table.set slot ((table.slots slot).filter fun query => !decide (10 ≤ now - query.sentAtSec))
  else table

def find (name : String) : Option (PendingConVarQuery Callback Time) :=
  if isValidSlot slot then (table.slots slot).find? fun query => query.name = name else none

def count : Nat := if isValidSlot slot then (table.slots slot).length else 0

def full : Bool := decide (maxPendingPerSlot ≤ count table slot)

/-- `++_cookieCounter`, back to 1 past the largest cookie. -/
def advance (counter : UInt32) : UInt32 := if maxCookie < counter + 1 then 1 else counter + 1

/-- The attempts NextCookie has left, from the counter they start at. -/
def nextCookieFrom (taken : List Int) : Nat → UInt32 → Int × UInt32
  | 0, counter => (-1, counter)
  | attempts + 1, counter =>
      let counter := advance counter
      if (counter.toNat : Int) ∈ taken then nextCookieFrom taken attempts counter
      else (counter.toNat, counter)

def nextCookie : Int × PendingConVarQueries Callback Time :=
  if isValidSlot slot then
    let (cookie, counter) := nextCookieFrom ((table.slots slot).map (·.cookie))
      (maxPendingPerSlot + 1) table.cookieCounter
    (cookie, { table with cookieCounter := counter })
  else (-1, table)

def add (query : PendingConVarQuery Callback Time) : PendingConVarQueries Callback Time :=
  if isValidSlot slot && decide (0 ≤ query.cookie) then
    table.set slot (table.slots slot ++ [query])
  else table

/-- The first query with the cookie, when it asked for the name, and those that are left. -/
def takeFrom (cookie : Int) (name : String) : List (PendingConVarQuery Callback Time) →
    Option (PendingConVarQuery Callback Time × List (PendingConVarQuery Callback Time))
  | [] => none
  | query :: rest =>
      if query.cookie = cookie then
        if query.name = name then some (query, rest) else none
      else (takeFrom cookie name rest).map fun (taken, left) => (taken, query :: left)

def take (cookie : Int) (name : String) :
    Option (PendingConVarQuery Callback Time × PendingConVarQueries Callback Time) :=
  if isValidSlot slot then
    (takeFrom cookie name (table.slots slot)).map fun (taken, left) => (taken, table.set slot left)
  else none

def clear : PendingConVarQueries Callback Time :=
  if isValidSlot slot then table.set slot [] else table

def clearAll : PendingConVarQueries Callback Time := { table with slots := fun _ => [] }

/-- A new callback through the pointer Find returned. -/
def retargetFrom (name : String) (callback : Option Callback) (asked : Nat) :
    List (PendingConVarQuery Callback Time) → List (PendingConVarQuery Callback Time)
  | [] => []
  | query :: rest =>
      if query.name = name then { query with callback, asked } :: rest
      else query :: retargetFrom name callback asked rest

def retarget (name : String) (callback : Option Callback) (asked : Nat) :
    PendingConVarQueries Callback Time :=
  table.set slot (retargetFrom name callback asked (table.slots slot))

end Source

section Cookies

theorem advance_toNat {counter : UInt32} (bounded : counter ≤ maxCookie) :
    (advance counter).toNat = counter.toNat % maxCookie.toNat + 1 := by
  have most : maxCookie.toNat = 2147483647 := rfl
  have low : counter.toNat ≤ 2147483647 := bounded
  rw [advance]
  split
  · next above =>
      have last : 2147483647 < (counter + 1).toNat := above
      rw [UInt32.toNat_add] at last
      simp at last
      have : counter.toNat = 2147483647 := by omega
      simp [most, this]
  · next below =>
      have small : ¬2147483647 < (counter + 1).toNat := below
      rw [UInt32.toNat_add] at small ⊢
      simp at small ⊢
      rw [most]
      omega

theorem advance_bounded {counter : UInt32} (bounded : counter ≤ maxCookie) :
    advance counter ≤ maxCookie := by
  have most : maxCookie.toNat = 2147483647 := rfl
  rw [UInt32.le_iff_toNat_le, advance_toNat bounded, most]
  omega

theorem advances_bounded {counter : UInt32} (bounded : counter ≤ maxCookie) (times : Nat) :
    advance^[times] counter ≤ maxCookie := by
  induction times with
  | zero => exact bounded
  | succ times ih =>
      rw [Function.iterate_succ_apply']
      exact advance_bounded ih

/-- The counter goes round the cookies from 1 to the largest. -/
theorem advances_toNat {counter : UInt32} (bounded : counter ≤ maxCookie) (times : Nat) :
    (advance^[times + 1] counter).toNat = (counter.toNat + times) % maxCookie.toNat + 1 := by
  induction times with
  | zero => exact advance_toNat bounded
  | succ times ih =>
      rw [Function.iterate_succ_apply', advance_toNat (advances_bounded bounded _), ih,
        Nat.mod_add_mod, Nat.add_assoc]

/-- The attempts end at a cookie nobody has, unless every one they try is taken. -/
theorem nextCookieFrom_cases (taken : List Int) {counter : UInt32} (bounded : counter ≤ maxCookie)
    (attempts : Nat) :
    (∃ cookie, nextCookieFrom taken attempts counter = ((cookie.toNat : Int), cookie) ∧
      0 < cookie.toNat ∧ cookie ≤ maxCookie ∧ (cookie.toNat : Int) ∉ taken) ∨
    ((nextCookieFrom taken attempts counter).1 = -1 ∧
      (nextCookieFrom taken attempts counter).2 ≤ maxCookie ∧
      ∀ times < attempts, ((advance^[times + 1] counter).toNat : Int) ∈ taken) := by
  induction attempts generalizing counter with
  | zero => exact .inr ⟨rfl, bounded, by simp⟩
  | succ attempts ih =>
      have next := advance_bounded bounded
      by_cases used : ((advance counter).toNat : Int) ∈ taken
      · simp only [nextCookieFrom, used, if_true]
        rcases ih next with found | ⟨none, low, every⟩
        · exact .inl found
        · refine .inr ⟨none, low, fun times few => ?_⟩
          cases times with
          | zero => exact used
          | succ times =>
              rw [Function.iterate_succ_apply]
              exact every times (by omega)
      · simp only [nextCookieFrom, used, if_false]
        refine .inl ⟨advance counter, rfl, ?_, next, used⟩
        rw [advance_toNat bounded]
        omega

/-- Fewer cookies taken than attempts made: one of them is free. -/
theorem nextCookieFrom_free {taken : List Int} {counter : UInt32} {attempts : Nat}
    (bounded : counter ≤ maxCookie) (room : taken.length < attempts)
    (few : attempts ≤ maxCookie.toNat) :
    ∃ cookie, nextCookieFrom taken attempts counter = ((cookie.toNat : Int), cookie) ∧
      0 < cookie.toNat ∧ cookie ≤ maxCookie ∧ (cookie.toNat : Int) ∉ taken := by
  rcases nextCookieFrom_cases taken bounded attempts with found | ⟨_, _, every⟩
  · exact found
  · -- All attempts differ, as the counter has not gone round once, so they would not fit.
    have apart : ((List.range attempts).map fun times =>
        ((advance^[times + 1] counter).toNat : Int)).Nodup := by
      refine List.Nodup.map_on ?_ List.nodup_range
      intro first firstIn second secondIn same
      rw [Int.natCast_inj, advances_toNat bounded, advances_toNat bounded] at same
      have firstFew := List.mem_range.mp firstIn
      have secondFew := List.mem_range.mp secondIn
      have around : Nat.ModEq maxCookie.toNat (counter.toNat + first) (counter.toNat + second) :=
        Nat.succ.inj same
      exact (Nat.ModEq.add_left_cancel' _ around).eq_of_lt_of_lt (by omega) (by omega)
    have inside : ∀ cookie ∈ (List.range attempts).map fun times =>
        ((advance^[times + 1] counter).toNat : Int), cookie ∈ taken := by
      intro cookie member
      obtain ⟨times, few, rfl⟩ := List.mem_map.mp member
      exact every times (List.mem_range.mp few)
    have fits := (apart.subperm inside).length_le
    rw [List.length_map, List.length_range] at fits
    omega

/-- Round the end of the counter, past a cookie that is taken. -/
example : nextCookieFrom [1] (maxPendingPerSlot + 1) maxCookie = (2, 2) := by decide

end Cookies

section Lists

variable {queries : List (PendingConVarQuery Callback Time)} {name : String} {cookie : Int}

/-- Only the query in flight for the name gets the new callback. -/
theorem retargetFrom_split (callback : Option Callback) (asked : Nat)
    {flying : PendingConVarQuery Callback Time}
    (found : queries.find? (fun query => query.name = name) = some flying) :
    ∃ before after, queries = before ++ flying :: after ∧
      retargetFrom name callback asked queries =
        before ++ { flying with callback, asked } :: after := by
  induction queries with
  | nil => cases found
  | cons query rest ih =>
      by_cases hit : query.name = name
      · obtain rfl : query = flying := by simpa [hit] using found
        exact ⟨[], rest, rfl, by simp [retargetFrom, hit]⟩
      · obtain ⟨before, after, rfl, changed⟩ := ih (by simpa [hit] using found)
        exact ⟨query :: before, after, rfl, by simp [retargetFrom, hit, changed]⟩

/-- What Take returns answers to both, and the others stay as they are. -/
theorem takeFrom_split {taken : PendingConVarQuery Callback Time}
    {left : List (PendingConVarQuery Callback Time)}
    (found : takeFrom cookie name queries = some (taken, left)) :
    taken.cookie = cookie ∧ taken.name = name ∧
      ∃ before after, queries = before ++ taken :: after ∧ left = before ++ after := by
  induction queries generalizing left with
  | nil => cases found
  | cons query rest ih =>
      rw [takeFrom] at found
      split at found
      · next hit =>
          split at found
          · next asked =>
              cases found
              exact ⟨hit, asked, [], rest, rfl, rfl⟩
          · cases found
      · obtain ⟨⟨inner, others⟩, deeper, same⟩ := Option.map_eq_some_iff.mp found
        cases same
        obtain ⟨sameCookie, sameName, before, after, rfl, rfl⟩ := ih deeper
        exact ⟨sameCookie, sameName, query :: before, after, rfl, rfl⟩

end Lists

end VoltMod.ConVarQueries
