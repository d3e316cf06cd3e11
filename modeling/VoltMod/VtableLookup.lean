import VoltMod.Decimals
import VoltMod.ProcessMemory

/-!
Engine/Memory/VtableLookup.cpp: a base of a class found through its Itanium typeinfo. The
recursion is bounded by fuel here and by `maxDepth` in the source; `fuel_enough` says that the
source's bound is the one that ends it.
-/

namespace VoltMod.VtableLookup
open MigrationText (Text digit)
open ProcessMemory

structure TypeInfoKinds where
  singleBase : UInt64 := 0
  multipleBases : UInt64 := 0
  deriving DecidableEq, Repr

def typeInfoBase : UInt64 := 16
def typeInfoFlags : UInt64 := 16
def typeInfoCount : UInt64 := 20
def typeInfoBaseList : UInt64 := 24
def baseEntrySize : Nat := 16
def virtualBaseFlag : UInt64 := 1

def maxBases : Nat := 64
def maxDepth : Nat := 32

def lengthPrefixedName (className : Text) : Text :=
  Decimals.spelled className.length ++ className

/-- The first character of a name. -/
def nameStart (c : Char) : Bool := digit c || c == 'N' || c == '*'

structure FoundBase where
  offset : Int64 := 0
  isVirtual : Bool := false
  deriving DecidableEq, Repr

section Source

variable (memory : Memory) (wanted : Text) (kinds : TypeInfoKinds)

def looksLikeTypeInfo (address : UInt64) : Except Stop Bool :=
  if address = 0 ∨ address % 8 ≠ 0 ∨ isReadableAddress memory address 16 = false then
    return false
  else do
    let name ← readWord memory (address + 8)
    if isReadableAddress memory name 1 then
      let first ← readByte memory name
      return nameStart (Char.ofUInt8 first)
    else return false

def nameIs (address : UInt64) : Except Stop Bool := do
  let name ← readWord memory (address + 8)
  if isReadableAddress memory name (wanted.length + 1) then
    let found ← readText memory wanted.length name
    if found = wanted then
      let closing ← readByte memory (name + UInt64.ofNat wanted.length)
      return closing == 0
    else return false
  else return false

/-- Where the kind is known, the record is taken to go on behind its name. -/
def hasSingleBase (typeInfo : UInt64) : Except Stop Bool :=
  if kinds.singleBase ≠ 0 then do
    let vptr ← readWord memory typeInfo
    return vptr == kinds.singleBase
  else if isReadableAddress memory typeInfo 24 then do
    let base ← readWord memory (typeInfo + typeInfoBase)
    looksLikeTypeInfo memory base
  else return false

/-- Without the real vptr, the flags and the first base's shape. -/
def shaped (typeInfo : UInt64) : Except Stop Bool := do
  let flags ← readU32 memory (typeInfo + typeInfoFlags)
  if 3 < flags then return false
  else do
    let first ← readWord memory (typeInfo + typeInfoBaseList)
    looksLikeTypeInfo memory first

def otherKind (typeInfo : UInt64) : Except Stop Bool :=
  if kinds.multipleBases ≠ 0 then do
    let vptr ← readWord memory typeInfo
    return vptr != kinds.multipleBases
  else return false

def baseCount (typeInfo : UInt64) : Except Stop Nat := do
  let other ← otherKind memory kinds typeInfo
  if other = true ∨ isReadableAddress memory typeInfo 24 = false then return 0
  else do
    let count ← readU32 memory (typeInfo + typeInfoCount)
    if count.toNat = 0 ∨ maxBases < count.toNat ∨
        isReadableAddress memory (typeInfo + typeInfoBaseList)
          (count.toNat * baseEntrySize) = false then
      return 0
    else if kinds.multipleBases = 0 then do
      let fits ← shaped memory typeInfo
      return if fits then count.toNat else 0
    else return count.toNat

/-- The lambda in CollectBases; `descend` is the call of CollectBases in it. -/
def visit (descend : UInt64 → FoundBase → List FoundBase → Except Stop (List FoundBase))
    (above : FoundBase) (found : List FoundBase) (base : UInt64) (offset : Int64)
    (isVirtual : Bool) : Except Stop (List FoundBase) := do
  let looks ← looksLikeTypeInfo memory base
  if looks then do
    let here : FoundBase := ⟨above.offset + offset, above.isVirtual || isVirtual⟩
    let named ← nameIs memory wanted base
    if named then return found ++ [here]
    else descend base here found
  else return found

/-- A turn of the loop over the bases; an entry is a base and its offset over eight flags. -/
def visitEntry (descend : UInt64 → FoundBase → List FoundBase → Except Stop (List FoundBase))
    (above : FoundBase) (typeInfo : UInt64) (found : List FoundBase) (i : Nat) :
    Except Stop (List FoundBase) := do
  let entry := typeInfo + typeInfoBaseList + UInt64.ofNat (i * baseEntrySize)
  let offsetFlags ← readWord memory (entry + 8)
  let base ← readWord memory entry
  visit memory wanted descend above found base (offsetFlags.toInt64 >>> 8)
    (offsetFlags &&& virtualBaseFlag != 0)

def collectBases : Nat → UInt64 → FoundBase → Nat → List FoundBase →
    Except Stop (List FoundBase)
  | 0, _, _, _, _ => .error .fuel
  | fuel + 1, typeInfo, above, depth, found =>
      if maxDepth < depth then return found
      else do
        let descend := fun base here found => collectBases fuel base here (depth + 1) found
        let single ← hasSingleBase memory kinds typeInfo
        if single then do
          let base ← readWord memory (typeInfo + typeInfoBase)
          visit memory wanted descend above found base 0 false
        else do
          let count ← baseCount memory kinds typeInfo
          (List.range count).foldlM (visitEntry memory wanted descend above typeInfo) found

/-- What is made of the bases found. -/
def verdict (baseName : Text) (found : List FoundBase) : Result Int32 :=
  match found with
  | [] => .error (Error.notFound ("'" ++ String.ofList baseName ++ "' is not a base"))
  | first :: rest =>
      if 1 < found.length then
        .error (Error.invalid ("'" ++ String.ofList baseName ++ "' is a base " ++
          String.ofList (Decimals.spelled (rest.length + 1)) ++ " times"))
      else if first.isVirtual then
        .error (Error.unsupported ("'" ++ String.ofList baseName ++ "' is a virtual base"))
      else .ok first.offset.toInt32

def findBaseOffsetByTypeInfo (fuel : Nat) (typeInfo : UInt64) (baseName : Text) :
    Except Stop (Result Int32) := do
  let looks ← looksLikeTypeInfo memory typeInfo
  if looks then do
    let found ← collectBases memory (lengthPrefixedName baseName) kinds fuel typeInfo {} 0 []
    return verdict baseName found
  else return .error (Error.invalid "the class has no readable typeinfo")

end Source

section Ends
variable {memory : Memory} {wanted : Text} {kinds : TypeInfoKinds}

theorem ends_looks (address : UInt64) : Ends (looksLikeTypeInfo memory address) := by
  rw [looksLikeTypeInfo]
  split
  · exact ends_ok false
  · refine ends_bind (ends_readWord memory _) fun name => ?_
    split
    · exact ends_bind (ends_readByte memory name) fun first => ends_ok _
    · exact ends_ok false

theorem ends_nameIs (address : UInt64) : Ends (nameIs memory wanted address) := by
  refine ends_bind (ends_readWord memory _) fun name => ?_
  split
  · refine ends_bind (ends_readText memory _ name) fun found => ?_
    split
    · exact ends_bind (ends_readByte memory _) fun closing => ends_ok _
    · exact ends_ok false
  · exact ends_ok false

theorem ends_single (typeInfo : UInt64) : Ends (hasSingleBase memory kinds typeInfo) := by
  rw [hasSingleBase]
  split
  · exact ends_bind (ends_readWord memory typeInfo) fun vptr => ends_ok _
  · split
    · exact ends_bind (ends_readWord memory _) fun base => ends_looks base
    · exact ends_ok false

theorem ends_shaped (typeInfo : UInt64) : Ends (shaped memory typeInfo) := by
  refine ends_bind (ends_readU32 memory _) fun flags => ?_
  split
  · exact ends_ok false
  · exact ends_bind (ends_readWord memory _) fun first => ends_looks first

theorem ends_otherKind (typeInfo : UInt64) : Ends (otherKind memory kinds typeInfo) := by
  rw [otherKind]
  split
  · exact ends_bind (ends_readWord memory typeInfo) fun vptr => ends_ok _
  · exact ends_ok false

theorem ends_baseCount (typeInfo : UInt64) : Ends (baseCount memory kinds typeInfo) := by
  refine ends_bind (ends_otherKind typeInfo) fun other => ?_
  split
  · exact ends_ok 0
  · refine ends_bind (ends_readU32 memory _) fun count => ?_
    split
    · exact ends_ok 0
    · split
      · exact ends_bind (ends_shaped typeInfo) fun fits => ends_ok _
      · exact ends_ok _

theorem ends_visit {descend : UInt64 → FoundBase → List FoundBase → Except Stop (List FoundBase)}
    (later : ∀ base here found, Ends (descend base here found)) (above : FoundBase)
    (found : List FoundBase) (base : UInt64) (offset : Int64) (isVirtual : Bool) :
    Ends (visit memory wanted descend above found base offset isVirtual) := by
  refine ends_bind (ends_looks base) fun looks => ?_
  split
  · refine ends_bind (ends_nameIs base) fun named => ?_
    split
    · exact ends_ok _
    · exact later _ _ _
  · exact ends_ok found

/-- The depth allowed ends the recursion, whatever the memory holds. -/
theorem ends_collect {fuel depth : Nat} (inside : depth ≤ maxDepth + 1)
    (enough : maxDepth + 2 ≤ fuel + depth) (typeInfo : UInt64) (above : FoundBase)
    (found : List FoundBase) :
    Ends (collectBases memory wanted kinds fuel typeInfo above depth found) := by
  induction fuel generalizing depth typeInfo above found with
  | zero => omega
  | succ fuel ih =>
      rw [collectBases]
      split
      · exact ends_ok found
      · next shallow =>
          have descends : ∀ base here found,
              Ends (collectBases memory wanted kinds fuel base here (depth + 1) found) :=
            fun base here found => ih (by omega) (by omega) base here found
          refine ends_bind (ends_single typeInfo) fun single => ?_
          split
          · exact ends_bind (ends_readWord memory _) fun base =>
              ends_visit descends above found base 0 false
          · exact ends_bind (ends_baseCount typeInfo) fun count =>
              ends_foldlM (fun found i => ends_bind (ends_readWord memory _) fun offsetFlags =>
                ends_bind (ends_readWord memory _) fun base =>
                  ends_visit descends above found base _ _) found

/-- More fuel than the depth allowed changes nothing. -/
theorem collect_more {fuel depth : Nat} (inside : depth ≤ maxDepth + 1)
    (enough : maxDepth + 2 ≤ fuel + depth) :
    (fun base here found => collectBases memory wanted kinds (fuel + 1) base here depth found) =
      fun base here found => collectBases memory wanted kinds fuel base here depth found := by
  induction fuel generalizing depth with
  | zero => omega
  | succ fuel ih =>
      funext base here found
      rw [collectBases]
      conv_rhs => rw [collectBases]
      by_cases deep : maxDepth < depth
      · rw [if_pos deep, if_pos deep]
      · rw [if_neg deep, if_neg deep, ih (by omega) (by omega)]

theorem ends_find {fuel : Nat} (enough : maxDepth + 2 ≤ fuel) (typeInfo : UInt64)
    (baseName : Text) :
    Ends (findBaseOffsetByTypeInfo memory kinds fuel typeInfo baseName) := by
  refine ends_bind (ends_looks typeInfo) fun looks => ?_
  split
  · exact ends_bind (ends_collect (Nat.zero_le _) enough typeInfo {} []) fun found => ends_ok _
  · exact ends_ok _

theorem find_more {fuel : Nat} (enough : maxDepth + 2 ≤ fuel) (typeInfo : UInt64)
    (baseName : Text) : findBaseOffsetByTypeInfo memory kinds fuel typeInfo baseName =
      findBaseOffsetByTypeInfo memory kinds (maxDepth + 2) typeInfo baseName := by
  induction enough with
  | refl => rfl
  | step enough ih =>
      rw [← ih, findBaseOffsetByTypeInfo, findBaseOffsetByTypeInfo]
      have same := congrFun (congrFun (congrFun (@collect_more memory
        (lengthPrefixedName baseName) kinds _ 0 (Nat.zero_le _) enough) typeInfo) {}) []
      rw [same]

end Ends

end VoltMod.VtableLookup
