import Mathlib.Algebra.Group.Nat.Defs
import Mathlib.Algebra.Ring.Int.Defs
import VoltMod.Routes
import VoltMod.VtableLookup

/-!
What memory holds as an Itanium typeinfo graph: classes with their names and bases, laid out as
`__class_type_info`, `__si_class_type_info` or `__vmi_class_type_info`. On such a graph the
lookup finds the inheritance paths to the named base.
-/

namespace VoltMod.VtableLookup
open MigrationText (Text)
open ProcessMemory Routes

structure Base where
  target : UInt64
  offset : Int
  isVirtual : Bool
  deriving DecidableEq, Repr

/-- A base and its place among the bases of its class. -/
abbrev Step := Base × Nat

def targetOf (step : Step) : UInt64 := step.1.target

def steps (bases : UInt64 → List Base) (address : UInt64) : List Step := (bases address).zipIdx

def offsetOf (path : List Step) : Int := (path.map (·.1.offset)).sum

def virtualOn (path : List Step) : Bool := path.any (·.1.isVirtual)

section Layout

variable (memory : Memory) (kinds : TypeInfoKinds)

/-- A class has a name where its string is that name to its end. -/
def named (name : Text) (address : UInt64) : Bool :=
  isReadableAddress memory (word memory (address + 8)) (name.length + 1) &&
    decide (text memory (name.length + 1) (word memory (address + 8)) = name ++ ['\x00'])

structure Entry (entry : UInt64) (base : Base) : Prop where
  target : word memory entry = base.target
  offset : (word memory (entry + 8)).toInt64.toInt / 256 = base.offset
  isVirtual : (word memory (entry + 8)).toNat % 2 = 1 ↔ base.isVirtual = true

inductive Record : UInt64 → List Base → Prop
  | lone {address : UInt64} (readable : isReadableAddress memory address 16 = true)
      (notSingle : word memory address ≠ kinds.singleBase)
      (notMultiple : word memory address ≠ kinds.multipleBases) : Record address []
  | single {address : UInt64} (readable : isReadableAddress memory address 24 = true)
      (kind : word memory address = kinds.singleBase) :
      Record address [⟨word memory (address + 16), 0, false⟩]
  | multiple {address : UInt64} {bases : List Base}
      (readable : isReadableAddress memory address (24 + bases.length * 16) = true)
      (notSingle : word memory address ≠ kinds.singleBase)
      (kind : word memory address = kinds.multipleBases)
      (count : (half memory (address + 20)).toNat = bases.length)
      (entries : ∀ i base, bases[i]? = some base →
        Entry memory (address + 24 + UInt64.ofNat (i * 16)) base) :
      Record address bases

variable (bases : UInt64 → List Base)

structure ClassAt (address : UInt64) : Prop where
  aligned : address % 8 = 0
  hasName : ∃ name, named memory name address = true
  record : Record memory kinds address (bases address)
  few : (bases address).length ≤ maxBases

/-- A class is the same as another where it has the same name; none is among its own bases. -/
structure TypeInfoGraph (start : UInt64) : Prop where
  classes : ∀ path last, Leads (steps bases) targetOf start path last →
    ClassAt memory kinds bases last
  shallow : ∀ path last, Leads (steps bases) targetOf start path last →
    path.length ≤ maxDepth + 1
  acyclic : ∀ front middle back last name, Leads (steps bases) targetOf start front middle →
    named memory name middle = true → Leads (steps bases) targetOf middle back last →
    back ≠ [] → named memory name last = false

/-- Every class's name begins as those of plain, nested and file-local classes do. -/
def Recognised (start : UInt64) : Prop :=
  ∀ path last, Leads (steps bases) targetOf start path last →
    nameStart (Char.ofUInt8 (memory.byte (word memory (last + 8)))) = true

/-- An inheritance path from the type to the named base. -/
def Inherits (start : UInt64) (baseName : Text) : List Step → Prop :=
  Reaches (steps bases) targetOf (named memory (lengthPrefixedName baseName)) start

end Layout

def FailsWith (code : ErrorCode) (answer : Result Int32) : Prop :=
  ∃ error, answer = .error error ∧ error.code = code

/-- What is to be answered where these are the paths. -/
structure Answers (paths : List Step → Prop) (answer : Result Int32) : Prop where
  ok : ∀ offset, answer = .ok offset ↔ ∃ path, (∀ other, paths other ↔ other = path) ∧
    virtualOn path = false ∧ offset.toInt = offsetOf path
  notFound : FailsWith .notFound answer ↔ ∀ path, ¬paths path
  invalid : FailsWith .invalid answer ↔
    ∃ first second, paths first ∧ paths second ∧ first ≠ second
  unsupported : FailsWith .unsupported answer ↔
    ∃ path, (∀ other, paths other ↔ other = path) ∧ virtualOn path = true

def FitsInt (paths : List Step → Prop) : Prop :=
  ∀ path, paths path → virtualOn path = false → -2 ^ 31 ≤ offsetOf path ∧ offsetOf path < 2 ^ 31

/-- The lookup ends with the answer the paths ask for. -/
def Exact (memory : Memory) (kinds : TypeInfoKinds) (bases : UInt64 → List Base)
    (typeInfo : UInt64) (baseName : Text) : Prop :=
  ∃ answer, (∀ fuel, maxDepth + 2 ≤ fuel →
      findBaseOffsetByTypeInfo memory kinds fuel typeInfo baseName = .ok answer) ∧
    Answers (Inherits memory bases typeInfo baseName) answer

section Records

variable {memory : Memory} {kinds : TypeInfoKinds} {bases : UInt64 → List Base}
  {address : UInt64}

theorem Record.readable {listed : List Base} (record : Record memory kinds address listed) :
    isReadableAddress memory address 16 = true := by
  cases record with
  | lone readable _ _ => exact readable
  | single readable _ => exact readable_less readable (by decide) (by decide)
  | multiple readable _ _ _ _ => exact readable_less readable (by decide) (by omega)

theorem Record.vptr {listed : List Base} (record : Record memory kinds address listed) :
    readWord memory address = .ok (word memory address) :=
  readWord_start record.readable (by decide)

theorem Record.name {listed : List Base} (record : Record memory kinds address listed) :
    readWord memory (address + 8) = .ok (word memory (address + 8)) :=
  @readWord_readable memory address 16 8 record.readable (by decide)

theorem closes_iff (byte : UInt8) : Char.ofUInt8 byte = '\x00' ↔ byte = 0 := by
  constructor
  · intro closes
    have value : byte.toNat = (0 : UInt8).toNat := congrArg Char.toNat closes
    exact UInt8.toNat_inj.mp value
  · rintro rfl
    rfl

/-- NameIs asks for the name. -/
theorem Record.nameIs {listed : List Base} (record : Record memory kinds address listed)
    (wanted : Text) : nameIs memory wanted address = .ok (named memory wanted address) := by
  rw [VtableLookup.nameIs, record.name, named]
  simp only [bind, Except.bind]
  cases readable : isReadableAddress memory (word memory (address + 8)) (wanted.length + 1) with
  | false => rfl
  | true =>
      have read := readText_start readable (Nat.le_succ wanted.length)
      have closing := readByte_readable readable (Nat.lt_succ_self _)
      have split : text memory (wanted.length + 1) (word memory (address + 8)) =
            wanted ++ ['\x00'] ↔
          text memory wanted.length (word memory (address + 8)) = wanted ∧
            memory.byte (word memory (address + 8) + UInt64.ofNat wanted.length) = 0 := by
        rw [text_succ, ← closes_iff]
        constructor
        · intro same
          obtain ⟨front, last⟩ := List.append_inj' same rfl
          exact ⟨front, List.singleton_inj.mp last⟩
        · rintro ⟨front, last⟩
          rw [front, last]
      simp only [if_true, read, closing, split, Bool.true_and]
      split
      · next same =>
          simp only [same, true_and]
          rfl
      · next apart => simp [apart, pure, Except.pure]

theorem ClassAt.looks (here : ClassAt memory kinds bases address) :
    looksLikeTypeInfo memory address =
      .ok (nameStart (Char.ofUInt8 (memory.byte (word memory (address + 8))))) := by
  obtain ⟨name, hasName⟩ := here.hasName
  rw [named, Bool.and_eq_true] at hasName
  have first := readable_less hasName.1 Nat.one_ne_zero (Nat.le_add_left 1 _)
  have read := readByte_start first
  have readable := here.record.readable
  have nonzero := (readable_region readable).1
  rw [looksLikeTypeInfo, if_neg (by simp [nonzero, here.aligned, readable]), here.record.name]
  simp only [bind, Except.bind, first, read, if_true]
  rfl

end Records

section Bases

variable {memory : Memory} {kinds : TypeInfoKinds} {bases : UInt64 → List Base}
  {address : UInt64} {wanted : Text}

theorem single_known (known : kinds.singleBase ≠ 0) {listed : List Base}
    (record : Record memory kinds address listed) :
    hasSingleBase memory kinds address = .ok (word memory address == kinds.singleBase) := by
  rw [hasSingleBase, if_pos known, record.vptr]
  rfl

theorem otherKind_known (known : kinds.multipleBases ≠ 0) {listed : List Base}
    (record : Record memory kinds address listed) :
    otherKind memory kinds address = .ok (word memory address != kinds.multipleBases) := by
  rw [otherKind, if_pos known, record.vptr]
  rfl

theorem lone_count (known : kinds.multipleBases ≠ 0)
    (record : Record memory kinds address []) (notMultiple : word memory address ≠ kinds.multipleBases) :
    baseCount memory kinds address = .ok 0 := by
  rw [baseCount, otherKind_known known record]
  simp [notMultiple, bind, Except.bind, pure, Except.pure]

theorem multiple_count (known : kinds.multipleBases ≠ 0) {listed : List Base}
    (record : Record memory kinds address listed) (few : listed.length ≤ maxBases)
    (readable : isReadableAddress memory address (24 + listed.length * 16) = true)
    (kind : word memory address = kinds.multipleBases)
    (count : (half memory (address + 20)).toNat = listed.length) :
    baseCount memory kinds address = .ok listed.length := by
  have fixed := readable_less readable (by decide : (24 : Nat) ≠ 0) (by omega)
  have counted : readU32 memory (address + 20) = .ok (half memory (address + 20)) :=
    @readU32_readable memory address _ 20 fixed (by decide)
  rw [baseCount, otherKind_known known record]
  simp only [kind, bne_self_eq_false, bind, Except.bind, Bool.false_eq_true, fixed, or_self,
    if_false, typeInfoCount, counted, count, known, Bool.true_eq_false]
  by_cases none : listed.length = 0
  · simp [none, pure, Except.pure]
  · have list : isReadableAddress memory (address + 24) (listed.length * 16) = true := by
      have later := @readable_later memory address _ 24 readable (by omega)
      rwa [Nat.add_sub_cancel_left] at later
    rw [if_neg]
    · rfl
    · simp [none, typeInfoBaseList, baseEntrySize, list, Nat.not_lt.mpr few]

theorem shift_offset (offsetFlags : UInt64) : offsetFlags.toInt64 >>> 8 =
    Int64.ofInt (offsetFlags.toInt64.toInt / 256) := by
  have shifted : (offsetFlags.toInt64 >>> 8).toInt = offsetFlags.toInt64.toInt >>> (8 : Nat) :=
    BitVec.toInt_sshiftRight'
  rw [← Int64.ofInt_toInt (offsetFlags.toInt64 >>> 8), shifted, Int.shiftRight_eq_div_pow]
  rfl

theorem virtual_flag (offsetFlags : UInt64) :
    (offsetFlags &&& virtualBaseFlag != 0) = decide (offsetFlags.toNat % 2 = 1) := by
  have low : (offsetFlags &&& virtualBaseFlag).toNat = offsetFlags.toNat % 2 := by
    rw [UInt64.toNat_and]
    exact Nat.and_one_is_mod _
  rw [Bool.eq_iff_iff, bne_iff_ne, decide_eq_true_eq, Ne, ← UInt64.toNat_inj, low,
    UInt64.toNat_zero]
  omega

/-- Where a path comes out that goes on from what was found above it. -/
def along (above : FoundBase) (path : List Step) : FoundBase :=
  ⟨above.offset + Int64.ofInt (offsetOf path), above.isVirtual || virtualOn path⟩

theorem along_cons (above : FoundBase) (step : Step) (path : List Step) :
    along above (step :: path) =
      along ⟨above.offset + Int64.ofInt step.1.offset, above.isVirtual || step.1.isVirtual⟩ path := by
  simp [along, offsetOf, virtualOn, Int64.add_assoc, Bool.or_assoc]

/-- A turn of the loop has the base of its place, with its offset and its flag. -/
theorem entry_visit {descend : UInt64 → FoundBase → List FoundBase → Except Stop (List FoundBase)}
    {above : FoundBase} {base : Base} {size i : Nat}
    (readable : isReadableAddress memory address size = true) (inside : 24 + i * 16 + 16 ≤ size)
    (entry : Entry memory (address + 24 + UInt64.ofNat (i * 16)) base) (found : List FoundBase) :
    visitEntry memory wanted descend above address found i =
      visit memory wanted descend above found base.target (Int64.ofInt base.offset)
        base.isVirtual := by
  have place : address + 24 + UInt64.ofNat (i * 16) = address + UInt64.ofNat (24 + i * 16) := by
    rw [UInt64.add_assoc, UInt64.ofNat_add]
    rfl
  have behind : address + UInt64.ofNat (24 + i * 16) + 8 =
      address + UInt64.ofNat (24 + i * 16 + 8) := by
    rw [UInt64.add_assoc, UInt64.ofNat_add _ 8]
    rfl
  have target := entry.target
  have offset := entry.offset
  have flag : decide ((word memory (address + UInt64.ofNat (24 + i * 16 + 8))).toNat % 2 = 1) =
      base.isVirtual := by
    rw [← behind, ← place, Bool.eq_iff_iff, decide_eq_true_eq, entry.isVirtual]
  rw [place] at target
  rw [place, behind] at offset
  rw [visitEntry]
  simp only [typeInfoBaseList, baseEntrySize, place, behind]
  rw [readWord_readable readable (by omega), readWord_readable readable (by omega)]
  simp only [bind, Except.bind, shift_offset, virtual_flag, target, offset, flag]

theorem foldlM_appends {Item Value : Type} {items : List Item} {adds : Item → List Value}
    {next : List Value → Item → Except Stop (List Value)}
    (each : ∀ item ∈ items, ∀ found, next found item = .ok (found ++ adds item))
    (found : List Value) : items.foldlM next found = .ok (found ++ items.flatMap adds) := by
  induction items generalizing found with
  | nil => simp [pure, Except.pure]
  | cons item rest ih =>
      rw [List.foldlM_cons, each item List.mem_cons_self]
      simp only [bind, Except.bind]
      rw [ih fun other member => each other (List.mem_cons_of_mem _ member), List.flatMap_cons,
        List.append_assoc]

/-- The loop's places are those of the bases. -/
theorem range_places (listed : List Base) :
    List.range listed.length = listed.zipIdx.map (·.2) := by
  rw [List.zipIdx_map_snd, List.range_eq_range']

theorem steps_nodup (bases : UInt64 → List Base) (address : UInt64) :
    (steps bases address).Nodup := by
  refine List.Nodup.of_map (·.2) ?_
  rw [steps, ← range_places]
  exact List.nodup_range

/-- A base is a route's end where it has the name, and otherwise its first step. -/
theorem visit_step {descend : UInt64 → FoundBase → List FoundBase → Except Stop (List FoundBase)}
    {above : FoundBase} {step : Step} {limit : Nat}
    (child : ClassAt memory kinds bases (targetOf step))
    (recognised : Recognised memory bases (targetOf step))
    (descends : ∀ here found, descend (targetOf step) here found = .ok (found ++
      (routes (steps bases) targetOf (named memory wanted) limit (targetOf step)).map (along here)))
    (found : List FoundBase) :
    visit memory wanted descend above found step.1.target (Int64.ofInt step.1.offset)
        step.1.isVirtual =
      .ok (found ++ (if named memory wanted (targetOf step) then [[step]]
        else (routes (steps bases) targetOf (named memory wanted) limit (targetOf step)).map
          (step :: ·)).map (along above)) := by
  have looks := child.looks
  have names := child.record.nameIs wanted
  have starts := recognised [] _ (.here _)
  rw [starts] at looks
  rw [targetOf] at looks names
  rw [visit, looks]
  simp only [bind, Except.bind, if_true, names]
  cases ends : named memory wanted step.1.target with
  | true => simp [targetOf, ends, along, offsetOf, virtualOn, pure, Except.pure]
  | false =>
      have later := descends ⟨above.offset + Int64.ofInt step.1.offset,
        above.isVirtual || step.1.isVirtual⟩ found
      rw [targetOf] at later
      simp only [Bool.false_eq_true, if_false, targetOf, ends, List.map_map, later]
      have same : (routes (steps bases) targetOf (named memory wanted) limit step.1.target).map
            (along ⟨above.offset + Int64.ofInt step.1.offset, above.isVirtual || step.1.isVirtual⟩) =
          (routes (steps bases) targetOf (named memory wanted) limit step.1.target).map
            (along above ∘ (step :: ·)) :=
        List.map_congr_left fun path _ => (along_cons above step path).symm
      rw [same]

/-- The routes to the named base are found in order, each with what was found above. -/
theorem collect_routes (knownSingle : kinds.singleBase ≠ 0)
    (knownMultiple : kinds.multipleBases ≠ 0) {fuel depth : Nat} {above : FoundBase}
    {found : List FoundBase} (inside : depth ≤ maxDepth + 1)
    (enough : maxDepth + 2 ≤ fuel + depth)
    (classes : ∀ path last, Leads (steps bases) targetOf address path last →
      ClassAt memory kinds bases last)
    (recognised : Recognised memory bases address) :
    collectBases memory wanted kinds fuel address above depth found =
      .ok (found ++ (routes (steps bases) targetOf (named memory wanted)
        (maxDepth + 1 - depth) address).map (along above)) := by
  induction fuel generalizing address above found depth with
  | zero => omega
  | succ fuel ih =>
      rw [collectBases]
      -- Past the last depth the reader stops, and no route is that long.
      by_cases deep : maxDepth < depth
      · rw [if_pos deep, Nat.sub_eq_zero_of_le deep]
        simp [routes, pure, Except.pure]
      · rw [if_neg deep]
        have here := classes [] address (.here address)
        obtain ⟨limit, more⟩ : ∃ limit, maxDepth + 1 - depth = limit + 1 := ⟨maxDepth - depth, by omega⟩
        have less : maxDepth + 1 - (depth + 1) = limit := by omega
        -- What the induction gives for each base, whichever record lists it.
        have children : ∀ step ∈ steps bases address, ∀ found,
            visit memory wanted
                (fun base here found => collectBases memory wanted kinds fuel base here (depth + 1) found)
                above found step.1.target (Int64.ofInt step.1.offset) step.1.isVirtual =
              .ok (found ++ (if named memory wanted (targetOf step) then [[step]]
                else (routes (steps bases) targetOf (named memory wanted) limit
                  (targetOf step)).map (step :: ·)).map (along above)) := by
          intro step listed found
          have below := behind classes listed
          have known := behind recognised listed
          refine visit_step (below [] _ (.here _)) known (fun here found => ?_) found
          rw [← less]
          exact ih (by omega) (by omega) below known
        rw [more, routes, List.map_flatMap]
        have places : steps bases address = (bases address).zipIdx := rfl
        have record := here.record
        have few := here.few
        rw [places] at children ⊢
        generalize bases address = listed at record few children ⊢
        rw [single_known knownSingle record]
        have kinded := record
        cases kinded with
        | lone _ notSingle notMultiple =>
            simp only [bind, Except.bind, beq_eq_false_iff_ne.mpr notSingle, Bool.false_eq_true,
              if_false, lone_count knownMultiple record notMultiple]
            simp [pure, Except.pure]
        | single readable kind =>
            have target : readWord memory (address + typeInfoBase) =
                .ok (word memory (address + typeInfoBase)) :=
              @readWord_readable memory address 24 16 readable (by decide)
            simp only [bind, Except.bind, kind, beq_self_eq_true, if_true, target]
            have only := children _ List.mem_cons_self found
            simpa [typeInfoBase] using only
        | multiple readable notSingle kind count entries =>
            simp only [bind, Except.bind, beq_eq_false_iff_ne.mpr notSingle, Bool.false_eq_true,
              if_false, multiple_count knownMultiple record few readable kind count]
            rw [range_places, List.foldlM_map]
            refine foldlM_appends (fun step listed found => ?_) found
            have place := List.mem_zipIdx_iff_getElem?.mp listed
            have inside := (List.getElem?_eq_some_iff.mp place).1
            rw [entry_visit readable (by omega) (entries _ _ place)]
            exact children step listed found

end Bases

section Answer

variable {code : ErrorCode} {answer : Result Int32}

theorem failsWith_error {error : Error} : FailsWith code (.error error) ↔ error.code = code := by
  constructor
  · rintro ⟨_, same, coded⟩
    rwa [Except.error.inj same]
  · exact fun coded => ⟨error, rfl, coded⟩

theorem failsWith_ok {offset : Int32} : ¬FailsWith code (.ok offset) := by
  rintro ⟨_, same, _⟩
  cases same

theorem verdict_answers {items : List (List Step)} {paths : List Step → Prop}
    (distinct : items.Nodup) (exact : ∀ path, path ∈ items ↔ paths path) (fits : FitsInt paths)
    (baseName : Text) : Answers paths (verdict baseName (items.map (along {}))) := by
  have unique := fun path => (one_iff distinct exact path).symm
  have several := several_iff distinct exact
  -- No path, one or several: each gives one answer and rules the other three out.
  match items with
  | [] =>
      have none : ∀ path, ¬paths path := (none_iff exact).mp rfl
      have answered : verdict baseName [] =
          .error (Error.notFound ("'" ++ String.ofList baseName ++ "' is not a base")) := rfl
      rw [List.map_nil, answered]
      constructor
      case ok => simp [unique]
      case notFound => exact iff_of_true (failsWith_error.mpr rfl) none
      case invalid =>
        refine iff_of_false (fun fails => nomatch failsWith_error.mp fails) ?_
        rintro ⟨first, _, one, _⟩
        exact none first one
      case unsupported =>
        exact iff_of_false (fun fails => nomatch failsWith_error.mp fails) (by simp [unique])
  | [path] =>
      have found := (exact path).mp (List.mem_singleton_self path)
      have some : ¬∀ other, ¬paths other := fun none => none path found
      have single : ¬∃ first second, paths first ∧ paths second ∧ first ≠ second :=
        fun two => absurd (several.mpr two) (Nat.lt_irrefl 1)
      -- A single path is an offset unless a virtual base lies on it.
      cases crossing : virtualOn path with
      | true =>
          have answered : verdict baseName ([path].map (along {})) =
              .error (Error.unsupported ("'" ++ String.ofList baseName ++ "' is a virtual base")) := by
            simp [verdict, along, crossing]
          rw [answered]
          constructor
          case ok => simp [unique, crossing]
          case notFound => exact iff_of_false (fun fails => nomatch failsWith_error.mp fails) some
          case invalid => exact iff_of_false (fun fails => nomatch failsWith_error.mp fails) single
          case unsupported =>
            exact iff_of_true (failsWith_error.mpr rfl) ⟨path, (unique path).mpr rfl, crossing⟩
      | false =>
          obtain ⟨low, high⟩ := fits path found crossing
          have answered : verdict baseName ([path].map (along {})) =
              .ok (Int32.ofInt (offsetOf path)) := by
            simp [verdict, along, crossing]
          have sum : (Int32.ofInt (offsetOf path)).toInt = offsetOf path :=
            Int32.toInt_ofInt_of_le low high
          rw [answered]
          constructor
          case ok =>
            intro offset
            constructor
            · intro same
              cases same
              exact ⟨path, (unique path).mpr rfl, crossing, sum⟩
            · rintro ⟨other, only, _, same⟩
              cases (unique other).mp only
              rw [← Int32.toInt_inj.mp (sum.trans same.symm)]
          case notFound => exact iff_of_false failsWith_ok some
          case invalid => exact iff_of_false failsWith_ok single
          case unsupported => simp [unique, crossing, failsWith_ok]
  | first :: second :: rest =>
      have many := several.mp (by simp)
      have answered : verdict baseName ((first :: second :: rest).map (along {})) =
          .error (Error.invalid ("'" ++ String.ofList baseName ++ "' is a base " ++
            String.ofList (Decimals.spelled (rest.length + 2)) ++ " times")) := by
        simp [verdict]
      rw [answered]
      constructor
      case ok => simp [unique]
      case notFound =>
        refine iff_of_false (fun fails => nomatch failsWith_error.mp fails) fun none => ?_
        exact none first ((exact first).mp List.mem_cons_self)
      case invalid => exact iff_of_true (failsWith_error.mpr rfl) many
      case unsupported =>
        exact iff_of_false (fun fails => nomatch failsWith_error.mp fails) (by simp [unique])

end Answer

section Chain

/-- One readable mapping. -/
def mapped (base : UInt64) (bytes : List UInt8) : Memory where
  queryRegion := fun address =>
    if base ≤ address ∧ address < base + UInt64.ofNat bytes.length then
      some ⟨base + UInt64.ofNat bytes.length, true⟩
    else none
  byte := fun address => bytes.getD (address - base).toNat 0
  spans := by
    intro address region found
    split at found
    · next inside =>
        cases found
        refine ⟨inside.2, fun other behind before => ?_⟩
        rw [if_pos ⟨UInt64.le_trans inside.1 behind, before⟩]
    · cases found

def wordBytes (value : Nat) : List UInt8 :=
  (List.range 8).map fun i => UInt8.ofNat (value / 256 ^ i)

def nameBytes (name : String) : List UInt8 := name.toList.map (UInt8.ofNat ·.toNat) ++ [0]

def chainKinds : TypeInfoKinds := ⟨0x5100, 0x5200⟩

/-- Root at 0x1000, a class of that base at 0x1010, and Derived with that one at 16. -/
def chain (middle : String) : Memory :=
  mapped 0x1000 ([0x5000, 0x1050, 0x5100, 0x105F, 0x1000, 0x5200, 0x1056, 2 ^ 32, 0x1010,
      16 * 256 + 2].flatMap wordBytes ++
    nameBytes "4Root" ++ nameBytes "7Derived" ++ nameBytes middle)

def toRoot : Base := ⟨0x1000, 0, false⟩
def toMiddle : Base := ⟨0x1010, 16, false⟩

def chainBases (address : UInt64) : List Base :=
  if address = 0x1028 then [toMiddle] else if address = 0x1010 then [toRoot] else []

theorem chain_leads {path : List Step} {last : UInt64}
    (leads : Leads (steps chainBases) targetOf 0x1028 path last) :
    path = [] ∧ last = 0x1028 ∨ path = [(toMiddle, 0)] ∧ last = 0x1010 ∨
      path = [(toMiddle, 0), (toRoot, 0)] ∧ last = 0x1000 := by
  cases leads with
  | here _ => exact .inl ⟨rfl, rfl⟩
  | along listed rest =>
      cases List.mem_singleton.mp (show _ ∈ [(toMiddle, 0)] from listed)
      cases rest with
      | here _ => exact .inr (.inl ⟨rfl, rfl⟩)
      | along listed rest =>
          cases List.mem_singleton.mp (show _ ∈ [(toRoot, 0)] from listed)
          cases rest with
          | here _ => exact .inr (.inr ⟨rfl, rfl⟩)
          | along listed rest => cases (show _ ∈ ([] : List Step) from listed)

/-- Classes of one name begin alike. -/
theorem named_start {memory : Memory} {name : Text} {address : UInt64}
    (hasName : named memory name address = true) : (name ++ ['\x00']).head? =
      some (Char.ofUInt8 (memory.byte (word memory (address + 8)))) := by
  simp only [named, Bool.and_eq_true, decide_eq_true_eq] at hasName
  rw [← hasName.2]
  rfl

def middleNames : List String := ["6Middle", "St1M"]

theorem chain_readable : ∀ middle ∈ middleNames,
    isReadableAddress (chain middle) 0x1000 16 = true ∧
    isReadableAddress (chain middle) 0x1010 24 = true ∧
    isReadableAddress (chain middle) 0x1028 40 = true := by decide +kernel

theorem chain_named : ∀ middle ∈ middleNames,
    named (chain middle) "4Root".toList 0x1000 = true ∧
    named (chain middle) middle.toList 0x1010 = true ∧
    named (chain middle) "7Derived".toList 0x1028 = true := by decide +kernel

theorem chain_words : ∀ middle ∈ middleNames,
    word (chain middle) 0x1000 = 0x5000 ∧ word (chain middle) 0x1010 = 0x5100 ∧
    word (chain middle) 0x1020 = 0x1000 ∧ word (chain middle) 0x1028 = 0x5200 ∧
    half (chain middle) 0x103C = 1 ∧ word (chain middle) 0x1040 = 0x1010 ∧
    word (chain middle) 0x1048 = 16 * 256 + 2 := by decide +kernel

def startOf (memory : Memory) (address : UInt64) : Char :=
  Char.ofUInt8 (memory.byte (word memory (address + 8)))

theorem chain_starts : ∀ middle ∈ middleNames,
    startOf (chain middle) 0x1028 ≠ startOf (chain middle) 0x1010 ∧
    startOf (chain middle) 0x1028 ≠ startOf (chain middle) 0x1000 ∧
    startOf (chain middle) 0x1010 ≠ startOf (chain middle) 0x1000 := by decide +kernel

theorem chain_graph {middle : String} (listed : middle ∈ middleNames) :
    TypeInfoGraph (chain middle) chainKinds chainBases 0x1028 := by
  obtain ⟨rootReadable, middleReadable, derivedReadable⟩ := chain_readable middle listed
  obtain ⟨rootNamed, middleNamed, derivedNamed⟩ := chain_named middle listed
  obtain ⟨root, single, toRootWord, derived, count, target, offset⟩ := chain_words middle listed
  constructor
  case classes =>
    intro path last leads
    obtain ⟨_, rfl⟩ | ⟨_, rfl⟩ | ⟨_, rfl⟩ := chain_leads leads
    · refine ⟨rfl, ⟨_, derivedNamed⟩, .multiple derivedReadable ?_ derived ?_ ?_, by decide⟩
      · rw [derived]
        decide
      · rw [show (0x1028 : UInt64) + 20 = 0x103C from rfl, count]
        rfl
      · rintro (_ | i) base found
        · cases found
          have entry : (0x1028 : UInt64) + 24 + UInt64.ofNat (0 * 16) + 8 = 0x1048 := rfl
          refine ⟨target, ?_, ?_⟩
          · rw [entry, offset]
            decide
          · rw [entry, offset]
            decide
        · cases found
    · refine ⟨rfl, ⟨_, middleNamed⟩, ?_, by decide⟩
      have record := @Record.single (chain middle) chainKinds 0x1010 middleReadable single
      rw [show (0x1010 : UInt64) + 16 = 0x1020 from rfl, toRootWord] at record
      exact record
    · refine ⟨rfl, ⟨_, rootNamed⟩, .lone rootReadable ?_ ?_, by decide⟩
      · rw [root]
        decide
      · rw [root]
        decide
  case shallow =>
    intro path last leads
    obtain ⟨rfl, _⟩ | ⟨rfl, _⟩ | ⟨rfl, _⟩ := chain_leads leads
    · decide
    · decide
    · decide
  case acyclic =>
    intro front node back last name first oneNamed later some
    -- Where the way goes on it is at one of the classes further along the chain.
    have apart : startOf (chain middle) node ≠ startOf (chain middle) last := by
      obtain ⟨derivedMiddle, derivedRoot, middleRoot⟩ := chain_starts middle listed
      obtain ⟨rfl, rfl⟩ | ⟨rfl, rfl⟩ | ⟨rfl, rfl⟩ := chain_leads first
      · obtain ⟨none, _⟩ | ⟨_, rfl⟩ | ⟨_, rfl⟩ := chain_leads (first.append later)
        · exact absurd none some
        · exact derivedMiddle
        · exact derivedRoot
      · obtain ⟨none, _⟩ | ⟨none, _⟩ | ⟨_, rfl⟩ := chain_leads (first.append later)
        · cases none
        · exact absurd (List.append_cancel_left none) some
        · exact middleRoot
      · obtain ⟨none, _⟩ | ⟨none, _⟩ | ⟨none, _⟩ := chain_leads (first.append later)
        · cases none
        · cases none
        · exact absurd (List.append_cancel_left none) some
    cases otherNamed : named (chain middle) name last with
    | false => rfl
    | true =>
        have same := (named_start oneNamed).symm.trans (named_start otherNamed)
        exact absurd (Option.some.inj same) apart

theorem chain_root : ∀ middle ∈ middleNames,
    named (chain middle) (lengthPrefixedName "Root".toList) 0x1000 = true ∧
    named (chain middle) (lengthPrefixedName "Root".toList) 0x1010 = false := by decide +kernel

theorem chain_inherits {middle : String} (listed : middle ∈ middleNames) (path : List Step) :
    Inherits (chain middle) chainBases 0x1028 "Root".toList path ↔
      path = [(toMiddle, 0), (toRoot, 0)] := by
  obtain ⟨root, notMiddle⟩ := chain_root middle listed
  constructor
  · rintro ⟨some, last, leads, hasName⟩
    obtain ⟨none, _⟩ | ⟨_, rfl⟩ | ⟨whole, _⟩ := chain_leads leads
    · exact absurd none some
    · exact nomatch notMiddle.symm.trans hasName
    · exact whole
  · rintro rfl
    have second : (toRoot, 0) ∈ steps chainBases 0x1010 := List.mem_singleton_self _
    have first : (toMiddle, 0) ∈ steps chainBases 0x1028 := List.mem_singleton_self _
    exact ⟨List.cons_ne_nil _ _, 0x1000, .along first (.edge second), root⟩

theorem chain_fits {middle : String} (listed : middle ∈ middleNames) :
    FitsInt (Inherits (chain middle) chainBases 0x1028 "Root".toList) := by
  intro path inherits _
  rw [(chain_inherits listed path).mp inherits]
  decide

end Chain

end VoltMod.VtableLookup
