import Mathlib.Data.List.Forall2
import VoltMod.Regex

/-! Patterns with alternatives, words and a repetition that takes as little as it can, beside
the expressions of `Regex`. A pattern is its ways to match a text from the start, the preferred
one first. -/
namespace VoltMod.Patterns
open Regex

variable {Symbol : Type}

abbrev Pattern (Symbol : Type) := List Symbol → List (Match Symbol)

def one (accepts : Symbol → Bool) : Pattern Symbol := ways (.one accepts)

def many (accepts : Symbol → Bool) : Pattern Symbol := ways (.many accepts)

/-- The splits that `many` tries, the shortest first. -/
def few (accepts : Symbol → Bool) : Pattern Symbol := fun text => (many accepts text).reverse

def seq (first second : Pattern Symbol) : Pattern Symbol := fun text =>
  (first text).flatMap fun head => (second head.rest).map head.followed

def either (first second : Pattern Symbol) : Pattern Symbol := fun text =>
  first text ++ second text

def maybe (inner : Pattern Symbol) : Pattern Symbol := fun text => inner text ++ [⟨[], [], text⟩]

def group (number : Nat) (inner : Pattern Symbol) : Pattern Symbol := fun text =>
  (inner text).map fun found => { found with groups := found.groups ++ [(number, found.matched)] }

/-- One symbol after the other, each up to likeness. -/
def word (alike : Symbol → Symbol → Bool) : List Symbol → Pattern Symbol
  | [] => fun text => [⟨[], [], text⟩]
  | letter :: rest => seq (one (alike letter)) (word alike rest)

def many1 (accepts : Symbol → Bool) : Pattern Symbol := seq (one accepts) (many accepts)

/-- A match with the text before it. -/
structure Occurrence (Symbol : Type) where
  before : List Symbol
  found : Match Symbol

/-- The first match that begins a line. -/
def searchLines (breaks : Symbol → Bool) (pattern : Pattern Symbol) :
    List Symbol → Bool → List Symbol → Option (Occurrence Symbol)
  | before, start, [] =>
      ((if start then pattern [] else []).head?).map (Occurrence.mk before)
  | before, start, symbol :: rest =>
      match (if start then pattern (symbol :: rest) else []).head? with
      | some found => some ⟨before, found⟩
      | none => searchLines breaks pattern (before ++ [symbol]) (breaks symbol) rest

/-- The matches from the left, each behind the one before, for a pattern that matches no empty
text. `skip` is what the last one still covers. -/
def findAll (pattern : Pattern Symbol) : List Symbol → Nat → List Symbol → List (Occurrence Symbol)
  | _, _, [] => []
  | before, skip + 1, symbol :: rest => findAll pattern (before ++ [symbol]) skip rest
  | before, 0, symbol :: rest =>
      match (pattern (symbol :: rest)).head? with
      | some found =>
          ⟨before, found⟩ :: findAll pattern (before ++ [symbol]) (found.matched.length - 1) rest
      | none => findAll pattern (before ++ [symbol]) 0 rest

section Ways
variable {accepts : Symbol → Bool} {alike : Symbol → Symbol → Bool} {first second : Pattern Symbol}
  {text rest : List Symbol} {symbol : Symbol} {found tail : Match Symbol}

@[simp] theorem one_cons (takes : accepts symbol = true) :
    one accepts (symbol :: rest) = [⟨[symbol], [], rest⟩] := by
  rw [one, ways, if_pos takes]

@[simp] theorem one_none (apart : accepts symbol = false) : one accepts (symbol :: rest) = [] := by
  rw [one, ways, if_neg (by simp [apart])]

@[simp] theorem one_nil : one accepts [] = [] := rfl

theorem one_first (takes : accepts symbol = true) :
    (one accepts (symbol :: rest)).head? = some ⟨[symbol], [], rest⟩ := by
  rw [one_cons takes, List.head?_cons]

/-- A repetition takes a run up to the first symbol that stops it. -/
theorem many_run {run : List Symbol} (each : ∀ symbol ∈ run, accepts symbol = true)
    (stops : ∀ symbol ∈ rest.head?, accepts symbol = false) :
    (many accepts (run ++ rest)).head? = some ⟨run, [], rest⟩ := by
  rw [many, ways, List.head?_map]
  induction run with
  | nil =>
      cases rest with
      | nil => rfl
      | cons symbol rest => simp [runs, stops symbol rfl]
  | cons symbol run ih =>
      obtain ⟨longest, first, same⟩ := Option.map_eq_some_iff.mp
        (ih fun other inside => each other (List.mem_cons_of_mem _ inside))
      rw [Match.mk.injEq] at same
      rw [List.cons_append, runs, if_pos (each symbol List.mem_cons_self), List.head?_append,
        List.head?_map, first]
      simp [same.1, same.2.2]

theorem seq_first (here : (first text).head? = some found)
    (there : (second found.rest).head? = some tail) :
    (seq first second text).head? = some (found.followed tail) := by
  obtain ⟨others, ways⟩ := List.head?_eq_some_iff.mp here
  rw [seq, ways, List.flatMap_cons, List.head?_append, List.head?_map, there]
  rfl

theorem seq_none (here : first text = []) : seq first second text = [] := by
  rw [seq, here, List.flatMap_nil]

theorem seq_stuck (stuck : ∀ head ∈ first text, second head.rest = []) :
    seq first second text = [] := by
  rw [seq, List.flatMap_eq_nil_iff]
  intro head member
  rw [stuck head member, List.map_nil]

theorem seq_one (takes : accepts symbol = true) (stuck : second rest = []) :
    seq (one accepts) second (symbol :: rest) = [] := by
  apply seq_stuck
  rw [one_cons takes]
  rintro head ⟨⟩
  · exact stuck
  · contradiction

theorem either_first (here : (first text).head? = some found) :
    (either first second text).head? = some found := by
  rw [either, List.head?_append, here, Option.some_or]

theorem either_second (none_ : first text = []) : either first second text = second text := by
  rw [either, none_, List.nil_append]

theorem maybe_first (here : (first text).head? = some found) :
    (maybe first text).head? = some found := by
  rw [maybe, List.head?_append, here, Option.some_or]

theorem maybe_none (none_ : first text = []) : (maybe first text).head? = some ⟨[], [], text⟩ := by
  rw [maybe, none_]
  rfl

theorem group_first (number : Nat) (here : (first text).head? = some found) :
    (group number first text).head? =
      some { found with groups := found.groups ++ [(number, found.matched)] } := by
  rw [group, List.head?_map, here]
  rfl

/-- What a word is like is taken as it stands. -/
theorem word_first {letters spelled : List Symbol}
    (same : List.Forall₂ (fun letter symbol => alike letter symbol = true) letters spelled) :
    (word alike letters (spelled ++ rest)).head? = some ⟨spelled, [], rest⟩ := by
  induction same with
  | nil => rfl
  | @cons letter symbol letters spelled takes _ ih =>
      exact seq_first (one_first takes) ih

/-- Whatever way a word is read, what it reads is like it. -/
theorem word_ways {letters : List Symbol} (member : found ∈ word alike letters text) :
    ∃ spelled, text = spelled ++ found.rest ∧
      List.Forall₂ (fun letter symbol => alike letter symbol = true) letters spelled := by
  induction letters generalizing text found with
  | nil =>
      obtain rfl := List.mem_singleton.mp member
      exact ⟨[], rfl, .nil⟩
  | cons letter letters ih =>
      obtain ⟨head, here, inside⟩ := List.mem_flatMap.mp member
      obtain ⟨tail, there, rfl⟩ := List.mem_map.mp inside
      obtain ⟨spelled, split, same⟩ := ih there
      cases text with
      | nil =>
          rw [one_nil] at here
          cases here
      | cons symbol text =>
          cases takes : alike letter symbol with
          | false =>
              rw [one_none takes] at here
              cases here
          | true =>
              rw [one_cons takes, List.mem_singleton] at here
              subst here
              exact ⟨symbol :: spelled, congrArg (symbol :: ·) split, .cons takes same⟩

/-- Where a pattern fails at a run of symbols and behind it, the run cannot help it. -/
theorem many_stuck (apart : ∀ symbol ∈ text.takeWhile accepts, ∀ rest, second (symbol :: rest) = [])
    (stuck : second (text.dropWhile accepts) = []) : seq (many accepts) second text = [] := by
  have each : ∀ run ∈ runs accepts text, second run.2 = [] := by
    induction text with
    | nil =>
        intro run inside
        obtain rfl := List.mem_singleton.mp inside
        exact stuck
    | cons symbol rest ih =>
        intro run inside
        by_cases takes : accepts symbol = true
        · rw [runs, if_pos takes] at inside
          rw [List.dropWhile_cons_of_pos takes] at stuck
          rw [List.takeWhile_cons_of_pos takes] at apart
          rcases List.mem_append.mp inside with longer | stops
          · obtain ⟨shorter, within, rfl⟩ := List.mem_map.mp longer
            exact ih (fun other later => apart other (List.mem_cons_of_mem _ later)) stuck
              shorter within
          · obtain rfl := List.mem_singleton.mp stops
            exact apart symbol List.mem_cons_self rest
        · rw [runs, if_neg takes] at inside
          obtain rfl := List.mem_singleton.mp inside
          rwa [List.dropWhile_cons_of_neg takes] at stuck
  apply seq_stuck
  intro head member
  obtain ⟨run, inside, rfl⟩ := List.mem_map.mp member
  exact each run inside

/-- The lazy repetition ends at the first place from which what follows can go on. -/
theorem few_first (number : Nat) {body after : List Symbol}
    (stuck : ∀ front back, body = front ++ back → back ≠ [] → second (back ++ after) = [])
    (there : (second after).head? = some tail) :
    (seq (group number (few fun _ => true)) second (body ++ after)).head? =
      some ⟨body ++ tail.matched, (number, body) :: tail.groups, tail.rest⟩ := by
  let taking (run : List Symbol × List Symbol) : Match Symbol := ⟨run.1, [(number, run.1)], run.2⟩
  have shortest : ∀ taken : List Symbol,
      ((runs (fun _ => true) (body ++ after)).reverse.findSome? fun run =>
        ((second run.2).map (taking (taken ++ run.1, run.2)).followed).head?) =
        some ((taking (taken ++ body, after)).followed tail) := by
    induction body with
    | nil =>
        intro taken
        have here : ((second after).map (taking (taken ++ [], after)).followed).head? =
            some ((taking (taken ++ [], after)).followed tail) := by
          rw [List.head?_map, there]
          rfl
        cases after with
        | nil => simpa [runs] using here
        | cons symbol rest =>
            rw [List.nil_append, runs, if_pos rfl, List.reverse_append, List.reverse_singleton,
              List.singleton_append, List.findSome?_cons, here]
    | cons symbol body ih =>
        intro taken
        -- the shortest split is stuck, the others have the symbol in front
        have here : second (symbol :: body ++ after) = [] := stuck [] _ rfl (by simp)
        have later := ih (fun front back split some_ =>
          stuck (symbol :: front) back (by rw [split, List.cons_append]) some_) (taken ++ [symbol])
        simp only [List.append_assoc, List.singleton_append] at later
        rw [List.cons_append] at here ⊢
        rw [runs, if_pos rfl, List.reverse_append, List.reverse_singleton, List.singleton_append,
          List.findSome?_cons, here, List.map_nil, List.head?_nil, ← List.map_reverse,
          List.findSome?_map]
        exact later
  have whole := shortest []
  rw [seq, group, few, many, ways, ← List.map_reverse, List.map_map, List.head?_flatMap,
    List.findSome?_map]
  exact whole

end Ways

section Searching
variable {breaks : Symbol → Bool} {pattern : Pattern Symbol} {before row rest : List Symbol}

theorem searchLines_found {found : Match Symbol} (here : (pattern rest).head? = some found) :
    searchLines breaks pattern before true rest = some ⟨before, found⟩ := by
  cases rest with
  | nil => rw [searchLines, if_pos rfl, here, Option.map_some]
  | cons symbol rest => rw [searchLines, if_pos rfl, here]

theorem searchLines_missed (none_ : pattern rest = []) :
    searchLines breaks pattern before true rest = searchLines breaks pattern before false rest := by
  cases rest with
  | nil => simp [searchLines, none_]
  | cons symbol rest => simp [searchLines, none_]

/-- The rest of a line holds no match. -/
theorem searchLines_row (whole : ∀ symbol ∈ row, breaks symbol = false) {break_ : Symbol}
    (ends : breaks break_ = true) :
    searchLines breaks pattern before false (row ++ break_ :: rest) =
      searchLines breaks pattern (before ++ row ++ [break_]) true rest := by
  induction row generalizing before with
  | nil => simp [searchLines, ends]
  | cons symbol row ih =>
      have here := whole symbol List.mem_cons_self
      rw [List.cons_append, searchLines]
      simp only [Bool.false_eq_true, if_false, List.head?_nil, here]
      rw [ih fun other inside => whole other (List.mem_cons_of_mem _ inside)]
      simp

/-- Lines that no match begins are passed. -/
theorem searchLines_rows {rows : List (List Symbol)} {break_ : Symbol} (ends : breaks break_ = true)
    (whole : ∀ row ∈ rows, ∀ symbol ∈ row, breaks symbol = false)
    (quiet : ∀ row ∈ rows, ∀ rest, pattern (row ++ rest) = []) :
    searchLines breaks pattern before true (rows.flatMap (· ++ [break_]) ++ rest) =
      searchLines breaks pattern (before ++ rows.flatMap (· ++ [break_])) true rest := by
  induction rows generalizing before with
  | nil => simp
  | cons row rows ih =>
      rw [List.flatMap_cons, List.append_assoc, List.append_assoc, List.singleton_append,
        searchLines_missed (quiet row List.mem_cons_self _),
        searchLines_row (whole row List.mem_cons_self) ends,
        ih (fun other inside => whole other (List.mem_cons_of_mem _ inside))
          (fun other inside => quiet other (List.mem_cons_of_mem _ inside))]
      simp

end Searching

section Finding
variable {pattern : Pattern Symbol} {before front own back : List Symbol}

/-- Matches that end in a front leave what is behind it to be searched on its own. -/
theorem findAll_front (before : List Symbol) (skip : Nat) (short : skip ≤ front.length)
    (within : ∀ early late, front = early ++ late → late ≠ [] →
      ∀ found ∈ (pattern (late ++ back)).head?, found.matched.length ≤ late.length) :
    ∃ earlier, findAll pattern before skip (front ++ back) =
      earlier ++ findAll pattern (before ++ front) 0 back := by
  induction front generalizing before skip with
  | nil =>
      obtain rfl := Nat.le_zero.mp short
      exact ⟨[], by simp⟩
  | cons symbol front ih =>
      have later : ∀ early late, front = early ++ late → late ≠ [] →
          ∀ found ∈ (pattern (late ++ back)).head?, found.matched.length ≤ late.length := by
        intro early late split
        exact within (symbol :: early) late (by rw [split, List.cons_append])
      cases skip with
      | succ skip =>
          obtain ⟨earlier, same⟩ := ih (before ++ [symbol]) skip
            (Nat.le_of_succ_le_succ short) later
          exact ⟨earlier, by simpa [findAll] using same⟩
      | zero =>
          rw [List.cons_append, findAll]
          cases here : (pattern (symbol :: (front ++ back))).head? with
          | none =>
              obtain ⟨earlier, same⟩ := ih (before ++ [symbol]) 0 (Nat.zero_le _) later
              exact ⟨earlier, by simpa using same⟩
          | some found =>
              have bound := within [] (symbol :: front) rfl (by simp) found here
              obtain ⟨earlier, same⟩ := ih (before ++ [symbol])
                (found.matched.length - 1) (by rw [List.length_cons] at bound; omega) later
              exact ⟨⟨before, found⟩ :: earlier, by simpa using same⟩

theorem findAll_none (none_ : ∀ early late, back = early ++ late → pattern late = []) :
    findAll pattern before 0 back = [] := by
  induction back generalizing before with
  | nil => rfl
  | cons symbol back ih =>
      rw [findAll, none_ [] _ rfl]
      exact ih fun early late split => none_ (symbol :: early) late (by rw [split, List.cons_append])

theorem findAll_skip : findAll pattern before own.length (own ++ back) =
    findAll pattern (before ++ own) 0 back := by
  induction own generalizing before with
  | nil => simp
  | cons symbol own ih =>
      rw [List.length_cons, List.cons_append, findAll, ih, List.append_assoc,
        List.singleton_append]

/-- A match with nothing that reaches over its start and nothing behind it is the last. -/
theorem findAll_last {found : Match Symbol} (here : (pattern (own ++ back)).head? = some found)
    (matched : found.matched = own) (some_ : own ≠ [])
    (within : ∀ early late, front = early ++ late → late ≠ [] →
      ∀ other ∈ (pattern (late ++ (own ++ back))).head?, other.matched.length ≤ late.length)
    (behind : ∀ early late, back = early ++ late → pattern late = []) :
    (findAll pattern [] 0 (front ++ (own ++ back))).getLast? = some ⟨front, found⟩ := by
  obtain ⟨earlier, same⟩ := findAll_front [] 0 (Nat.zero_le _) within
  rw [same, List.nil_append]
  obtain ⟨symbol, own, rfl⟩ := List.exists_cons_of_ne_nil some_
  have rest : findAll pattern (front ++ [symbol]) own.length (own ++ back) = [] := by
    rw [findAll_skip]
    exact findAll_none behind
  rw [List.cons_append] at here ⊢
  rw [findAll, here]
  simp [matched, rest]

end Finding

section Measuring
variable {number least : Nat} {accepts : Symbol → Bool} {alike : Symbol → Symbol → Bool}
  {first second : Pattern Symbol} {text before : List Symbol}

/-- What the groups of a match hold, in symbols. -/
def weight (found : Match Symbol) : Nat := (found.groups.flatMap Prod.snd).length

/-- A match is a front of its text, and `least` symbols longer than its groups. -/
def Measured (least : Nat) (pattern : Pattern Symbol) : Prop :=
  ∀ text, ∀ found ∈ pattern text,
    found.matched ++ found.rest = text ∧ weight found + least ≤ found.matched.length

/-- A pattern without groups. -/
def Plain (pattern : Pattern Symbol) : Prop :=
  ∀ text, ∀ found ∈ pattern text, found.matched ++ found.rest = text ∧ found.groups = []

theorem Plain.measured (plain : Plain first) : Measured 0 first := by
  intro text found member
  obtain ⟨split, none_⟩ := plain text found member
  exact ⟨split, by simp [weight, none_]⟩

theorem Measured.less {more : Nat} (measured : Measured more first) (less : least ≤ more) :
    Measured least first := by
  intro text found member
  obtain ⟨split, bound⟩ := measured text found member
  exact ⟨split, by omega⟩

theorem one_plain (accepts : Symbol → Bool) : Plain (one accepts) := by
  intro text found member
  cases text with
  | nil =>
      rw [one_nil] at member
      cases member
  | cons symbol rest =>
      cases takes : accepts symbol with
      | false =>
          rw [one_none takes] at member
          cases member
      | true =>
          rw [one_cons takes, List.mem_singleton] at member
          subst member
          exact ⟨rfl, rfl⟩

theorem many_plain (accepts : Symbol → Bool) : Plain (many accepts) := by
  intro text found member
  obtain ⟨run, inside, rfl⟩ := List.mem_map.mp member
  exact ⟨runs_append inside, rfl⟩

theorem few_plain (accepts : Symbol → Bool) : Plain (few accepts) := by
  intro text found member
  exact many_plain accepts text found (List.mem_reverse.mp member)

theorem mem_seq {found : Match Symbol} (member : found ∈ seq first second text) :
    ∃ head ∈ first text, ∃ tail ∈ second head.rest, found = head.followed tail := by
  obtain ⟨head, here, inside⟩ := List.mem_flatMap.mp member
  obtain ⟨tail, there, rfl⟩ := List.mem_map.mp inside
  exact ⟨head, here, tail, there, rfl⟩

theorem seq_plain (one : Plain first) (other : Plain second) : Plain (seq first second) := by
  intro text found member
  obtain ⟨head, here, tail, there, rfl⟩ := mem_seq member
  obtain ⟨split, groups⟩ := one text head here
  obtain ⟨later, others⟩ := other head.rest tail there
  refine ⟨?_, by rw [Match.followed, groups, others, List.append_nil]⟩
  rw [Match.followed, List.append_assoc, later, split]

theorem seq_measured {more : Nat} (one : Measured least first) (other : Measured more second) :
    Measured (least + more) (seq first second) := by
  intro text found member
  obtain ⟨head, here, tail, there, rfl⟩ := mem_seq member
  obtain ⟨split, bound⟩ := one text head here
  obtain ⟨later, bounds⟩ := other head.rest tail there
  constructor
  · rw [Match.followed, List.append_assoc, later, split]
  · rw [weight] at bound bounds ⊢
    rw [Match.followed, List.flatMap_append, List.length_append, List.length_append]
    omega

theorem either_plain (one : Plain first) (other : Plain second) : Plain (either first second) := by
  intro text found member
  rcases List.mem_append.mp member with here | there
  · exact one text found here
  · exact other text found there

theorem either_measured (one : Measured least first) (other : Measured least second) :
    Measured least (either first second) := by
  intro text found member
  rcases List.mem_append.mp member with here | there
  · exact one text found here
  · exact other text found there

theorem maybe_plain (inner : Plain first) : Plain (maybe first) := by
  intro text found member
  rcases List.mem_append.mp member with here | there
  · exact inner text found here
  · obtain rfl := List.mem_singleton.mp there
    exact ⟨rfl, rfl⟩

theorem group_measured (inner : Plain first) : Measured 0 (group number first) := by
  intro text found member
  obtain ⟨held, here, rfl⟩ := List.mem_map.mp member
  obtain ⟨split, none_⟩ := inner text held here
  exact ⟨split, by simp [weight, none_]⟩

theorem word_plain (alike : Symbol → Symbol → Bool) (letters : List Symbol) :
    Plain (word alike letters) := by
  induction letters with
  | nil =>
      intro text found member
      obtain rfl := List.mem_singleton.mp member
      exact ⟨rfl, rfl⟩
  | cons letter letters ih => exact seq_plain (one_plain _) ih

theorem word_measured (alike : Symbol → Symbol → Bool) (letters : List Symbol) :
    Measured letters.length (word alike letters) := by
  intro text found member
  obtain ⟨split, none_⟩ := word_plain alike letters text found member
  obtain ⟨spelled, same, likes⟩ := word_ways member
  refine ⟨split, ?_⟩
  have matched : found.matched = spelled := List.append_cancel_right (split.trans same)
  rw [weight, none_, matched, likes.length_eq]
  simp

/-- Two groups hold no more than all of them. -/
theorem groups_weight {other : Nat} (found : Match Symbol) (apart : number ≠ other) :
    ((found.group number).getD []).length + ((found.group other).getD []).length ≤ weight found := by
  have single : ∀ (number : Nat) (entries : List (Nat × List Symbol)),
      (((entries.find? fun entry => entry.1 = number).map Prod.snd).getD []).length ≤
        (entries.flatMap Prod.snd).length := by
    intro number entries
    induction entries with
    | nil => simp
    | cons entry entries ih =>
        rw [List.flatMap_cons, List.length_append]
        by_cases named : entry.1 = number
        · simp [named]
        · rw [List.find?_cons_of_neg (by simp [named])]
          omega
  have both : ∀ entries : List (Nat × List Symbol),
      (((entries.find? fun entry => entry.1 = number).map Prod.snd).getD []).length +
        (((entries.find? fun entry => entry.1 = other).map Prod.snd).getD []).length ≤
          (entries.flatMap Prod.snd).length := by
    intro entries
    induction entries with
    | nil => simp
    | cons entry entries ih =>
        rw [List.flatMap_cons, List.length_append]
        by_cases named : entry.1 = number
        · have second := single other entries
          rw [List.find?_cons_of_pos (by simp [named]), List.find?_cons_of_neg (by simp [named, apart])]
          simpa using second
        · rw [List.find?_cons_of_neg (by simp [named])]
          by_cases held : entry.1 = other
          · have first := single number entries
            rw [List.find?_cons_of_pos (by simp [held])]
            simp only [Option.map_some, Option.getD_some]
            omega
          · rw [List.find?_cons_of_neg (by simp [held])]
            omega
  have whole := both found.groups.reverse
  have length : (found.groups.reverse.flatMap Prod.snd).length = weight found :=
    (found.groups.reverse_perm.flatMap_right Prod.snd).length_eq
  rw [length] at whole
  exact whole

theorem mem_started {start : Bool} {found : Match Symbol}
    (head : (if start then first text else []).head? = some found) : found ∈ first text := by
  cases start with
  | false => cases head
  | true => exact List.mem_of_mem_head? head

/-- A search cuts its text in what is before the match, the match and the rest. -/
theorem searchLines_split {breaks : Symbol → Bool} {start : Bool} {found : Occurrence Symbol}
    (measured : Measured least first)
    (here : searchLines breaks first before start text = some found) :
    found.before ++ (found.found.matched ++ found.found.rest) = before ++ text ∧
      weight found.found + least ≤ found.found.matched.length := by
  induction text generalizing before start with
  | nil =>
      rw [searchLines, Option.map_eq_some_iff] at here
      obtain ⟨one, head, rfl⟩ := here
      obtain ⟨split, bound⟩ := measured [] one (mem_started head)
      exact ⟨by rw [split], bound⟩
  | cons symbol rest ih =>
      rw [searchLines] at here
      split at here
      · next one head =>
          obtain rfl := Option.some.inj here
          obtain ⟨split, bound⟩ := measured (symbol :: rest) one (mem_started head)
          exact ⟨by rw [split], bound⟩
      · obtain ⟨split, bound⟩ := ih here
        exact ⟨by rw [split, List.append_assoc, List.singleton_append], bound⟩

/-- So does each of all matches. -/
theorem findAll_split {skip : Nat} {found : Occurrence Symbol} (measured : Measured least first)
    (member : found ∈ findAll first before skip text) :
    found.before ++ (found.found.matched ++ found.found.rest) = before ++ text ∧
      ∃ behind, found.found ∈ first behind := by
  induction text generalizing before skip with
  | nil => cases member
  | cons symbol rest ih =>
      have later : before ++ [symbol] ++ rest = before ++ symbol :: rest := by simp
      cases skip with
      | succ skip =>
          rw [findAll] at member
          rw [← later]
          exact ih member
      | zero =>
          rw [findAll] at member
          split at member
          · next one head =>
              have inside := List.mem_of_mem_head? head
              rcases List.mem_cons.mp member with rfl | behind
              · exact ⟨by rw [(measured _ one inside).1], _, inside⟩
              · rw [← later]
                exact ih behind
          · rw [← later]
            exact ih member

end Measuring

end VoltMod.Patterns
