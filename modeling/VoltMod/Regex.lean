/-! Regular expressions with greedy repetition and groups, read as a backtracking matcher
reads them: the ways to match a text from its start, the preferred one first. Repetition is
of single symbols. -/
namespace VoltMod.Regex

variable {Symbol : Type}

inductive Expr (Symbol : Type) where
  | one (accepts : Symbol → Bool)
  | many (accepts : Symbol → Bool)
  | seq (first second : Expr Symbol)
  | maybe (inner : Expr Symbol)
  | group (number : Nat) (inner : Expr Symbol)

/-- `groups` in the order they close. -/
structure Match (Symbol : Type) where
  matched : List Symbol
  groups : List (Nat × List Symbol)
  rest : List Symbol

/-- The splits a greedy repetition tries, the longest first. -/
def runs (accepts : Symbol → Bool) : List Symbol → List (List Symbol × List Symbol)
  | [] => [([], [])]
  | symbol :: rest =>
      if accepts symbol then
        (runs accepts rest).map (fun run => (symbol :: run.1, run.2)) ++ [([], symbol :: rest)]
      else [([], symbol :: rest)]

def Match.followed (head tail : Match Symbol) : Match Symbol :=
  ⟨head.matched ++ tail.matched, head.groups ++ tail.groups, tail.rest⟩

@[simp] theorem followed_mk (head tail : List Symbol) (groups more : List (Nat × List Symbol))
    (rest after : List Symbol) : (⟨head, groups, rest⟩ : Match Symbol).followed ⟨tail, more, after⟩ =
      ⟨head ++ tail, groups ++ more, after⟩ := rfl

def ways : Expr Symbol → List Symbol → List (Match Symbol)
  | .one _, [] => []
  | .one accepts, symbol :: rest => if accepts symbol then [⟨[symbol], [], rest⟩] else []
  | .many accepts, text => (runs accepts text).map fun run => ⟨run.1, [], run.2⟩
  | .seq first second, text =>
      (ways first text).flatMap fun head => (ways second head.rest).map head.followed
  | .maybe inner, text => ways inner text ++ [⟨[], [], text⟩]
  | .group number inner, text =>
      (ways inner text).map fun found =>
        { found with groups := found.groups ++ [(number, found.matched)] }

def matchAt (expr : Expr Symbol) (text : List Symbol) : Option (Match Symbol) :=
  (ways expr text).head?

/-- What a group took last. -/
def Match.group (number : Nat) (found : Match Symbol) : Option (List Symbol) :=
  (found.groups.reverse.find? fun entry => entry.1 = number).map Prod.snd

variable {Error : Type}

/-- Replacing every match from the left, each behind the one before. Meant for
expressions that match no empty text; the text's length is fuel enough. -/
def subFrom (expr : Expr Symbol) (replace : Match Symbol → Except Error (List Symbol)) :
    Nat → List Symbol → Except Error (List Symbol)
  | _, [] => .ok []
  | 0, text => .ok text
  | fuel + 1, symbol :: rest =>
      match matchAt expr (symbol :: rest) with
      | some ⟨matched, groups, after⟩ =>
          if matched = [] then (subFrom expr replace fuel rest).map (symbol :: ·)
          else (replace ⟨matched, groups, after⟩).bind fun replaced =>
            (subFrom expr replace fuel after).map (replaced ++ ·)
      | none => (subFrom expr replace fuel rest).map (symbol :: ·)

def sub (expr : Expr Symbol) (replace : Match Symbol → Except Error (List Symbol))
    (text : List Symbol) : Except Error (List Symbol) := subFrom expr replace text.length text

theorem runs_append {accepts : Symbol → Bool} {text : List Symbol}
    {run : List Symbol × List Symbol} (member : run ∈ runs accepts text) :
    run.1 ++ run.2 = text := by
  induction text generalizing run with
  | nil =>
      obtain rfl := List.mem_singleton.mp member
      rfl
  | cons symbol rest ih =>
      rw [runs] at member
      split at member
      · rcases List.mem_append.mp member with longer | stops
        · obtain ⟨shorter, inside, rfl⟩ := List.mem_map.mp longer
          exact congrArg (symbol :: ·) (ih inside)
        · obtain rfl := List.mem_singleton.mp stops
          rfl
      · obtain rfl := List.mem_singleton.mp member
        rfl

/-- A way of matching splits the text in two. -/
theorem ways_append {expr : Expr Symbol} {text : List Symbol} {found : Match Symbol}
    (member : found ∈ ways expr text) : found.matched ++ found.rest = text := by
  induction expr generalizing text found with
  | one accepts =>
      cases text with
      | nil => cases member
      | cons symbol rest =>
          rw [ways] at member
          split at member
          · obtain rfl := List.mem_singleton.mp member
            rfl
          · cases member
  | many accepts =>
      obtain ⟨run, inside, rfl⟩ := List.mem_map.mp member
      exact runs_append inside
  | seq first second ihFirst ihSecond =>
      obtain ⟨head, here, inside⟩ := List.mem_flatMap.mp member
      obtain ⟨tail, there, rfl⟩ := List.mem_map.mp inside
      rw [Match.followed, List.append_assoc, ihSecond there]
      exact ihFirst here
  | maybe inner ih =>
      rcases List.mem_append.mp member with takes | skips
      · exact ih takes
      · obtain rfl := List.mem_singleton.mp skips
        rfl
  | group number inner ih =>
      obtain ⟨shorter, inside, rfl⟩ := List.mem_map.mp member
      have whole := ih inside
      exact whole

/-- The first way to match from which what follows can go on. -/
def thenFirst {Result : Type} (expr : Expr Symbol) (text : List Symbol)
    (next : Match Symbol → Option Result) : Option Result := (ways expr text).findSome? next

section Following
variable {Result : Type} {next : Match Symbol → Option Result}

theorem matchAt_eq (expr : Expr Symbol) (text : List Symbol) :
    matchAt expr text = thenFirst expr text some := by
  rw [matchAt, thenFirst]
  cases ways expr text with
  | nil => rfl
  | cons first others => rfl

@[simp] theorem thenFirst_one_nil (accepts : Symbol → Bool) :
    thenFirst (.one accepts) [] next = none := rfl

@[simp] theorem thenFirst_one_cons (accepts : Symbol → Bool) (symbol : Symbol)
    (rest : List Symbol) :
    thenFirst (.one accepts) (symbol :: rest) next =
      if accepts symbol then next ⟨[symbol], [], rest⟩ else none := by
  unfold thenFirst ways
  split
  · simp
  · rfl

@[simp] theorem thenFirst_seq (first second : Expr Symbol) (text : List Symbol) :
    thenFirst (.seq first second) text next =
      thenFirst first text fun head => thenFirst second head.rest fun tail =>
        next (head.followed tail) := by
  simp only [thenFirst, ways]
  induction ways first text with
  | nil => rfl
  | cons head others ih =>
      rw [List.flatMap_cons, List.findSome?_append, ih, List.findSome?_cons, List.findSome?_map]
      cases here : (ways second head.rest).findSome? (next ∘ head.followed) with
      | none =>
          simp only [Function.comp_def] at here
          simp [here]
      | some result =>
          simp only [Function.comp_def] at here
          simp [here]

@[simp] theorem thenFirst_maybe (inner : Expr Symbol) (text : List Symbol) :
    thenFirst (.maybe inner) text next =
      (thenFirst inner text next).or (next ⟨[], [], text⟩) := by
  simp [thenFirst, ways, List.findSome?_append]

@[simp] theorem thenFirst_group (number : Nat) (inner : Expr Symbol) (text : List Symbol) :
    thenFirst (.group number inner) text next =
      thenFirst inner text fun found =>
        next { found with groups := found.groups ++ [(number, found.matched)] } := by
  simp only [thenFirst, ways, List.findSome?_map]
  rfl

/-- A repetition gives nothing back where what follows cannot start with its symbols. -/
theorem thenFirst_many {accepts : Symbol → Bool}
    (apart : ∀ taken symbol rest, accepts symbol = true →
      next ⟨taken, [], symbol :: rest⟩ = none) (text : List Symbol) :
    thenFirst (.many accepts) text next =
      next ⟨text.takeWhile accepts, [], text.dropWhile accepts⟩ := by
  have longest : ∀ taken : List Symbol,
      (runs accepts text).findSome? (fun run => next ⟨taken ++ run.1, [], run.2⟩) =
        next ⟨taken ++ text.takeWhile accepts, [], text.dropWhile accepts⟩ := by
    induction text with
    | nil => simp [runs]
    | cons symbol rest ih =>
        intro taken
        by_cases takes : accepts symbol = true
        · have longer := ih (taken ++ [symbol])
          simp only [List.append_assoc, List.singleton_append] at longer
          rw [runs, if_pos takes, List.findSome?_append, List.findSome?_map, Function.comp_def,
            longer, List.takeWhile_cons_of_pos takes, List.dropWhile_cons_of_pos takes,
            List.findSome?_singleton, apart _ symbol rest takes, Option.or_none]
        · simp [runs, takes]
  have all := longest []
  simp only [List.nil_append] at all
  rw [thenFirst, ways, List.findSome?_map]
  exact all

end Following

theorem matchAt_append {expr : Expr Symbol} {text : List Symbol} {found : Match Symbol}
    (first : matchAt expr text = some found) : found.matched ++ found.rest = text :=
  ways_append (List.mem_of_head? first)

section Replacing
variable {expr : Expr Symbol} {replace : Match Symbol → Except Error (List Symbol)}

theorem subFrom_enough {fuel more : Nat} {text : List Symbol} (enough : text.length ≤ fuel)
    (longer : fuel ≤ more) :
    subFrom expr replace more text = subFrom expr replace fuel text := by
  induction fuel generalizing more text with
  | zero =>
      obtain rfl := List.length_eq_zero_iff.mp (Nat.le_zero.mp enough)
      simp only [subFrom]
  | succ fuel ih =>
      cases text with
      | nil => simp only [subFrom]
      | cons symbol rest =>
          obtain ⟨more, rfl⟩ := Nat.exists_eq_add_of_le longer
          have below : rest.length ≤ fuel := Nat.le_of_succ_le_succ enough
          have step : fuel + 1 + more = fuel + more + 1 := by omega
          rw [step]
          simp only [subFrom]
          rw [ih below (Nat.le_add_right fuel more)]
          split
          · next matched groups after first =>
              split
              · rfl
              · next some_ =>
                  have split := congrArg List.length (matchAt_append first)
                  have taken := List.length_pos_iff.mpr some_
                  simp only [List.length_append, List.length_cons] at split enough
                  rw [ih (by omega) (Nat.le_add_right fuel more)]
          · rfl

theorem sub_nil : sub expr replace [] = .ok [] := rfl

theorem sub_skip {symbol : Symbol} {rest : List Symbol}
    (none_ : matchAt expr (symbol :: rest) = none) :
    sub expr replace (symbol :: rest) = (sub expr replace rest).map (symbol :: ·) := by
  rw [sub, List.length_cons, subFrom, none_]
  rfl

theorem sub_match {text : List Symbol} {found : Match Symbol}
    (first : matchAt expr text = some found) (some_ : found.matched ≠ []) :
    sub expr replace text = (replace found).bind fun replaced =>
      (sub expr replace found.rest).map (replaced ++ ·) := by
  have split := matchAt_append first
  cases text with
  | nil => exact absurd (List.append_eq_nil_iff.mp split).1 some_
  | cons symbol rest =>
      have lengths := congrArg List.length split
      have taken := List.length_pos_iff.mpr some_
      simp only [List.length_append, List.length_cons] at lengths
      rw [sub, List.length_cons, subFrom, first]
      dsimp only
      rw [if_neg some_, subFrom_enough (Nat.le_refl found.rest.length) (by omega)]
      rfl

end Replacing

end VoltMod.Regex
