import Mathlib.Data.List.Basic
import Mathlib.Data.List.Count

/-!
Replacing spelled patterns in a text of glyphs: the leftmost pattern first, and on behind
what is put in. Where patterns are delimited, one reading of the text into the patterns and
the glyphs between them says what any of the rules make of it.
-/

namespace VoltMod.Rewriting

structure Rule (κ α : Type) where
  pattern : List κ
  value : List α

variable {κ α β : Type} [DecidableEq κ] (spells : α → κ)

def begins (rule : Rule κ α) (text : List α) : Bool := rule.pattern.isPrefixOf (text.map spells)

/-- `skip` glyphs of a pattern that was replaced are still to be passed over. -/
def rewriteFrom (rules : List (Rule κ α)) : Nat → List α → List α
  | _, [] => []
  | skip + 1, _ :: rest => rewriteFrom rules skip rest
  | 0, c :: rest =>
      match rules.find? (begins spells · (c :: rest)) with
      | none => c :: rewriteFrom rules 0 rest
      | some rule => rule.value ++ rewriteFrom rules (rule.pattern.length - 1) rest

def rewrite (rules : List (Rule κ α)) (text : List α) : List α := rewriteFrom spells rules 0 text

/-- How often `pattern` stands in `text`. -/
def occurrences (pattern : List κ) : List κ → Nat
  | [] => 0
  | c :: rest => (if pattern.isPrefixOf (c :: rest) then 1 else 0) + occurrences pattern rest

variable {spells} {rules : List (Rule κ α)} {rule : Rule κ α} {text front back : List α}

theorem begins_iff : begins spells rule text = true ↔ rule.pattern <+: text.map spells :=
  List.isPrefixOf_iff_prefix

theorem rewriteFrom_drop (skip : Nat) :
    rewriteFrom spells rules skip text = rewrite spells rules (text.drop skip) := by
  induction text generalizing skip with
  | nil => cases skip <;> rfl
  | cons c rest hypothesis =>
      cases skip with
      | zero => rfl
      | succ skip => exact hypothesis skip

@[simp] theorem rewrite_nil : rewrite spells rules [] = [] := rfl

theorem rewrite_missed {c : α} (missed : rules.find? (begins spells · (c :: text)) = none) :
    rewrite spells rules (c :: text) = c :: rewrite spells rules text := by
  simp only [rewrite, rewriteFrom, missed]

/-- Without rules nothing changes. -/
theorem rewrite_none (text : List α) : rewrite spells [] text = text := by
  induction text with
  | nil => rfl
  | cons c rest hypothesis => exact congrArg (c :: ·) hypothesis

/-- A spelled pattern is replaced as a whole. -/
theorem rewrite_found (written : front.map spells = rule.pattern) (some_glyph : front ≠ [])
    (found : rules.find? (begins spells · (front ++ back)) = some rule) :
    rewrite spells rules (front ++ back) = rule.value ++ rewrite spells rules back := by
  cases front with
  | nil => contradiction
  | cons c rest =>
      have length : rule.pattern.length - 1 = rest.length := by simp [← written]
      rw [List.cons_append] at found ⊢
      simp only [rewrite, rewriteFrom, found]
      rw [length, rewriteFrom_drop, List.drop_left]
      rfl

/-- Two runs of one scan that meet the same rules spell the same. -/
theorem rewrite_map (into : α → β) (spelled : β → κ) (same : ∀ c, spelled (into c) = spells c) :
    (rewrite spells rules text).map into =
      rewrite spelled (rules.map fun rule => ⟨rule.pattern, rule.value.map into⟩)
        (text.map into) := by
  have spelling (text : List α) : (text.map into).map spelled = text.map spells := by
    simp [same]
  suffices from_any : ∀ skip, (rewriteFrom spells rules skip text).map into =
      rewriteFrom spelled (rules.map fun rule => ⟨rule.pattern, rule.value.map into⟩) skip
        (text.map into) from from_any 0
  induction text with
  | nil => intro skip; cases skip <;> rfl
  | cons c rest hypothesis =>
      intro skip
      cases skip with
      | succ skip => exact hypothesis skip
      | zero =>
          have meets : (begins spelled · ((c :: rest).map into)) ∘
              (fun rule : Rule κ α => (⟨rule.pattern, rule.value.map into⟩ : Rule κ β)) =
              (begins spells · (c :: rest)) := by
            funext rule
            simp only [Function.comp, begins, spelling]
          simp only [List.map_cons, rewriteFrom]
          rw [← List.map_cons, List.find?_map, meets]
          cases rules.find? (begins spells · (c :: rest)) with
          | none => simp only [Option.map_none, List.map_cons, hypothesis]
          | some rule => simp only [Option.map_some, List.map_append, hypothesis]

theorem occurrences_cons (c : α) (rest : List α) :
    occurrences rule.pattern ((c :: rest).map spells) =
      (if begins spells rule (c :: rest) then 1 else 0) +
        occurrences rule.pattern (rest.map spells) := rfl

theorem occurrences_append_le (pattern front back : List κ) :
    occurrences pattern front + occurrences pattern back ≤
      occurrences pattern (front ++ back) := by
  induction front with
  | nil => simp [occurrences]
  | cons c rest hypothesis =>
      have longer : pattern.isPrefixOf (c :: rest) = true →
          pattern.isPrefixOf (c :: (rest ++ back)) = true := by
        simp only [List.isPrefixOf_iff_prefix]
        intro stands
        exact stands.trans (List.prefix_append _ back)
      simp only [List.cons_append, occurrences]
      split
      · next stands =>
          rw [if_pos (longer stands)]
          omega
      · omega

theorem rewrite_absent (absent : occurrences rule.pattern (text.map spells) = 0) :
    rewrite spells [rule] text = text := by
  induction text with
  | nil => rfl
  | cons c rest hypothesis =>
      simp only [List.map_cons, occurrences, Nat.add_eq_zero_iff] at absent
      rw [rewrite_missed, hypothesis absent.2]
      simpa [begins] using absent.1

/-- Where no pattern stands across the seam, both parts are rewritten alone. -/
theorem rewrite_append (seam : occurrences rule.pattern ((front ++ back).map spells) =
      occurrences rule.pattern (front.map spells) + occurrences rule.pattern (back.map spells)) :
    rewrite spells [rule] (front ++ back) =
      rewrite spells [rule] front ++ rewrite spells [rule] back := by
  suffices from_any : ∀ skip, skip ≤ front.length →
      rewriteFrom spells [rule] skip (front ++ back) =
        rewriteFrom spells [rule] skip front ++ rewrite spells [rule] back from
    from_any 0 (Nat.zero_le _)
  induction front with
  | nil =>
      intro skip short
      obtain rfl := Nat.le_zero.mp short
      rfl
  | cons c rest hypothesis =>
      intro skip short
      have fewer : occurrences rule.pattern (rest.map spells) +
          occurrences rule.pattern (back.map spells) ≤
          occurrences rule.pattern ((rest ++ back).map spells) := by
        rw [List.map_append]
        exact occurrences_append_le _ _ _
      have grows : begins spells rule (c :: rest) = true →
          begins spells rule (c :: rest ++ back) = true := by
        simp only [begins_iff, List.map_append]
        intro stands
        exact stands.trans (List.prefix_append _ _)
      rw [List.cons_append, occurrences_cons, occurrences_cons] at seam
      -- A pattern that begins in the front part also ends there.
      have alike : begins spells rule (c :: (rest ++ back)) = begins spells rule (c :: rest) := by
        rw [Bool.eq_iff_iff]
        constructor
        · intro across
          by_contra outside
          rw [if_pos across, if_neg outside] at seam
          omega
        · exact grows
      rw [alike] at seam
      have onward := hypothesis (by omega)
      cases skip with
      | succ skip => exact onward skip (Nat.le_of_succ_le_succ short)
      | zero =>
          by_cases stands : begins spells rule (c :: rest) = true
          · have inside : rule.pattern.length - 1 ≤ rest.length := by
              have fits := (begins_iff.mp stands).length_le
              simp only [List.map_cons, List.length_cons, List.length_map] at fits
              omega
            simp only [List.cons_append, rewriteFrom, List.find?_cons, alike, stands,
              onward _ inside, List.append_assoc]
          · simp only [List.cons_append, rewriteFrom, List.find?_cons, alike, stands,
              onward 0 (Nat.zero_le _), List.find?_nil, List.cons_append]

/-- Every pattern begins with `opening` and has it nowhere else, and no two rules begin
at one place. -/
structure Delimited (opening : κ) (rules : List (Rule κ α)) : Prop where
  opens : ∀ rule ∈ rules, ∃ body, rule.pattern = opening :: body ∧ opening ∉ body
  alone : ∀ rule ∈ rules, ∀ other ∈ rules, ∀ text : List κ,
    rule.pattern <+: text → other.pattern <+: text → rule = other

inductive Piece (κ α : Type) where
  | glyph (c : α)
  | spelling (rule : Rule κ α) (written : List α)

/-- A text read once: the patterns the rules find in it and the glyphs between them. -/
inductive Shape (spells : α → κ) (rules : List (Rule κ α)) : List α → List (Piece κ α) → Prop
  | nil : Shape spells rules [] []
  | glyph {c : α} {text : List α} {pieces : List (Piece κ α)}
      (missed : ∀ rule ∈ rules, begins spells rule (c :: text) = false)
      (behind : Shape spells rules text pieces) :
      Shape spells rules (c :: text) (.glyph c :: pieces)
  | spelling {rule : Rule κ α} {written text : List α} {pieces : List (Piece κ α)}
      (listed : rule ∈ rules) (spelled : written.map spells = rule.pattern)
      (behind : Shape spells rules text pieces) :
      Shape spells rules (written ++ text) (.spelling rule written :: pieces)

def applied (active : List (Rule κ α)) (rule : Rule κ α) : Bool :=
  active.any fun other => other.pattern == rule.pattern

/-- The piece where only the `active` rules have been applied. -/
def renderPiece (active : List (Rule κ α)) : Piece κ α → List α
  | .glyph c => [c]
  | .spelling rule written =>
      if applied active rule then rule.value else written

def render (active : List (Rule κ α)) (pieces : List (Piece κ α)) : List α :=
  pieces.flatMap (renderPiece active)

section Delimited
variable {opening : κ} {pieces : List (Piece κ α)} {active : List (Rule κ α)}

theorem begins_opening {c : α} {rest : List α} (delimited : Delimited opening rules)
    (listed : rule ∈ rules) (stands : begins spells rule (c :: rest) = true) :
    spells c = opening := by
  obtain ⟨body, written, -⟩ := delimited.opens rule listed
  rw [begins_iff, written, List.map_cons, List.cons_prefix_cons] at stands
  exact stands.1.symm

theorem shape_exists (delimited : Delimited opening rules) :
    ∀ text : List α, ∃ pieces, Shape spells rules text pieces
  | [] => ⟨[], .nil⟩
  | c :: rest => by
      cases found : rules.find? (begins spells · (c :: rest)) with
      | none =>
          obtain ⟨pieces, behind⟩ := shape_exists delimited rest
          refine ⟨_, .glyph ?_ behind⟩
          simpa using found
      | some rule =>
          have listed := List.mem_of_find?_eq_some found
          obtain ⟨body, opened, -⟩ := delimited.opens rule listed
          have stands := List.prefix_iff_eq_take.mp
            (begins_iff.mp (List.find?_eq_some_iff_append.mp found).1)
          rw [← List.map_take, opened, List.length_cons, List.take_succ_cons] at stands
          obtain ⟨pieces, behind⟩ := shape_exists delimited (rest.drop body.length)
          have shape := Shape.spelling listed (opened.trans stands).symm behind
          rw [List.cons_append, List.take_append_drop] at shape
          exact ⟨_, shape⟩
  termination_by text => text.length
  decreasing_by
    · simp only [List.length_cons, Nat.lt_succ_self]
    · simp only [List.length_cons, List.length_drop]
      omega

/-- Glyphs that open nothing are passed over. -/
theorem rewrite_passed (delimited : Delimited opening rules)
    (plain : ∀ c ∈ front, spells c ≠ opening) :
    rewrite spells rules (front ++ back) = front ++ rewrite spells rules back := by
  induction front with
  | nil => rfl
  | cons c rest hypothesis =>
      rw [List.cons_append, rewrite_missed, hypothesis fun c inside =>
        plain c (List.mem_cons_of_mem _ inside), List.cons_append]
      rw [List.find?_eq_none]
      intro rule listed stands
      exact plain c List.mem_cons_self (begins_opening delimited listed stands)

omit [DecidableEq κ] in
theorem Delimited.subset {fewer : List (Rule κ α)} (delimited : Delimited opening rules)
    (subset : fewer ⊆ rules) : Delimited opening fewer where
  opens rule listed := delimited.opens rule (subset listed)
  alone rule listed other listed' := delimited.alone rule (subset listed) other (subset listed')

omit [DecidableEq κ] in
/-- What spells a pattern is its opening glyph and plain ones. -/
theorem spelled_opens (delimited : Delimited opening rules) (listed : rule ∈ rules)
    (spelled : front.map spells = rule.pattern) :
    ∃ c rest, front = c :: rest ∧ spells c = opening ∧ ∀ d ∈ rest, spells d ≠ opening := by
  obtain ⟨body, opened, absent⟩ := delimited.opens rule listed
  rw [opened] at spelled
  obtain ⟨c, rest, rfl, same, behind⟩ := List.map_eq_cons_iff.mp spelled
  refine ⟨c, rest, rfl, same, ?_⟩
  intro d inside opens
  apply absent
  rw [← behind, ← opens]
  exact List.mem_map_of_mem inside

theorem applied_iff : applied active rule = true ↔
    ∃ other ∈ active, other.pattern = rule.pattern := by
  simp only [applied, List.any_eq_true, beq_iff_eq]

theorem applied_mem (delimited : Delimited opening rules) (subset : active ⊆ rules)
    (listed : rule ∈ rules) : applied active rule = true ↔ rule ∈ active := by
  rw [applied_iff]
  constructor
  · rintro ⟨other, inside, same⟩
    rw [← delimited.alone other (subset inside) rule listed _ (List.prefix_refl _)
      (same ▸ List.prefix_refl _)]
    exact inside
  · intro inside
    exact ⟨rule, inside, rfl⟩

theorem spelled_begins (spelled : front.map spells = rule.pattern) :
    begins spells rule (front ++ back) = true := by
  rw [begins_iff, List.map_append, spelled]
  exact List.prefix_append _ _

theorem rewrite_spelled (spelled : front.map spells = rule.pattern) (some_glyph : front ≠ []) :
    rewrite spells [rule] front = rule.value := by
  have whole : rewrite spells [rule] (front ++ []) = rule.value ++ rewrite spells [rule] [] := by
    apply rewrite_found spelled some_glyph
    rw [List.find?_cons, spelled_begins spelled]
  simpa using whole

/-- One reading of the text serves every subset of the rules. -/
theorem rewrite_render (delimited : Delimited opening rules) (subset : active ⊆ rules)
    (shape : Shape spells rules text pieces) :
    rewrite spells active text = render active pieces := by
  induction shape with
  | nil => rfl
  | glyph missed _ hypothesis =>
      rw [rewrite_missed, hypothesis]
      · rfl
      · rw [List.find?_eq_none]
        intro rule listed
        rw [missed rule (subset listed)]
        exact Bool.false_ne_true
  | @spelling rule written text pieces listed spelled _ hypothesis =>
      have only (other : Rule κ α) (among : other ∈ active)
          (stands : begins spells other (written ++ text) = true) : other = rule :=
        delimited.alone other (subset among) rule listed _ (begins_iff.mp stands)
          (begins_iff.mp (spelled_begins spelled))
      obtain ⟨c, rest, rfl, -, plain⟩ := spelled_opens delimited listed spelled
      simp only [render, List.flatMap_cons, renderPiece]
      split
      · next applied =>
          have among := (applied_mem delimited subset listed).mp applied
          rw [rewrite_found spelled (List.cons_ne_nil c rest), hypothesis]
          · rfl
          · cases found : active.find? (begins spells · (c :: rest ++ text)) with
            | none =>
                exact absurd (spelled_begins spelled) (List.find?_eq_none.mp found rule among)
            | some first =>
                rw [only first (List.mem_of_find?_eq_some found)
                  (List.find?_eq_some_iff_append.mp found).1]
      · next idle =>
          rw [List.cons_append, rewrite_missed, rewrite_passed (delimited.subset subset) plain,
            hypothesis]
          · rfl
          · rw [List.find?_eq_none]
            intro other among stands
            obtain rfl := only other among stands
            exact idle ((applied_mem delimited subset listed).mpr among)

end Delimited

end VoltMod.Rewriting
