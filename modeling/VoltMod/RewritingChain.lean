import VoltMod.Rewriting

/-!
Rules applied in turn, each to the whole text the one before left, compared with the same
rules applied at once. They agree where no rule finds more than the text itself has, and,
where every stage can be weighed, only there.
-/

namespace VoltMod.Rewriting

variable {κ α : Type} [DecidableEq κ] (spells : α → κ)

/-- The rules in turn. -/
def chain (rules : List (Rule κ α)) (text : List α) : List α :=
  rules.foldl (fun text rule => rewrite spells [rule] text) text

def ownPiece (pattern : List κ) : Piece κ α → Nat
  | .glyph _ => 0
  | .spelling rule _ => if rule.pattern = pattern then 1 else 0

/-- How many of the pieces spell `pattern`. -/
def own (pattern : List κ) : List (Piece κ α) → Nat
  | [] => 0
  | piece :: pieces => ownPiece pattern piece + own pattern pieces

variable {spells} {opening : κ} {rules active : List (Rule κ α)} {rule : Rule κ α}
  {text front back : List α} {pieces : List (Piece κ α)}

/-- At how many counted glyphs the rule begins. -/
def openings (spells : α → κ) (counted : α → Bool) (rule : Rule κ α) : List α → Nat
  | [] => 0
  | c :: rest =>
      (if counted c && begins spells rule (c :: rest) then 1 else 0) +
        openings spells counted rule rest

variable {counted : α → Bool}

theorem openings_all :
    openings spells (fun _ => true) rule text = occurrences rule.pattern (text.map spells) := by
  induction text with
  | nil => rfl
  | cons c rest hypothesis =>
      rw [occurrences_cons, ← hypothesis, openings, Bool.true_and]

theorem openings_parted :
    openings spells counted rule text + openings spells (fun c => !counted c) rule text =
      occurrences rule.pattern (text.map spells) := by
  induction text with
  | nil => rfl
  | cons c rest hypothesis =>
      rw [occurrences_cons, ← hypothesis]
      simp only [openings]
      rcases Bool.eq_false_or_eq_true (counted c) with hit | hit
      · simp only [hit, Bool.true_and, Bool.not_true, Bool.false_and, Bool.false_eq_true, if_false]
        omega
      · simp only [hit, Bool.false_and, Bool.not_false, Bool.true_and, Bool.false_eq_true, if_false]
        omega

theorem openings_passed (delimited : Delimited opening rules) (listed : rule ∈ rules)
    (plain : ∀ c ∈ front, spells c = opening → counted c = false) :
    openings spells counted rule (front ++ back) = openings spells counted rule back := by
  induction front with
  | nil => rfl
  | cons c rest hypothesis =>
      rw [List.cons_append, openings, hypothesis fun c inside =>
        plain c (List.mem_cons_of_mem _ inside), if_neg, Nat.zero_add]
      intro both
      obtain ⟨hit, stands⟩ := Bool.and_eq_true_iff.mp both
      rw [plain c List.mem_cons_self (begins_opening delimited listed stands)] at hit
      exact Bool.false_ne_true hit

theorem openings_spelled {other : Rule κ α} (delimited : Delimited opening rules)
    (listed : rule ∈ rules) (among : other ∈ rules) (spelled : front.map spells = other.pattern)
    (opens : ∀ c ∈ front, spells c = opening → counted c = true) :
    openings spells counted rule (front ++ back) =
      (if other.pattern = rule.pattern then 1 else 0) + openings spells counted rule back := by
  obtain ⟨c, rest, rfl, first, plain⟩ := spelled_opens delimited among spelled
  have alike : (begins spells rule (c :: rest ++ back) = true) ↔ other.pattern = rule.pattern := by
    constructor
    · intro stands
      rw [delimited.alone rule listed other among _ (begins_iff.mp stands)
        (begins_iff.mp (spelled_begins spelled))]
    · intro same
      exact spelled_begins (spelled.trans same)
  rw [List.cons_append] at alike ⊢
  simp only [openings, opens c List.mem_cons_self first, Bool.true_and, alike]
  rw [openings_passed delimited listed]
  intro d inside opened
  exact absurd opened (plain d inside)

/-- Patterns stand nowhere but where the reading found them. -/
theorem own_occurrences (delimited : Delimited opening rules) (listed : rule ∈ rules)
    (shape : Shape spells rules text pieces) :
    occurrences rule.pattern (text.map spells) = own rule.pattern pieces := by
  induction shape with
  | nil => rfl
  | glyph missed _ hypothesis =>
      rw [occurrences_cons, missed rule listed, hypothesis]
      rfl
  | spelling among spelled _ hypothesis =>
      rw [← openings_all, openings_spelled delimited listed among spelled fun _ _ _ => rfl,
        openings_all, hypothesis]
      rfl

/-- The piece spells the pattern of its rule. -/
def Spelled (spells : α → κ) (rules : List (Rule κ α)) : Piece κ α → Prop
  | .glyph _ => True
  | .spelling rule written => rule ∈ rules ∧ written.map spells = rule.pattern

theorem shape_spelled (shape : Shape spells rules text pieces) :
    ∀ piece ∈ pieces, Spelled spells rules piece := by
  induction shape with
  | nil => exact fun _ inside => nomatch inside
  | glyph _ _ hypothesis => exact List.forall_mem_cons.mpr ⟨trivial, hypothesis⟩
  | spelling among spelled _ hypothesis =>
      exact List.forall_mem_cons.mpr ⟨⟨among, spelled⟩, hypothesis⟩

/-- A rule not applied has the pattern of none that is. -/
theorem applied_apart {other : Rule κ α} (idle : ∀ other ∈ active, other.pattern ≠ rule.pattern)
    (done_with : applied active other = true) : other.pattern ≠ rule.pattern := by
  obtain ⟨third, inside, alike⟩ := applied_iff.mp done_with
  intro same
  exact idle third inside (alike.trans same)

section Next
variable (delimited : Delimited opening rules) (listed : rule ∈ rules)
  (idle : ∀ other ∈ active, other.pattern ≠ rule.pattern)
include delimited listed idle

/-- A pattern of the text is still spelled while its rule is not applied. -/
theorem ownPiece_le {piece : Piece κ α} (spelled : Spelled spells rules piece) :
    ownPiece rule.pattern piece ≤
      occurrences rule.pattern ((renderPiece active piece).map spells) := by
  cases piece with
  | glyph _ => exact Nat.zero_le _
  | spelling other written =>
      simp only [ownPiece, renderPiece]
      split
      · next same =>
          rw [if_neg]
          · rw [← openings_all, ← List.append_nil written,
              openings_spelled delimited listed spelled.1 spelled.2 fun _ _ _ => rfl, if_pos same]
            exact Nat.le_add_right _ _
          · exact fun applied => applied_apart idle applied same
      · exact Nat.zero_le _

theorem own_le (spelled : ∀ piece ∈ pieces, Spelled spells rules piece) :
    own rule.pattern pieces ≤ occurrences rule.pattern ((render active pieces).map spells) := by
  induction pieces with
  | nil => exact Nat.zero_le _
  | cons piece pieces hypothesis =>
      obtain ⟨first, others⟩ := List.forall_mem_cons.mp spelled
      have here := ownPiece_le delimited listed idle first
      have behind := hypothesis others
      rw [render, List.flatMap_cons, ← render, List.map_append, own]
      exact Nat.le_trans (Nat.add_le_add here behind) (occurrences_append_le _ _ _)

theorem renderPiece_next {piece : Piece κ α} (spelled : Spelled spells rules piece)
    (exactly : occurrences rule.pattern ((renderPiece active piece).map spells) =
      ownPiece rule.pattern piece) :
    rewrite spells [rule] (renderPiece active piece) = renderPiece (active ++ [rule]) piece := by
  cases piece with
  | glyph c => exact rewrite_absent exactly
  | spelling other written =>
      obtain ⟨among, written_out⟩ := spelled
      have next : applied (active ++ [rule]) other =
          (applied active other || rule.pattern == other.pattern) := by
        simp only [applied, List.any_append, List.any_cons, List.any_nil, Bool.or_false]
      simp only [renderPiece, ownPiece, next] at exactly ⊢
      by_cases applied : applied active other = true
      · have apart := applied_apart idle applied
        simp only [applied, if_true, Bool.true_or, if_neg apart] at exactly ⊢
        exact rewrite_absent exactly
      · by_cases same : other.pattern = rule.pattern
        · obtain rfl := delimited.alone other among rule listed _ (List.prefix_refl _)
            (same ▸ List.prefix_refl _)
          obtain ⟨c, rest, opened, -⟩ := spelled_opens delimited listed written_out
          rw [if_neg applied, beq_self_eq_true, Bool.or_true, if_pos rfl]
          apply rewrite_spelled written_out
          rw [opened]
          exact List.cons_ne_nil c rest
        · rw [if_neg applied, if_neg same] at exactly
          rw [if_neg applied, rewrite_absent exactly, if_neg]
          simpa [applied] using Ne.symm same

/-- Where the rule finds only the patterns of the text, it is one more rule applied. -/
theorem render_next (spelled : ∀ piece ∈ pieces, Spelled spells rules piece)
    (exactly : occurrences rule.pattern ((render active pieces).map spells) =
      own rule.pattern pieces) :
    rewrite spells [rule] (render active pieces) = render (active ++ [rule]) pieces := by
  induction pieces with
  | nil => rfl
  | cons piece pieces hypothesis =>
      obtain ⟨first, others⟩ := List.forall_mem_cons.mp spelled
      have here := ownPiece_le delimited listed idle first
      have behind := own_le delimited listed idle others
      rw [render, List.flatMap_cons, ← render, List.map_append, own] at exactly
      have both := occurrences_append_le rule.pattern
        ((renderPiece active piece).map spells) ((render active pieces).map spells)
      rw [render, List.flatMap_cons, ← render, rewrite_append,
        renderPiece_next delimited listed idle first (by omega), hypothesis others (by omega)]
      · rfl
      · rw [List.map_append]
        omega

end Next

/-- A rule that puts in nothing counted takes a counted glyph wherever it begins at one. -/
theorem rewrite_counted (delimited : Delimited opening rules) (listed : rule ∈ rules)
    (opens : ∀ c, counted c = true → spells c = opening)
    (value : ∀ c ∈ rule.value, counted c = false) (text : List α) :
    (rewrite spells [rule] text).countP counted + openings spells counted rule text =
      text.countP counted := by
  obtain ⟨body, opened, absent⟩ := delimited.opens rule listed
  suffices from_any : ∀ skip, (∀ c ∈ text.take skip, spells c ≠ opening) →
      (rewriteFrom spells [rule] skip text).countP counted + openings spells counted rule text =
        text.countP counted from
    from_any 0 fun _ inside => nomatch inside
  induction text with
  | nil => intro skip _; cases skip <;> rfl
  | cons c rest hypothesis =>
      intro skip plain
      cases skip with
      | succ skip =>
          simp only [List.take_succ_cons, List.forall_mem_cons] at plain
          have missed : counted c = false := by
            by_contra hit
            exact plain.1 (opens c (by simpa using hit))
          simp [rewriteFrom, openings, missed, hypothesis skip plain.2]
      | zero =>
          have onward := hypothesis 0 fun _ inside => nomatch inside
          by_cases stands : begins spells rule (c :: rest) = true
          · -- The rest of the pattern opens nothing, so nothing counted is passed over.
            have spelled := begins_iff.mp stands
            rw [opened, List.map_cons, List.cons_prefix_cons] at spelled
            have behind := hypothesis body.length fun d inside same => absent <| by
              rw [List.prefix_iff_eq_take.mp spelled.2, ← List.map_take, ← same]
              exact List.mem_map_of_mem inside
            have nothing : rule.value.countP counted = 0 := by
              simpa [List.countP_eq_zero] using value
            simp only [rewriteFrom, List.find?_cons, stands, opened, List.length_cons,
              Nat.add_sub_cancel, List.countP_append, nothing, openings, Bool.and_true,
              List.countP_cons]
            omega
          · simp only [rewriteFrom, List.find?_cons, stands, List.find?_nil, openings,
              List.countP_cons, Bool.and_false, Bool.false_eq_true, if_false]
            omega

/-- The counted glyphs are opening ones: those the reading leaves alone and those the rules
`before` put in, none of a pattern and none of what the rules `after` put in. -/
structure Weighs (opening : κ) (spells : α → κ) (counted : α → Bool)
    (before after : List (Rule κ α)) (pieces : List (Piece κ α)) : Prop where
  opens : ∀ c, counted c = true → spells c = opening
  glyphs : ∀ c, .glyph c ∈ pieces → spells c = opening → counted c = true
  spellings : ∀ rule written, .spelling rule written ∈ pieces → ∀ c ∈ written, counted c = false
  earlier : ∀ rule ∈ before, ∀ c ∈ rule.value, spells c = opening → counted c = true
  later : ∀ rule ∈ after, ∀ c ∈ rule.value, counted c = false

variable {before after : List (Rule κ α)}

omit [DecidableEq κ] in
theorem Weighs.tail {piece : Piece κ α}
    (weighs : Weighs opening spells counted before after (piece :: pieces)) :
    Weighs opening spells counted before after pieces where
  opens := weighs.opens
  glyphs c inside := weighs.glyphs c (List.mem_cons_of_mem _ inside)
  spellings rule written inside := weighs.spellings rule written (List.mem_cons_of_mem _ inside)
  earlier := weighs.earlier
  later := weighs.later

/-- At a glyph that is not counted the rule begins only where the text spells its pattern. -/
theorem uncounted_own (delimited : Delimited opening rules) (listed : rule ∈ rules)
    (subset : before ⊆ rules) (spelled : ∀ piece ∈ pieces, Spelled spells rules piece)
    (weighs : Weighs opening spells counted before after pieces) :
    openings spells (fun c => !counted c) rule (render before pieces) ≤
      own rule.pattern pieces := by
  induction pieces with
  | nil => exact Nat.le_refl _
  | cons piece pieces hypothesis =>
      obtain ⟨first, others⟩ := List.forall_mem_cons.mp spelled
      have behind := hypothesis others weighs.tail
      rw [render, List.flatMap_cons, ← render, own]
      cases piece with
      | glyph c =>
          rw [renderPiece, openings_passed delimited listed]
          · simpa [ownPiece] using behind
          · intro d inside opened
            obtain rfl := List.mem_singleton.mp inside
            rw [weighs.glyphs d List.mem_cons_self opened]
            rfl
      | spelling other written =>
          simp only [renderPiece]
          split
          · next applied =>
              rw [openings_passed delimited listed]
              · omega
              · intro c inside opened
                rw [weighs.earlier other ((applied_mem delimited subset first.1).mp applied) c inside
                  opened]
                rfl
          · rw [openings_spelled delimited listed first.1 first.2, ownPiece]
            · omega
            · intro c inside _
              rw [weighs.spellings other written List.mem_cons_self c inside]
              rfl

theorem render_counted (delimited : Delimited opening (before ++ after))
    (spelled : ∀ piece ∈ pieces, Spelled spells (before ++ after) piece)
    (weighs : Weighs opening spells counted before after pieces) :
    (render (before ++ after) pieces).countP counted = (render before pieces).countP counted := by
  induction pieces with
  | nil => rfl
  | cons piece pieces hypothesis =>
      obtain ⟨first, others⟩ := List.forall_mem_cons.mp spelled
      simp only [render, List.flatMap_cons, List.countP_append]
      rw [← render, ← render, hypothesis others weighs.tail, Nat.add_right_cancel_iff]
      cases piece with
      | glyph c => rfl
      | spelling rule written =>
          have early : applied before rule = true ↔ rule ∈ before :=
            applied_mem delimited (List.subset_append_left _ _) first.1
          have among : applied (before ++ after) rule = true := applied_iff.mpr ⟨rule, first.1, rfl⟩
          simp only [renderPiece, among, if_true]
          split
          · rfl
          · next waits =>
              have late : rule ∈ after :=
                (List.mem_append.mp first.1).resolve_left (waits ∘ early.mpr)
              rw [List.countP_eq_zero.mpr, List.countP_eq_zero.mpr]
              · simpa using weighs.spellings rule written List.mem_cons_self
              · simpa using weighs.later rule late

theorem chain_counted (delimited : Delimited opening rules)
    (opens : ∀ c, counted c = true → spells c = opening)
    (later : ∀ rule ∈ after, ∀ c ∈ rule.value, counted c = false) (subset : after ⊆ rules)
    (text : List α) : (chain spells after text).countP counted ≤ text.countP counted := by
  induction after generalizing text with
  | nil => exact Nat.le_refl _
  | cons rule after hypothesis =>
      obtain ⟨listed, others⟩ := List.cons_subset.mp subset
      obtain ⟨value, values⟩ := List.forall_mem_cons.mp later
      have taken := rewrite_counted delimited listed opens value text
      have onward := hypothesis values others (rewrite spells [rule] text)
      rw [chain, List.foldl_cons, ← chain]
      omega

/-- A rule that finds more than the patterns of the text leaves its mark on the outcome. -/
theorem chain_strays (delimited : Delimited opening (before ++ rule :: after))
    (shape : Shape spells (before ++ rule :: after) text pieces)
    (weighs : Weighs opening spells counted before (rule :: after) pieces)
    (idle : ∀ other ∈ before, other.pattern ≠ rule.pattern)
    (more : occurrences rule.pattern ((render before pieces).map spells) ≠
      own rule.pattern pieces) :
    chain spells (rule :: after) (render before pieces) ≠
      render (before ++ rule :: after) pieces := by
  intro same
  -- The extra patterns begin at counted glyphs, which are gone afterwards and which no later rule
  -- puts back, while the rules at once leave as many as there are before this rule.
  have listed : rule ∈ before ++ rule :: after :=
    List.mem_append_right _ List.mem_cons_self
  have subset : before ⊆ before ++ rule :: after := List.subset_append_left _ _
  have spelled := shape_spelled shape
  obtain ⟨value, values⟩ := List.forall_mem_cons.mp weighs.later
  have least := own_le delimited listed idle spelled
  have parted : openings spells counted rule (render before pieces) +
      openings spells (fun c => !counted c) rule (render before pieces) =
      occurrences rule.pattern ((render before pieces).map spells) := openings_parted
  have found := uncounted_own delimited listed subset spelled weighs
  have taken := rewrite_counted delimited listed weighs.opens value (render before pieces)
  have falls := chain_counted delimited weighs.opens values
    (fun other late => List.mem_append_right _ (List.mem_cons_of_mem _ late))
    (rewrite spells [rule] (render before pieces))
  have kept := render_counted delimited spelled weighs
  rw [← same, chain, List.foldl_cons, ← chain] at kept
  omega

/-- Every rule finds, in what the rules before it make of the text at once, as many patterns
as the text itself has. -/
def Exact (spells : α → κ) (rules : List (Rule κ α)) (text : List α) : Prop :=
  ∀ before rule after, rules = before ++ rule :: after →
    occurrences rule.pattern ((rewrite spells before text).map spells) =
      occurrences rule.pattern (text.map spells)

omit [DecidableEq κ] in
theorem idle_rule (distinct : ((before ++ rule :: after).map Rule.pattern).Nodup) :
    ∀ other ∈ before, other.pattern ≠ rule.pattern := by
  intro other inside same
  rw [List.map_append, List.map_cons] at distinct
  exact (List.nodup_append.mp distinct).2.2 _ (List.mem_map_of_mem inside) _ List.mem_cons_self same

section Chain
variable (delimited : Delimited opening rules) (distinct : (rules.map Rule.pattern).Nodup)
  (shape : Shape spells rules text pieces)
include delimited distinct shape

/-- A rule that finds no more than the text has is one more rule applied at once. -/
theorem rewrite_next (parted : rules = before ++ rule :: after)
    (exactly : occurrences rule.pattern ((rewrite spells before text).map spells) =
      occurrences rule.pattern (text.map spells)) :
    rewrite spells [rule] (rewrite spells before text) = rewrite spells (before ++ [rule]) text := by
  have listed : rule ∈ rules := by simp [parted]
  have subset : before ⊆ rules := by simp [parted]
  have next : before ++ [rule] ⊆ rules := by simp [parted]
  rw [own_occurrences delimited listed shape, rewrite_render delimited subset shape] at exactly
  rw [rewrite_render delimited subset shape, rewrite_render delimited next shape]
  exact render_next delimited listed (idle_rule (parted ▸ distinct)) (shape_spelled shape) exactly

theorem chain_from (exactly : Exact spells rules text) (parted : rules = before ++ after) :
    chain spells after (rewrite spells before text) = rewrite spells rules text := by
  induction after generalizing before with
  | nil => rw [parted, List.append_nil]; rfl
  | cons rule after hypothesis =>
      have next : rules = before ++ [rule] ++ after := by rw [parted, List.append_assoc]; rfl
      rw [chain, List.foldl_cons, ← chain, ← hypothesis next,
        rewrite_next delimited distinct shape parted (exactly before rule after parted)]

theorem exact_from (parted : rules = before ++ after)
    (weighs : ∀ before after, rules = before ++ after →
      ∃ counted, Weighs opening spells counted before after pieces)
    (same : chain spells after (rewrite spells before text) = rewrite spells rules text)
    (middle : List (Rule κ α)) (rule : Rule κ α) (rest : List (Rule κ α))
    (at_rule : after = middle ++ rule :: rest) :
    occurrences rule.pattern ((rewrite spells (before ++ middle) text).map spells) =
      occurrences rule.pattern (text.map spells) := by
  induction after generalizing before middle with
  | nil => simp at at_rule
  | cons first after hypothesis =>
      have exactly : occurrences first.pattern ((rewrite spells before text).map spells) =
          occurrences first.pattern (text.map spells) := by
        by_contra more
        obtain ⟨counted, weighed⟩ := weighs before (first :: after) parted
        subst parted
        have listed : first ∈ before ++ first :: after :=
          List.mem_append_right _ List.mem_cons_self
        have subset : before ⊆ before ++ first :: after := List.subset_append_left _ _
        rw [own_occurrences delimited listed shape, rewrite_render delimited subset shape] at more
        rw [rewrite_render delimited subset shape,
          rewrite_render delimited (List.Subset.refl _) shape] at same
        exact chain_strays delimited shape weighed (idle_rule distinct) more same
      cases middle with
      | nil =>
          obtain ⟨rfl, rfl⟩ := List.cons.inj at_rule
          rw [List.append_nil]
          exact exactly
      | cons head middle =>
          obtain ⟨rfl, later⟩ := List.cons.inj at_rule
          have next : rules = before ++ [first] ++ after := by rw [parted, List.append_assoc]; rfl
          have onward := hypothesis next
            (rewrite_next delimited distinct shape parted exactly ▸ same) middle later
          rw [List.append_assoc] at onward
          exact onward

end Chain

/-- Rules that find no more than the text has may be applied in turn. -/
theorem chain_exact (delimited : Delimited opening rules)
    (distinct : (rules.map Rule.pattern).Nodup) (exactly : Exact spells rules text) :
    chain spells rules text = rewrite spells rules text := by
  obtain ⟨pieces, shape⟩ := shape_exists delimited text
  have whole := chain_from delimited distinct shape exactly (List.nil_append rules).symm
  rw [rewrite_none] at whole
  exact whole

/-- Where every stage can be weighed, rules that may be applied in turn find no more than the
text has. -/
theorem exact_of_chain (delimited : Delimited opening rules)
    (distinct : (rules.map Rule.pattern).Nodup) (shape : Shape spells rules text pieces)
    (weighs : ∀ before after, rules = before ++ after →
      ∃ counted, Weighs opening spells counted before after pieces)
    (same : chain spells rules text = rewrite spells rules text) : Exact spells rules text := by
  intro before rule after parted
  have from_none : chain spells rules (rewrite spells [] text) = rewrite spells rules text := by
    rw [rewrite_none, same]
  exact exact_from delimited distinct shape rfl weighs from_none before rule after parted

end VoltMod.Rewriting
