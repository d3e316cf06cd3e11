import Mathlib.Data.List.Nodup
import Mathlib.Data.List.TakeWhile
import VoltMod.MigrationText
import VoltMod.RewritingChain

/-!
Core/Text/Strings.cpp: the tokens of a text replaced by their values, a key at a time in the
map's order, compared with one substitution of them all. A glyph is a character that may
carry where it came from; the code's own run has plain characters for glyphs.
-/

namespace VoltMod.SubstituteTokens

open MigrationText (Text)
open Rewriting

structure Token where
  key : Text
  value : Text
  deriving DecidableEq, Repr

/-- `std::map<std::string, std::string>`: sorted, one value a key. -/
structure Tokens where
  entries : List Token
  sorted : entries.Pairwise fun token next => token.key < next.key

section Run
variable {α : Type} (spells : α → Char)

/-- What stands before the first `sought`, and what behind it. -/
def find (sought : Text) : List α → Option (List α × List α)
  | [] => none
  | c :: rest =>
      if sought.isPrefixOf ((c :: rest).map spells) then
        some ([], (c :: rest).drop sought.length)
      else
        (find sought rest).map fun (before, behind) => (c :: before, behind)

/-- The loop of `ReplaceAll`. A round leaves less behind what it puts in, so the text's
length is fuel enough. -/
def replaceFrom (sought : Text) (replacement : List α) : Nat → List α → List α
  | 0, str => str
  | fuel + 1, str =>
      match find spells sought str with
      | none => str
      | some (before, behind) => before ++ replacement ++ replaceFrom sought replacement fuel behind

def replaceAll (str : List α) (sought : Text) (replacement : List α) : List α :=
  if sought = [] then str else replaceFrom spells sought replacement str.length str

end Run

def brace (key : Text) : Text := '{' :: key ++ ['}']

def substituteTokens (text : Text) (tokens : Tokens) : Text :=
  tokens.entries.foldl (fun text token => replaceAll id text (brace token.key) token.value) text

/-- A rule for each token, whatever its value is written with. -/
def rules {α : Type} (put : Token → List α) (entries : List Token) : List (Rule Char α) :=
  entries.map fun token => ⟨brace token.key, put token⟩

/-- Every `{key}` of the text replaced at once. -/
def simultaneous (text : Text) (entries : List Token) : Text :=
  rewrite id (rules Token.value entries) text

/-- Where a character came from. -/
inductive Mark where
  | template (position : Nat)
  | value (key : Text)
  deriving DecidableEq, Repr

abbrev Glyph := Char × Mark

def marked : Nat → Text → List Glyph
  | _, [] => []
  | position, c :: rest => (c, .template position) :: marked (position + 1) rest

def Token.glyphs (token : Token) : List Glyph := token.value.map (·, .value token.key)

/-- The run of `substituteTokens` on characters that carry where they came from. -/
def substituteMarked (text : List Glyph) (tokens : Tokens) : List Glyph :=
  tokens.entries.foldl
    (fun text token => replaceAll Prod.fst text (brace token.key) token.glyphs) text

def simultaneousMarked (text : List Glyph) (entries : List Token) : List Glyph :=
  rewrite Prod.fst (rules Token.glyphs entries) text

/-- The run is one simultaneous substitution, and every character of the outcome is there
because that substitution put it there: none is the value of a key that a value spelled. -/
structure Once (template : Text) (tokens : Tokens) : Prop where
  result : substituteTokens template tokens = simultaneous template tokens.entries
  origin : substituteMarked (marked 0 template) tokens =
    simultaneousMarked (marked 0 template) tokens.entries

section Run
variable {α : Type} {spells : α → Char} {sought : Text} {replacement str : List α}

theorem find_cons (replacement : List α) (c : α) (rest : List α) :
    find spells sought (c :: rest) =
      if begins spells ⟨sought, replacement⟩ (c :: rest) then
        some ([], (c :: rest).drop sought.length)
      else
        (find spells sought rest).map fun (before, behind) => (c :: before, behind) := rfl

theorem rewrite_find (present : sought ≠ []) :
    rewrite spells [⟨sought, replacement⟩] str =
      match find spells sought str with
      | none => str
      | some (before, behind) =>
          before ++ replacement ++ rewrite spells [⟨sought, replacement⟩] behind := by
  induction str with
  | nil => rfl
  | cons c rest hypothesis =>
      rw [find_cons replacement]
      by_cases stands : begins spells ⟨sought, replacement⟩ (c :: rest) = true
      · have one_more : sought.length = sought.length - 1 + 1 :=
          (Nat.sub_add_cancel (List.length_pos_of_ne_nil present)).symm
        rw [if_pos stands, rewrite, rewriteFrom, List.find?_cons, stands, one_more,
          List.drop_succ_cons]
        simp only [rewriteFrom_drop, List.nil_append]
      · rw [rewrite_missed (by simp [stands]), hypothesis, if_neg stands]
        cases find spells sought rest with
        | none => rfl
        | some parts => rfl

theorem find_shorter (present : sought ≠ []) {before behind : List α}
    (found : find spells sought str = some (before, behind)) : behind.length < str.length := by
  induction str generalizing before with
  | nil => cases found
  | cons c rest hypothesis =>
      simp only [find] at found
      split at found
      · obtain ⟨-, rfl⟩ := Prod.mk.inj (Option.some.inj found)
        have taken := List.length_pos_of_ne_nil present
        simp only [List.length_drop, List.length_cons]
        omega
      · obtain ⟨parts, later, same⟩ := Option.map_eq_some_iff.mp found
        obtain ⟨-, rfl⟩ := Prod.mk.inj same
        exact Nat.lt_succ_of_lt (hypothesis later)

/-- The loop replaces what one scan with the one rule replaces. -/
theorem replaceAll_rewrite (present : sought ≠ []) :
    replaceAll spells str sought replacement = rewrite spells [⟨sought, replacement⟩] str := by
  rw [replaceAll, if_neg present]
  suffices enough : ∀ fuel (str : List α), str.length ≤ fuel →
      replaceFrom spells sought replacement fuel str = rewrite spells [⟨sought, replacement⟩] str from
    enough _ str (Nat.le_refl _)
  intro fuel
  induction fuel with
  | zero =>
      intro str short
      rw [List.length_eq_zero_iff.mp (Nat.le_zero.mp short)]
      rfl
  | succ fuel hypothesis =>
      intro str short
      rw [rewrite_find present, replaceFrom]
      cases found : find spells sought str with
      | none => rfl
      | some parts =>
          have fewer := find_shorter present found
          simp only [hypothesis parts.2 (by omega)]

end Run

def Braceless (tokens : Tokens) : Prop :=
  ∀ token ∈ tokens.entries, '{' ∉ token.key ∧ '}' ∉ token.key

instance (tokens : Tokens) : Decidable (Braceless tokens) :=
  inferInstanceAs (Decidable (∀ token ∈ tokens.entries, '{' ∉ token.key ∧ '}' ∉ token.key))

section Rules
variable {α : Type} {put : Token → List α} {tokens : Tokens}

theorem brace_present (key : Text) : brace key ≠ [] := List.cons_ne_nil _ _

theorem brace_injective {key other : Text} (same : brace key = brace other) : key = other :=
  List.append_cancel_right (List.cons.inj same).2

theorem keys_nodup (tokens : Tokens) : (tokens.entries.map Token.key).Nodup := by
  apply List.pairwise_map.mpr
  apply tokens.sorted.imp
  intro token next less same
  exact List.lt_irrefl _ (same ▸ less)

theorem patterns_nodup : ((rules put tokens.entries).map Rule.pattern).Nodup := by
  have nodup := (keys_nodup tokens).map fun _ _ => brace_injective
  rw [List.map_map] at nodup
  rw [rules, List.map_map]
  exact nodup

/-- A braced key ends at the first closing brace. -/
theorem brace_leads {key text : Text} (closed : '}' ∉ key) (stands : brace key <+: text) :
    key = text.tail.takeWhile (· != '}') := by
  obtain ⟨rest, rfl⟩ := stands
  have inside : ∀ c ∈ key, (c != '}') = true := by
    intro c within
    exact bne_iff_ne.mpr fun same => closed (same ▸ within)
  rw [brace, List.cons_append, List.cons_append, List.tail_cons, List.append_assoc,
    List.takeWhile_append_of_pos inside]
  simp

theorem rules_delimited (braceless : Braceless tokens) :
    Delimited '{' (rules put tokens.entries) where
  opens rule listed := by
    obtain ⟨token, inside, rfl⟩ := List.mem_map.mp listed
    refine ⟨token.key ++ ['}'], rfl, ?_⟩
    simpa using (braceless token inside).1
  alone rule listed other listed' text stands stands' := by
    obtain ⟨token, inside, rfl⟩ := List.mem_map.mp listed
    obtain ⟨next, inside', rfl⟩ := List.mem_map.mp listed'
    have same : token.key = next.key := by
      rw [brace_leads (braceless token inside).2 stands,
        brace_leads (braceless next inside').2 stands']
    rw [List.inj_on_of_nodup_map (keys_nodup tokens) inside inside' same]

/-- One replacement after another is the chain of one-rule scans. -/
theorem run_chain (spells : α → Char) (text : List α) (entries : List Token) :
    entries.foldl (fun text token => replaceAll spells text (brace token.key) (put token)) text =
      chain spells (rules put entries) text := by
  simp only [chain, rules, List.foldl_map, replaceAll_rewrite (brace_present _)]

end Rules

section Marks
variable {tokens : Tokens} {template : Text}

@[simp] theorem marked_text (position : Nat) (text : Text) :
    (marked position text).map Prod.fst = text := by
  induction text generalizing position with
  | nil => rfl
  | cons c rest hypothesis => rw [marked, List.map_cons, hypothesis]

theorem marked_drop (position count : Nat) (text : Text) :
    (marked position text).drop count = marked (position + count) (text.drop count) := by
  induction text generalizing position count with
  | nil => cases count <;> rfl
  | cons c rest hypothesis =>
      cases count with
      | zero => rfl
      | succ count =>
          rw [marked, List.drop_succ_cons, List.drop_succ_cons, hypothesis]
          congr 1
          omega

/-- Some token of the list stands in the template at the position. -/
def tokenAt (entries : List Token) (template : Text) (position : Nat) : Bool :=
  entries.any fun token => (brace token.key).isPrefixOf (template.drop position)

/-- The opening braces that no later key may take: those of the template that open no token
and those of the values put in so far. -/
def settled (tokens : Tokens) (template : Text) (before : List Token) (glyph : Glyph) : Bool :=
  glyph.1 == '{' &&
    match glyph.2 with
    | .template position => !tokenAt tokens.entries template position
    | .value key => before.any fun token => token.key == key

theorem marked_head {position : Nat} {text : Text} {c : Glyph} {rest : List Glyph}
    (same : c :: rest = marked position text) : c.2 = .template position := by
  cases text with
  | nil => cases same
  | cons d others =>
      obtain ⟨rfl, -⟩ := List.cons.inj same
      rfl

theorem begins_tokenAt {text : List Glyph} {position : Nat}
    (behind : text = marked position (template.drop position)) :
    ((rules Token.glyphs tokens.entries).any fun rule => begins Prod.fst rule text) =
      tokenAt tokens.entries template position := by
  simp only [rules, tokenAt, begins, List.any_map, behind, marked_text]
  rfl

/-- What the reading leaves alone opens no token where it stands, what it reads as a token
does. -/
theorem shape_marked {pieces : List (Piece Char Glyph)} {text : List Glyph} {position : Nat}
    (braceless : Braceless tokens)
    (shape : Shape Prod.fst (rules Token.glyphs tokens.entries) text pieces)
    (behind : text = marked position (template.drop position)) :
    (∀ c, .glyph c ∈ pieces →
      ∃ i, c.2 = .template i ∧ tokenAt tokens.entries template i = false) ∧
    ∀ rule written, .spelling rule written ∈ pieces →
      ∃ c rest i, written = c :: rest ∧ (∀ d ∈ rest, d.1 ≠ '{') ∧ c.2 = .template i ∧
        tokenAt tokens.entries template i = true := by
  induction shape generalizing position with
  | nil => simp
  | @glyph c text pieces missed _ hypothesis =>
      have onward : text = marked (position + 1) (template.drop (position + 1)) := by
        rw [← List.drop_drop, ← marked_drop, ← behind]
        rfl
      obtain ⟨glyphs, spellings⟩ := hypothesis onward
      constructor
      · intro d inside
        rcases List.mem_cons.mp inside with here | later
        · obtain rfl := Piece.glyph.inj here
          refine ⟨position, marked_head behind, ?_⟩
          rw [← begins_tokenAt behind]
          simpa using missed
        · exact glyphs d later
      · intro rule written inside
        rcases List.mem_cons.mp inside with here | later
        · cases here
        · exact spellings rule written later
  | @spelling rule written text pieces listed spelled _ hypothesis =>
      have onward : text = marked (position + written.length)
          (template.drop (position + written.length)) := by
        rw [← List.drop_drop, ← marked_drop, ← behind, List.drop_left]
      obtain ⟨glyphs, spellings⟩ := hypothesis onward
      constructor
      · intro d inside
        rcases List.mem_cons.mp inside with here | later
        · cases here
        · exact glyphs d later
      · intro other written' inside
        rcases List.mem_cons.mp inside with here | later
        · obtain ⟨rfl, rfl⟩ := Piece.spelling.inj here
          obtain ⟨c, rest, rfl, -, plain⟩ :=
            spelled_opens (rules_delimited braceless) listed spelled
          refine ⟨c, rest, position, rfl, plain, marked_head behind, ?_⟩
          rw [← begins_tokenAt behind]
          exact List.any_eq_true.mpr ⟨_, listed, spelled_begins spelled⟩
        · exact spellings other written' later

theorem settled_weighs {pieces : List (Piece Char Glyph)} (braceless : Braceless tokens)
    (shape : Shape Prod.fst (rules Token.glyphs tokens.entries) (marked 0 template) pieces)
    {before after : List Token} (parted : tokens.entries = before ++ after) :
    Weighs '{' Prod.fst (settled tokens template before) (rules Token.glyphs before)
      (rules Token.glyphs after) pieces := by
  obtain ⟨glyphs, spellings⟩ := shape_marked braceless shape rfl
  constructor
  · intro c counted
    exact beq_iff_eq.mp (Bool.and_eq_true_iff.mp counted).1
  · intro c inside opens
    obtain ⟨i, mark, free⟩ := glyphs c inside
    simp [settled, opens, mark, free]
  · intro rule written inside c within
    obtain ⟨first, rest, i, rfl, plain, mark, taken⟩ := spellings rule written inside
    rcases List.mem_cons.mp within with rfl | later
    · simp [settled, mark, taken]
    · simp [settled, plain c later]
  · intro rule listed c within opens
    obtain ⟨token, early, rfl⟩ := List.mem_map.mp listed
    obtain ⟨d, -, rfl⟩ := List.mem_map.mp within
    have same : d = '{' := opens
    simp only [settled, same, beq_self_eq_true, Bool.true_and, List.any_eq_true]
    exact ⟨token, early, beq_self_eq_true _⟩
  · intro rule listed c within
    obtain ⟨token, late, rfl⟩ := List.mem_map.mp listed
    obtain ⟨d, -, rfl⟩ := List.mem_map.mp within
    have nodup := keys_nodup tokens
    rw [parted, List.map_append] at nodup
    have apart : (before.any fun other => other.key == token.key) = false := by
      rw [List.any_eq_false]
      intro other early same
      exact (List.nodup_append.mp nodup).2.2 _ (List.mem_map_of_mem early) _
        (List.mem_map_of_mem late) (beq_iff_eq.mp same)
    simp only [settled, apart, Bool.and_false]

end Marks

section Outcome
variable {tokens : Tokens} {template : Text}

theorem glyphs_text (token : Token) : token.glyphs.map Prod.fst = token.value := by
  simp [Token.glyphs, Function.comp_def]

theorem rewrite_text (text : List Glyph) (entries : List Token) :
    (rewrite Prod.fst (rules Token.glyphs entries) text).map Prod.fst =
      rewrite id (rules Token.value entries) (text.map Prod.fst) := by
  have same : ∀ glyph : Glyph, id (Prod.fst glyph) = Prod.fst glyph := fun _ => rfl
  rw [rewrite_map Prod.fst id same]
  simp only [rules, List.map_map, Function.comp_def, glyphs_text]

theorem chain_text (text : List Glyph) (entries : List Token) :
    (chain Prod.fst (rules Token.glyphs entries) text).map Prod.fst =
      chain id (rules Token.value entries) (text.map Prod.fst) := by
  induction entries generalizing text with
  | nil => rfl
  | cons token entries hypothesis =>
      have first := rewrite_text text [token]
      have others := hypothesis (rewrite Prod.fst (rules Token.glyphs [token]) text)
      rw [first] at others
      exact others

/-- The marks change nothing about the run. -/
theorem substituteMarked_text (text : List Glyph) (tokens : Tokens) :
    (substituteMarked text tokens).map Prod.fst =
      substituteTokens (text.map Prod.fst) tokens := by
  rw [substituteMarked, run_chain, chain_text, substituteTokens, run_chain]

theorem simultaneous_text (template : Text) (entries : List Token) :
    (rewrite Prod.fst (rules Token.glyphs entries) (marked 0 template)).map Prod.fst =
      simultaneous template entries := by
  rw [rewrite_text, marked_text]
  rfl

/-- `{key}` stands in the template as often as in what the tokens before it make of it. -/
def Unspelled (template : Text) (tokens : Tokens) : Prop :=
  ∀ before token after, tokens.entries = before ++ token :: after →
    occurrences (brace token.key) (simultaneous template before) =
      occurrences (brace token.key) template

theorem unspelled_exact :
    Exact Prod.fst (rules Token.glyphs tokens.entries) (marked 0 template) ↔
      Unspelled template tokens := by
  constructor
  · intro exactly before token after parted
    have counts := exactly (rules Token.glyphs before) ⟨brace token.key, token.glyphs⟩
      (rules Token.glyphs after) (by rw [parted, rules, List.map_append]; rfl)
    rwa [simultaneous_text, marked_text] at counts
  · intro unspelled before rule after parted
    obtain ⟨early, later, whole, rfl, split⟩ := List.map_eq_append_iff.mp parted
    obtain ⟨token, late, rfl, rfl, rfl⟩ := List.map_eq_cons_iff.mp split
    have counts := unspelled early token late whole
    rw [← simultaneous_text] at counts
    rw [marked_text]
    exact counts

/-- Replacing a key at a time is one substitution exactly where no value, alone or with the
text around it, spells a later key. -/
theorem substituteTokens_once_iff (template : Text) (tokens : Tokens)
    (braceless : Braceless tokens) :
    Once template tokens ↔ Unspelled template tokens := by
  have delimited : Delimited '{' (rules Token.glyphs tokens.entries) := rules_delimited braceless
  rw [← unspelled_exact]
  constructor
  · intro once
    obtain ⟨pieces, shape⟩ := shape_exists delimited (marked 0 template)
    apply exact_of_chain delimited patterns_nodup shape
    · intro before after parted
      obtain ⟨early, late, whole, rfl, rfl⟩ := List.map_eq_append_iff.mp parted
      exact ⟨_, settled_weighs braceless shape whole⟩
    · rw [← run_chain]
      exact once.origin
  · intro exactly
    have origin := chain_exact delimited patterns_nodup exactly
    constructor
    · have texts := congrArg (List.map Prod.fst) origin
      rw [← run_chain, simultaneous_text] at texts
      rw [← texts, ← substituteMarked, substituteMarked_text, marked_text]
    · rw [substituteMarked, run_chain]
      exact origin

def pair : Tokens where
  entries := [⟨"a".toList, "{b}".toList⟩, ⟨"b".toList, "x".toList⟩]
  sorted := by decide

/-- A template that names only the later key is substituted once. -/
theorem value_kept : Once "{b}".toList pair := by
  apply (substituteTokens_once_iff _ pair (by decide)).mpr
  intro before token after parted
  match before, parted with
  | [], parted => obtain ⟨rfl, -⟩ := List.cons.inj parted; decide
  | [_], parted =>
      obtain ⟨rfl, rest⟩ := List.cons.inj parted
      obtain ⟨rfl, -⟩ := List.cons.inj rest
      decide
  | _ :: _ :: _, parted => simp [pair] at parted

/-- The value of `a` spells the key `b` and is replaced once more. -/
theorem value_expanded_again :
    Braceless pair ∧ substituteTokens "{a}".toList pair = "x".toList ∧
      simultaneous "{a}".toList pair.entries = "{b}".toList ∧ ¬ Once "{a}".toList pair := by
  have code : substituteTokens "{a}".toList pair = "x".toList := by decide
  have once : simultaneous "{a}".toList pair.entries = "{b}".toList := by decide
  refine ⟨by decide, code, once, fun claimed => ?_⟩
  have same := claimed.result
  rw [code, once] at same
  exact absurd same (by decide)

end Outcome

end VoltMod.SubstituteTokens
