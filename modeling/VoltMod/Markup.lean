import VoltMod.MigrationText

/-!
Markup as a reader takes it: tags between angle brackets and the texts between the tags, in
which entities stand for the characters markup is made of. What is put together from tags and
escaped texts is read as those tags and texts.
-/

namespace VoltMod.Markup
open MigrationText (Text)

section Entities

def entities : List (Text × Char) :=
  [("&amp;".toList, '&'), ("&lt;".toList, '<'), ("&gt;".toList, '>'), ("&quot;".toList, '"'),
    ("&#39;".toList, '\'')]

def special (c : Char) : Bool := entities.any fun entity => entity.2 = c

/-- A text whose special characters are all spelled as entities. -/
inductive Escaped : Text → Prop
  | nil : Escaped []
  | plain {c : Char} {rest : Text} (harmless : special c = false) (behind : Escaped rest) :
      Escaped (c :: rest)
  | entity {name rest : Text} {c : Char} (known : (name, c) ∈ entities)
      (behind : Escaped rest) : Escaped (name ++ rest)

/-- An entity is read as its character; the rest of its name is then passed over. -/
def unescapeFrom : Nat → Text → Text
  | _, [] => []
  | skip + 1, _ :: rest => unescapeFrom skip rest
  | 0, c :: rest =>
      match entities.find? fun entity => entity.1.isPrefixOf (c :: rest) with
      | some (name, meant) => meant :: unescapeFrom (name.length - 1) rest
      | none => c :: unescapeFrom 0 rest

def unescape (text : Text) : Text := unescapeFrom 0 text

theorem unescape_skip (passed rest : Text) :
    unescapeFrom passed.length (passed ++ rest) = unescape rest := by
  induction passed with
  | nil => rfl
  | cons c passed ih => exact ih

theorem unescape_plain {c : Char} (harmless : c ≠ '&') (rest : Text) :
    unescape (c :: rest) = c :: unescape rest := by
  have none : (entities.find? fun entity => entity.1.isPrefixOf (c :: rest)) = none := by
    simp [entities, harmless.symm]
  simp only [unescape, unescapeFrom, none]

theorem unescape_entity {name rest : Text} {c : Char} (known : (name, c) ∈ entities) :
    unescape (name ++ rest) = c :: unescape rest := by
  simp only [entities, List.mem_cons, Prod.mk.injEq, List.not_mem_nil, or_false] at known
  obtain ⟨rfl, rfl⟩ | ⟨rfl, rfl⟩ | ⟨rfl, rfl⟩ | ⟨rfl, rfl⟩ | ⟨rfl, rfl⟩ := known
  · exact congrArg _ (unescape_skip "amp;".toList rest)
  · exact congrArg _ (unescape_skip "lt;".toList rest)
  · exact congrArg _ (unescape_skip "gt;".toList rest)
  · exact congrArg _ (unescape_skip "quot;".toList rest)
  · exact congrArg _ (unescape_skip "#39;".toList rest)

theorem Escaped.append {first second : Text} (one : Escaped first) (other : Escaped second) :
    Escaped (first ++ second) := by
  induction one with
  | nil => exact other
  | plain harmless _ ih => exact .plain harmless ih
  | entity known _ ih =>
      rw [List.append_assoc]
      exact .entity known ih

theorem escaped_calm {text : Text} (escaped : Escaped text) : '<' ∉ text := by
  induction escaped with
  | nil => exact List.not_mem_nil
  | plain harmless _ ih =>
      rw [List.mem_cons, not_or]
      refine ⟨?_, ih⟩
      rintro rfl
      cases harmless
  | entity known _ ih =>
      rw [List.mem_append, not_or]
      refine ⟨?_, ih⟩
      have every : ∀ entity ∈ entities, '<' ∉ entity.1 := by decide
      exact every _ known

end Entities

section Reading

structure Reading where
  tags : List Text := []
  texts : List Text := []
  current : Text := []
  inside : Bool := false

def readChar (reading : Reading) (c : Char) : Reading :=
  if reading.inside then
    if c = '>' then { reading with tags := reading.tags ++ [reading.current], current := [], inside := false }
    else { reading with current := reading.current ++ [c] }
  else if c = '<' then
    { reading with texts := reading.texts ++ [reading.current], current := [], inside := true }
  else { reading with current := reading.current ++ [c] }

def read (markup : Text) : Reading := markup.foldl readChar {}

def tags (markup : Text) : List Text := (read markup).tags

/-- The texts before, between and behind the tags. -/
def texts (markup : Text) : List Text :=
  (read markup).texts ++ if (read markup).inside then [] else [(read markup).current]

/-- A text and the tag behind it. -/
structure Segment where
  text : Text
  tag : Text
  deriving DecidableEq, Repr

def Segment.spell (segment : Segment) : Text := segment.text ++ '<' :: segment.tag ++ ['>']

def spell (segments : List Segment) : Text := segments.flatMap Segment.spell

variable {reading : Reading}

theorem read_text {text : Text} (outside : reading.inside = false) (calm : '<' ∉ text) :
    text.foldl readChar reading = { reading with current := reading.current ++ text } := by
  induction text generalizing reading with
  | nil => simp
  | cons c rest ih =>
      simp only [List.mem_cons, not_or] at calm
      have one : readChar reading c = { reading with current := reading.current ++ [c] } := by
        simp [readChar, outside, Ne.symm calm.1]
      rw [List.foldl_cons, one, ih (by exact outside) calm.2]
      simp

theorem read_tag {tag : Text} (inside : reading.inside = true) (calm : '>' ∉ tag) :
    tag.foldl readChar reading = { reading with current := reading.current ++ tag } := by
  induction tag generalizing reading with
  | nil => simp
  | cons c rest ih =>
      simp only [List.mem_cons, not_or] at calm
      have one : readChar reading c = { reading with current := reading.current ++ [c] } := by
        simp [readChar, inside, Ne.symm calm.1]
      rw [List.foldl_cons, one, ih (by exact inside) calm.2]
      simp

structure Segment.Sound (segment : Segment) : Prop where
  text : '<' ∉ segment.text
  tag : '>' ∉ segment.tag

theorem read_segment {segment : Segment} (sound : segment.Sound) (before : List Text × List Text) :
    segment.spell.foldl readChar { tags := before.1, texts := before.2 } =
      { tags := before.1 ++ [segment.tag], texts := before.2 ++ [segment.text] } := by
  have split : segment.spell = segment.text ++ '<' :: (segment.tag ++ ['>']) := by
    simp [Segment.spell]
  have text : segment.text.foldl readChar { tags := before.1, texts := before.2 } =
      { tags := before.1, texts := before.2, current := segment.text } := read_text rfl sound.text
  have opened : readChar { tags := before.1, texts := before.2, current := segment.text } '<' =
      { tags := before.1, texts := before.2 ++ [segment.text], inside := true } := rfl
  have tag : segment.tag.foldl readChar
        { tags := before.1, texts := before.2 ++ [segment.text], inside := true } =
      { tags := before.1, texts := before.2 ++ [segment.text], current := segment.tag,
        inside := true } := read_tag rfl sound.tag
  rw [split, List.foldl_append, text, List.foldl_cons, opened, List.foldl_append, tag]
  rfl

/-- What segments come to is read as they say, whatever stands behind them. -/
theorem read_spell {segments : List Segment} (sound : ∀ segment ∈ segments, segment.Sound)
    (before : List Text × List Text) :
    (spell segments).foldl readChar { tags := before.1, texts := before.2 } =
      { tags := before.1 ++ segments.map (·.tag), texts := before.2 ++ segments.map (·.text) } := by
  induction segments generalizing before with
  | nil => simp [spell]
  | cons segment rest ih =>
      have first := read_segment (sound segment List.mem_cons_self) before
      have later := ih (fun other member => sound other (List.mem_cons_of_mem _ member))
        (before.1 ++ [segment.tag], before.2 ++ [segment.text])
      rw [spell, List.flatMap_cons, List.foldl_append, first]
      simpa [spell] using later

/-- What was read before changes nothing of what is read. -/
def Reading.after (before : List Text × List Text) (reading : Reading) : Reading :=
  { reading with tags := before.1 ++ reading.tags, texts := before.2 ++ reading.texts }

theorem readChar_after (before : List Text × List Text) (reading : Reading) (c : Char) :
    readChar (reading.after before) c = (readChar reading c).after before := by
  obtain ⟨tags, texts, current, inside⟩ := reading
  cases inside with
  | true =>
      by_cases closes : c = '>'
      · simp [readChar, Reading.after, closes]
      · simp [readChar, Reading.after, closes]
  | false =>
      by_cases opens : c = '<'
      · simp [readChar, Reading.after, opens]
      · simp [readChar, Reading.after, opens]

theorem read_after (before : List Text × List Text) (markup : Text) :
    markup.foldl readChar (reading.after before) =
      (markup.foldl readChar reading).after before := by
  induction markup generalizing reading with
  | nil => rfl
  | cons c rest ih => rw [List.foldl_cons, readChar_after, ih, List.foldl_cons]

theorem read_behind {segments : List Segment} (sound : ∀ segment ∈ segments, segment.Sound)
    (rest : Text) : read (spell segments ++ rest) =
      (read rest).after (segments.map (·.tag), segments.map (·.text)) := by
  have first := read_spell sound ([], [])
  have start : ({ tags := segments.map (·.tag), texts := segments.map (·.text) } : Reading) =
      ({} : Reading).after (segments.map (·.tag), segments.map (·.text)) := by
    simp [Reading.after]
  simp only [List.nil_append] at first
  rw [read, List.foldl_append, first, start, read_after]
  rfl

theorem tags_spell {segments : List Segment} (sound : ∀ segment ∈ segments, segment.Sound)
    (rest : Text) : tags (spell segments ++ rest) = segments.map (·.tag) ++ tags rest := by
  rw [tags, read_behind sound]
  rfl

theorem texts_spell {segments : List Segment} (sound : ∀ segment ∈ segments, segment.Sound)
    (rest : Text) : texts (spell segments ++ rest) = segments.map (·.text) ++ texts rest := by
  rw [texts, read_behind sound, texts]
  exact List.append_assoc ..

end Reading

end VoltMod.Markup
