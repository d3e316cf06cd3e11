import VoltMod.CenterHtmlRender

/-!
The markup of a center-HTML menu is fixed by what the menu is like, not by its texts: tags at
set places, and between them the texts, each escaped once.
-/

namespace VoltMod.CenterHtmlRender
open MigrationText (Text)
open Markup

def fontTag (color : Text) : Text := "font color='".toList ++ color ++ "'".toList

def smallTag (color : Text) : Text := "font class='fontSize-s' color='".toList ++ color ++ "'".toList

/-- A row's line as a player reads it. -/
def rowPlain (row : MenuRow) : Text :=
  if row.value = [] then row.label
  else
    let value := row.value ++ if row.pending then "…".toList else []
    let shown := match row.kind with
      | .toggle => "[".toList ++ value ++ "]".toList
      | .choice => "< ".toList ++ value ++ " >".toList
      | _ => value
    row.label ++ ": ".toList ++ shown ++ if row.changed then " *".toList else []

section Layout

/-- The header's tags with the plain text before each. -/
def headerSegments (header : CenterHtmlHeader) : List Segment :=
  (if header.breadcrumb = [] then []
    else [⟨[], smallTag Theme.warmGray⟩, ⟨header.breadcrumb ++ " › ".toList, "/font".toList⟩]) ++
  [⟨[], fontTag Theme.gold⟩, ⟨[], "b".toList⟩, ⟨header.title, "/b".toList⟩, ⟨[], "/font".toList⟩] ++
  (if header.subtitle = [] then []
    else [⟨" ".toList, smallTag Theme.warmGray⟩, ⟨header.subtitle, "/font".toList⟩]) ++
  (if 1 < header.pages then
      [⟨" ".toList, smallTag Theme.warmGray⟩,
        ⟨"(".toList ++ (toString (header.page + 1)).toList ++ "/".toList ++
          (toString header.pages).toList ++ ")".toList, "/font".toList⟩]
    else []) ++
  [⟨[], "br".toList⟩]

def rowSegments (row : MenuRow) (atCursor : Bool) : List Segment :=
  if row.enabled = false then
    [⟨[], fontTag Theme.disabled⟩, ⟨"- ".toList ++ rowPlain row, "/font".toList⟩,
      ⟨[], "br".toList⟩]
  else if row.selectable = false then
    [⟨[], fontTag Theme.warmGray⟩, ⟨rowPlain row, "/font".toList⟩, ⟨[], "br".toList⟩]
  else if atCursor then
    [⟨[], fontTag Theme.amber⟩, ⟨[], "b".toList⟩, ⟨"> ".toList ++ rowPlain row, "/b".toList⟩,
      ⟨[], "/font".toList⟩, ⟨[], "br".toList⟩]
  else
    [⟨[], fontTag Theme.warmWhite⟩, ⟨"  ".toList ++ rowPlain row, "/font".toList⟩,
      ⟨[], "br".toList⟩]

variable {Item : Type}

def rowsSegments (menu : Menu Item) (view : CenterHtmlView) (describe : Int → MenuRow)
    (translations : Translations) : List Segment :=
  let first := currentPage menu view * centerHtmlRowsPerPage
  if menu.items.length = 0 then
    [⟨[], fontTag Theme.warmGray⟩,
      ⟨translations "menu.empty".toList view.slot "Nothing here".toList, "/font".toList⟩,
      ⟨[], "br".toList⟩]
  else (places first (min menu.items.length (first + centerHtmlRowsPerPage))).flatMap fun i =>
    rowSegments (describe i) (i = view.selectedIndex)

def menuSegments (menu : Menu Item) (view : CenterHtmlView) (translations : Translations) :
    List Segment :=
  match view.describe with
  | none => []
  | some describe =>
      headerSegments ⟨menu.title, menu.subtitle, view.breadcrumb, currentPage menu view,
        pageCount menu.items.length centerHtmlRowsPerPage⟩ ++
      rowsSegments menu view describe translations

def overlaySegments (menuTitle prompt : Text) : List Segment :=
  [⟨[], fontTag Theme.gold⟩, ⟨[], "b".toList⟩, ⟨menuTitle, "/b".toList⟩, ⟨[], "/font".toList⟩,
    ⟨[], "br".toList⟩, ⟨[], fontTag Theme.warmWhite⟩, ⟨prompt, "/font".toList⟩, ⟨[], "br".toList⟩,
    ⟨[], smallTag Theme.warmGray⟩, ⟨"Type your answer in chat".toList, "/font".toList⟩,
    ⟨[], "br".toList⟩, ⟨[], "font class='fontSize-s'".toList⟩, ⟨[], fontTag Theme.navClose⟩,
    ⟨"[R]".toList, "/font".toList⟩, ⟨" ".toList, fontTag Theme.warmGray⟩,
    ⟨"Cancel".toList, "/font".toList⟩, ⟨[], "/font".toList⟩]

end Layout

section Escape

theorem escapeHtml_append (first second : Text) :
    escapeHtml (first ++ second) = escapeHtml first ++ escapeHtml second := List.flatMap_append

theorem escapeChar_cases (c : Char) :
    escapeChar c = [c] ∧ special c = false ∨ (escapeChar c, c) ∈ entities := by
  by_cases harmless : special c = false
  · refine .inl ⟨?_, harmless⟩
    simp only [special, entities, List.any_cons, List.any_nil, Bool.or_false, Bool.or_eq_false_iff,
      decide_eq_false_iff_not] at harmless
    obtain ⟨amp, lt, gt, quot, apostrophe⟩ := harmless
    unfold escapeChar
    split
    · exact absurd rfl amp
    · exact absurd rfl lt
    · exact absurd rfl gt
    · exact absurd rfl quot
    · exact absurd rfl apostrophe
    · rfl
  · refine .inr ?_
    simp only [special, entities, List.any_cons, List.any_nil, Bool.or_false, Bool.not_eq_false,
      Bool.or_eq_true, decide_eq_true_eq] at harmless
    obtain rfl | rfl | rfl | rfl | rfl := harmless <;> decide

theorem escapeHtml_escaped (text : Text) : Escaped (escapeHtml text) := by
  induction text with
  | nil => exact .nil
  | cons c rest ih =>
      rw [escapeHtml, List.flatMap_cons]
      obtain ⟨same, harmless⟩ | known := escapeChar_cases c
      · rw [same]
        exact .plain harmless ih
      · exact .entity known ih

theorem unescape_escapeHtml (text : Text) : unescape (escapeHtml text) = text := by
  induction text with
  | nil => rfl
  | cons c rest ih =>
      rw [escapeHtml, List.flatMap_cons]
      obtain ⟨same, harmless⟩ | known := escapeChar_cases c
      · rw [same, List.singleton_append, unescape_plain, ← escapeHtml, ih]
        rintro rfl
        cases harmless
      · rw [unescape_entity known, ← escapeHtml, ih]

theorem escapeHtml_harmless {text : Text} (harmless : ∀ c ∈ text, special c = false) :
    escapeHtml text = text := by
  induction text with
  | nil => rfl
  | cons c rest ih =>
      rw [escapeHtml, List.flatMap_cons, ← escapeHtml,
        ih fun other member => harmless other (List.mem_cons_of_mem _ member)]
      obtain ⟨same, _⟩ | known := escapeChar_cases c
      · rw [same, List.singleton_append]
      · have one := harmless c List.mem_cons_self
        rw [special, List.any_eq_false] at one
        exact absurd (decide_eq_true rfl) (one _ known)

end Escape

section Spelled

def escaped (segment : Segment) : Segment := ⟨escapeHtml segment.text, segment.tag⟩

theorem digit_harmless {c : Char} (isDigit : c.isDigit = true) : special c = false := by
  cases harmful : special c with
  | false => rfl
  | true =>
      simp only [special, entities, List.any_cons, List.any_nil, Bool.or_false, Bool.or_eq_true,
        decide_eq_true_eq] at harmful
      obtain rfl | rfl | rfl | rfl | rfl := harmful <;> cases isDigit

theorem number_harmless (n : Int) : escapeHtml (toString n).toList = (toString n).toList := by
  have digits : ∀ m : Nat, ∀ c ∈ (toString m).toList, special c = false := by
    intro m c member
    refine digit_harmless (@Nat.isDigit_of_mem_toDigits 10 m c (by decide) (Nat.le_refl 10) ?_)
    simpa [toString, Nat.repr] using member
  refine escapeHtml_harmless fun c member => ?_
  cases n with
  | ofNat m => exact digits m c member
  | negSucc m =>
      rw [show toString (Int.negSucc m) = "-" ++ toString (m + 1) from rfl, String.toList_append,
        List.mem_append] at member
      rcases member with minus | rest
      · cases List.mem_singleton.mp minus
        rfl
      · exact digits (m + 1) c rest

theorem fontTag_closed (color : Text) :
    '<' :: fontTag color ++ ['>'] = "<font color='".toList ++ (color ++ "'>".toList) := by
  have opens : "<font color='".toList = '<' :: "font color='".toList := rfl
  have closes : "'>".toList = "'".toList ++ ['>'] := rfl
  rw [opens, closes]
  delta fontTag
  simp only [List.append_assoc, List.cons_append]

theorem smallTag_closed (color : Text) : '<' :: smallTag color ++ ['>'] =
    "<font class='fontSize-s' color='".toList ++ (color ++ "'>".toList) := by
  have opens : "<font class='fontSize-s' color='".toList =
    '<' :: "font class='fontSize-s' color='".toList := rfl
  have closes : "'>".toList = "'".toList ++ ['>'] := rfl
  rw [opens, closes]
  delta smallTag
  simp only [List.append_assoc, List.cons_append]

theorem plainTags_closed : '<' :: "b".toList ++ ['>'] = "<b>".toList ∧
    '<' :: "/b".toList ++ ['>'] = "</b>".toList ∧
    '<' :: "/font".toList ++ ['>'] = "</font>".toList ∧
    '<' :: "br".toList ++ ['>'] = "<br>".toList ∧
    '<' :: "font class='fontSize-s'".toList ++ ['>'] = "<font class='fontSize-s'>".toList :=
  ⟨rfl, rfl, rfl, rfl, rfl⟩

theorem spelled_cons (text tag : Text) (rest : List Segment) :
    spell ((⟨text, tag⟩ :: rest).map escaped) =
      escapeHtml text ++ (('<' :: tag ++ ['>']) ++ spell (rest.map escaped)) := by
  simp [spell, escaped, Segment.spell]

theorem spelled_nil (text : Text) : text ++ spell (([] : List Segment).map escaped) = text :=
  List.append_nil text

theorem none_before (text : Text) : escapeHtml [] ++ text = text := by simp [escapeHtml]

theorem spelled_none_or (absent : Prop) [Decidable absent] (segments : List Segment) :
    spell ((if absent then [] else segments).map escaped) =
      if absent then [] else spell (segments.map escaped) := by
  split
  · rfl
  · rfl

theorem spelled_or_none (present : Prop) [Decidable present] (segments : List Segment) :
    spell ((if present then segments else []).map escaped) =
      if present then spell (segments.map escaped) else [] := by
  split
  · rfl
  · rfl

theorem spell_append (first second : List Segment) :
    spell (first ++ second) = spell first ++ spell second := List.flatMap_append

theorem renderHeader_spelled (header : CenterHtmlHeader) :
    renderHeader header = spell ((headerSegments header).map escaped) := by
  obtain ⟨bold, boldEnd, fontEnd, br, _⟩ := plainTags_closed
  have arrow : escapeHtml " › ".toList = " › ".toList := rfl
  have blank : escapeHtml " ".toList = " ".toList := rfl
  have opens : escapeHtml "(".toList = "(".toList := rfl
  have slash : escapeHtml "/".toList = "/".toList := rfl
  have closes : escapeHtml ")".toList = ")".toList := rfl
  have crumbEnd : " › </font>".toList = " › ".toList ++ "</font>".toList := rfl
  have titleStart : "'><b>".toList = "'>".toList ++ "<b>".toList := rfl
  have titleEnd : "</b></font>".toList = "</b>".toList ++ "</font>".toList := rfl
  have smallStart : " <font class='fontSize-s' color='".toList =
    " ".toList ++ "<font class='fontSize-s' color='".toList := rfl
  have pageStart : "'>(".toList = "'>".toList ++ "(".toList := rfl
  have pageEnd : ")</font>".toList = ")".toList ++ "</font>".toList := rfl
  rw [renderHeader, headerSegments]
  simp only [List.map_append, spell_append, spelled_none_or, spelled_or_none, spelled_cons,
    spelled_nil, escapeHtml_append, none_before, arrow, blank, opens, slash, closes,
    number_harmless, fontTag_closed, smallTag_closed, bold, boldEnd, fontEnd, br, crumbEnd,
    titleStart, titleEnd, smallStart, pageStart, pageEnd, List.append_assoc]

/-- A row's line is escaped as a whole, its decoration with it. -/
theorem rowText_plain (row : MenuRow) : rowText row = escapeHtml (rowPlain row) := by
  have dots : escapeHtml "…".toList = "…".toList := rfl
  have opens : escapeHtml "[".toList = "[".toList := rfl
  have closes : escapeHtml "]".toList = "]".toList := rfl
  have less : escapeHtml "< ".toList = "&lt; ".toList := rfl
  have greater : escapeHtml " >".toList = " &gt;".toList := rfl
  have colon : escapeHtml ": ".toList = ": ".toList := rfl
  have star : escapeHtml " *".toList = " *".toList := rfl
  have value : (if row.pending then escapeHtml row.value ++ "…".toList
      else escapeHtml row.value) =
        escapeHtml (row.value ++ if row.pending then "…".toList else []) := by
    rw [escapeHtml_append]
    split
    · rw [dots]
    · exact (List.append_nil _).symm
  have last : ∀ text : Text, (if row.changed then escapeHtml text ++ " *".toList
      else escapeHtml text) = escapeHtml (text ++ if row.changed then " *".toList else []) := by
    intro text
    rw [escapeHtml_append]
    split
    · rw [star]
    · exact (List.append_nil _).symm
  rw [rowText, rowPlain]
  split
  · rfl
  · simp only [value]
    rw [← last]
    cases row.kind with
    | toggle => simp only [escapeHtml_append, opens, closes, colon, List.append_assoc]
    | choice => simp only [escapeHtml_append, less, greater, colon, List.append_assoc]
    | _ => simp only [escapeHtml_append, colon, List.append_assoc]

theorem line_spelled (row : MenuRow) (atCursor : Bool) :
    (if row.enabled = false then
      "<font color='".toList ++ Theme.disabled ++ "'>- ".toList ++ rowText row ++
        "</font><br>".toList
    else if row.selectable = false then
      "<font color='".toList ++ Theme.warmGray ++ "'>".toList ++ rowText row ++
        "</font><br>".toList
    else if atCursor then
      "<font color='".toList ++ Theme.amber ++ "'><b>&gt; ".toList ++ rowText row ++
        "</b></font><br>".toList
    else
      "<font color='".toList ++ Theme.warmWhite ++ "'>  ".toList ++ rowText row ++
        "</font><br>".toList) = spell ((rowSegments row atCursor).map escaped) := by
  obtain ⟨bold, boldEnd, fontEnd, br, _⟩ := plainTags_closed
  have dash : escapeHtml "- ".toList = "- ".toList := rfl
  have mark : escapeHtml "> ".toList = "&gt; ".toList := rfl
  have indent : escapeHtml "  ".toList = "  ".toList := rfl
  have dashStart : "'>- ".toList = "'>".toList ++ "- ".toList := rfl
  have markStart : "'><b>&gt; ".toList = "'>".toList ++ ("<b>".toList ++ "&gt; ".toList) := rfl
  have indentStart : "'>  ".toList = "'>".toList ++ "  ".toList := rfl
  have lineEnd : "</font><br>".toList = "</font>".toList ++ "<br>".toList := rfl
  have boldLineEnd : "</b></font><br>".toList =
    "</b>".toList ++ ("</font>".toList ++ "<br>".toList) := rfl
  rw [rowText_plain, rowSegments]
  split
  · simp only [spelled_cons, spelled_nil, none_before, escapeHtml_append, fontTag_closed, dash,
      fontEnd, br, dashStart, lineEnd, List.append_assoc]
  · split
    · simp only [spelled_cons, spelled_nil, none_before, fontTag_closed, fontEnd, br, lineEnd,
        List.append_assoc]
    · split
      · simp only [spelled_cons, spelled_nil, none_before, escapeHtml_append, fontTag_closed, mark,
          bold, boldEnd, fontEnd, br, markStart, boldLineEnd, List.append_assoc]
      · simp only [spelled_cons, spelled_nil, none_before, escapeHtml_append, fontTag_closed,
          indent, fontEnd, br, indentStart, lineEnd, List.append_assoc]

theorem items_spelled (describe : Int → MenuRow) (selectedIndex : Int) (rows : List Int)
    (done : Text × MenuRow) : (rows.foldl (renderItem describe selectedIndex) done).1 =
      done.1 ++ spell ((rows.flatMap fun i =>
        rowSegments (describe i) (i = selectedIndex)).map escaped) := by
  induction rows generalizing done with
  | nil => exact (List.append_nil _).symm
  | cons i rest ih =>
      have line := line_spelled (describe i) (i = selectedIndex)
      simp only [decide_eq_true_eq] at line
      rw [List.foldl_cons, ih, List.flatMap_cons, List.map_append, spell_append, ← line,
        ← List.append_assoc]
      rfl

variable {Item : Type}

theorem renderRows_spelled (menu : Menu Item) (view : CenterHtmlView) (describe : Int → MenuRow)
    (translations : Translations) : (renderRows menu view describe translations).1 =
      spell ((rowsSegments menu view describe translations).map escaped) := by
  obtain ⟨_, _, fontEnd, br, _⟩ := plainTags_closed
  have lineEnd : "</font><br>".toList = "</font>".toList ++ "<br>".toList := rfl
  rw [renderRows, rowsSegments]
  by_cases none : menu.items.length = 0
  · simp only [none, Int.natCast_zero, if_true, spelled_cons, spelled_nil, none_before,
      fontTag_closed, fontEnd, br, lineEnd, List.append_assoc]
  · have some : (menu.items.length : Int) ≠ 0 := by omega
    simp only [if_neg none, if_neg some]
    exact items_spelled describe view.selectedIndex _ _

/-- The part of a menu that none of its texts is in. -/
def menuFooter (menu : Menu Item) (view : CenterHtmlView) (translations : Translations) : Text :=
  match view.describe with
  | none => []
  | some describe =>
      let selected := (renderRows menu view describe translations).2
      renderFooter view.isSubmenu (1 < pageCount menu.items.length centerHtmlRowsPerPage)
        (selected.enabled && selected.steppable) view.slot translations

theorem renderMenuHtml_spelled (menu : Menu Item) (view : CenterHtmlView)
    (translations : Translations) : renderMenuHtml (some menu) view translations =
      spell ((menuSegments menu view translations).map escaped) ++
        menuFooter menu view translations := by
  cases described : view.describe with
  | none =>
      simp only [renderMenuHtml, menuSegments, menuFooter, described]
      rfl
  | some describe =>
      simp only [renderMenuHtml, menuSegments, menuFooter, described, List.map_append,
        spell_append, ← renderHeader_spelled, ← renderRows_spelled]

theorem renderCaptureOverlay_spelled (menuTitle prompt : Text) :
    renderCaptureOverlay menuTitle prompt =
      spell ((overlaySegments menuTitle prompt).map escaped) := by
  obtain ⟨bold, boldEnd, fontEnd, br, small⟩ := plainTags_closed
  have titleStart : "'><b>".toList = "'>".toList ++ "<b>".toList := rfl
  have titleEnd : "</b></font><br>".toList =
    "</b>".toList ++ ("</font>".toList ++ "<br>".toList) := rfl
  have lineEnd : "</font><br>".toList = "</font>".toList ++ "<br>".toList := rfl
  have hint : "'>Type your answer in chat</font><br>".toList = "'>".toList ++
    ("Type your answer in chat".toList ++ ("</font>".toList ++ "<br>".toList)) := rfl
  have key : "'>[R]</font> ".toList =
    "'>".toList ++ ("[R]".toList ++ ("</font>".toList ++ " ".toList)) := rfl
  have cancel : "'>Cancel</font>".toList =
    "'>".toList ++ ("Cancel".toList ++ "</font>".toList) := rfl
  have escapedHint : escapeHtml "Type your answer in chat".toList =
    "Type your answer in chat".toList := rfl
  have escapedKey : escapeHtml "[R]".toList = "[R]".toList := rfl
  have escapedBlank : escapeHtml " ".toList = " ".toList := rfl
  have escapedCancel : escapeHtml "Cancel".toList = "Cancel".toList := rfl
  delta renderCaptureOverlay overlaySegments
  simp only [spelled_cons, spelled_nil, none_before, fontTag_closed, smallTag_closed, bold,
    boldEnd, fontEnd, br, small, titleStart, titleEnd, lineEnd, hint, key, cancel, escapedHint,
    escapedKey, escapedBlank, escapedCancel, List.append_assoc]

end Spelled

section Alike

/-- The same row up to its texts. -/
structure AlikeRow (row other : MenuRow) : Prop where
  value : row.value = [] ↔ other.value = []
  kind : row.kind = other.kind
  enabled : row.enabled = other.enabled
  selectable : row.selectable = other.selectable
  steppable : row.steppable = other.steppable
  pending : row.pending = other.pending
  changed : row.changed = other.changed

/-- The same menu up to its texts, shown to a player in the same way. -/
structure Alike {Item : Type} (menu : Menu Item) (view : CenterHtmlView) (other : Menu Item)
    (otherView : CenterHtmlView) : Prop where
  items : menu.items.length = other.items.length
  subtitle : menu.subtitle = [] ↔ other.subtitle = []
  breadcrumb : view.breadcrumb = [] ↔ otherView.breadcrumb = []
  describe : Option.Rel (fun one two => ∀ i, AlikeRow (one i) (two i)) view.describe
    otherView.describe
  slot : view.slot = otherView.slot
  selectedIndex : view.selectedIndex = otherView.selectedIndex
  isSubmenu : view.isSubmenu = otherView.isSubmenu

theorem row_tags {row other : MenuRow} (alike : AlikeRow row other) (atCursor : Bool) :
    (rowSegments row atCursor).map (·.tag) = (rowSegments other atCursor).map (·.tag) := by
  rw [rowSegments, rowSegments, alike.enabled, alike.selectable]
  split
  · rfl
  · split
    · rfl
    · split
      · rfl
      · rfl

theorem items_alike {one two : Int → MenuRow} (alike : ∀ i, AlikeRow (one i) (two i))
    (selectedIndex : Int) (rows : List Int) {done other : Text × MenuRow}
    (start : AlikeRow done.2 other.2) :
    AlikeRow (rows.foldl (renderItem one selectedIndex) done).2
      (rows.foldl (renderItem two selectedIndex) other).2 := by
  induction rows generalizing done other with
  | nil => exact start
  | cons i rest ih =>
      refine ih ?_
      simp only [renderItem]
      split
      · exact alike i
      · exact start

variable {Item : Type} {menu other : Menu Item} {view otherView : CenterHtmlView}

theorem header_tags {header second : CenterHtmlHeader}
    (subtitle : header.subtitle = [] ↔ second.subtitle = [])
    (breadcrumb : header.breadcrumb = [] ↔ second.breadcrumb = [])
    (pages : header.pages = second.pages) :
    (headerSegments header).map (·.tag) = (headerSegments second).map (·.tag) := by
  rw [headerSegments, headerSegments, pages]
  simp only [List.map_append, subtitle, breadcrumb, apply_ite (List.map _)]
  rfl

theorem page_alike (alike : Alike menu view other otherView) :
    currentPage menu view = currentPage other otherView := by
  rw [currentPage, currentPage, alike.items, alike.selectedIndex]

theorem rows_tags (alike : Alike menu view other otherView) {one two : Int → MenuRow}
    (rows : ∀ i, AlikeRow (one i) (two i)) (translations : Translations) :
    (rowsSegments menu view one translations).map (·.tag) =
      (rowsSegments other otherView two translations).map (·.tag) := by
  rw [rowsSegments, rowsSegments, page_alike alike, alike.items, alike.selectedIndex]
  split
  · rfl
  · simp only [List.map_flatMap]
    congr 1
    funext i
    exact row_tags (rows i) _

theorem menu_tags (alike : Alike menu view other otherView) (translations : Translations) :
    (menuSegments menu view translations).map (·.tag) =
      (menuSegments other otherView translations).map (·.tag) := by
  have related := alike.describe
  rw [menuSegments, menuSegments]
  generalize view.describe = one at related
  generalize otherView.describe = two at related
  cases related with
  | none => rfl
  | some rows =>
      simp only [List.map_append]
      refine congrArg₂ (· ++ ·) (header_tags alike.subtitle alike.breadcrumb ?_)
        (rows_tags alike rows translations)
      simp only [alike.items]

theorem selected_alike (alike : Alike menu view other otherView) {one two : Int → MenuRow}
    (rows : ∀ i, AlikeRow (one i) (two i)) (translations : Translations) :
    AlikeRow (renderRows menu view one translations).2
      (renderRows other otherView two translations).2 := by
  have blank : AlikeRow { enabled := false } { enabled := false } :=
    ⟨Iff.rfl, rfl, rfl, rfl, rfl, rfl, rfl⟩
  rw [renderRows, renderRows, page_alike alike, alike.items, alike.selectedIndex]
  split
  · exact blank
  · exact items_alike rows _ _ blank

theorem footer_alike (alike : Alike menu view other otherView) (translations : Translations) :
    menuFooter menu view translations = menuFooter other otherView translations := by
  have related := alike.describe
  rw [menuFooter, menuFooter]
  generalize view.describe = one at related
  generalize otherView.describe = two at related
  cases related with
  | none => rfl
  | some rows =>
      have selected := selected_alike alike rows translations
      simp only [alike.isSubmenu, alike.items, alike.slot, selected.enabled, selected.steppable]

end Alike

section Inert

/-- Everything up to `behind` is plain texts between tags, each escaped in one way. -/
def Kept (html : Text) (plain behind : List Text) : Prop :=
  ∃ runs, texts html = runs ++ behind ∧ (∀ run ∈ runs, Escaped run) ∧ runs.map unescape = plain

/-- What the tags of segments have none of. -/
def Clean (segments : List Segment) : Prop := ∀ segment ∈ segments, '>' ∉ segment.tag

theorem Clean.append {first second : List Segment} (one : Clean first) (other : Clean second) :
    Clean (first ++ second) := by
  intro segment member
  rcases List.mem_append.mp member with inside | behind
  · exact one segment inside
  · exact other segment behind

theorem Clean.cons {segment : Segment} {rest : List Segment} (tag : '>' ∉ segment.tag)
    (clean : Clean rest) : Clean (segment :: rest) := by
  intro other member
  rcases List.mem_cons.mp member with rfl | behind
  · exact tag
  · exact clean other behind

theorem Clean.nil : Clean [] := nofun

/-- The tags there are. -/
theorem tags_calm : '>' ∉ "b".toList ∧ '>' ∉ "/b".toList ∧ '>' ∉ "/font".toList ∧
    '>' ∉ "br".toList ∧ '>' ∉ "font class='fontSize-s'".toList ∧
    (∀ color ∈ [Theme.gold, Theme.amber, Theme.warmWhite, Theme.warmGray, Theme.disabled,
      Theme.navClose], '>' ∉ fontTag color) ∧ '>' ∉ smallTag Theme.warmGray := by decide +kernel

theorem header_clean (header : CenterHtmlHeader) : Clean (headerSegments header) := by
  obtain ⟨bold, boldEnd, fontEnd, br, _, font, small⟩ := tags_calm
  rw [headerSegments]
  refine ((((Clean.append ?_ ?_).append ?_).append ?_).append ?_)
  · split
    · exact .nil
    · exact .cons small (.cons fontEnd .nil)
  · exact .cons (font _ (by simp)) (.cons bold (.cons boldEnd (.cons fontEnd .nil)))
  · split
    · exact .nil
    · exact .cons small (.cons fontEnd .nil)
  · split
    · exact .cons small (.cons fontEnd .nil)
    · exact .nil
  · exact .cons br .nil

theorem row_clean (row : MenuRow) (atCursor : Bool) : Clean (rowSegments row atCursor) := by
  obtain ⟨bold, boldEnd, fontEnd, br, _, font, _⟩ := tags_calm
  rw [rowSegments]
  split
  · exact .cons (font _ (by simp)) (.cons fontEnd (.cons br .nil))
  · split
    · exact .cons (font _ (by simp)) (.cons fontEnd (.cons br .nil))
    · split
      · exact .cons (font _ (by simp))
          (.cons bold (.cons boldEnd (.cons fontEnd (.cons br .nil))))
      · exact .cons (font _ (by simp)) (.cons fontEnd (.cons br .nil))

theorem menu_clean {Item : Type} (menu : Menu Item) (view : CenterHtmlView)
    (translations : Translations) : Clean (menuSegments menu view translations) := by
  obtain ⟨_, _, fontEnd, br, _, font, _⟩ := tags_calm
  rw [menuSegments]
  split
  · exact .nil
  · refine (header_clean _).append ?_
    rw [rowsSegments]
    split
    · exact .cons (font _ (by simp)) (.cons fontEnd (.cons br .nil))
    · intro segment member
      obtain ⟨i, _, inside⟩ := List.mem_flatMap.mp member
      exact row_clean _ _ segment inside

theorem overlay_clean (menuTitle prompt : Text) : Clean (overlaySegments menuTitle prompt) := by
  obtain ⟨bold, boldEnd, fontEnd, br, plain, font, small⟩ := tags_calm
  have gold := font Theme.gold (by simp)
  have white := font Theme.warmWhite (by simp)
  have gray := font Theme.warmGray (by simp)
  have red := font Theme.navClose (by simp)
  exact .cons gold (.cons bold (.cons boldEnd (.cons fontEnd (.cons br (.cons white
    (.cons fontEnd (.cons br (.cons small (.cons fontEnd (.cons br (.cons plain (.cons red
      (.cons fontEnd (.cons gray (.cons fontEnd (.cons fontEnd .nil))))))))))))))))

theorem escaped_sound {segments : List Segment} (clean : Clean segments) :
    ∀ segment ∈ segments.map escaped, segment.Sound := by
  intro segment member
  obtain ⟨plain, inside, rfl⟩ := List.mem_map.mp member
  exact ⟨escaped_calm (escapeHtml_escaped plain.text), clean plain inside⟩

theorem spelled_tags {segments : List Segment} (clean : Clean segments) (rest : Text) :
    tags (spell (segments.map escaped) ++ rest) = segments.map (·.tag) ++ tags rest := by
  rw [tags_spell (escaped_sound clean), List.map_map]
  rfl

theorem spelled_kept {segments : List Segment} (clean : Clean segments) (rest : Text) :
    Kept (spell (segments.map escaped) ++ rest) (segments.map (·.text)) (texts rest) := by
  refine ⟨segments.map fun segment => escapeHtml segment.text, ?_, ?_, ?_⟩
  · rw [texts_spell (escaped_sound clean), List.map_map]
    rfl
  · intro run member
    obtain ⟨segment, _, rfl⟩ := List.mem_map.mp member
    exact escapeHtml_escaped segment.text
  · rw [List.map_map]
    exact List.map_congr_left fun segment _ => unescape_escapeHtml segment.text

end Inert

/-- What the menus and the overlays say changes none of their tags, and each text stands between
the tags it belongs between, escaped once. -/
theorem texts_inert {Item : Type} (translations : Translations) {menu other : Menu Item}
    {view otherView : CenterHtmlView} (alike : Alike menu view other otherView)
    (title otherTitle prompt otherPrompt : Text) :
    tags (renderMenuHtml (some menu) view translations) =
        tags (renderMenuHtml (some other) otherView translations) ∧
      tags (renderCaptureOverlay title prompt) =
        tags (renderCaptureOverlay otherTitle otherPrompt) ∧
      (∃ behind,
        Kept (renderMenuHtml (some menu) view translations)
          ((menuSegments menu view translations).map (·.text)) behind ∧
        Kept (renderMenuHtml (some other) otherView translations)
          ((menuSegments other otherView translations).map (·.text)) behind) ∧
      Kept (renderCaptureOverlay title prompt) ((overlaySegments title prompt).map (·.text))
        [[]] := by
  refine ⟨?_, ?_, ⟨texts (menuFooter menu view translations), ?_, ?_⟩, ?_⟩
  · rw [renderMenuHtml_spelled, renderMenuHtml_spelled, spelled_tags (menu_clean _ _ _),
      spelled_tags (menu_clean _ _ _), menu_tags alike, footer_alike alike]
  · have one := spelled_tags (overlay_clean title prompt) []
    have two := spelled_tags (overlay_clean otherTitle otherPrompt) []
    rw [List.append_nil, ← renderCaptureOverlay_spelled] at one two
    rw [one, two]
    rfl
  · rw [renderMenuHtml_spelled]
    exact spelled_kept (menu_clean _ _ _) _
  · rw [renderMenuHtml_spelled, footer_alike alike]
    exact spelled_kept (menu_clean _ _ _) _
  · have kept := spelled_kept (overlay_clean title prompt) []
    rw [List.append_nil, ← renderCaptureOverlay_spelled] at kept
    exact kept

/-- A menu of one switch. -/
def switchMenu (title : String) : Menu Unit := ⟨title.toList, [], [()]⟩

def switchView (label value : String) : CenterHtmlView where
  describe := some fun _ =>
    { label := label.toList, value := value.toList, kind := .toggle, changed := true }
  breadcrumb := "Main".toList

def fallbacks : Translations := fun _ _ fallback => fallback

theorem hostile_label :
    tags (renderMenuHtml (some (switchMenu "Name")) (switchView "God" "ON") fallbacks) =
      tags (renderMenuHtml (some (switchMenu "</b>'")) (switchView "<img src=\"x\">" "&gt;")
        fallbacks) := by
  have alike : Alike (switchMenu "Name") (switchView "God" "ON") (switchMenu "</b>'")
      (switchView "<img src=\"x\">" "&gt;") := by
    constructor
    case items => rfl
    case subtitle => exact Iff.rfl
    case breadcrumb => exact Iff.rfl
    case describe => exact .some fun _ => ⟨by simp, rfl, rfl, rfl, rfl, rfl, rfl⟩
    case slot => rfl
    case selectedIndex => rfl
    case isSubmenu => rfl
  exact (texts_inert fallbacks alike [] [] [] []).1

end VoltMod.CenterHtmlRender
