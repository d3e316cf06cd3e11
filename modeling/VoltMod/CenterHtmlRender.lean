import VoltMod.Decimals
import VoltMod.Markup

/-!
Menu/CenterHtmlRender.cpp: a menu as center HTML. `Translations` is what GetOr answers for a
key, a slot and a fallback. A row's icon and state are left out, the renderer reads neither.
-/

namespace VoltMod.CenterHtmlRender
open MigrationText (Text)
open Markup

namespace Theme

def gold : Text := "#FFD700".toList
def amber : Text := "#FF8C00".toList
def warmWhite : Text := "#CCBBAA".toList
def warmGray : Text := "#887755".toList
def disabled : Text := "#665544".toList
def navGold : Text := "#AA8833".toList
def navClose : Text := "#AA4422".toList
def navBack : Text := "#AA8833".toList

end Theme

inductive MenuRowKind where
  | text | button | submenu | toggle | choice | input
  deriving DecidableEq, Repr

structure MenuRow where
  label : Text := []
  value : Text := []
  kind : MenuRowKind := .button
  enabled : Bool := true
  selectable : Bool := true
  steppable : Bool := false
  pending : Bool := false
  changed : Bool := false
  deriving DecidableEq, Repr

structure Menu (Item : Type) where
  title : Text
  subtitle : Text
  items : List Item

structure CenterHtmlHeader where
  title : Text
  subtitle : Text
  breadcrumb : Text
  page : Int := 0
  pages : Int := 1

/-- `describe` is missing where the std::function is empty. -/
structure CenterHtmlView where
  describe : Option (Int → MenuRow)
  breadcrumb : Text
  slot : Int := 0
  selectedIndex : Int := 0
  isSubmenu : Bool := false

abbrev Translations := Text → Int → Text → Text

def centerHtmlRowsPerPage : Int := 5

def pageCount (items perPage : Int) : Int :=
  if items ≤ 0 then 1 else (items + perPage - 1).tdiv perPage

section Source

def escapeChar (c : Char) : Text :=
  match c with
  | '&' => "&amp;".toList
  | '<' => "&lt;".toList
  | '>' => "&gt;".toList
  | '"' => "&quot;".toList
  | '\'' => "&#39;".toList
  | c => [c]

def escapeHtml (text : Text) : Text := text.flatMap escapeChar

def renderHeader (header : CenterHtmlHeader) : Text :=
  (if header.breadcrumb = [] then []
    else "<font class='fontSize-s' color='".toList ++ Theme.warmGray ++ "'>".toList ++
      escapeHtml header.breadcrumb ++ " › </font>".toList) ++
  "<font color='".toList ++ Theme.gold ++ "'><b>".toList ++ escapeHtml header.title ++
    "</b></font>".toList ++
  (if header.subtitle = [] then []
    else " <font class='fontSize-s' color='".toList ++ Theme.warmGray ++ "'>".toList ++
      escapeHtml header.subtitle ++ "</font>".toList) ++
  (if 1 < header.pages then
      " <font class='fontSize-s' color='".toList ++ Theme.warmGray ++ "'>(".toList ++
        (toString (header.page + 1)).toList ++ "/".toList ++ (toString header.pages).toList ++
          ")</font>".toList
    else []) ++
  "<br>".toList

def footerChunk (keyColor keyText label : Text) : Text :=
  "<font color='".toList ++ keyColor ++ "'>".toList ++ keyText ++ "</font> ".toList ++
    "<font color='".toList ++ Theme.warmGray ++ "'>".toList ++ label ++ "</font>".toList

def renderFooter (isSubmenu isPaginated selectedRowSteps : Bool) (slot : Int)
    (translations : Translations) : Text :=
  let label := fun (key fallback : String) => translations key.toList slot fallback.toList
  let closeColor := if isSubmenu then Theme.navBack else Theme.navClose
  let closeLabel := if isSubmenu then label "nav.back" "Back" else label "nav.close" "Close"
  let hasStepHint := selectedRowSteps || isPaginated
  let row1 := footerChunk Theme.navGold "[W/S]".toList (label "nav.navigate" "Navigate") ++
    (if selectedRowSteps then
        " · ".toList ++ footerChunk Theme.navGold "[A/D]".toList (label "nav.change" "Change")
      else if isPaginated then
        " · ".toList ++ footerChunk Theme.navGold "[A/D]".toList (label "nav.page" "Page")
      else []) ++
    " · ".toList ++ footerChunk Theme.gold "[E]".toList
      (if selectedRowSteps then label "nav.confirm" "Confirm" else label "nav.select" "Select")
  let closeChunk := footerChunk closeColor "[R]".toList closeLabel
  "<font class='fontSize-s'>".toList ++ row1 ++
    (if hasStepHint then "<br>".toList ++ closeChunk else " · ".toList ++ closeChunk) ++
      "</font>".toList

def rowText (row : MenuRow) : Text :=
  let text := escapeHtml row.label
  if row.value = [] then text
  else
    let value := escapeHtml row.value
    let value := if row.pending then value ++ "…".toList else value
    let value := match row.kind with
      | .toggle => "[".toList ++ value ++ "]".toList
      | .choice => "&lt; ".toList ++ value ++ " &gt;".toList
      | _ => value
    let text := text ++ (": ".toList ++ value)
    if row.changed then text ++ " *".toList else text

/-- One turn of the loop: the row's markup, and the cursor's row when this is it. -/
def renderItem (describe : Int → MenuRow) (selectedIndex : Int) (done : Text × MenuRow)
    (i : Int) : Text × MenuRow :=
  let row := describe i
  let selected := if i = selectedIndex then row else done.2
  let title := rowText row
  let line :=
    if row.enabled = false then
      "<font color='".toList ++ Theme.disabled ++ "'>- ".toList ++ title ++ "</font><br>".toList
    else if row.selectable = false then
      "<font color='".toList ++ Theme.warmGray ++ "'>".toList ++ title ++ "</font><br>".toList
    else if i = selectedIndex then
      "<font color='".toList ++ Theme.amber ++ "'><b>&gt; ".toList ++ title ++
        "</b></font><br>".toList
    else
      "<font color='".toList ++ Theme.warmWhite ++ "'>  ".toList ++ title ++ "</font><br>".toList
  (done.1 ++ line, selected)

/-- The places from `first` up to `last`. -/
def places (first last : Int) : List Int :=
  (List.range (last - first).toNat).map fun offset => first + offset

def renderItems (describe : Int → MenuRow) (selectedIndex pageStart pageEnd : Int)
    (selected : MenuRow) : Text × MenuRow :=
  (places pageStart pageEnd).foldl (renderItem describe selectedIndex) ([], selected)

variable {Item : Type}

def currentPage (menu : Menu Item) (view : CenterHtmlView) : Int :=
  if menu.items.length = 0 then 0 else view.selectedIndex.tdiv centerHtmlRowsPerPage

/-- The rows of the page, or the line of an empty menu. -/
def renderRows (menu : Menu Item) (view : CenterHtmlView) (describe : Int → MenuRow)
    (translations : Translations) : Text × MenuRow :=
  let itemCount : Int := menu.items.length
  let pageStart := currentPage menu view * centerHtmlRowsPerPage
  let pageEnd := min itemCount (pageStart + centerHtmlRowsPerPage)
  let selected : MenuRow := { enabled := false }
  if itemCount = 0 then
    let empty := translations "menu.empty".toList view.slot "Nothing here".toList
    ("<font color='".toList ++ Theme.warmGray ++ "'>".toList ++ escapeHtml empty ++
      "</font><br>".toList, selected)
  else renderItems describe view.selectedIndex pageStart pageEnd selected

def renderMenuHtml (menu : Option (Menu Item)) (view : CenterHtmlView)
    (translations : Translations) : Text :=
  match menu, view.describe with
  | some menu, some describe =>
      let totalPages := pageCount menu.items.length centerHtmlRowsPerPage
      let (items, selected) := renderRows menu view describe translations
      renderHeader ⟨menu.title, menu.subtitle, view.breadcrumb, currentPage menu view, totalPages⟩ ++
        items ++ renderFooter view.isSubmenu (1 < totalPages) (selected.enabled && selected.steppable)
          view.slot translations
  | _, _ => []

def renderCaptureOverlay (menuTitle prompt : Text) : Text :=
  "<font color='".toList ++ Theme.gold ++ "'><b>".toList ++ escapeHtml menuTitle ++
      "</b></font><br>".toList ++
    "<font color='".toList ++ Theme.warmWhite ++ "'>".toList ++ escapeHtml prompt ++
      "</font><br>".toList ++
    "<font class='fontSize-s' color='".toList ++ Theme.warmGray ++
      "'>Type your answer in chat</font><br>".toList ++
    "<font class='fontSize-s'>".toList ++
    "<font color='".toList ++ Theme.navClose ++ "'>[R]</font> ".toList ++
    "<font color='".toList ++ Theme.warmGray ++ "'>Cancel</font>".toList ++
    "</font>".toList

end Source

end VoltMod.CenterHtmlRender
