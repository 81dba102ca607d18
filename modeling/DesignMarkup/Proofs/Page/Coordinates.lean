/-
  DesignMarkup/Proofs/Page/Coordinates.lean
  =========================================
  **The coordinates only move things.**  A page can be made in the coordinates of the
  document or in those of each parent.  The choice shows in the properties `position`,
  `left` and `top` alone: without them a node declares the same in all surroundings that
  agree on the layout mode of the parent (`unplaced_resolve`).

  So the two pages are made of the same elements, with the same text and the same assets,
  and what two elements that correspond declare differs in these three properties only
  (`MovedOnly`).  Their classes may differ, since the declarations do.
-/
import DesignMarkup.Proofs.Page.Media
import DesignMarkup.Proofs.Page.Pairing

namespace DesignMarkup

open Markup

/-! ### What a node declares apart from its position -/

/-- Whether a declaration says where an element is. -/
def moves (pair : String × String) : Bool := ["position", "left", "top"].contains pair.1

/-- The declarations that do not say where an element is, in order. -/
def Declarations.unplaced (d : Declarations) : List (String × String) :=
  d.toList.filter fun pair => !moves pair

namespace Style

/-- What is left of the place of a node without its position. -/
def extent (p : Props) (box : Rect) (autoLayout : Bool) : List (String × String) :=
  if autoLayout then
    (if p.layoutGrow.any (· == 1) then [("flex-grow", "1")] else [])
      ++ (if p.layoutAlign = some .stretch then [("align-self", "stretch")] else size box)
  else size box

theorem filter_extent (p : Props) (box : Rect) (autoLayout : Bool) :
    (extent p box autoLayout).filter (fun pair => !moves pair) = extent p box autoLayout := by
  unfold extent size
  split_ifs <;> simp [moves]

theorem filter_place (p : Props) (box : Rect) (role : Role) (s : Surroundings) :
    (place p box role s).filter (fun pair => !moves pair) = extent p box s.autoLayout := by
  have hextent := filter_extent p box s.autoLayout
  cases hauto : s.autoLayout with
  | true =>
    rw [hauto, extent, if_pos rfl] at hextent
    rw [place, Placement.of_eq_flexItem hauto, extent, if_pos rfl, List.filter_append, hextent]
    split_ifs <;> simp [moves]
  | false =>
    rw [hauto, extent, if_neg Bool.false_ne_true] at hextent
    rw [extent, if_neg Bool.false_ne_true]
    by_cases hplace : p.isAutoLayout = false ∨ s.coordinates = .relative
    · rw [place, Placement.of_eq_absolute hauto hplace, List.filter_append, hextent]
      simp [moves]
    · rw [place, Placement.of_eq_sized hauto hplace]
      exact hextent

end Style

/-- **A node declares the same wherever it is,** but for its position. -/
theorem unplaced_resolve (p : Props) (box : Rect) (role : Role) {s s' : Surroundings}
    (h : s.autoLayout = s'.autoLayout) :
    (Style.resolve p box role s).unplaced = (Style.resolve p box role s').unplaced := by
  simp only [Declarations.unplaced, Style.toList_resolve, List.filter_append, Style.filter_place, h]

/-! ### Two elements that correspond -/

/-- Whether an attribute is for style. -/
def isForStyle (a : Attribute) : Bool := a.1 == "style" || a.1 == "class"

/-- Two elements have the same attributes but for the style, and they declare the same but
    for the position. -/
structure MovedOnly (rules rules' : List Stylesheet.Entry) (a a' : List Attribute) : Prop where
  names : a.map Prod.fst = a'.map Prod.fst
  own : a.filter (fun x => !isForStyle x) =
    a'.filter (fun x => !isForStyle x)
  declarations : ∃ d d', declarationsOf rules a = some d ∧ declarationsOf rules' a' = some d' ∧
    d.unplaced = d'.unplaced

/-- The attribute for the style has its name from the style mode. -/
theorem styleAttribute_eq (o : Options) {d : Declarations} (hd : d.IsStyle) (sheet : Stylesheet) :
    ∃ value, (o.styleAttribute d sheet).1 =
      [(match o.styleMode with | .inline => "style" | .stylesheet => "class", value)] := by
  cases hmode : o.styleMode with
  | inline => exact ⟨d.text, by rw [Options.styleAttribute_inline hmode]⟩
  | stylesheet =>
    exact ⟨(sheet.request d).1.text, by rw [Options.styleAttribute_stylesheet hmode hd.nonempty]⟩

section Moved

variable (root : Node) (mode : StyleMode) (urls : List (String × String))
  (coordinates coordinates' : Coordinates)

/-- The surroundings agree on the layout mode of the parent. -/
theorem pairing_moved :
    Pairing ⟨mode, coordinates, urls⟩ ⟨mode, coordinates', urls⟩
      (pageSheet root ⟨mode, coordinates, urls⟩) (pageSheet root ⟨mode, coordinates', urls⟩)
      (fun s s' => s.autoLayout = s'.autoLayout) (fun _ _ => True)
      (fun _ => MovedOnly (pageSheet root ⟨mode, coordinates, urls⟩).entries
        (pageSheet root ⟨mode, coordinates', urls⟩).entries) where
  relates := by
    intro p box s s' sheet sheet' hs _ hprefix hprefix'
    have hstyle := isStyle_resolve p box (Role.ofProps p) s
    have hstyle' := isStyle_resolve p box (Role.ofProps p) s'
    obtain ⟨value, hvalue⟩ := styleAttribute_eq ⟨mode, coordinates, urls⟩ hstyle sheet
    obtain ⟨value', hvalue'⟩ := styleAttribute_eq ⟨mode, coordinates', urls⟩ hstyle' sheet'
    refine ⟨?_, ?_, ?_⟩
    · rw [Options.attributesRead, Options.attributesRead, hvalue, hvalue']
      simp [unquotedAttribute, Options.ownAttributes, Options.source]
    · rw [Options.attributesRead, Options.attributesRead, hvalue, hvalue']
      cases mode <;>
        simp [List.filter_append, unquotedAttribute, isForStyle, Options.ownAttributes,
          Options.source]
    · exact ⟨_, _, declarationsOf_element (isPageSheet_pageSheet root) _ _ hstyle hprefix,
        declarationsOf_element (isPageSheet_pageSheet root) _ _ hstyle' hprefix',
        unplaced_resolve p box _ hs⟩
  within := fun _ _ => rfl
  sheets := fun _ _ _ _ => trivial

end Moved

/-- **The coordinates only move things.**  For every root, style mode and addresses, the
    pages in the two systems of coordinates have the same assets and the same elements: the
    same tags in the same order, with the same text and the same attributes apart from the
    style.  Each two that correspond, the containers of the pages among them, have the same
    declarations in the same order once `position`, `left` and `top` are taken away. -/
theorem movedOnly_compileRoot (root : Node) (mode : StyleMode) (urls : List (String × String)) :
    (compileRoot root ⟨mode, .document, urls⟩).assets =
      (compileRoot root ⟨mode, .relative, urls⟩).assets ∧
    ∃ rules rules' attributes attributes' elements elements',
      Markup.read? (compileRoot root ⟨mode, .document, urls⟩).html =
        some [.branch "div" attributes elements] ∧
      Markup.read? (compileRoot root ⟨mode, .relative, urls⟩).html =
        some [.branch "div" attributes' elements'] ∧
      Stylesheet.read? (compileRoot root ⟨mode, .document, urls⟩).css = some rules ∧
      Stylesheet.read? (compileRoot root ⟨mode, .relative, urls⟩).css = some rules' ∧
      MovedOnly rules rules' attributes attributes' ∧
      PairsAll (fun _ => MovedOnly rules rules') root.children elements elements' := by
  refine ⟨?_, ?_⟩
  · exact (Node.assets_content .document root).trans (Node.assets_content .relative root).symm
  · obtain ⟨elements, elements', hread, hread', -, hpairs⟩ :=
      pairs_compileRoot root (pairing_moved root mode urls .document .relative) rfl trivial
    have hroot : pageAttributes root ⟨mode, .document, urls⟩ =
        pageAttributes root ⟨mode, .relative, urls⟩ := by
      cases mode <;> rfl
    refine ⟨_, _, _, _, elements, elements', hread, hread', read?_css root _, read?_css root _,
      ⟨?_, ?_, ?_⟩, hpairs⟩
    · rw [hroot]
    · rw [hroot]
    · exact ⟨_, _, declarationsOf_page root _, declarationsOf_page root _, rfl⟩

end DesignMarkup
