/-
  DesignMarkup/Proofs/Page/Containment.lean
  =========================================
  **Relative coordinates are relative to the right element.**  An element with a position of
  its own is placed against the nearest positioned element around it.  In relative
  coordinates that is always the element right around it, and its left and top are the
  distance between the corners of the two boxes (`HasContainingBlock`).

  The position of a container and the origin that its children get are decided at
  different steps of the walk.  `IsOrigin` is what ties them together: the origin is the
  corner of the container, and a container that does not lay out its children is
  positioned.
-/
import DesignMarkup.Proofs.Page.Bearing

namespace DesignMarkup

/-! ### Positions -/

def Declarations.IsPositioned (d : Declarations) : Prop :=
  d.get? "position" = some "relative" ∨ d.get? "position" = some "absolute"

/-- No property is declared twice.  If the element has a position of its own, the element
    around it is positioned, and left and top are taken from the corner of its box. -/
structure HasContainingBlock (p : Props) (d : Declarations) (q : Props) (dq : Declarations) :
    Prop where
  once : (dq.toList.map Prod.fst).Nodup
  positioned : dq.get? "position" = some "absolute" → d.IsPositioned
  left : dq.get? "position" = some "absolute" →
    ∃ box, q.box = some box ∧ dq.get? "left" = some (px (box.x - (p.corner?.getD (0, 0)).1))
  top : dq.get? "position" = some "absolute" →
    ∃ box, q.box = some box ∧ dq.get? "top" = some (px (box.y - (p.corner?.getD (0, 0)).2))

/-- What the surroundings of its children say of a node with declarations `d`. -/
structure IsOrigin (p : Props) (d : Declarations) (s : Surroundings) : Prop where
  coordinates : s.coordinates = .relative
  autoLayout : s.autoLayout = p.isAutoLayout
  origin : s.origin = p.corner?.getD (0, 0)
  positioned : p.isAutoLayout = false → d.IsPositioned

/-! ### One step -/

/-- In relative coordinates every container that does not lay out its children is
    positioned, in line with its siblings or not. -/
theorem isPositioned_resolve {q : Props} {box : Rect} {s : Surroundings}
    (hs : s.coordinates = .relative) (hq : q.isAutoLayout = false) :
    (Style.resolve q box .container s).IsPositioned := by
  cases hauto : s.autoLayout with
  | true =>
    left
    rw [Style.get?_position_of_autoLayout q box .container hauto, if_pos ⟨hs, rfl, hq⟩]
  | false => exact Or.inr (Style.get?_place_of_absolute q box .container hauto (Or.inl hq)).1

theorem governs_isOrigin : Governs IsOrigin HasContainingBlock where
  relates := by
    intro p d s q box h hbox
    have hreference : s.reference = p.corner?.getD (0, 0) := by
      rw [Surroundings.reference, h.coordinates]
      exact h.origin
    cases hauto : s.autoLayout with
    | true =>
      have hnot : (Style.resolve q box (Role.ofProps q) s).get? "position" ≠ some "absolute" := by
        rw [Style.get?_position_of_autoLayout q box _ hauto]
        split_ifs <;> decide
      exact ⟨Style.nodup_resolve q box _ s, fun habs => absurd habs hnot,
        fun habs => absurd habs hnot, fun habs => absurd habs hnot⟩
    | false =>
      obtain ⟨-, hleft, htop⟩ :=
        Style.get?_place_of_absolute q box (Role.ofProps q) hauto (Or.inr h.coordinates)
      rw [hreference] at hleft htop
      exact ⟨Style.nodup_resolve q box _ s,
        fun _ => h.positioned (h.autoLayout.symm.trans hauto),
        fun _ => ⟨box, hbox, hleft⟩, fun _ => ⟨box, hbox, htop⟩⟩
  passes := by
    intro p d s q box h hbox hrole
    have hcorner : q.corner? = some (box.x, box.y) := by
      rw [Props.corner?, hbox]
      rfl
    refine ⟨h.coordinates, rfl, ?_, fun hq => ?_⟩
    · rw [Surroundings.within, hcorner]
      rfl
    · rw [hrole]
      exact isPositioned_resolve h.coordinates hq

/-! ### The page -/

/-- **Relative coordinates always have the right containing block.**  Every element below
    the container of the page that has a position of its own stands in a positioned
    element, and its left and top are those of its box in the box of that element. -/
theorem containingBlock_compileRoot (root : Node) (mode : StyleMode)
    (urls : List (String × String)) :
    ∃ rules attributes elements d,
      Markup.read? (compileRoot root ⟨mode, .relative, urls⟩).html =
        some [.branch "div" attributes elements] ∧
      Stylesheet.read? (compileRoot root ⟨mode, .relative, urls⟩).css = some rules ∧
      declarationsOf rules attributes = some d ∧
      BearsAll rules HasContainingBlock root.props d root.children elements := by
  have hroot : IsOrigin root.props (Style.root root.props) (.below .relative root.props) :=
    ⟨rfl, rfl, rfl, fun _ => Or.inl (Style.get?_root_position root.props)⟩
  obtain ⟨rules, attributes, elements, hread, hcss, hd, hbears⟩ :=
    bears_compileRoot governs_isOrigin root ⟨mode, .relative, urls⟩ hroot
  exact ⟨rules, attributes, elements, Style.root root.props, hread, hcss, hd, hbears⟩

end DesignMarkup
