/-
  DesignMarkup/Proofs/Page/Placement.lean
  =======================================
  **The element around it decides how an element is placed.**  Inside an element that lays
  out its children, an element is in line with its siblings: it may grow and stretch, and
  has no position of its own (`InLine`).  Elsewhere it has a size, and a position unless it
  lays out its own children in the coordinates of the document (`OnItsOwn`).  Whether it
  lays out its own children is a matter of its node alone (`DeclaresLayout`).

  `IsPlaced` puts the three together, and `placement_compileRoot` says it of every element
  of a page.  What the walk has to keep is little: the surroundings tell the layout mode
  of the element right around, and the coordinates stay the same all the way down.
-/
import DesignMarkup.Proofs.Page.Bearing

namespace DesignMarkup

/-- In line with its siblings: no position of its own, and a size unless it stretches. -/
structure InLine (q : Props) (d : Declarations) : Prop where
  left : d.get? "left" = none
  top : d.get? "top" = none
  position : d.get? "position" ≠ some "absolute"
  grow : (d.get? "flex-grow").isSome = true ↔ ∃ x, q.layoutGrow = some x ∧ (x == 1) = true
  stretched : q.layoutAlign = some .stretch →
    d.get? "align-self" = some "stretch" ∧ d.get? "width" = none ∧ d.get? "height" = none
  sized : q.layoutAlign ≠ some .stretch →
    d.get? "align-self" = none ∧ (d.get? "width").isSome = true ∧ (d.get? "height").isSome = true

/-- With a size of its own, and with a position except where it lays out its children in the
    coordinates of the document. -/
structure OnItsOwn (coordinates : Coordinates) (q : Props) (d : Declarations) : Prop where
  grow : d.get? "flex-grow" = none
  align : d.get? "align-self" = none
  width : (d.get? "width").isSome = true
  height : (d.get? "height").isSome = true
  positioned : q.isAutoLayout = false ∨ coordinates = .relative →
    d.get? "position" = some "absolute" ∧
      (d.get? "left").isSome = true ∧ (d.get? "top").isSome = true
  unpositioned : ¬(q.isAutoLayout = false ∨ coordinates = .relative) →
    d.get? "position" = none ∧ d.get? "left" = none ∧ d.get? "top" = none

/-- The layout of its children is declared if the node has one, and no part of it if not. -/
structure DeclaresLayout (q : Props) (d : Declarations) : Prop where
  flex : q.isAutoLayout = true → d.get? "display" = some "flex" ∧
    ∀ k ∈ ["flex-direction", "padding", "justify-content", "align-items"], (d.get? k).isSome = true
  noFlex : q.isAutoLayout = false →
    ∀ k ∈ ["display", "flex-direction", "padding", "justify-content", "align-items"],
      d.get? k = none

/-- How an element is placed in the element around it, each property being declared once. -/
structure IsPlaced (coordinates : Coordinates) (p : Props) (_ : Declarations) (q : Props)
    (dq : Declarations) : Prop where
  once : (dq.toList.map Prod.fst).Nodup
  inLine : p.isAutoLayout = true → InLine q dq
  onItsOwn : p.isAutoLayout = false → OnItsOwn coordinates q dq
  layout : DeclaresLayout q dq

/-! ### The declarations of one node -/

section Node

variable {p : Props} {box : Rect} {role : Role} {s : Surroundings}

theorem inLine_resolve (h : s.autoLayout = true) : InLine p (Style.resolve p box role s) := by
  have hget : ∀ k ∈ Style.placeNames, (Style.resolve p box role s).get? k =
      ((if p.layoutGrow.any (· == 1) then [("flex-grow", "1")] else [])
        ++ (if p.layoutAlign = some .stretch then [("align-self", "stretch")] else Style.size box)
        ++ (if s.coordinates = .relative ∧ role = .container ∧ p.isAutoLayout = false then
              [("position", "relative")]
            else [])).lookup k := by
    intro k hk
    rw [Style.get?_resolve_place p box role s hk, Style.place, Placement.of_eq_flexItem h]
  refine ⟨?_, ?_, ?_, ?_, fun hstretch => ?_, fun hstretch => ?_⟩
  · rw [hget "left" (by decide)]
    split_ifs <;> rfl
  · rw [hget "top" (by decide)]
    split_ifs <;> rfl
  · rw [Style.get?_position_of_autoLayout p box role h]
    split_ifs <;> decide
  · have hgrow : p.layoutGrow.any (· == 1) = true ↔
        ∃ x, p.layoutGrow = some x ∧ (x == 1) = true := by
      cases p.layoutGrow <;> simp
    rw [hget "flex-grow" (by decide), ← hgrow]
    split_ifs with hif
    all_goals simp [hif, Style.size]
  · rw [hget "align-self" (by decide), hget "width" (by decide), hget "height" (by decide),
      if_pos hstretch]
    split_ifs <;> exact ⟨rfl, rfl, rfl⟩
  · rw [hget "align-self" (by decide), hget "width" (by decide), hget "height" (by decide),
      if_neg hstretch]
    split_ifs <;> exact ⟨rfl, rfl, rfl⟩

theorem onItsOwn_resolve (h : s.autoLayout = false) :
    OnItsOwn s.coordinates p (Style.resolve p box role s) := by
  by_cases hplace : p.isAutoLayout = false ∨ s.coordinates = .relative
  · have hget : ∀ k ∈ Style.placeNames, (Style.resolve p box role s).get? k =
        ([("position", "absolute"), ("left", px (box.x - s.reference.1)),
          ("top", px (box.y - s.reference.2))] ++ Style.size box).lookup k := by
      intro k hk
      rw [Style.get?_resolve_place p box role s hk, Style.place, Placement.of_eq_absolute h hplace]
    refine ⟨?_, ?_, ?_, ?_, fun _ => ⟨?_, ?_, ?_⟩, fun hnot => absurd hplace hnot⟩
    all_goals
      rw [hget _ (by decide)]
      rfl
  · have hget : ∀ k ∈ Style.placeNames, (Style.resolve p box role s).get? k =
        (Style.size box).lookup k := by
      intro k hk
      rw [Style.get?_resolve_place p box role s hk, Style.place, Placement.of_eq_sized h hplace]
    refine ⟨?_, ?_, ?_, ?_, fun hnot => absurd hnot hplace, fun _ => ⟨?_, ?_, ?_⟩⟩
    all_goals
      rw [hget _ (by decide)]
      rfl

theorem declaresLayout_resolve : DeclaresLayout p (Style.resolve p box role s) := by
  have hget : ∀ k ∈ Style.flexNames, (Style.resolve p box role s).get? k =
      (Style.flexOf p).lookup k := fun k hk => Style.get?_resolve_flex p box role s hk
  constructor
  · intro hp
    have hflex : Style.flexOf p = Style.flex p := if_pos hp
    have hrest : ∀ k ∈ ["flex-direction", "padding", "justify-content", "align-items"],
        k ∈ Style.flexNames ∧ ((Style.flex p).lookup k).isSome = true := by
      unfold Style.flex
      cases nonZero p.itemSpacing <;> simp [whenSome, Style.flexNames]
    refine ⟨?_, fun k hk => ?_⟩
    · rw [hget "display" (by decide), hflex]
      rfl
    · rw [hget k (hrest k hk).1, hflex]
      exact (hrest k hk).2
  · intro hp k hk
    rw [hget k ((by decide : ∀ k ∈ ["display", "flex-direction", "padding", "justify-content",
      "align-items"], k ∈ Style.flexNames) k hk), Style.flexOf, hp, if_neg Bool.false_ne_true]
    rfl

end Node

/-! ### The page -/

/-- The surroundings of its children tell the layout mode of a node. -/
structure TellsLayout (coordinates : Coordinates) (p : Props) (_ : Declarations)
    (s : Surroundings) : Prop where
  coordinates : s.coordinates = coordinates
  autoLayout : s.autoLayout = p.isAutoLayout

theorem governs_tellsLayout (coordinates : Coordinates) :
    Governs (TellsLayout coordinates) (IsPlaced coordinates) where
  relates := by
    intro p d s q box h _
    obtain ⟨rfl, hauto⟩ := h
    exact ⟨Style.nodup_resolve q box _ s, fun hp => inLine_resolve (hauto.trans hp),
      fun hp => onItsOwn_resolve (hauto.trans hp), declaresLayout_resolve⟩
  passes := fun h _ _ => ⟨h.coordinates, rfl⟩

/-- **Placement is decided by the element right around.**  Every element below the
    container of the page is placed as the layout mode of the node around it says, whatever
    the modes further out. -/
theorem placement_compileRoot (root : Node) (o : Options) :
    ∃ rules attributes elements d,
      Markup.read? (compileRoot root o).html = some [.branch "div" attributes elements] ∧
      Stylesheet.read? (compileRoot root o).css = some rules ∧
      declarationsOf rules attributes = some d ∧
      BearsAll rules (IsPlaced o.coordinates) root.props d root.children elements := by
  have hroot : TellsLayout o.coordinates root.props (Style.root root.props)
      (.below o.coordinates root.props) :=
    ⟨rfl, rfl⟩
  obtain ⟨rules, attributes, elements, hread, hcss, hd, hbears⟩ :=
    bears_compileRoot (governs_tellsLayout o.coordinates) root o hroot
  exact ⟨rules, attributes, elements, Style.root root.props, hread, hcss, hd, hbears⟩

end DesignMarkup
