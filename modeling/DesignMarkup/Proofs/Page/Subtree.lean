/-
  DesignMarkup/Proofs/Page/Subtree.lean
  =====================================
  **A part of a design looks the same alone and in its place.**  A container can be made
  into a page of its own, and a child of a root can be written by itself.  Each of these
  ways sets out with surroundings and a depth of its own, and the page around has its
  stylesheet besides.

  With inline styles none of this is seen inside: a node that is shown has a box, and the
  corner of that box is all that its children are told of where they are
  (`Surroundings.within_eq_below`).  In the coordinates of the document not even that
  counts (`Node.styled?_document`).  `StandsAt` tells where on a page a node is found.
-/
import DesignMarkup.Proofs.Page.Media
import DesignMarkup.Proofs.Page.Writing

namespace DesignMarkup

open Markup

/-! ### Places on a page -/

namespace Markup.Element

def children : Element → List Element
  | .void _ _ | .leaf _ _ _ => []
  | .branch _ _ children => children

/-- The element that is reached from `e` by going down from child to child. -/
def at? (e : Element) : List Nat → Option Element
  | [] => some e
  | i :: place => e.children[i]?.bind fun child => child.at? place

end Markup.Element

/-- `StandsAt nodes place n`: where the elements of `nodes` are the children of an element,
    the place of the node `n`, which is one of them or is seen inside one of them. -/
inductive StandsAt : List Node → List Nat → Node → Prop
  | here {n : Node} {rest : List Node} (h : n.props.isRenderable = true) :
    StandsAt (n :: rest) [0] n
  | inside {q : Props} {children rest : List Node} {place : List Nat} {n : Node}
    (h : q.IsOpen) (hn : StandsAt children place n) :
    StandsAt (⟨q, children⟩ :: rest) (0 :: place) n
  | behindHidden {m : Node} {rest : List Node} {place : List Nat} {n : Node}
    (h : ¬m.props.isRenderable = true) (hn : StandsAt rest place n) : StandsAt (m :: rest) place n
  | behindShown {m : Node} {rest : List Node} {i : Nat} {place : List Nat} {n : Node}
    (h : m.props.isRenderable = true) (hn : StandsAt rest (i :: place) n) :
    StandsAt (m :: rest) ((i + 1) :: place) n

/-! ### Surroundings -/

/-- The children of a node with a box do not learn what is around that node. -/
theorem Surroundings.within_eq_below {p : Props} {box : Rect} (h : p.box = some box)
    (s : Surroundings) : s.within p = .below s.coordinates p := by
  have hcorner : p.corner? = some (box.x, box.y) := by
    rw [Props.corner?, h]
    rfl
  rw [within, below, hcorner]
  rfl

/-- In the coordinates of the document it does not matter where the parent is. -/
theorem Node.styled?_document (n : Node) (autoLayout : Bool) (origin : Float × Float) :
    n.styled? ⟨autoLayout, origin, .document⟩ = n.styled? (.document autoLayout) := by
  obtain ⟨p, children⟩ := n
  by_cases h : p.isRenderable = true
  · obtain ⟨box, hbox, he⟩ := styled?_eq_some h children ⟨autoLayout, origin, .document⟩
    obtain ⟨box', hbox', he'⟩ := styled?_eq_some h children (.document autoLayout)
    obtain rfl : box = box' := Option.some.inj (hbox.symm.trans hbox')
    rw [he, he', Surroundings.within_eq_below hbox, Surroundings.within_eq_below hbox]
    rfl
  · rw [styled?_eq_none h, styled?_eq_none h]

/-! ### Elements with inline styles -/

namespace Node

/-- What a reader gets from the elements of several nodes. -/
def drawn (o : Options) (s : Surroundings) (nodes : List Node) : List Element :=
  unquotedAll (Styled.markupAll o (styledAll s nodes) .empty).1

theorem drawn_hidden {n : Node} (h : ¬n.props.isRenderable = true) (o : Options)
    (s : Surroundings) (rest : List Node) : drawn o s (n :: rest) = drawn o s rest := by
  rw [drawn, styledAll_cons_hidden h, drawn]

section Inline

variable {o : Options} (ho : o.styleMode = .inline)
include ho

theorem drawn_shown {n : Node} {s : Surroundings} {e : Styled} (he : n.styled? s = some e)
    (rest : List Node) :
    drawn o s (n :: rest) = (e.markup o .empty).1.unquoted :: drawn o s rest := by
  have hsheet := Styled.sheet_markup_inline ho (every_styled? Style.plain_resolve n s e he) .empty
  rw [drawn, styledAll_cons_some he]
  simp only [Styled.markupAll, hsheet, unquotedAll, drawn]

/-- What is inside a container that is shown follows from the container and the coordinates. -/
theorem styled?_open {p : Props} (h : p.IsOpen) (children : List Node) (s : Surroundings) :
    ∃ e attributes, styled? s ⟨p, children⟩ = some e ∧
      (e.markup o .empty).1.unquoted =
        .branch "div" attributes (drawn o (.below s.coordinates p) children) ∧
      e.assets = Styled.assetsOfAll (styledAll (.below s.coordinates p) children) := by
  obtain ⟨hrenderable, hrole⟩ := h
  obtain ⟨box, hbox, he⟩ := styled?_eq_some hrenderable children s
  have hrecurses : (Role.ofProps p).recurses = true := by rw [hrole]; rfl
  rw [if_pos hrecurses, Surroundings.within_eq_below hbox] at he
  rw [hrole] at he
  let style := (o.styleAttribute (Style.resolve p box .container s) .empty).1
  refine ⟨_, (o.ownAttributes .container p.label ++ style).map unquotedAttribute, he, ?_, ?_⟩
  · simp only [Styled.markup, Role.element, Element.unquoted,
      Styled.sheet_styleAttribute_inline ho]
    rfl
  · rw [Styled.assets]
    rfl

/-- **A container has at its place what its children are drawn as,** in any surroundings, and
    the assets of these children stand together. -/
theorem at?_drawn {nodes : List Node} {place : List Nat} {n : Node} (h : StandsAt nodes place n)
    (hrole : Role.ofProps n.props = .container) (s : Surroundings) (tag : String)
    (attributes : List Attribute) :
    (∃ attributes', (Element.branch tag attributes (drawn o s nodes)).at? place =
      some (.branch "div" attributes' (drawn o (.below s.coordinates n.props) n.children))) ∧
    Styled.assetsOfAll (styledAll (.below s.coordinates n.props) n.children) <:+:
      Styled.assetsOfAll (styledAll s nodes) := by
  induction h generalizing s tag attributes with
  | @here n rest h =>
    obtain ⟨p, children⟩ := n
    obtain ⟨e, attributes', he, hmarkup, hassets⟩ := styled?_open ho ⟨h, hrole⟩ children s
    rw [drawn_shown ho he, styledAll_cons_some he, Styled.assetsOfAll, hassets]
    exact ⟨⟨attributes', congrArg some hmarkup⟩, (List.prefix_append _ _).isInfix⟩
  | @inside q children rest place n h _ ih =>
    obtain ⟨e, attributes', he, hmarkup, hassets⟩ := styled?_open ho h children s
    obtain ⟨hat, hinfix⟩ := ih hrole (.below s.coordinates q) "div" attributes'
    rw [drawn_shown ho he, styledAll_cons_some he, Styled.assetsOfAll, hassets, hmarkup]
    exact ⟨hat, hinfix.trans (List.prefix_append _ _).isInfix⟩
  | behindHidden h _ ih =>
    rw [drawn_hidden h, styledAll_cons_hidden h]
    exact ih hrole s tag attributes
  | @behindShown m rest i place n h _ ih =>
    obtain ⟨p, children⟩ := m
    obtain ⟨box, -, he⟩ := styled?_eq_some h children s
    obtain ⟨hat, hinfix⟩ := ih hrole s tag attributes
    rw [drawn_shown ho he, styledAll_cons_some he, Styled.assetsOfAll]
    exact ⟨hat, hinfix.trans (List.suffix_append _ _).isInfix⟩

end Inline

end Node

/-! ### A node by itself -/

/-- The elements are those that the nodes are written as one by one, each by itself. -/
inductive EmitsAll (autoLayout : Bool) : List Node → List Element → Prop
  | nil : EmitsAll autoLayout [] []
  | nothing {n : Node} {rest : List Node} {elements : List Element}
    (h : emit n autoLayout = "") (hr : EmitsAll autoLayout rest elements) :
    EmitsAll autoLayout (n :: rest) elements
  | element {n : Node} {rest : List Node} {e : Element} {elements : List Element}
    (h : Markup.read? (emit n autoLayout) = some [e]) (hr : EmitsAll autoLayout rest elements) :
    EmitsAll autoLayout (n :: rest) (e :: elements)

theorem emit_hidden {n : Node} (h : ¬n.props.isRenderable = true) (autoLayout : Bool) :
    emit n autoLayout = "" := by
  rw [emit, Node.styled?_eq_none h]
  rfl

/-- A node that is shown is written as the element that it has on a page in the coordinates
    of the document. -/
theorem read?_emit {n : Node} {autoLayout : Bool} {e : Styled}
    (h : n.styled? (.document autoLayout) = some e) :
    Markup.read? (emit n autoLayout) = some [(e.markup {} .empty).1.unquoted] := by
  rw [emit, h]
  exact read?_elementsText 0 (areReadable_markupAll {} [e] .empty)

theorem emit_eq_empty_iff (n : Node) (autoLayout : Bool) :
    emit n autoLayout = "" ↔ n.props.isRenderable = false := by
  constructor
  · intro hempty
    by_contra hshown
    obtain ⟨p, children⟩ := n
    obtain ⟨box, -, he⟩ := Node.styled?_eq_some (eq_true_of_ne_false hshown) children
      (.document autoLayout)
    have hread := read?_emit he
    rw [hempty] at hread
    cases hread
  · intro h
    exact emit_hidden (Bool.eq_false_iff.mp h) autoLayout

theorem emitsAll_drawn (nodes : List Node) (autoLayout : Bool) (origin : Float × Float) :
    EmitsAll autoLayout nodes (Node.drawn {} ⟨autoLayout, origin, .document⟩ nodes) := by
  induction nodes with
  | nil => exact .nil
  | cons n rest ih =>
    by_cases h : n.props.isRenderable = true
    · obtain ⟨p, children⟩ := n
      obtain ⟨box, -, he⟩ := Node.styled?_eq_some h children ⟨autoLayout, origin, .document⟩
      rw [Node.drawn_shown rfl he]
      rw [Node.styled?_document] at he
      exact .element (read?_emit he) ih
    · rw [Node.drawn_hidden h]
      exact .nothing (emit_hidden h autoLayout) ih

/-! ### The page -/

/-- A page with inline styles is drawn as the children of its root are. -/
theorem read?_compileRoot_drawn {o : Options} (ho : o.styleMode = .inline) (root : Node) :
    ∃ attributes, Markup.read? (compileRoot root o).html =
      some [.branch "div" attributes
        (Node.drawn o (.below o.coordinates root.props) root.children)] := by
  let d := Style.root root.props
  have hsheet : (Session.rootAttributes o d .empty).2 = .empty := by
    rw [Session.rootAttributes, ho]
  have hread := read?_container o d (root.content o.coordinates) .empty .empty
  refine ⟨_, Eq.trans ?_ hread⟩
  simp only [compileRoot, Session.page]
  rw [hsheet]

/-- **A part of a design looks the same alone and in its place.**  The page of a container
    that is seen on another page has the same elements inside as the container has there,
    and its assets stand together among those of that page.  With the choices that are made
    by default, what a child of a root is written as by itself is the element that it has on
    the page of the root, and it is empty just if the child is not shown. -/
theorem compileRoot_subtree (root : Node) (coordinates : Coordinates)
    (urls : List (String × String)) :
    (∃ page, Markup.read? (compileRoot root ⟨.inline, coordinates, urls⟩).html = some [page] ∧
      ∀ place n, StandsAt root.children place n → Role.ofProps n.props = .container →
        ∃ attributes attributes' inner,
          page.at? place = some (.branch "div" attributes inner) ∧
          Markup.read? (compileRoot n ⟨.inline, coordinates, urls⟩).html =
            some [.branch "div" attributes' inner] ∧
          (compileRoot n ⟨.inline, coordinates, urls⟩).assets <:+:
            (compileRoot root ⟨.inline, coordinates, urls⟩).assets) ∧
    (∃ attributes elements,
      Markup.read? (compileRoot root {}).html = some [.branch "div" attributes elements] ∧
      EmitsAll root.props.isAutoLayout root.children elements) ∧
    ∀ n autoLayout, emit n autoLayout = "" ↔ n.props.isRenderable = false := by
  let o : Options := ⟨.inline, coordinates, urls⟩
  refine ⟨?_, ?_, emit_eq_empty_iff⟩
  · obtain ⟨attributes, hread⟩ := read?_compileRoot_drawn (o := o) rfl root
    refine ⟨_, hread, fun place n hplace hrole => ?_⟩
    obtain ⟨attributes', halone⟩ := read?_compileRoot_drawn (o := o) rfl n
    obtain ⟨⟨attributes'', hat⟩, hassets⟩ := Node.at?_drawn (o := o) rfl hplace hrole
      (.below coordinates root.props) "div" attributes
    exact ⟨attributes'', attributes', _, hat, halone, hassets⟩
  · obtain ⟨attributes, hread⟩ := read?_compileRoot_drawn (o := {}) rfl root
    exact ⟨attributes, _, hread, emitsAll_drawn root.children root.props.isAutoLayout _⟩

/-- A container with an icon, behind a text in a container behind a hidden frame. -/
theorem compileRoot_subtree_icon :
    let icon : Node := ⟨{ id := "1:5", type := .vector, box := some ⟨24, 24, 16, 16⟩ }, []⟩
    let button : Node := ⟨{ id := "1:4", box := some ⟨20, 20, 40, 40⟩ }, [icon]⟩
    let title : Node := ⟨{ id := "1:3", type := .text, box := some ⟨10, 0, 80, 10⟩ }, []⟩
    let card : Node := ⟨{ id := "1:2", box := some ⟨10, 0, 80, 80⟩ }, [title, button]⟩
    let root : Node := ⟨{}, [⟨{ id := "1:1", visible := some false }, []⟩, card]⟩
    let o : Options := ⟨.inline, .relative, []⟩
    StandsAt root.children [0, 1] button ∧ Role.ofProps button.props = .container ∧
    ∃ page, Markup.read? (compileRoot root o).html = some [page] ∧
      ∃ attributes attributes' inner, page.at? [0, 1] = some (.branch "div" attributes inner) ∧
        Markup.read? (compileRoot button o).html = some [.branch "div" attributes' inner] ∧
        (compileRoot button o).assets <:+: (compileRoot root o).assets := by
  intro icon button title card root o
  have hplace : StandsAt root.children [0, 1] button :=
    .behindHidden (by decide) (.inside ⟨rfl, rfl⟩ (.behindShown rfl (.here rfl)))
  have hrole : Role.ofProps button.props = .container := rfl
  obtain ⟨⟨page, hread, hall⟩, -⟩ := compileRoot_subtree root .relative []
  exact ⟨hplace, hrole, page, hread, hall [0, 1] button hplace hrole⟩

end DesignMarkup
