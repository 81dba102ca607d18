/-
  DesignMarkup/Proofs/Page/Pairing.lean
  =====================================
  **Two pages of one design.**  A design can be made into pages in several ways, and these
  have the same elements in the same places; what differs is in the attributes.  `Pairs`
  goes along a design and two elements at once: they stand for the same node, have the same
  tag and the same text, and their attributes are related.

  The relation is a parameter.  `pairsAll_styledAll` gives it for all elements from one
  step (`Pairing`): the surroundings and the stylesheets of the two walks keep a relation of
  their own, and where this holds the attributes of a node are related.
-/
import DesignMarkup.Proofs.Page.Bearing

namespace DesignMarkup

open Markup

/-- How the attributes of a node on one page relate to those on another. -/
abbrev AttributeRelation := Props → List Attribute → List Attribute → Prop

mutual

/-- `Pairs R n e e'`: both elements stand for the node `n`, and they are the same but for
    their attributes.  These are related by `R`, as are those of all elements below. -/
inductive Pairs (R : AttributeRelation) : Node → Element → Element → Prop
  | text {p : Props} {children : List Node} {attributes attributes' : List Attribute}
    {text : String} (hrole : Role.ofProps p = .text) (h : R p attributes attributes') :
    Pairs R ⟨p, children⟩ (.leaf "p" attributes text) (.leaf "p" attributes' text)
  | asset {p : Props} {children : List Node} {attributes attributes' : List Attribute}
    (hrole : Role.ofProps p = .image ∨ Role.ofProps p = .icon) (h : R p attributes attributes') :
    Pairs R ⟨p, children⟩ (.void "img" attributes) (.void "img" attributes')
  | container {p : Props} {children : List Node} {attributes attributes' : List Attribute}
    {elements elements' : List Element} (hrole : Role.ofProps p = .container)
    (h : R p attributes attributes') (hc : PairsAll R children elements elements') :
    Pairs R ⟨p, children⟩ (.branch "div" attributes elements) (.branch "div" attributes' elements')

/-- The elements stand in pairs for those of the nodes that are shown, in order. -/
inductive PairsAll (R : AttributeRelation) : List Node → List Element → List Element → Prop
  | nil : PairsAll R [] [] []
  | hidden {n : Node} {rest : List Node} {elements elements' : List Element}
    (h : n.props.isRenderable = false) (hr : PairsAll R rest elements elements') :
    PairsAll R (n :: rest) elements elements'
  | shown {n : Node} {rest : List Node} {e e' : Element} {elements elements' : List Element}
    (h : n.props.isRenderable = true) (he : Pairs R n e e')
    (hr : PairsAll R rest elements elements') :
    PairsAll R (n :: rest) (e :: elements) (e' :: elements')

end

/-! ### One step -/

/-- The attributes of an element as they are read, for declarations `d`. -/
def Options.attributesRead (o : Options) (p : Props) (d : Declarations) (sheet : Stylesheet) :
    List Attribute :=
  (o.ownAttributes (Role.ofProps p) p.label ++ (o.styleAttribute d sheet).1).map unquotedAttribute

/-- Two ways of making a page, `o` and `o'`, with the stylesheets that they end in.  What
    relates the surroundings (`I`) and the stylesheets (`J`) is kept from one element to the
    next, and gives `R` for the attributes of each. -/
structure Pairing (o o' : Options) (final final' : Stylesheet)
    (I : Surroundings → Surroundings → Prop) (J : Stylesheet → Stylesheet → Prop)
    (R : AttributeRelation) : Prop where
  relates : ∀ {p box s s' sheet sheet'}, I s s' → J sheet sheet' →
    (o.styleAttribute (Style.resolve p box (Role.ofProps p) s) sheet).2.rules <+: final.rules →
    (o'.styleAttribute (Style.resolve p box (Role.ofProps p) s') sheet').2.rules <+:
      final'.rules →
    R p (o.attributesRead p (Style.resolve p box (Role.ofProps p) s) sheet)
      (o'.attributesRead p (Style.resolve p box (Role.ofProps p) s') sheet')
  within : ∀ {s s'} (p : Props), I s s' → I (s.within p) (s'.within p)
  sheets : ∀ {s s' sheet sheet'} (p : Props) (box : Rect), I s s' → J sheet sheet' →
    J (o.styleAttribute (Style.resolve p box (Role.ofProps p) s) sheet).2
      (o'.styleAttribute (Style.resolve p box (Role.ofProps p) s') sheet').2

theorem pairs_element {R : AttributeRelation} {p : Props} {children : List Node}
    {attributes attributes' : List Attribute} {written written' : List Element}
    (h : R p (attributes.map unquotedAttribute) (attributes'.map unquotedAttribute))
    (hc : Role.ofProps p = .container →
      PairsAll R children (unquotedAll written) (unquotedAll written')) :
    Pairs R ⟨p, children⟩
      ((Role.ofProps p).element attributes p.label.characters written).unquoted
      ((Role.ofProps p).element attributes' p.label.characters written').unquoted := by
  cases hrole : Role.ofProps p with
  | text => exact .text hrole h
  | image => exact .asset (Or.inl hrole) h
  | icon => exact .asset (Or.inr hrole) h
  | container => exact .container hrole h (hc hrole)

/-! ### Along a design -/

section Walk

variable {o o' : Options} {final final' : Stylesheet} {I : Surroundings → Surroundings → Prop}
  {J : Stylesheet → Stylesheet → Prop} {R : AttributeRelation}

mutual

/-- A node that is shown has an element on both pages, and the two are a pair. -/
theorem pairs_styled? (hP : Pairing o o' final final' I J R) :
    ∀ (n : Node) {s s' : Surroundings} {sheet sheet' : Stylesheet}, I s s' → J sheet sheet' →
      n.props.isRenderable = true →
      ∃ e e', n.styled? s = some e ∧ n.styled? s' = some e' ∧
        J (e.markup o sheet).2 (e'.markup o' sheet').2 ∧
        ((e.markup o sheet).2.rules <+: final.rules →
          (e'.markup o' sheet').2.rules <+: final'.rules →
          Pairs R n (e.markup o sheet).1.unquoted (e'.markup o' sheet').1.unquoted)
  | ⟨p, children⟩, s, s', sheet, sheet', hs, hsheet, h => by
    obtain ⟨box, hbox, he⟩ := Node.styled?_eq_some h children s
    obtain ⟨box', hbox', he'⟩ := Node.styled?_eq_some h children s'
    obtain rfl : box' = box := Option.some.inj (hbox'.symm.trans hbox)
    refine ⟨_, _, he, he', ?_⟩
    simp only [Styled.markup]
    have hown := hP.sheets p box' hs hsheet
    by_cases hrole : Role.ofProps p = .container
    · have hrecurses : (Role.ofProps p).recurses = true := by rw [hrole]; rfl
      simp only [if_pos hrecurses]
      obtain ⟨hinside, hchildren⟩ := pairsAll_styledAll hP children (hP.within p hs) hown
      refine ⟨hinside, fun hprefix hprefix' => ?_⟩
      -- the rules of the element stand before those of its children, so they are final too
      have hfirst := (Styled.prefix_markupAll o
        (Node.everyAll_styledAll isStyle_resolve children (s.within p)) _).trans hprefix
      have hfirst' := (Styled.prefix_markupAll o'
        (Node.everyAll_styledAll isStyle_resolve children (s'.within p)) _).trans hprefix'
      exact pairs_element (hP.relates hs hsheet hfirst hfirst') fun _ => hchildren hprefix hprefix'
    · have hrecurses : ¬(Role.ofProps p).recurses = true := fun h => hrole (beq_iff_eq.mp h)
      simp only [if_neg hrecurses]
      refine ⟨hown, fun hprefix hprefix' => ?_⟩
      exact pairs_element (hP.relates hs hsheet hprefix hprefix') fun h => absurd h hrole

/-- **The elements of several nodes stand in pairs,** if the stylesheets that were made with
    them begin the final ones. -/
theorem pairsAll_styledAll (hP : Pairing o o' final final' I J R) :
    ∀ (nodes : List Node) {s s' : Surroundings} {sheet sheet' : Stylesheet}, I s s' →
      J sheet sheet' →
      J (Styled.markupAll o (Node.styledAll s nodes) sheet).2
        (Styled.markupAll o' (Node.styledAll s' nodes) sheet').2 ∧
      ((Styled.markupAll o (Node.styledAll s nodes) sheet).2.rules <+: final.rules →
        (Styled.markupAll o' (Node.styledAll s' nodes) sheet').2.rules <+: final'.rules →
        PairsAll R nodes (unquotedAll (Styled.markupAll o (Node.styledAll s nodes) sheet).1)
          (unquotedAll (Styled.markupAll o' (Node.styledAll s' nodes) sheet').1))
  | [], _, _, _, _, _, hsheet => ⟨hsheet, fun _ _ => .nil⟩
  | n :: rest, s, s', sheet, sheet', hs, hsheet => by
    by_cases h : n.props.isRenderable = true
    · obtain ⟨e, e', he, he', hnext, hfirst⟩ := pairs_styled? hP n hs hsheet h
      obtain ⟨hlast, hrest⟩ := pairsAll_styledAll hP rest hs hnext
      rw [Node.styledAll_cons_some he, Node.styledAll_cons_some he']
      refine ⟨hlast, fun hprefix hprefix' => ?_⟩
      have hmiddle := (Styled.prefix_markupAll o
        (Node.everyAll_styledAll isStyle_resolve rest s) (e.markup o sheet).2).trans hprefix
      have hmiddle' := (Styled.prefix_markupAll o'
        (Node.everyAll_styledAll isStyle_resolve rest s') (e'.markup o' sheet').2).trans hprefix'
      exact .shown h (hfirst hmiddle hmiddle') (hrest hprefix hprefix')
    · rw [Node.styledAll_cons_hidden h, Node.styledAll_cons_hidden h]
      obtain ⟨hlast, hrest⟩ := pairsAll_styledAll hP rest hs hsheet
      exact ⟨hlast, fun hprefix hprefix' => .hidden (Bool.eq_false_iff.mpr h)
        (hrest hprefix hprefix')⟩

end

end Walk

/-! ### The pages -/

/-- **Two pages of one design have the same elements in the same places,** and the attributes
    of the elements that correspond are related. -/
theorem pairs_compileRoot {o o' : Options} {I : Surroundings → Surroundings → Prop}
    {J : Stylesheet → Stylesheet → Prop} {R : AttributeRelation} (root : Node)
    (hP : Pairing o o' (pageSheet root o) (pageSheet root o') I J R)
    (hI : I (.below o.coordinates root.props) (.below o'.coordinates root.props))
    (hJ : J (Session.rootAttributes o (Style.root root.props) .empty).2
      (Session.rootAttributes o' (Style.root root.props) .empty).2) :
    ∃ elements elements',
      Markup.read? (compileRoot root o).html =
        some [.branch "div" (pageAttributes root o) elements] ∧
      Markup.read? (compileRoot root o').html =
        some [.branch "div" (pageAttributes root o') elements'] ∧
      J (pageSheet root o) (pageSheet root o') ∧
      PairsAll R root.children elements elements' := by
  obtain ⟨hsheets, hpairs⟩ := pairsAll_styledAll hP root.children hI hJ
  exact ⟨pageElements root o, pageElements root o', read?_page root o, read?_page root o',
    hsheets, hpairs (List.prefix_refl _) (List.prefix_refl _)⟩

end DesignMarkup
