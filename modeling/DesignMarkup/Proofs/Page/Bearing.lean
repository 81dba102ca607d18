/-
  DesignMarkup/Proofs/Page/Bearing.lean
  =====================================
  **What the elements of a page declare.**  The declarations of an element are in its
  `style` attribute or under its class in the stylesheet; `declarationsOf` gets them from
  what was read.  `Bears` goes along a design and its elements, and says of every element
  how its declarations relate to those of the element right around it.

  The relation is a parameter.  `bears_compileRoot` gives it for every page from one step:
  an invariant on the node, its declarations and the surroundings that its children are
  given, which holds at the root, implies the relation, and passes from a container to its
  children.
-/
import DesignMarkup.Proofs.Page.Inlining
import DesignMarkup.Proofs.Style.Properties
import DesignMarkup.Proofs.Style.Reading

namespace DesignMarkup

open Markup

/-- The declarations of an element, from its attributes and the rules of the stylesheet. -/
def declarationsOf (rules : List Stylesheet.Entry) (attributes : List Attribute) :
    Option Declarations :=
  match attributes.lookup "style" with
  | some text => Declarations.read? text
  | none => (attributes.lookup "class").bind fun name => rules.lookup name

/-- How a node and its declarations relate to the node right around it and its
    declarations, which come first. -/
abbrev Relation := Props → Declarations → Props → Declarations → Prop

mutual

/-- `Bears rules R p d n e`: the element `e` stands for the node `n` right inside the node
    `p` with declarations `d`.  It and all elements below it have declarations, and each
    is related by `R` to the element around it. -/
inductive Bears (rules : List Stylesheet.Entry) (R : Relation) :
    Props → Declarations → Node → Element → Prop
  | text {p q : Props} {d dq : Declarations} {children : List Node} {tag : String}
    {attributes : List Attribute} {text : String} (hrole : Role.ofProps q = .text)
    (hd : declarationsOf rules attributes = some dq) (h : R p d q dq) :
    Bears rules R p d ⟨q, children⟩ (.leaf tag attributes text)
  | asset {p q : Props} {d dq : Declarations} {children : List Node} {tag : String}
    {attributes : List Attribute} (hrole : Role.ofProps q = .image ∨ Role.ofProps q = .icon)
    (hd : declarationsOf rules attributes = some dq) (h : R p d q dq) :
    Bears rules R p d ⟨q, children⟩ (.void tag attributes)
  | container {p q : Props} {d dq : Declarations} {children : List Node} {tag : String}
    {attributes : List Attribute} {elements : List Element}
    (hrole : Role.ofProps q = .container)
    (hd : declarationsOf rules attributes = some dq) (h : R p d q dq)
    (hc : BearsAll rules R q dq children elements) :
    Bears rules R p d ⟨q, children⟩ (.branch tag attributes elements)

/-- The elements stand for those of the nodes that are shown, in order. -/
inductive BearsAll (rules : List Stylesheet.Entry) (R : Relation) :
    Props → Declarations → List Node → List Element → Prop
  | nil {p : Props} {d : Declarations} : BearsAll rules R p d [] []
  | hidden {p : Props} {d : Declarations} {n : Node} {rest : List Node} {elements : List Element}
    (h : n.props.isRenderable = false) (hr : BearsAll rules R p d rest elements) :
    BearsAll rules R p d (n :: rest) elements
  | shown {p : Props} {d : Declarations} {n : Node} {rest : List Node} {e : Element}
    {elements : List Element} (h : n.props.isRenderable = true) (he : Bears rules R p d n e)
    (hr : BearsAll rules R p d rest elements) :
    BearsAll rules R p d (n :: rest) (e :: elements)

end

/-! ### The declarations come back -/

theorem unquoted_of_harmless {text : String} (h : ∀ c ∈ text.toList, isHarmless c = true) :
    unquoted text = text := by
  have hquote : ∀ c ∈ text.toList, singleQuote c = c := by
    intro c hc
    refine if_neg ?_
    rintro rfl
    exact absurd (h _ hc) (by decide)
  rw [unquoted, List.map_congr_left hquote, List.map_id', String.ofList_toList]

theorem unquoted_declarations {d : Declarations} (h : d.ArePlain) : unquoted d.text = d.text :=
  unquoted_of_harmless (harmless_declarations h)

theorem unquoted_numbered (n : Nat) :
    unquoted (ClassName.numbered n).text = (ClassName.numbered n).text :=
  unquoted_of_harmless fun c hc => harmless_of_plain (plain_numbered n c hc)

theorem lookup_ownAttributes (o : Options) (role : Role) (label : Label) (name : String)
    (h : name = "style" ∨ name = "class") :
    ((o.ownAttributes role label).map unquotedAttribute).lookup name = none := by
  rcases h with rfl | rfl <;> cases role <;> rfl

section Elements

variable {o : Options} {final : Stylesheet}

/-- The class that a request gives has the declarations asked for, then and later. -/
theorem numbered_request (hfinal : IsSessionSheet final) {d : Declarations} (hd : d.ArePlain)
    {sheet : Stylesheet} (h : (sheet.request d).2.rules <+: final.rules) :
    ∃ n, (sheet.request d).1 = .numbered n ∧ ⟨.numbered n, d⟩ ∈ final.rules := by
  obtain ⟨n, hn, rule, hrule, hclass, htext⟩ := sheet.exists_rule_request d
  have hmem : rule ∈ final.rules := h.subset hrule
  have hd' : rule.declarations = d := Declarations.eq_of_text (hfinal.plain rule hmem) hd htext
  refine ⟨n, hn, ?_⟩
  rw [← hclass, ← hd']
  exact hmem

theorem lookup_class (hfinal : IsSessionSheet final) {d : Declarations} (hd : d.ArePlain)
    {sheet : Stylesheet} (h : (sheet.request d).2.rules <+: final.rules) :
    final.entries.lookup (sheet.request d).1.text = some d := by
  obtain ⟨n, hn, hmem⟩ := numbered_request hfinal hd h
  rw [hn]
  exact (hfinal.hasOneRule hmem).lookup

/-- **The declarations of an element are found again,** in the element or under its class
    in the stylesheet as it is at the end. -/
theorem declarationsOf_element (hfinal : o.styleMode = .stylesheet → IsPageSheet final)
    (role : Role) (label : Label) {d : Declarations} (hd : d.IsStyle) {sheet : Stylesheet}
    (h : (o.styleAttribute d sheet).2.rules <+: final.rules) :
    declarationsOf final.entries
        ((o.ownAttributes role label ++ (o.styleAttribute d sheet).1).map unquotedAttribute) =
      some d := by
  have hown := lookup_ownAttributes o role label
  rw [List.map_append, declarationsOf, List.lookup_append, hown "style" (Or.inl rfl),
    Option.none_or, List.lookup_append, hown "class" (Or.inr rfl), Option.none_or]
  cases hmode : o.styleMode with
  | inline =>
    have hstyle : (o.styleAttribute d sheet).1.map unquotedAttribute = [("style", d.text)] := by
      rw [Options.styleAttribute_inline hmode, List.map_singleton, unquotedAttribute,
        unquoted_declarations hd.plain]
    rw [hstyle, List.lookup_cons_self]
    exact Declarations.read?_text hd.plain
  | stylesheet =>
    rw [Options.styleAttribute_stylesheet hmode hd.nonempty] at h ⊢
    obtain ⟨n, hn, -⟩ := sheet.exists_rule_request d
    have hclass : [("class", (sheet.request d).1.text)].map unquotedAttribute =
        [("class", (sheet.request d).1.text)] := by
      rw [List.map_singleton, unquotedAttribute, hn, unquoted_numbered]
    rw [hclass, List.lookup_cons_self]
    exact lookup_class (hfinal hmode).toIsSessionSheet hd.plain h

/-- The declarations of the container of a page are found again. -/
theorem declarationsOf_root (hfinal : o.styleMode = .stylesheet → IsPageSheet final)
    {d : Declarations} (hd : d.ArePlain) {sheet : Stylesheet}
    (h : (Session.rootAttributes o d sheet).2.rules <+: final.rules) :
    declarationsOf final.entries
      ((Session.rootAttributes o d sheet).1.map unquotedAttribute) = some d := by
  have hroot : unquotedAttribute ("class", rootClass) = ("class", rootClass) := by decide
  cases hmode : o.styleMode with
  | inline =>
    have hattributes : (Session.rootAttributes o d sheet).1.map unquotedAttribute =
        [("class", rootClass), ("style", d.text)] := by
      rw [Session.rootAttributes, hmode, List.map_cons, List.map_singleton, hroot,
        unquotedAttribute, unquoted_declarations hd]
    rw [hattributes]
    exact Declarations.read?_text hd
  | stylesheet =>
    rw [Session.rootAttributes, hmode] at h ⊢
    have hrule : ⟨.named rootClass, d⟩ ∈ final.rules :=
      h.subset (List.mem_append_right sheet.rules List.mem_cons_self)
    rw [List.map_singleton, hroot]
    exact Stylesheet.lookup_entries (hfinal hmode).nodup_entries hrule

end Elements

/-! ### Along a design -/

theorem bears_element {rules : List Stylesheet.Entry} {R : Relation} {p q : Props}
    {d dq : Declarations} {children : List Node} {attributes : List Attribute} {text : String}
    {written : List Element}
    (hd : declarationsOf rules (attributes.map unquotedAttribute) = some dq) (h : R p d q dq)
    (hc : Role.ofProps q = .container → BearsAll rules R q dq children (unquotedAll written)) :
    Bears rules R p d ⟨q, children⟩
      ((Role.ofProps q).element attributes text written).unquoted := by
  cases hrole : Role.ofProps q with
  | text => exact .text hrole hd h
  | image => exact .asset (Or.inl hrole) hd h
  | icon => exact .asset (Or.inr hrole) hd h
  | container => exact .container hrole hd h (hc hrole)

/-- The invariant `I` on a node, its declarations and the surroundings of its children gives
    `R` for each of the children and holds of them again if they are containers. -/
structure Governs (I : Props → Declarations → Surroundings → Prop) (R : Relation) : Prop where
  relates : ∀ {p d s q box}, I p d s → q.box = some box →
    R p d q (Style.resolve q box (Role.ofProps q) s)
  passes : ∀ {p d s q box}, I p d s → q.box = some box → Role.ofProps q = .container →
    I q (Style.resolve q box (Role.ofProps q) s) (s.within q)

section Walk

variable {o : Options} {final : Stylesheet} {R : Relation}
  {I : Props → Declarations → Surroundings → Prop}

mutual

/-- A node that is shown has an element, and it bears what the invariant gives. -/
theorem bears_styled? (hfinal : o.styleMode = .stylesheet → IsPageSheet final)
    (hI : Governs I R) :
    ∀ (n : Node) {p : Props} {d : Declarations} {s : Surroundings} (sheet : Stylesheet),
      I p d s → n.props.isRenderable = true →
      ∃ e, n.styled? s = some e ∧ ((e.markup o sheet).2.rules <+: final.rules →
        Bears final.entries R p d n (e.markup o sheet).1.unquoted)
  | ⟨q, children⟩, p, d, s, sheet, hp, h => by
    obtain ⟨box, hbox, he⟩ := Node.styled?_eq_some h children s
    refine ⟨_, he, fun hprefix => ?_⟩
    have hstyle := isStyle_resolve q box (Role.ofProps q) s
    simp only [Styled.markup] at hprefix ⊢
    by_cases hrole : Role.ofProps q = .container
    · -- the rule of the element stands before those of its children, so it is a final one too
      have hinside := Styled.prefix_markupAll o
        (Node.everyAll_styledAll isStyle_resolve children (s.within q))
        (o.styleAttribute (Style.resolve q box (Role.ofProps q) s) sheet).2
      have hrecurses : (Role.ofProps q).recurses = true := by rw [hrole]; rfl
      rw [if_pos hrecurses] at hprefix ⊢
      refine bears_element (declarationsOf_element hfinal _ _ hstyle (hinside.trans hprefix))
        (hI.relates hp hbox) fun _ => ?_
      exact bearsAll_styledAll hfinal hI children _ (hI.passes hp hbox hrole) hprefix
    · have hrecurses : (Role.ofProps q).recurses = false := beq_false_of_ne hrole
      rw [hrecurses, if_neg Bool.false_ne_true] at hprefix ⊢
      exact bears_element (declarationsOf_element hfinal _ _ hstyle hprefix)
        (hI.relates hp hbox) fun hcontainer => absurd hcontainer hrole

/-- **What the invariant gives for one node it gives for all elements,** for any stylesheet
    that begins with the one that was made with the elements. -/
theorem bearsAll_styledAll (hfinal : o.styleMode = .stylesheet → IsPageSheet final)
    (hI : Governs I R) :
    ∀ (nodes : List Node) {p : Props} {d : Declarations} {s : Surroundings} (sheet : Stylesheet),
      I p d s → (Styled.markupAll o (Node.styledAll s nodes) sheet).2.rules <+: final.rules →
      BearsAll final.entries R p d nodes
        (unquotedAll (Styled.markupAll o (Node.styledAll s nodes) sheet).1)
  | [], _, _, _, _, _, _ => .nil
  | n :: rest, p, d, s, sheet, hp, hprefix => by
    by_cases h : n.props.isRenderable = true
    · obtain ⟨e, he, hbears⟩ := bears_styled? hfinal hI n sheet hp h
      rw [Node.styledAll_cons_some he] at hprefix ⊢
      have hrest := Styled.prefix_markupAll o
        (Node.everyAll_styledAll isStyle_resolve rest s) (e.markup o sheet).2
      exact .shown h (hbears (hrest.trans hprefix))
        (bearsAll_styledAll hfinal hI rest (e.markup o sheet).2 hp hprefix)
    · rw [Node.styledAll_cons_hidden h] at hprefix ⊢
      exact .hidden (Bool.eq_false_iff.mpr h)
        (bearsAll_styledAll hfinal hI rest sheet hp hprefix)

end

end Walk

/-! ### The page -/

section Page

variable (root : Node) (o : Options)

/-- The stylesheet that is made with the page of a root. -/
def pageSheet : Stylesheet :=
  (Styled.markupAll o (root.content o.coordinates)
    (Session.rootAttributes o (Style.root root.props) .empty).2).2

/-- The attributes of the container of a page, as they are read. -/
def pageAttributes : List Attribute :=
  (Session.rootAttributes o (Style.root root.props) .empty).1.map unquotedAttribute

/-- The elements in the container of a page, as they are read. -/
def pageElements : List Element :=
  unquotedAll (Styled.markupAll o (root.content o.coordinates)
    (Session.rootAttributes o (Style.root root.props) .empty).2).1

theorem read?_page : Markup.read? (compileRoot root o).html =
    some [.branch "div" (pageAttributes root o) (pageElements root o)] :=
  read?_container o (Style.root root.props) (root.content o.coordinates) .empty _

variable {o} in
theorem isPageSheet_pageSheet (ho : o.styleMode = .stylesheet) : IsPageSheet (pageSheet root o) := by
  have hstart : (Session.rootAttributes o (Style.root root.props) .empty).2 =
      Stylesheet.empty.add rootClass (Style.root root.props) := by
    rw [Session.rootAttributes, ho]
  rw [pageSheet, hstart]
  exact isPageSheet_markupAll o root

/-- **The stylesheet of a page reads back to its rules,** also if it is empty. -/
theorem read?_css : Stylesheet.read? (compileRoot root o).css = some (pageSheet root o).entries := by
  cases hmode : o.styleMode with
  | inline =>
    have hstyle : Styled.EveryAll Declarations.IsStyle (root.content o.coordinates) :=
      Node.everyAll_styledAll isStyle_resolve root.children _
    have hempty : (pageSheet root o).rules = [] := by
      rw [pageSheet, Styled.sheet_markupAll_inline hmode hstyle, Session.rootAttributes, hmode]
      rfl
    exact Stylesheet.read?_text fun _ hrule => absurd (hempty ▸ hrule) List.not_mem_nil
  | stylesheet => exact (isPageSheet_pageSheet root hmode).read?_text

theorem declarationsOf_page :
    declarationsOf (pageSheet root o).entries (pageAttributes root o) =
      some (Style.root root.props) :=
  declarationsOf_root (isPageSheet_pageSheet root) (Style.plain_root root.props)
    (Styled.prefix_markupAll o (Node.everyAll_styledAll isStyle_resolve root.children _) _)

end Page

/-- **The elements of a page bear what an invariant gives,** if it holds at the root. -/
theorem bears_compileRoot {I : Props → Declarations → Surroundings → Prop} {R : Relation}
    (hI : Governs I R) (root : Node) (o : Options)
    (hroot : I root.props (Style.root root.props) (.below o.coordinates root.props)) :
    ∃ rules attributes elements,
      Markup.read? (compileRoot root o).html = some [.branch "div" attributes elements] ∧
      Stylesheet.read? (compileRoot root o).css = some rules ∧
      declarationsOf rules attributes = some (Style.root root.props) ∧
      BearsAll rules R root.props (Style.root root.props) root.children elements := by
  refine ⟨(pageSheet root o).entries, pageAttributes root o, pageElements root o,
    read?_page root o, read?_css root o, declarationsOf_page root o, ?_⟩
  exact bearsAll_styledAll (isPageSheet_pageSheet root) hI root.children _ hroot
    (List.prefix_refl _)

end DesignMarkup
