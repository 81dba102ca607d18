/-
  DesignMarkup/Proofs/Page/Depiction.lean
  =======================================
  **What a reader finds in the markup of a design.**  `Depicts` says what element
  stands for a node that is shown: a paragraph with the characters of a text, an image
  without content, or a container with the elements of the children that are shown, in
  their order.  Names, characters and addresses occur in it as values and as text only,
  so that none of them can have a say in which tags and attributes there are.

  The proof follows the design down to the markup.  Every element that is written is
  in the language of the reader (`areReadable_markupAll`), and what the reader makes of
  it depicts the node that it was made for (`depictsAll_styledAll`).
  `read?_compileRoot` puts both together with the round trip of `Markup.read?_text`.
-/
import DesignMarkup.Page.Compile
import DesignMarkup.Proofs.Markup.Reading
import DesignMarkup.Proofs.Page.Styled
import DesignMarkup.Proofs.Style.Plain

namespace DesignMarkup

open Markup

/-- The name of the attribute by which an element gets its style. -/
def StyleMode.attributeName : StyleMode → String
  | .inline => "style"
  | .stylesheet => "class"

mutual

/-- `Depicts o n e`: in a page made with the choices `o`, the element `e` stands for the
    node `n`.  The value of the last attribute is left open. -/
inductive Depicts (o : Options) : Node → Element → Prop
  /-- A text is a paragraph with its characters. -/
  | text {p : Props} {children : List Node} {style : String} (h : Role.ofProps p = .text) :
    Depicts o ⟨p, children⟩
      (.leaf "p" [(o.styleMode.attributeName, style)] (p.characters.getD ""))
  /-- An image is void and carries its name twice. -/
  | image {p : Props} {children : List Node} {style : String} (h : Role.ofProps p = .image) :
    Depicts o ⟨p, children⟩
      (.void "img"
        [("src", unquoted (o.source ⟨p.id, p.name, .image⟩)), ("alt", unquoted p.name),
          ("data-figma-name", unquoted p.name), (o.styleMode.attributeName, style)])
  /-- An icon is void and carries its name once. -/
  | icon {p : Props} {children : List Node} {style : String} (h : Role.ofProps p = .icon) :
    Depicts o ⟨p, children⟩
      (.void "img"
        [("src", unquoted (o.source ⟨p.id, p.name, .icon⟩)), ("alt", unquoted p.name),
          (o.styleMode.attributeName, style)])
  /-- A container holds what depicts its children. -/
  | container {p : Props} {children : List Node} {style : String} {elements : List Element}
    (h : Role.ofProps p = .container) (hc : DepictsAll o children elements) :
    Depicts o ⟨p, children⟩ (.branch "div" [(o.styleMode.attributeName, style)] elements)

/-- `DepictsAll o nodes elements`: the elements stand for those of the nodes that are
    shown, one for each and in the same order. -/
inductive DepictsAll (o : Options) : List Node → List Element → Prop
  | nil : DepictsAll o [] []
  | hidden {n : Node} {rest : List Node} {elements : List Element}
    (h : n.props.isRenderable = false) (hr : DepictsAll o rest elements) :
    DepictsAll o (n :: rest) elements
  | shown {n : Node} {rest : List Node} {e : Element} {elements : List Element}
    (h : n.props.isRenderable = true) (he : Depicts o n e) (hr : DepictsAll o rest elements) :
    DepictsAll o (n :: rest) (e :: elements)

end

/-! ### Styles as attributes -/

/-- An element with declarations has one attribute for them, whatever the mode. -/
theorem exists_styleAttribute (o : Options) {d : Declarations} (hd : d.isEmpty = false)
    (sheet : Stylesheet) :
    ∃ value, (o.styleAttribute d sheet).1 = [(o.styleMode.attributeName, value)] := by
  unfold Options.styleAttribute
  cases o.styleMode with
  | inline => exact ⟨d.text, rfl⟩
  | stylesheet => exact ⟨(sheet.request d).1.text, by rw [hd]; rfl⟩

theorem areNamed_styleAttribute (o : Options) (d : Declarations) (sheet : Stylesheet) :
    AreNamed (o.styleAttribute d sheet).1 := by
  have hstyle : IsName "style" := by decide
  have hclass : IsName "class" := by decide
  unfold Options.styleAttribute AreNamed
  cases o.styleMode with
  | inline => simpa using hstyle
  | stylesheet =>
    cases d.isEmpty with
    | true => simp
    | false => simpa using hclass

theorem areNamed_ownAttributes (o : Options) (role : Role) (label : Label) :
    AreNamed (o.ownAttributes role label) := by
  have hsrc : IsName "src" := by decide
  have halt : IsName "alt" := by decide
  have hname : IsName "data-figma-name" := by decide
  unfold Options.ownAttributes AreNamed
  cases role with
  | text => simp
  | image => simp [hsrc, halt, hname]
  | icon => simp [hsrc, halt]
  | container => simp

/-! ### Everything that is written can be read -/

theorem areNamed_append {first rest : List Attribute} (hfirst : AreNamed first)
    (hrest : AreNamed rest) : AreNamed (first ++ rest) := by
  intro a ha
  rcases List.mem_append.mp ha with ha | ha
  · exact hfirst a ha
  · exact hrest a ha

theorem isReadable_element {role : Role} {attributes : List Attribute} {text : String}
    {children : List Element} (h : AreNamed attributes) (hc : AreReadable children) :
    (role.element attributes text children).IsReadable := by
  cases role with
  | text => exact ⟨rfl, h⟩
  | image => exact ⟨rfl, h⟩
  | icon => exact ⟨rfl, h⟩
  | container => exact ⟨rfl, h, hc⟩

mutual

theorem isReadable_markup (o : Options) :
    ∀ (e : Styled) (sheet : Stylesheet), (Styled.markup o e sheet).1.IsReadable
  | ⟨role, label, declarations, children⟩, sheet => by
    have hchildren := areReadable_markupAll o children (o.styleAttribute declarations sheet).2
    exact isReadable_element (areNamed_append (areNamed_ownAttributes o role label)
      (areNamed_styleAttribute o declarations sheet)) hchildren

theorem areReadable_markupAll (o : Options) :
    ∀ (content : List Styled) (sheet : Stylesheet),
      AreReadable (Styled.markupAll o content sheet).1
  | [], _ => trivial
  | e :: rest, sheet =>
    ⟨isReadable_markup o e sheet, areReadable_markupAll o rest (Styled.markup o e sheet).2⟩

end

/-! ### What is read depicts the design -/

theorem depicts_element (o : Options) {p : Props} {children : List Node} (style : String)
    {written : List Element}
    (hc : Role.ofProps p = .container → DepictsAll o children (unquotedAll written)) :
    Depicts o ⟨p, children⟩
      ((Role.ofProps p).element
        (o.ownAttributes (Role.ofProps p) p.label ++ [(o.styleMode.attributeName, style)])
        p.label.characters written).unquoted := by
  cases hrole : Role.ofProps p with
  | text => exact .text hrole
  | image => exact .image hrole
  | icon => exact .icon hrole
  | container => exact .container hrole (hc hrole)

mutual

/-- A node that is shown has an element, and a reader gets from it what depicts the node. -/
theorem depicts_styled? (o : Options) :
    ∀ (n : Node) (s : Surroundings) (sheet : Stylesheet), n.props.isRenderable = true →
      ∃ e, n.styled? s = some e ∧ Depicts o n (Styled.markup o e sheet).1.unquoted
  | ⟨p, children⟩, s, sheet, h => by
    obtain ⟨box, -, he⟩ := Node.styled?_eq_some h children s
    refine ⟨_, he, ?_⟩
    obtain ⟨style, hstyle⟩ := exists_styleAttribute o
      (Style.isEmpty_resolve p box (Role.ofProps p) s) sheet
    simp only [Styled.markup, hstyle]
    apply depicts_element
    intro hrole
    rw [hrole]
    exact depictsAll_styledAll o children (s.within p) _

/-- **What a reader gets from the elements of several nodes depicts these nodes.** -/
theorem depictsAll_styledAll (o : Options) :
    ∀ (nodes : List Node) (s : Surroundings) (sheet : Stylesheet),
      DepictsAll o nodes (unquotedAll (Styled.markupAll o (Node.styledAll s nodes) sheet).1)
  | [], _, _ => .nil
  | n :: rest, s, sheet => by
    by_cases h : n.props.isRenderable = true
    · obtain ⟨e, he, hdepicts⟩ := depicts_styled? o n s sheet h
      rw [Node.styledAll_cons_some he]
      exact .shown h hdepicts (depictsAll_styledAll o rest s (Styled.markup o e sheet).2)
    · rw [Node.styledAll_cons_hidden h]
      exact .hidden (Bool.eq_false_iff.mpr h) (depictsAll_styledAll o rest s sheet)

end

/-! ### The page -/

def StyleMode.rootAttributeNames : StyleMode → List String
  | .inline => ["class", "style"]
  | .stylesheet => ["class"]

theorem rootAttributes_names (o : Options) (d : Declarations) (sheet : Stylesheet) :
    (Session.rootAttributes o d sheet).1.map Prod.fst = o.styleMode.rootAttributeNames := by
  unfold Session.rootAttributes
  cases o.styleMode <;> rfl

theorem areNamed_rootAttributes (o : Options) (d : Declarations) (sheet : Stylesheet) :
    AreNamed (Session.rootAttributes o d sheet).1 := by
  have hnames : ∀ name ∈ o.styleMode.rootAttributeNames, IsName name := by
    cases o.styleMode <;> decide
  intro a ha
  have hmem := List.mem_map_of_mem (f := Prod.fst) ha
  rw [rootAttributes_names] at hmem
  exact hnames a.1 hmem

theorem rootAttributes_class (o : Options) (d : Declarations) (sheet : Stylesheet) :
    ((Session.rootAttributes o d sheet).1.map unquotedAttribute).lookup "class" =
      some "figma-root" := by
  have hclass : unquotedAttribute ("class", rootClass) = ("class", "figma-root") := by decide
  unfold Session.rootAttributes
  cases o.styleMode with
  | inline => rw [List.map_cons, hclass, List.lookup_cons_self]
  | stylesheet => rw [List.map_cons, hclass, List.lookup_cons_self]

/-- The container of a page and its content are what a reader gets, whatever stylesheets the
    attributes and the elements were made with. -/
theorem read?_container (o : Options) (d : Declarations) (content : List Styled)
    (sheet sheet' : Stylesheet) :
    Markup.read? (Fragment.text ⟨(Session.rootAttributes o d sheet).1,
      (Styled.markupAll o content sheet').1⟩) =
      some [.branch "div" ((Session.rootAttributes o d sheet).1.map unquotedAttribute)
        (unquotedAll (Styled.markupAll o content sheet').1)] :=
  read?_text (areNamed_rootAttributes o d sheet) (areReadable_markupAll o content sheet')

/-- **Markup reads back to the tree.**  The markup of any design is accepted by the
    reader, and is one container of the class of pages whose content depicts the
    children of the root. -/
theorem read?_compileRoot (root : Node) (o : Options) :
    ∃ attributes elements,
      Markup.read? (compileRoot root o).html = some [.branch "div" attributes elements] ∧
        attributes.map Prod.fst = o.styleMode.rootAttributeNames ∧
        attributes.lookup "class" = some "figma-root" ∧
        DepictsAll o root.children elements := by
  let d := Style.root root.props
  let sheet := (Session.rootAttributes o d .empty).2
  have hread := read?_container o d (root.content o.coordinates) .empty sheet
  refine ⟨_, _, hread, ?_, rootAttributes_class o d .empty, ?_⟩
  · rw [List.map_map]
    exact rootAttributes_names o d .empty
  · exact depictsAll_styledAll o root.children (.below o.coordinates root.props) sheet

end DesignMarkup
