/-
  DesignMarkup/Proofs/Page/Inlining.lean
  ======================================
  **Styles in a stylesheet say what styles in the elements say.**  `restyle` takes the
  rules of a stylesheet and writes them into the tags of a page: the class of an
  element gives way to the declarations of that class, and the container of the page,
  which keeps its class, gets its declarations besides.

  The class of an element is chosen while the stylesheet is still growing, and the rules
  that `restyle` sees are those at the end.  What connects the two is that rules stay
  where they are (`Styled.prefix_markupAll`) and that a class has one rule
  (`IsPageSheet.nodup_entries`): so the class that a request gave is found again under
  its declarations (`lookup_request`).  From there `restyled_markupAll` follows both ways
  of writing the same styled tree, token by token.
-/
import DesignMarkup.Proofs.Page.Depiction
import DesignMarkup.Proofs.Page.Writing

namespace DesignMarkup

open Markup

/-! ### Writing rules into tags -/

/-- What stands for an attribute once a class has given way to its declarations. -/
def resolveClass (rules : List Stylesheet.Entry) (a : Attribute) : List Attribute :=
  if a.1 = "class" then
    match rules.lookup a.2 with
    | some d => if a.2 = rootClass then [a, ("style", d.text)] else [("style", d.text)]
    | none => [a]
  else [a]

/-- A token with declarations for classes. -/
def Markup.Token.restyled (rules : List Stylesheet.Entry) : Token → Token
  | .opening tag attributes slashed =>
    .opening tag (attributes.flatMap (resolveClass rules)) slashed
  | .closing tag => .closing tag
  | .char c => .char c

/-- Markup with declarations for classes.  Nothing but opening tags changes. -/
def restyle (rules : List Stylesheet.Entry) (html : String) : Option String :=
  (tokens? html).map fun tokens =>
    String.ofList ((tokens.map (Token.restyled rules)).flatMap Token.chars)

/-! ### Attributes -/

theorem harmless_of_plain {c : Char} (h : isPlainChar c = true) : isHarmless c = true := by
  by_contra hc
  simp only [isHarmless, isReserved, Bool.and_eq_true, Bool.not_eq_true', Bool.or_eq_false_iff,
    beq_eq_false_iff_ne, bne_iff_ne, not_and_or, not_not] at hc
  rcases hc with ((rfl | rfl) | rfl) | rfl <;> exact absurd h (by decide)

theorem escapeAttribute_of_plain {text : String} (h : IsPlain text) :
    escapeAttribute text = text :=
  escapeAttribute_eq_self fun c hc => harmless_of_plain (h c hc)

theorem plain_numbered (n : Nat) : IsPlain (ClassName.numbered n).text :=
  plain_append (by decide) (plain_ofList plain_toDigits)

theorem harmless_declarations {d : Declarations} (h : d.ArePlain) :
    ∀ c ∈ d.text.toList, isHarmless c = true := by
  have hspace : " ".toList.all isHarmless = true := by decide
  have hcolon : ": ".toList.all isHarmless = true := by decide
  have hsemicolon : ";".toList.all isHarmless = true := by decide
  refine forall_mem_intercalate (List.all_eq_true.mp hspace) fun part hpart c hc => ?_
  obtain ⟨pair, hpair, rfl⟩ := List.mem_map.mp hpart
  obtain ⟨hproperty, hvalue⟩ := h pair hpair
  simp only [Declarations.declarationText, String.toList_append, List.mem_append] at hc
  rcases hc with ((hc | hc) | hc) | hc
  · exact harmless_of_plain (hproperty c hc)
  · exact List.all_eq_true.mp hcolon c hc
  · exact harmless_of_plain (hvalue c hc)
  · exact List.all_eq_true.mp hsemicolon c hc

/-- Plain declarations stand between the quotes of an attribute as they are. -/
theorem escapeAttribute_declarations {d : Declarations} (h : d.ArePlain) :
    escapeAttribute d.text = d.text :=
  escapeAttribute_eq_self (harmless_declarations h)

theorem resolveClass_of_ne {attributes : List Attribute} (h : ∀ a ∈ attributes, a.1 ≠ "class")
    (rules : List Stylesheet.Entry) : attributes.flatMap (resolveClass rules) = attributes := by
  induction attributes with
  | nil => rfl
  | cons a rest ih =>
    rw [List.flatMap_cons, ih fun b hb => h b (List.mem_cons_of_mem a hb), resolveClass,
      if_neg (h a List.mem_cons_self), List.singleton_append]

theorem ownAttributes_ne_class (o : Options) (role : Role) (label : Label) :
    ∀ a ∈ (o.ownAttributes role label).map writtenAttribute, a.1 ≠ "class" := by
  cases role <;> simp [Options.ownAttributes, writtenAttribute]

/-- Each class with a number is found among `rules`, under its declarations. -/
def Stylesheet.IsFoundIn (s : Stylesheet) (rules : List Stylesheet.Entry) : Prop :=
  ∀ n d, ⟨.numbered n, d⟩ ∈ s.rules → rules.lookup (ClassName.numbered n).text = some d

theorem IsSessionSheet.isFoundIn {s : Stylesheet} (hs : IsSessionSheet s) :
    s.IsFoundIn s.entries :=
  fun _ _ hrule => (hs.hasOneRule hrule).lookup

/-- **The class of an element is found again at the end.**  Whatever was asked for after
    it, its rule has the declarations that the element asked for. -/
theorem lookup_request {final : Stylesheet} {rules : List Stylesheet.Entry}
    (hrules : final.IsFoundIn rules) {sheet : Stylesheet} {d : Declarations}
    (h : (sheet.request d).2.rules <+: final.rules) :
    ∃ d', rules.lookup (sheet.request d).1.text = some d' ∧ d'.text = d.text := by
  obtain ⟨n, hn, rule, hrule, hclass, htext⟩ := sheet.exists_rule_request d
  obtain ⟨className, d'⟩ := rule
  obtain rfl : className = .numbered n := hclass
  rw [hn]
  exact ⟨d', hrules n d' (h.subset hrule), htext⟩

/-- The attribute for declarations, with its class resolved, is the one that holds them. -/
theorem resolveClass_styleAttribute {final : Stylesheet} {rules : List Stylesheet.Entry}
    (hrules : final.IsFoundIn rules) (o : Options) (ho : o.styleMode = .stylesheet)
    {d : Declarations} (hd : d.isEmpty = false) {sheet : Stylesheet}
    (h : (o.styleAttribute d sheet).2.rules <+: final.rules) :
    ((o.styleAttribute d sheet).1.map writtenAttribute).flatMap (resolveClass rules) =
      [("style", d.text)] := by
  rw [Options.styleAttribute_stylesheet ho hd] at h ⊢
  obtain ⟨d', hlookup, htext⟩ := lookup_request hrules h
  obtain ⟨n, hn, -⟩ := sheet.exists_rule_request d
  have hwritten : writtenAttribute ("class", (sheet.request d).1.text) =
      ("class", (sheet.request d).1.text) := by
    rw [writtenAttribute, hn, escapeAttribute_of_plain (plain_numbered n)]
  have hroot : (sheet.request d).1.text ≠ rootClass := by
    rw [hn]
    exact text_numbered_ne_rootClass n
  rw [List.map_cons, List.map_nil, hwritten, List.flatMap_cons, List.flatMap_nil,
    List.append_nil, resolveClass, if_pos rfl]
  simp only [hlookup, if_neg hroot, htext]

/-! ### Tokens -/

section Tokens

variable (rules : List Stylesheet.Entry)

theorem restyled_indentTokens (depth : Nat) :
    (indentTokens depth).map (Token.restyled rules) = indentTokens depth := by
  rw [indentTokens, List.map_replicate]
  rfl

theorem restyled_contentTokens (text : String) :
    (text.toList.flatMap contentTokens).map (Token.restyled rules) =
      text.toList.flatMap contentTokens := by
  have hchar : ∀ c, (contentTokens c).map (Token.restyled rules) = contentTokens c := by
    intro c
    unfold contentTokens
    split_ifs
    · rfl
    · rw [List.map_map]
      rfl
  simp only [List.map_flatMap, hchar]

/-- Two elements of a role differ in their tags as their attributes do, and inside as
    their children do. -/
theorem restyled_tokens_element {role : Role} {attributes attributes' : List Attribute}
    {text : String} {children children' : List Element} {depth : Nat}
    (htag : (openingToken role.tag attributes).restyled rules = openingToken role.tag attributes')
    (hlength : children.length = children'.length)
    (hchildren : (elementsTokens (depth + 1) children).map (Token.restyled rules) =
      elementsTokens (depth + 1) children') :
    ((role.element attributes text children).tokens depth).map (Token.restyled rules) =
      (role.element attributes' text children').tokens depth := by
  cases role with
  | text =>
    simp only [Role.element, Element.tokens, List.map_append, List.map_cons, List.map_nil,
      restyled_indentTokens, restyled_contentTokens, htag]
    rfl
  | image | icon =>
    simp only [Role.element, Element.tokens, List.map_append, List.map_cons, List.map_nil,
      restyled_indentTokens, htag]
    rfl
  | container =>
    cases children with
    | nil =>
      obtain rfl := List.length_eq_zero_iff.mp hlength.symm
      simp only [Role.element, Element.tokens, List.map_append, List.map_cons, List.map_nil,
        restyled_indentTokens, htag]
      rfl
    | cons first rest =>
      obtain ⟨first', rest', rfl⟩ :=
        List.exists_cons_of_length_eq_add_one (hlength.symm.trans List.length_cons)
      simp only [Role.element, Element.tokens, List.map_append, List.map_cons, List.map_nil,
        restyled_indentTokens, htag, hchildren]
      rfl

end Tokens

/-- Rules that turn the tags of one page into those of another turn its text into that of
    the other. -/
theorem restyle_text {rules : List Stylesheet.Entry} {f f' : Fragment}
    (hnamed : AreNamed f.attributes) (hreadable : AreReadable f.children)
    (htag : (openingToken "div" f.attributes).restyled rules = openingToken "div" f'.attributes)
    (hbelow : (elementsTokens 1 f.children).map (Token.restyled rules) =
      elementsTokens 1 f'.children) :
    restyle rules f.text = some f'.text := by
  have htokens : f.tokens.map (Token.restyled rules) = f'.tokens := by
    simp only [Fragment.tokens, List.map_append, List.map_cons, List.map_nil, htag, hbelow]
    rfl
  rw [restyle, tokens?_text hnamed hreadable, Option.map_some, htokens, Fragment.chars_tokens,
    String.ofList_toList]

/-! ### Both ways of writing the same page -/

/-- Declarations as every element of a design has them. -/
structure Declarations.IsStyle (d : Declarations) : Prop where
  plain : d.ArePlain
  nonempty : d.isEmpty = false

theorem isStyle_resolve (p : Props) (box : Rect) (role : Role) (s : Surroundings) :
    (Style.resolve p box role s).IsStyle :=
  ⟨Style.plain_resolve p box role s, Style.isEmpty_resolve p box role s⟩

section Simulation

variable {coordinates : Coordinates} {urls : List (String × String)} {final : Stylesheet}
  {rules : List Stylesheet.Entry}

/-- The tag of an element with its class resolved is the tag with its declarations. -/
theorem restyled_openingToken (hrules : final.IsFoundIn rules) (role : Role) (label : Label)
    {d : Declarations} (hd : d.IsStyle) {sheet : Stylesheet} (sheet' : Stylesheet)
    (h : (Options.styleAttribute ⟨.stylesheet, coordinates, urls⟩ d sheet).2.rules
      <+: final.rules) :
    (openingToken role.tag
        (Options.ownAttributes ⟨.stylesheet, coordinates, urls⟩ role label
          ++ (Options.styleAttribute ⟨.stylesheet, coordinates, urls⟩ d sheet).1)).restyled
        rules =
      openingToken role.tag
        (Options.ownAttributes ⟨.inline, coordinates, urls⟩ role label
          ++ (Options.styleAttribute ⟨.inline, coordinates, urls⟩ d sheet').1) := by
  have hstyle := resolveClass_styleAttribute hrules _ rfl hd.nonempty h
  have hown := resolveClass_of_ne (ownAttributes_ne_class ⟨.stylesheet, coordinates, urls⟩
    role label) rules
  rw [openingToken, Token.restyled, List.map_append, List.flatMap_append, hown, hstyle,
    openingToken, List.map_append]
  simp only [Options.styleAttribute, List.map_cons, List.map_nil, writtenAttribute,
    escapeAttribute_declarations hd.plain]
  rfl

mutual

theorem restyled_markup (hrules : final.IsFoundIn rules) :
    ∀ e : Styled, e.Every Declarations.IsStyle → ∀ (sheet sheet' : Stylesheet) (depth : Nat),
      (e.markup ⟨.stylesheet, coordinates, urls⟩ sheet).2.rules <+: final.rules →
      ((e.markup ⟨.stylesheet, coordinates, urls⟩ sheet).1.tokens depth).map
          (Token.restyled rules) =
        (e.markup ⟨.inline, coordinates, urls⟩ sheet').1.tokens depth
  | ⟨role, label, declarations, children⟩, he, sheet, sheet', depth, h => by
    have hchildren := restyled_markupAll hrules children he.2 _ sheet' (depth + 1) h
    -- the rules after the tag are among those after the children, and these among the final ones
    have hprefix := (Styled.prefix_markupAll ⟨.stylesheet, coordinates, urls⟩ he.2 _).trans h
    refine restyled_tokens_element rules ?_ ?_ hchildren
    · exact restyled_openingToken hrules role label he.1 sheet' hprefix
    · exact (Styled.length_markupAll _ children _).trans
        (Styled.length_markupAll _ children _).symm

/-- **Resolving the classes of elements gives the elements with inline styles,** for any
    stylesheet that begins with the one that was made with the elements. -/
theorem restyled_markupAll (hrules : final.IsFoundIn rules) :
    ∀ content : List Styled, Styled.EveryAll Declarations.IsStyle content →
      ∀ (sheet sheet' : Stylesheet) (depth : Nat),
      (Styled.markupAll ⟨.stylesheet, coordinates, urls⟩ content sheet).2.rules <+: final.rules →
      (elementsTokens depth
          (Styled.markupAll ⟨.stylesheet, coordinates, urls⟩ content sheet).1).map
          (Token.restyled rules) =
        elementsTokens depth (Styled.markupAll ⟨.inline, coordinates, urls⟩ content sheet').1
  | [], _, _, _, _, _ => rfl
  | e :: rest, hcontent, sheet, sheet', depth, h => by
    have hprefix :=
      (Styled.prefix_markupAll ⟨.stylesheet, coordinates, urls⟩ hcontent.2 _).trans h
    simp only [Styled.markupAll, elementsTokens, List.map_append]
    rw [restyled_markup hrules e hcontent.1 sheet sheet' depth hprefix,
      restyled_markupAll hrules rest hcontent.2 _ _ depth h]

end

end Simulation

theorem isPageSheet_markupAll (o : Options) (root : Node) :
    IsPageSheet (Styled.markupAll o (root.content o.coordinates)
      (Stylesheet.empty.add rootClass (Style.root root.props))).2 :=
  Styled.markupAll_preserves (Styled.styleAttribute_preserves fun _ _ hd hs => hs.request hd) _
    (Node.everyAll_styledAll Style.plain_resolve root.children _) _
    (.add (Style.plain_root root.props))

/-- The tag of a page with its class resolved has the declarations of the page besides. -/
theorem restyled_rootToken {final : Stylesheet} (hfinal : IsPageSheet final) {d : Declarations}
    (hd : d.ArePlain) (h : ⟨.named rootClass, d⟩ ∈ final.rules) :
    (openingToken "div" [("class", rootClass)]).restyled final.entries =
      openingToken "div" [("class", rootClass), ("style", d.text)] := by
  have hlookup : final.entries.lookup rootClass = some d :=
    Stylesheet.lookup_entries hfinal.nodup_entries h
  have hclass : writtenAttribute ("class", rootClass) = ("class", rootClass) := by
    rw [writtenAttribute, escapeAttribute_of_plain (by decide)]
  have hstyle : writtenAttribute ("style", d.text) = ("style", d.text) := by
    rw [writtenAttribute, escapeAttribute_declarations hd]
  simp only [openingToken, Token.restyled, List.map_cons, List.map_nil, hclass, hstyle,
    List.flatMap_cons, List.flatMap_nil, resolveClass, hlookup, if_true]
  rfl

/-- **Both styles of output say the same.**  The stylesheet reads back to rules with
    different classes; writing these rules into the page gives, character by character,
    the page with inline styles.  The assets are the same, and with inline styles there
    is no stylesheet. -/
theorem restyle_compileRoot (root : Node) (coordinates : Coordinates)
    (urls : List (String × String)) :
    (∃ rules,
      Stylesheet.read? (compileRoot root ⟨.stylesheet, coordinates, urls⟩).css = some rules ∧
      (rules.map Prod.fst).Nodup ∧
      restyle rules (compileRoot root ⟨.stylesheet, coordinates, urls⟩).html =
        some (compileRoot root ⟨.inline, coordinates, urls⟩).html) ∧
    (compileRoot root ⟨.stylesheet, coordinates, urls⟩).assets =
      (compileRoot root ⟨.inline, coordinates, urls⟩).assets ∧
    (compileRoot root ⟨.inline, coordinates, urls⟩).css = "" := by
  let content := root.content coordinates
  let d := Style.root root.props
  let sheet := Stylesheet.empty.add rootClass d
  let withClasses := Styled.markupAll ⟨.stylesheet, coordinates, urls⟩ content sheet
  let withStyles := Styled.markupAll ⟨.inline, coordinates, urls⟩ content .empty
  have hcontent : Styled.EveryAll Declarations.IsStyle content :=
    Node.everyAll_styledAll isStyle_resolve root.children _
  have hfinal : IsPageSheet withClasses.2 := isPageSheet_markupAll _ root
  have hplain : d.ArePlain := Style.plain_root root.props
  refine ⟨⟨withClasses.2.entries, hfinal.read?_text, hfinal.nodup_entries, ?_⟩, rfl, ?_⟩
  · refine restyle_text (areNamed_rootAttributes ⟨.stylesheet, coordinates, urls⟩ d .empty)
      (areReadable_markupAll _ content sheet) ?_ ?_
    · exact restyled_rootToken hfinal hplain
        ((Styled.prefix_markupAll _ hcontent sheet).subset List.mem_cons_self)
    · exact restyled_markupAll hfinal.isFoundIn content hcontent sheet .empty 1
        (List.prefix_refl _)
  · exact congrArg Stylesheet.text (Styled.sheet_markupAll_inline rfl hcontent .empty)

end DesignMarkup
