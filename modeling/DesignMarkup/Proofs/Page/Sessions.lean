/-
  DesignMarkup/Proofs/Page/Sessions.lean
  ======================================
  **A session never rewrites its past.**  Pages are made one after the other, each with
  choices of its own, and share a stylesheet and a manifest.  Every page is what it would
  be by itself: with inline styles to the letter, and with classes once these have given
  way to their declarations.  That holds in the stylesheet right after the page and in
  every later one, although later pages use its classes and add their own.

  What carries this from page to page is `IsSessionSheet`, which every page keeps
  (`isSessionSheet_pageWith`), and that rules are only ever added at the end
  (`prefix_pageWith`).  An element that was given a class then has exactly one rule for it
  in every later stylesheet (`Wears`).
-/
import DesignMarkup.Proofs.Page.Bearing

namespace DesignMarkup

open Markup
open Stylesheet (HasOneRule)

namespace Session

/-- A session without pages. -/
def fresh : Session := ⟨{}, .empty, .empty⟩

/-- The page of a root with choices of its own, and the session after it. -/
def pageWith (session : Session) (o : Options) (root : Node) : Fragment × Session :=
  { session with options := o }.page root

/-- The session after several pages. -/
def after (session : Session) : List (Options × Node) → Session
  | [] => session
  | (o, root) :: rest => (session.pageWith o root).2.after rest

/-! ### What a page keeps, and what any number of pages keep -/

/-- All that the container of a page can do to the stylesheet. -/
theorem rootAttributes_cases (o : Options) (d : Declarations) (sheet : Stylesheet) :
    (rootAttributes o d sheet).2 = sheet ∨
      (rootAttributes o d sheet).2 = sheet.add rootClass d := by
  unfold rootAttributes
  cases o.styleMode with
  | inline => exact Or.inl rfl
  | stylesheet => exact Or.inr rfl

theorem prefix_pageWith (session : Session) (o : Options) (root : Node) :
    session.sheet.rules <+: (session.pageWith o root).2.sheet.rules := by
  have hroot : session.sheet.rules <+:
      (rootAttributes o (Style.root root.props) session.sheet).2.rules := by
    rcases rootAttributes_cases o (Style.root root.props) session.sheet with h | h
    · exact ⟨[], by rw [h, List.append_nil]⟩
    · rw [h]
      exact List.prefix_append _ _
  exact hroot.trans (Styled.prefix_markupAll o
    (Node.everyAll_styledAll Style.plain_resolve root.children _) _)

theorem isSessionSheet_pageWith {session : Session} (h : IsSessionSheet session.sheet)
    (o : Options) (root : Node) : IsSessionSheet (session.pageWith o root).2.sheet := by
  have hroot : IsSessionSheet (rootAttributes o (Style.root root.props) session.sheet).2 := by
    rcases rootAttributes_cases o (Style.root root.props) session.sheet with heq | heq
    · rw [heq]
      exact h
    · rw [heq]
      exact h.add (Style.plain_root root.props)
  exact Styled.markupAll_preserves
    (Styled.styleAttribute_preserves fun _ _ hd hs => hs.request hd) _
    (Node.everyAll_styledAll Style.plain_resolve root.children _) _ hroot

theorem manifest_pageWith (session : Session) (o : Options) (root : Node) :
    (session.pageWith o root).2.manifest.entries =
      session.manifest.entries ++ (compileRoot root o).assets :=
  rfl

variable (session : Session) (steps : List (Options × Node))

theorem after_append (more : List (Options × Node)) :
    session.after (steps ++ more) = (session.after steps).after more := by
  induction steps generalizing session with
  | nil => rfl
  | cons step rest ih => exact ih (session.pageWith step.1 step.2).2

/-- **Rules stay where they are,** whatever pages are made. -/
theorem prefix_after : session.sheet.rules <+: (session.after steps).sheet.rules := by
  induction steps generalizing session with
  | nil => exact List.prefix_refl _
  | cons step rest ih => exact (session.prefix_pageWith step.1 step.2).trans (ih _)

theorem isSessionSheet_after {session : Session} (h : IsSessionSheet session.sheet) :
    IsSessionSheet (session.after steps).sheet := by
  induction steps generalizing session with
  | nil => exact h
  | cons step rest ih => exact ih (isSessionSheet_pageWith h step.1 step.2)

/-- **The assets of pages come one after the other.** -/
theorem manifest_after :
    (session.after steps).manifest.entries =
      session.manifest.entries ++ steps.flatMap fun step => (compileRoot step.2 step.1).assets := by
  induction steps generalizing session with
  | nil => exact (List.append_nil _).symm
  | cons step rest ih =>
    refine (ih _).trans ?_
    rw [manifest_pageWith, List.append_assoc, List.flatMap_cons]

end Session

/-- Rules that are added at the end are written at the end. -/
theorem Stylesheet.text_of_prefix {s t : Stylesheet} (h : s.rules <+: t.rules) :
    ∃ more, t.text = s.text ++ more := by
  obtain ⟨rest, hrest⟩ := h
  refine ⟨Stylesheet.text ⟨rest⟩, ?_⟩
  rw [text, text, text, ← hrest, List.map_append, String.join_append]

/-! ### The class of an element has one rule -/

/-- Attributes with one class, which has exactly one rule, and the same attributes with the
    declarations of that rule in its place. -/
inductive WearsClass (rules : List Stylesheet.Entry) : List Attribute → List Attribute → Prop
  | intro {own : List Attribute} {n : Nat} {d : Declarations}
    (hown : ∀ a ∈ own, a.1 ≠ "class") (h : HasOneRule rules (ClassName.numbered n).text d) :
    WearsClass rules (own ++ [("class", (ClassName.numbered n).text)])
      (own ++ [("style", d.text)])

mutual

/-- `Wears rules e e'`: the elements are the same but that the first one and everything in
    it has classes, each with exactly one rule, and the second one their declarations. -/
inductive Wears (rules : List Stylesheet.Entry) : Element → Element → Prop
  | void {tag : String} {attributes attributes' : List Attribute}
    (h : WearsClass rules attributes attributes') :
    Wears rules (.void tag attributes) (.void tag attributes')
  | leaf {tag text : String} {attributes attributes' : List Attribute}
    (h : WearsClass rules attributes attributes') :
    Wears rules (.leaf tag attributes text) (.leaf tag attributes' text)
  | branch {tag : String} {attributes attributes' : List Attribute}
    {children children' : List Element} (h : WearsClass rules attributes attributes')
    (hc : WearsAll rules children children') :
    Wears rules (.branch tag attributes children) (.branch tag attributes' children')

inductive WearsAll (rules : List Stylesheet.Entry) : List Element → List Element → Prop
  | nil : WearsAll rules [] []
  | cons {e e' : Element} {rest rest' : List Element} (he : Wears rules e e')
    (hr : WearsAll rules rest rest') : WearsAll rules (e :: rest) (e' :: rest')

end

theorem ownAttributes_unquoted_ne_class (o : Options) (role : Role) (label : Label) :
    ∀ a ∈ (o.ownAttributes role label).map unquotedAttribute, a.1 ≠ "class" := by
  cases role <;> simp [Options.ownAttributes, unquotedAttribute]

section Walk

variable {coordinates : Coordinates} {urls : List (String × String)} {final : Stylesheet}

theorem wearsClass_attributes (hfinal : IsSessionSheet final) (role : Role) (label : Label)
    {d : Declarations} (hd : d.IsStyle) {sheet : Stylesheet} (sheet' : Stylesheet)
    (h : (Options.styleAttribute ⟨.stylesheet, coordinates, urls⟩ d sheet).2.rules
      <+: final.rules) :
    WearsClass final.entries
      ((Options.ownAttributes ⟨.stylesheet, coordinates, urls⟩ role label
        ++ (Options.styleAttribute ⟨.stylesheet, coordinates, urls⟩ d sheet).1).map
        unquotedAttribute)
      ((Options.ownAttributes ⟨.inline, coordinates, urls⟩ role label
        ++ (Options.styleAttribute ⟨.inline, coordinates, urls⟩ d sheet').1).map
        unquotedAttribute) := by
  rw [Options.styleAttribute_stylesheet rfl hd.nonempty] at h ⊢
  obtain ⟨n, hn, hmem⟩ := numbered_request hfinal hd.plain h
  have hclass : unquotedAttribute ("class", (sheet.request d).1.text) =
      ("class", (ClassName.numbered n).text) := by
    rw [unquotedAttribute, hn, unquoted_numbered]
  have hstyle : unquotedAttribute ("style", d.text) = ("style", d.text) := by
    rw [unquotedAttribute, unquoted_declarations hd.plain]
  simp only [Options.styleAttribute, List.map_append, List.map_singleton, hclass, hstyle]
  exact .intro (ownAttributes_unquoted_ne_class ⟨.stylesheet, coordinates, urls⟩ role label)
    (hfinal.hasOneRule hmem)

theorem wears_element {rules : List Stylesheet.Entry} {role : Role}
    {attributes attributes' : List Attribute} {text : String} {children children' : List Element}
    (h : WearsClass rules (attributes.map unquotedAttribute) (attributes'.map unquotedAttribute))
    (hc : WearsAll rules (unquotedAll children) (unquotedAll children')) :
    Wears rules (role.element attributes text children).unquoted
      (role.element attributes' text children').unquoted := by
  cases role with
  | text => exact .leaf h
  | image => exact .void h
  | icon => exact .void h
  | container => exact .branch h hc

mutual

theorem wears_markup (hfinal : IsSessionSheet final) :
    ∀ e : Styled, e.Every Declarations.IsStyle → ∀ sheet sheet' : Stylesheet,
      (e.markup ⟨.stylesheet, coordinates, urls⟩ sheet).2.rules <+: final.rules →
      Wears final.entries (e.markup ⟨.stylesheet, coordinates, urls⟩ sheet).1.unquoted
        (e.markup ⟨.inline, coordinates, urls⟩ sheet').1.unquoted
  | ⟨role, label, declarations, children⟩, he, sheet, sheet', h => by
    have hprefix := (Styled.prefix_markupAll ⟨.stylesheet, coordinates, urls⟩ he.2 _).trans h
    apply wears_element
    · exact wearsClass_attributes hfinal role label he.1 sheet' hprefix
    · exact wearsAll_markupAll hfinal children he.2 _ sheet' h

/-- **What a page gives its elements, every later stylesheet keeps:** each class has one rule,
    with the declarations that the element has with inline styles. -/
theorem wearsAll_markupAll (hfinal : IsSessionSheet final) :
    ∀ content : List Styled, Styled.EveryAll Declarations.IsStyle content →
      ∀ sheet sheet' : Stylesheet,
      (Styled.markupAll ⟨.stylesheet, coordinates, urls⟩ content sheet).2.rules <+: final.rules →
      WearsAll final.entries
        (unquotedAll (Styled.markupAll ⟨.stylesheet, coordinates, urls⟩ content sheet).1)
        (unquotedAll (Styled.markupAll ⟨.inline, coordinates, urls⟩ content sheet').1)
  | [], _, _, _, _ => .nil
  | e :: rest, hcontent, sheet, sheet', h => by
    have hprefix :=
      (Styled.prefix_markupAll ⟨.stylesheet, coordinates, urls⟩ hcontent.2 _).trans h
    apply WearsAll.cons
    · exact wears_markup hfinal e hcontent.1 sheet sheet' hprefix
    · exact wearsAll_markupAll hfinal rest hcontent.2 _ _ h

end

/-! ### Classes that give way to their declarations -/

/-- The rules of elements, without those of the containers of pages. -/
def elementRules (rules : List Stylesheet.Entry) : List Stylesheet.Entry :=
  rules.filter fun rule => rule.1 != rootClass

theorem isFoundIn_elementRules (hfinal : IsSessionSheet final) :
    final.IsFoundIn (elementRules final.entries) := by
  intro n d hrule
  have hone : HasOneRule (elementRules final.entries) (ClassName.numbered n).text d := by
    rw [HasOneRule, elementRules, List.filter_filter, ← hfinal.hasOneRule hrule]
    apply List.filter_congr
    intro entry _
    by_cases hentry : entry.1 = (ClassName.numbered n).text
    · simp [hentry, text_numbered_ne_rootClass n]
    · simp [hentry]
  exact hone.lookup

theorem lookup_rootClass (rules : List Stylesheet.Entry) :
    (elementRules rules).lookup rootClass = none := by
  rw [List.lookup_eq_none_iff]
  intro entry hentry
  rw [elementRules, List.mem_filter, bne_iff_ne] at hentry
  exact bne_iff_ne.mpr hentry.2.symm

/-- The tag of a page has no class of an element. -/
theorem restyled_pageToken (rules : List Stylesheet.Entry) :
    (openingToken "div" [("class", rootClass)]).restyled (elementRules rules) =
      openingToken "div" [("class", rootClass)] := by
  have hclass : writtenAttribute ("class", rootClass) = ("class", rootClass) := by
    rw [writtenAttribute, escapeAttribute_of_plain (by decide)]
  simp only [openingToken, Token.restyled, List.map_cons, List.map_nil, hclass,
    List.flatMap_cons, List.flatMap_nil, resolveClass, lookup_rootClass, if_true,
    List.append_nil]

/-- **A page whose classes give way to their declarations has its elements with inline
    styles,** for any stylesheet that begins with the one that was made with the page. -/
theorem restyle_page (hfinal : IsSessionSheet final) {content : List Styled}
    (hcontent : Styled.EveryAll Declarations.IsStyle content) {sheet : Stylesheet}
    (h : (Styled.markupAll ⟨.stylesheet, coordinates, urls⟩ content sheet).2.rules
      <+: final.rules) :
    restyle (elementRules final.entries)
        (Fragment.text ⟨[("class", rootClass)],
          (Styled.markupAll ⟨.stylesheet, coordinates, urls⟩ content sheet).1⟩) =
      some (Fragment.text ⟨[("class", rootClass)],
        (Styled.markupAll ⟨.inline, coordinates, urls⟩ content .empty).1⟩) := by
  refine restyle_text (areNamed_rootAttributes ⟨.stylesheet, coordinates, urls⟩ .empty .empty)
    (areReadable_markupAll _ content sheet) ?_ ?_
  · exact restyled_pageToken final.entries
  · exact restyled_markupAll (isFoundIn_elementRules hfinal) content hcontent sheet .empty 1 h

end Walk

/-! ### Every page of a session -/

/-- **A session never rewrites its past.**  After any pages and before any others, a page with
    inline styles is the page that the root has by itself.  With classes, each element has
    exactly one rule in every later stylesheet, with the declarations that it has on the page
    by itself, and once the classes have given way to these the two pages are the same.  The
    assets are those of all pages in order, and the stylesheet of an earlier moment begins
    that of a later one. -/
theorem pageWith_after (before later : List (Options × Node)) (root : Node)
    (coordinates : Coordinates) (urls : List (String × String)) :
    let session := Session.fresh.after before
    let withStyles : Options := ⟨.inline, coordinates, urls⟩
    let withClasses : Options := ⟨.stylesheet, coordinates, urls⟩
    (session.pageWith withStyles root).1.text = (compileRoot root withStyles).html ∧
    (∃ rules attributes attributes' elements elements',
      Stylesheet.read? (session.after ((withClasses, root) :: later)).sheet.text = some rules ∧
      Markup.read? (session.pageWith withClasses root).1.text =
        some [.branch "div" attributes elements] ∧
      Markup.read? (compileRoot root withStyles).html =
        some [.branch "div" attributes' elements'] ∧
      WearsAll rules elements elements' ∧
      ∃ rules' text, Stylesheet.read? (compileRoot root withClasses).css = some rules' ∧
        restyle (elementRules rules) (session.pageWith withClasses root).1.text = some text ∧
        restyle (elementRules rules') (compileRoot root withClasses).html = some text) ∧
    ∀ o, (session.after ((o, root) :: later)).manifest.entries =
        (before ++ (o, root) :: later).flatMap (fun step => (compileRoot step.2 step.1).assets) ∧
      ∃ more, (session.after ((o, root) :: later)).sheet.text = session.sheet.text ++ more := by
  intro session withStyles withClasses
  let d := Style.root root.props
  let content := root.content coordinates
  have hcontent : Styled.EveryAll Declarations.IsStyle content :=
    Node.everyAll_styledAll isStyle_resolve root.children _
  have hsession : IsSessionSheet session.sheet := Session.isSessionSheet_after before .empty
  refine ⟨?_, ?_, fun o => ⟨?_, ?_⟩⟩
  · have hsame := Styled.markupAll_inline (o := withStyles) rfl content session.sheet .empty
    exact congrArg (fun elements => Fragment.text ⟨[("class", rootClass), ("style", d.text)],
      elements⟩) hsame
  · let final := session.after ((withClasses, root) :: later)
    let sheet := session.sheet.add rootClass d
    have hfinal : IsSessionSheet final.sheet := Session.isSessionSheet_after _ hsession
    have hprefix : (Styled.markupAll withClasses content sheet).2.rules <+: final.sheet.rules :=
      Session.prefix_after (session.pageWith withClasses root).2 later
    have hpage := (isPageSheet_markupAll withClasses root).toIsSessionSheet
    refine ⟨_, _, _, _, _, hfinal.read?_text,
      read?_container withClasses d content session.sheet sheet,
      read?_container withStyles d content .empty .empty,
      wearsAll_markupAll hfinal content hcontent sheet .empty hprefix, _, _, hpage.read?_text,
      restyle_page hfinal hcontent hprefix, restyle_page hpage hcontent (List.prefix_refl _)⟩
  · rw [← Session.after_append, Session.manifest_after]
    rfl
  · exact Stylesheet.text_of_prefix (session.prefix_after _)

end DesignMarkup
