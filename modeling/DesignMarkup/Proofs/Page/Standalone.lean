/-
  DesignMarkup/Proofs/Page/Standalone.lean
  ========================================
  **The standalone document of a page.**  Title, stylesheet and markup are three texts that are
  put between tags, and the stylesheet is put there as it is.  They stay in their places: the
  title is escaped, the stylesheet has no angle bracket (`angle_notMem_css`), and the tags of
  the markup are those of pages, whatever names, texts and addresses there are in it
  (`mem_pageTagNames_elements`).

  `read?_page_compileRoot` reads the document back to the three texts, and lists its tags.
-/
import DesignMarkup.Page.Standalone
import DesignMarkup.Proofs.Markup.Document
import DesignMarkup.Proofs.Page.Bearing

namespace DesignMarkup

open Markup

/-! ### The tags of a page -/

/-- The tags that a page is written with. -/
def pageTagNames : List String := ["div", "/div", "p", "/p", "img", "br"]

theorem tagNames_indentTokens (depth : Nat) : tagNames (indentTokens depth) = [] := by
  apply List.filterMap_eq_nil_iff.mpr
  intro t ht
  rw [List.eq_of_mem_replicate ht]
  rfl

theorem mem_pageTagNames_content (text : String) :
    ∀ name ∈ tagNames (text.toList.flatMap contentTokens), name ∈ pageTagNames := by
  intro name hname
  obtain ⟨t, ht, hname⟩ := List.mem_filterMap.mp hname
  obtain ⟨c, -, hc⟩ := List.mem_flatMap.mp ht
  unfold contentTokens at hc
  split_ifs at hc
  · obtain rfl := List.mem_singleton.mp hc
    obtain rfl := Option.some.inj hname
    decide
  · obtain ⟨d, -, rfl⟩ := List.mem_map.mp hc
    cases hname

mutual

theorem mem_pageTagNames_element (depth : Nat) :
    ∀ e : Element, e.IsReadable → ∀ name ∈ tagNames (e.tokens depth), name ∈ pageTagNames
  | .void tag attributes, h => by
    obtain ⟨rfl, -⟩ := h
    have hnames : tagNames ((Element.void "img" attributes).tokens depth) = ["img"] := by
      simp [Element.tokens, tagNames_append, tagNames_cons, tagNames_indentTokens, openingToken,
        Token.tagName?]
    rw [hnames]
    decide
  | .leaf tag attributes text, h => by
    obtain ⟨rfl, -⟩ := h
    have hnames : tagNames ((Element.leaf "p" attributes text).tokens depth) =
        "p" :: (tagNames (text.toList.flatMap contentTokens) ++ ["/p"]) := by
      simp [Element.tokens, tagNames_append, tagNames_cons, tagNames_indentTokens, openingToken,
        Token.tagName?]
    rw [hnames, List.forall_mem_cons, List.forall_mem_append]
    exact ⟨by decide, mem_pageTagNames_content text, by decide⟩
  | .branch tag attributes [], h => by
    obtain ⟨rfl, -⟩ := h
    have hnames : tagNames ((Element.branch "div" attributes []).tokens depth) =
        ["div", "/div"] := by
      simp [Element.tokens, tagNames_append, tagNames_cons, tagNames_indentTokens, openingToken,
        Token.tagName?]
    rw [hnames]
    decide
  | .branch tag attributes (first :: rest), h => by
    obtain ⟨rfl, -, hchildren⟩ := h
    have hnames : tagNames ((Element.branch "div" attributes (first :: rest)).tokens depth) =
        "div" :: (tagNames (elementsTokens (depth + 1) (first :: rest)) ++ ["/div"]) := by
      simp [Element.tokens, tagNames_append, tagNames_cons, tagNames_indentTokens, openingToken,
        Token.tagName?]
    rw [hnames, List.forall_mem_cons, List.forall_mem_append]
    exact ⟨by decide, mem_pageTagNames_elements (depth + 1) (first :: rest) hchildren, by decide⟩

/-- **Elements are written with the tags of pages,** whatever values and text there are in
    them. -/
theorem mem_pageTagNames_elements (depth : Nat) :
    ∀ elements : List Element, AreReadable elements →
      ∀ name ∈ tagNames (elementsTokens depth elements), name ∈ pageTagNames
  | [], _ => fun _ hname => absurd hname List.not_mem_nil
  | e :: rest, h => by
    rw [elementsTokens, tagNames_append, List.forall_mem_append]
    exact ⟨mem_pageTagNames_element depth e h.1, mem_pageTagNames_elements depth rest h.2⟩

end

theorem mem_pageTagNames_fragment {f : Fragment} (h : AreReadable f.children) :
    ∀ name ∈ tagNames f.tokens, name ∈ pageTagNames := by
  have hnames : tagNames f.tokens =
      "div" :: (tagNames (elementsTokens 1 f.children) ++ ["/div"]) := by
    simp [Fragment.tokens, tagNames_append, tagNames_cons, openingToken, Token.tagName?]
  rw [hnames, List.forall_mem_cons, List.forall_mem_append]
  exact ⟨by decide, mem_pageTagNames_elements 1 f.children h, by decide⟩

theorem closing_body_notMem {tokens : List Token}
    (h : ∀ name ∈ tagNames tokens, name ∈ pageTagNames) : Token.closing "body" ∉ tokens := by
  intro hmem
  have hbody := h "/body" (List.mem_filterMap.mpr ⟨_, hmem, rfl⟩)
  exact absurd hbody (by decide)

theorem getLast?_fragment (f : Fragment) :
    (f.tokens.flatMap Token.chars).getLast? = some '\n' := by
  have hend : f.tokens.flatMap Token.chars =
      (openingToken "div" f.attributes :: .char '\n' :: elementsTokens 1 f.children
        ++ [Token.closing "div"]).flatMap Token.chars ++ ['\n'] := by
    simp [Fragment.tokens, Token.chars]
  rw [hend, List.getLast?_concat]

/-! ### The stylesheet of a page -/

section Sheet

variable {s : Stylesheet}

theorem Stylesheet.getLast?_text (s : Stylesheet) : s.text.toList.getLast? ≠ some ' ' := by
  rw [Stylesheet.toList_text]
  rcases List.eq_nil_or_concat (s.rules.flatMap ruleLines) with h | ⟨lines, line, h⟩
  · rw [h]
    simp
  · rw [h]
    simp

theorem IsSessionSheet.plain_className (hs : IsSessionSheet s) {rule : Rule}
    (hrule : rule ∈ s.rules) : IsPlain rule.className.text := by
  rcases hs.className hrule with h | ⟨n, h⟩
  · rw [h]
    decide
  · rw [h]
    exact plain_numbered n

theorem IsSessionSheet.angle_notMem_text (hs : IsSessionSheet s) : '<' ∉ s.text.toList := by
  have hplain : ∀ text, IsPlain text → '<' ∉ text.toList := fun text ht hc =>
    Stylesheet.ne_of_plain ht hc (by decide) rfl
  intro hmem
  rw [Stylesheet.toList_text] at hmem
  obtain ⟨line, hline, hmem⟩ := List.mem_flatMap.mp hmem
  obtain ⟨rule, hrule, hline⟩ := List.mem_flatMap.mp hline
  have hclass := hplain _ (hs.plain_className hrule)
  have hpairs : ∀ pair ∈ rule.declarations.toList, '<' ∉ Stylesheet.declarationLine pair := by
    intro pair hpair
    obtain ⟨hproperty, hvalue⟩ := hs.plain rule hrule pair hpair
    simp [Stylesheet.declarationLine, hplain _ hproperty, hplain _ hvalue]
  simp only [Stylesheet.ruleLines, List.cons_append, List.mem_cons, List.mem_append, List.mem_map,
    List.not_mem_nil, or_false] at hline
  rcases hline with rfl | ⟨pair, hpair, rfl⟩ | rfl
  · simp [Stylesheet.openingLine, hclass] at hmem
  · simp [hpairs pair hpair] at hmem
  · simp at hmem

end Sheet

/-- A page with styles in its elements has no stylesheet. -/
theorem rules_pageSheet_inline (root : Node) {o : Options} (ho : o.styleMode = .inline) :
    (pageSheet root o).rules = [] := by
  have hstyle : Styled.EveryAll Declarations.IsStyle (root.content o.coordinates) :=
    Node.everyAll_styledAll isStyle_resolve root.children _
  rw [pageSheet, Styled.sheet_markupAll_inline ho hstyle, Session.rootAttributes, ho]
  rfl

/-- **The stylesheet of a page has no angle bracket,** with which alone a tag could begin. -/
theorem angle_notMem_css (root : Node) (o : Options) : '<' ∉ (compileRoot root o).css.toList := by
  change '<' ∉ (pageSheet root o).text.toList
  cases hmode : o.styleMode with
  | inline =>
    rw [Stylesheet.text, rules_pageSheet_inline root hmode]
    exact List.not_mem_nil
  | stylesheet => exact (isPageSheet_pageSheet root hmode).toIsSessionSheet.angle_notMem_text

/-! ### The document -/

theorem chars_styleTokens (css : String) :
    (Document.styleTokens css).flatMap Token.chars = (styleElement css).toList := by
  have hopening : (Document.charTokens "  "
      ++ [Token.opening "style" [] false, Token.char '\n']).flatMap Token.chars =
      "  <style>\n".toList := rfl
  have hclosing : (Document.charTokens "  "
      ++ [Token.closing "style", Token.char '\n']).flatMap Token.chars =
      "  </style>\n".toList := rfl
  rw [Document.styleTokens, styleElement]
  split_ifs
  · rfl
  · rw [String.toList_append, String.toList_append, ← hopening, ← hclosing,
      ← Document.chars_charTokens css, ← List.flatMap_append, ← List.flatMap_append]
    simp only [List.append_assoc, List.cons_append, List.nil_append]

/-- A text put together from parts is that of the tokens of the parts. -/
theorem toList_of_parts {front title titleEnd style middle html back : String}
    {frontTokens titleTokens titleEndTokens styleTokens middleTokens htmlTokens
      backTokens : List Token}
    (hfront : Document.doctype ++ frontTokens.flatMap Token.chars = front.toList)
    (htitle : titleTokens.flatMap Token.chars = title.toList)
    (htitleEnd : titleEndTokens.flatMap Token.chars = titleEnd.toList)
    (hstyle : styleTokens.flatMap Token.chars = style.toList)
    (hmiddle : middleTokens.flatMap Token.chars = middle.toList)
    (hhtml : htmlTokens.flatMap Token.chars = html.toList)
    (hback : backTokens.flatMap Token.chars = back.toList) :
    (front ++ title ++ titleEnd ++ style ++ middle ++ html ++ back).toList =
      Document.doctype ++ (frontTokens ++ (titleTokens ++ (titleEndTokens ++ (styleTokens
        ++ (middleTokens ++ (htmlTokens ++ backTokens)))))).flatMap Token.chars := by
  simp only [String.toList_append, List.flatMap_append, List.append_assoc, ← hfront, htitle,
    htitleEnd, hstyle, hmiddle, hhtml, hback]

/-- The text of a document is that of its tokens. -/
theorem toList_page (output : Output) (title : String) {body : List Token}
    (h : body.flatMap Token.chars = output.html.toList) :
    (output.page title).toList = Document.doctype
      ++ (Document.documentTokens title output.css body).flatMap Token.chars := by
  have hfront : Document.doctype ++ (Document.charTokens "\n" ++ Token.opening "html" [] false
      :: (Document.charTokens "\n" ++ Token.opening "head" [] false
        :: (Document.charTokens "\n  " ++ Token.opening "meta" [("charset", "UTF-8")] false
          :: (Document.charTokens "\n  "
            ++ [Token.opening "title" [] false])))).flatMap Token.chars =
      ("<!DOCTYPE html>\n<html>\n<head>\n  <meta charset=\"UTF-8\">\n"
        ++ "  <title>").toList := rfl
  have htitleEnd : [Token.closing "title", Token.char '\n'].flatMap Token.chars =
      "</title>\n".toList := rfl
  have hmiddle : (Token.closing "head" :: (Document.charTokens "\n"
      ++ [Token.opening "body" [] false, Token.char '\n'])).flatMap Token.chars =
      "</head>\n<body>\n".toList := rfl
  have hback : (Token.closing "body" :: (Document.charTokens "\n"
      ++ Token.closing "html" :: Document.charTokens "\n")).flatMap Token.chars =
      "</body>\n</html>\n".toList := rfl
  refine (toList_of_parts hfront (Document.chars_charTokens (escapeText title)) htitleEnd
    (chars_styleTokens output.css) hmiddle h hback).trans ?_
  simp only [Document.documentTokens, Document.headTokens, List.append_assoc, List.cons_append,
    List.nil_append]

/-- **A document keeps its parts apart.**  For every design, every choices and every title the
    standalone document is read as one document, with exactly this title, with the stylesheet
    as its style unless that is empty, and with the markup of the page as its body.  The
    stylesheet has no angle bracket.  The tags of the document are those of its form, each
    once, and in their place those of the markup, which are tags of pages. -/
theorem read?_page_compileRoot (root : Node) (o : Options) (title : String) :
    ∃ tokens pageTokens,
      Document.tokens? ((compileRoot root o).page title) = some tokens ∧
      Markup.tokens? (compileRoot root o).html = some pageTokens ∧
      Document.read? ((compileRoot root o).page title) =
        some ⟨title, if (compileRoot root o).css = "" then none else some (compileRoot root o).css,
          (compileRoot root o).html⟩ ∧
      '<' ∉ (compileRoot root o).css.toList ∧
      tagNames tokens =
        ["html", "head", "meta", "title", "/title"]
          ++ (if (compileRoot root o).css = "" then [] else ["style", "/style"])
          ++ ["/head", "body"] ++ tagNames pageTokens ++ ["/body", "/html"] ∧
      ∀ name ∈ tagNames pageTokens, name ∈ pageTagNames := by
  let d := Style.root root.props
  let sheet := (Session.rootAttributes o d .empty).2
  let f : Fragment := ⟨(Session.rootAttributes o d .empty).1,
    (Styled.markupAll o (root.content o.coordinates) sheet).1⟩
  have hnamed : AreNamed f.attributes := areNamed_rootAttributes o d .empty
  have hreadable : AreReadable f.children := areReadable_markupAll o _ sheet
  have hhtml : f.tokens.flatMap Token.chars = (compileRoot root o).html.toList := f.chars_tokens
  have hangle := angle_notMem_css root o
  have hpage := toList_page (compileRoot root o) title hhtml
  have htags := mem_pageTagNames_fragment hreadable
  have htokens : Document.tokens? ((compileRoot root o).page title) =
      some (Document.documentTokens title (compileRoot root o).css f.tokens) := by
    rw [← String.ofList_toList (s := (compileRoot root o).page title), hpage]
    exact Document.tokens?_chars title hangle (Fragment.isProper_tokens hnamed hreadable)
  refine ⟨_, f.tokens, htokens, tokens?_text hnamed hreadable, ?_, hangle,
    Document.tagNames_documentTokens title _ _, htags⟩
  have hlast : (f.tokens.flatMap Token.chars).getLast? ≠ some ' ' := by
    rw [getLast?_fragment]
    decide
  have hcss : (compileRoot root o).css.toList.getLast? ≠ some ' ' :=
    Stylesheet.getLast?_text (pageSheet root o)
  rw [Document.read?, htokens, Option.bind_some,
    Document.ofTokens?_documentTokens title hcss (closing_body_notMem htags) hlast, hhtml,
    String.ofList_toList]

end DesignMarkup
