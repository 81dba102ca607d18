/-
  DesignMarkup/Proofs/Markup/Reading.lean
  =======================================
  **A reader for the markup of pages.**  The language is small: `div` and `p` with
  closing tags, `img` and `br` without, attribute values in double quotes, and the
  three entities.  White space between tags is passed over, except in a paragraph;
  there, a `br` stands for a line break.  Text in any other place is refused.

  `read?` makes elements of a text in two steps: `tokens?` tells tags and characters
  apart, and `Progress.take` builds the elements from them, one token at a time.

  The main statement is `read?_text`: from the text of a fragment the reader gets the
  elements of the fragment back.  The only change is that of `Element.unquoted`, the
  double quotes in attribute values having become single ones.  The proof goes through
  the tokens that an element is written as (`Element.tokens`).
-/
import DesignMarkup.Proofs.Markup.Entity
import DesignMarkup.Proofs.Markup.Token

namespace DesignMarkup.Markup

/-! ### From tokens to elements -/

/-- Attributes as they are meant, from attributes as they are written. -/
def decodeAttributes (attributes : List Attribute) : Option (List Attribute) :=
  attributes.mapM fun a => (decodeText a.2).map (a.1, ·)

/-- How far a text has been read. -/
structure Progress where
  /-- The complete elements of the innermost container that is open. -/
  here : List Element
  /-- The open containers, innermost first: the attributes of each, and the complete
      elements before it. -/
  around : List (List Attribute × List Element)
  /-- The attributes of the paragraph that is open, and its text so far. -/
  paragraph : Option (List Attribute × List Char)

namespace Progress

def start : Progress := ⟨[], [], none⟩

def add (p : Progress) (e : Element) : Progress := ⟨p.here ++ [e], p.around, none⟩

def descend (p : Progress) (attributes : List Attribute) : Progress :=
  ⟨[], (attributes, p.here) :: p.around, none⟩

def takeInParagraph (p : Progress) (attributes : List Attribute) (text : List Char) :
    Token → Option Progress
  | .char c => some { p with paragraph := some (attributes, text ++ [c]) }
  | .opening "br" [] true => some { p with paragraph := some (attributes, text ++ ['\n']) }
  | .closing "p" =>
    (decode text).map fun text => p.add (.leaf "p" attributes (String.ofList text))
  | _ => none

def takeOutside (p : Progress) : Token → Option Progress
  | .char c => if c.isWhitespace then some p else none
  | .opening "img" attributes false =>
    (decodeAttributes attributes).map fun attributes => p.add (.void "img" attributes)
  | .opening "p" attributes false =>
    (decodeAttributes attributes).map fun attributes =>
      { p with paragraph := some (attributes, []) }
  | .opening "div" attributes false => (decodeAttributes attributes).map p.descend
  | .closing "div" =>
    match p.around with
    | (attributes, before) :: around =>
      some (add ⟨before, around, none⟩ (.branch "div" attributes p.here))
    | [] => none
  | _ => none

def take (p : Progress) (token : Token) : Option Progress :=
  match p.paragraph with
  | some (attributes, text) => p.takeInParagraph attributes text token
  | none => p.takeOutside token

/-- The elements that were read, if everything that was begun has ended. -/
def finish (p : Progress) : Option (List Element) :=
  if p.around.isEmpty && p.paragraph.isNone then some p.here else none

end Progress

def read? (text : String) : Option (List Element) := do
  let tokens ← tokens? text
  let p ← tokens.foldlM Progress.take .start
  p.finish

/-! ### Elements as tokens -/

def writtenAttribute (a : Attribute) : Attribute := (a.1, escapeAttribute a.2)

def openingToken (tag : String) (attributes : List Attribute) : Token :=
  .opening tag (attributes.map writtenAttribute) false

def contentTokens (c : Char) : List Token :=
  if c = '\n' then [.opening "br" [] true] else (escapeChar c).map .char

def indentTokens (depth : Nat) : List Token := List.replicate (2 * depth) (.char ' ')

mutual

def Element.tokens (depth : Nat) : Element → List Token
  | .void tag attributes =>
    indentTokens depth ++ [openingToken tag attributes, .char '\n']
  | .leaf tag attributes text =>
    indentTokens depth ++ openingToken tag attributes :: text.toList.flatMap contentTokens
      ++ [.closing tag, .char '\n']
  | .branch tag attributes [] =>
    indentTokens depth ++ [openingToken tag attributes, .closing tag, .char '\n']
  | .branch tag attributes (first :: rest) =>
    indentTokens depth ++ openingToken tag attributes :: .char '\n'
      :: elementsTokens (depth + 1) (first :: rest)
      ++ indentTokens depth ++ [.closing tag, .char '\n']

def elementsTokens (depth : Nat) : List Element → List Token
  | [] => []
  | e :: rest => e.tokens depth ++ elementsTokens depth rest

end

def Fragment.tokens (f : Fragment) : List Token :=
  openingToken "div" f.attributes :: .char '\n' :: elementsTokens 1 f.children
    ++ [.closing "div", .char '\n']

theorem chars_char (c : Char) : (Token.char c).chars = [c] := rfl

theorem chars_openingToken (tag : String) (attributes : List Attribute) :
    (openingToken tag attributes).chars = (openingTag tag attributes).toList := by
  have hattribute : ∀ a, attributeChars (writtenAttribute a) = (attributeText a).toList := by
    intro a
    simp [attributeChars, writtenAttribute, attributeText]
  simp [openingToken, openingTag, Token.chars, tagEndChars, String.toList_join,
    List.flatMap_map, hattribute]

theorem chars_closing (tag : String) : (Token.closing tag).chars = (closingTag tag).toList := by
  simp [Token.chars, closingTag]

theorem flatMap_chars_char (text : List Char) :
    (text.map Token.char).flatMap Token.chars = text := by
  rw [List.flatMap_map]
  exact List.flatMap_singleton' text

theorem chars_indentTokens (depth : Nat) :
    (indentTokens depth).flatMap Token.chars = (indent depth).toList := by
  rw [indentTokens, ← List.map_replicate, flatMap_chars_char, indent, String.toList_ofList]

theorem chars_contentTokens (text : String) :
    (text.toList.flatMap contentTokens).flatMap Token.chars = (content text).toList := by
  have hchar : ∀ c, (contentTokens c).flatMap Token.chars = contentChar c := by
    intro c
    unfold contentTokens contentChar
    split_ifs
    · rfl
    · exact flatMap_chars_char _
  rw [List.flatMap_assoc, content, String.toList_ofList]
  simp only [hchar]

mutual

/-- **An element is written as its tokens.** -/
theorem Element.chars_tokens (depth : Nat) :
    ∀ e : Element, (e.tokens depth).flatMap Token.chars = (e.text depth).toList
  | .void tag attributes => by
    simp [Element.tokens, Element.text, chars_indentTokens, chars_openingToken, chars_char]
  | .leaf tag attributes text => by
    simp [Element.tokens, Element.text, chars_indentTokens, chars_openingToken,
      chars_contentTokens, chars_closing, chars_char]
  | .branch tag attributes [] => by
    simp [Element.tokens, Element.text, chars_indentTokens, chars_openingToken, chars_closing,
      chars_char]
  | .branch tag attributes (first :: rest) => by
    have ih := chars_elementsTokens (depth + 1) (first :: rest)
    simp [Element.tokens, Element.text, chars_indentTokens, chars_openingToken, chars_closing,
      chars_char, ih]

theorem chars_elementsTokens (depth : Nat) :
    ∀ elements : List Element,
      (elementsTokens depth elements).flatMap Token.chars = (elementsText depth elements).toList
  | [] => rfl
  | e :: rest => by
    rw [elementsTokens, elementsText, List.flatMap_append, String.toList_append,
      Element.chars_tokens depth e, chars_elementsTokens depth rest]

end

theorem Fragment.chars_tokens (f : Fragment) : f.tokens.flatMap Token.chars = f.text.toList := by
  simp [Fragment.tokens, Fragment.text, chars_openingToken, chars_closing, chars_elementsTokens,
    chars_char]

/-! ### The markup of pages -/

def AreNamed (attributes : List Attribute) : Prop := ∀ a ∈ attributes, IsName a.1

mutual

/-- An element of the language that is read: the tag says what kind of element it is. -/
def Element.IsReadable : Element → Prop
  | .void tag attributes => tag = "img" ∧ AreNamed attributes
  | .leaf tag attributes _ => tag = "p" ∧ AreNamed attributes
  | .branch tag attributes children =>
    tag = "div" ∧ AreNamed attributes ∧ AreReadable children

def AreReadable : List Element → Prop
  | [] => True
  | e :: rest => e.IsReadable ∧ AreReadable rest

end

def unquotedAttribute (a : Attribute) : Attribute := (a.1, unquoted a.2)

mutual

/-- An element with single quotes for the double ones in the values of attributes. -/
def Element.unquoted : Element → Element
  | .void tag attributes => .void tag (attributes.map unquotedAttribute)
  | .leaf tag attributes text => .leaf tag (attributes.map unquotedAttribute) text
  | .branch tag attributes children =>
    .branch tag (attributes.map unquotedAttribute) (unquotedAll children)

def unquotedAll : List Element → List Element
  | [] => []
  | e :: rest => e.unquoted :: unquotedAll rest

end

/-! ### Every token of a page can be told from the others -/

theorem isProper_openingToken {tag : String} {attributes : List Attribute} (hne : tag ≠ "")
    (htag : IsName tag) (h : AreNamed attributes) : (openingToken tag attributes).IsProper := by
  refine ⟨hne, htag, fun a ha => ?_⟩
  obtain ⟨b, hb, rfl⟩ := List.mem_map.mp ha
  exact ⟨h b hb, quote_notMem_escapeAttribute b.2⟩

theorem isProper_indentTokens (depth : Nat) : ∀ t ∈ indentTokens depth, t.IsProper := by
  intro t ht
  rw [List.eq_of_mem_replicate ht]
  exact (by decide : ' ' ≠ '<')

theorem isProper_contentTokens (text : String) :
    ∀ t ∈ text.toList.flatMap contentTokens, t.IsProper := by
  intro t ht
  obtain ⟨c, -, hc⟩ := List.mem_flatMap.mp ht
  unfold contentTokens at hc
  split_ifs at hc with hbreak
  · rw [List.mem_singleton] at hc
    subst hc
    exact ⟨by decide, by decide, by simp⟩
  · obtain ⟨d, hd, rfl⟩ := List.mem_map.mp hc
    exact angle_ne_of_mem_escapeChar hd

mutual

theorem Element.isProper_tokens (depth : Nat) :
    ∀ e : Element, e.IsReadable → ∀ t ∈ e.tokens depth, t.IsProper
  | .void tag attributes, h, t, ht => by
    obtain ⟨rfl, hnamed⟩ := h
    simp only [Element.tokens, List.mem_append, List.mem_cons, List.not_mem_nil, or_false] at ht
    rcases ht with ht | rfl | rfl
    · exact isProper_indentTokens depth t ht
    · exact isProper_openingToken (by decide) (by decide) hnamed
    · exact (by decide : '\n' ≠ '<')
  | .leaf tag attributes text, h, t, ht => by
    obtain ⟨rfl, hnamed⟩ := h
    simp only [Element.tokens, List.mem_append, List.mem_cons, List.not_mem_nil, or_false] at ht
    rcases ht with (ht | rfl | ht) | rfl | rfl
    · exact isProper_indentTokens depth t ht
    · exact isProper_openingToken (by decide) (by decide) hnamed
    · exact isProper_contentTokens text t ht
    · exact (by decide : IsName "p")
    · exact (by decide : '\n' ≠ '<')
  | .branch tag attributes [], h, t, ht => by
    obtain ⟨rfl, hnamed, -⟩ := h
    simp only [Element.tokens, List.mem_append, List.mem_cons, List.not_mem_nil, or_false] at ht
    rcases ht with ht | rfl | rfl | rfl
    · exact isProper_indentTokens depth t ht
    · exact isProper_openingToken (by decide) (by decide) hnamed
    · exact (by decide : IsName "div")
    · exact (by decide : '\n' ≠ '<')
  | .branch tag attributes (first :: rest), h, t, ht => by
    obtain ⟨rfl, hnamed, hchildren⟩ := h
    simp only [Element.tokens, List.mem_append, List.mem_cons, List.not_mem_nil, or_false] at ht
    rcases ht with ((ht | rfl | rfl | ht) | ht) | rfl | rfl
    · exact isProper_indentTokens depth t ht
    · exact isProper_openingToken (by decide) (by decide) hnamed
    · exact (by decide : '\n' ≠ '<')
    · exact isProper_elementsTokens (depth + 1) (first :: rest) hchildren t ht
    · exact isProper_indentTokens depth t ht
    · exact (by decide : IsName "div")
    · exact (by decide : '\n' ≠ '<')

theorem isProper_elementsTokens (depth : Nat) :
    ∀ elements : List Element, AreReadable elements →
      ∀ t ∈ elementsTokens depth elements, t.IsProper
  | [], _, t, ht => absurd ht List.not_mem_nil
  | e :: rest, h, t, ht => by
    rw [elementsTokens, List.mem_append] at ht
    rcases ht with ht | ht
    · exact Element.isProper_tokens depth e h.1 t ht
    · exact isProper_elementsTokens depth rest h.2 t ht

end

theorem Fragment.isProper_tokens {f : Fragment} (hnamed : AreNamed f.attributes)
    (hchildren : AreReadable f.children) : ∀ t ∈ f.tokens, t.IsProper := by
  intro t ht
  simp only [Fragment.tokens, List.mem_append, List.mem_cons, List.not_mem_nil, or_false] at ht
  rcases ht with (rfl | rfl | ht) | rfl | rfl
  · exact isProper_openingToken (by decide) (by decide) hnamed
  · exact (by decide : '\n' ≠ '<')
  · exact isProper_elementsTokens 1 f.children hchildren t ht
  · exact (by decide : IsName "div")
  · exact (by decide : '\n' ≠ '<')

/-- **The text of a fragment falls into the tokens that it was written as.** -/
theorem tokens?_text {f : Fragment} (hnamed : AreNamed f.attributes)
    (hchildren : AreReadable f.children) : tokens? f.text = some f.tokens := by
  rw [tokens?, ← Fragment.chars_tokens, lex_chars (Fragment.isProper_tokens hnamed hchildren)]

/-! ### The elements come back -/

theorem decodeAttributes_written (attributes : List Attribute) :
    decodeAttributes (attributes.map writtenAttribute) =
      some (attributes.map unquotedAttribute) := by
  induction attributes with
  | nil => rfl
  | cons a rest ih =>
    rw [decodeAttributes] at ih ⊢
    rw [List.map_cons, List.mapM_cons, ih, writtenAttribute, decodeText_escapeAttribute]
    rfl

theorem take_indentTokens (depth : Nat) (here : List Element)
    (around : List (List Attribute × List Element)) :
    (indentTokens depth).foldlM Progress.take ⟨here, around, none⟩ =
      some ⟨here, around, none⟩ := by
  unfold indentTokens
  induction 2 * depth with
  | zero => rfl
  | succ n ih =>
    rw [List.replicate_succ, List.foldlM_cons]
    exact ih

/-- In a paragraph characters pile up as they are written, and line breaks as such. -/
theorem take_contentTokens (attributes : List Attribute) (here : List Element)
    (around : List (List Attribute × List Element)) (text soFar : List Char) :
    (text.flatMap contentTokens).foldlM Progress.take ⟨here, around, some (attributes, soFar)⟩ =
      some ⟨here, around, some (attributes, soFar ++ text.flatMap escapeChar)⟩ := by
  have hchars : ∀ chars soFar : List Char,
      (chars.map Token.char).foldlM Progress.take ⟨here, around, some (attributes, soFar)⟩ =
        some ⟨here, around, some (attributes, soFar ++ chars)⟩ := by
    intro chars
    induction chars with
    | nil => intro soFar; simp
    | cons c rest ih =>
      intro soFar
      rw [List.map_cons, List.foldlM_cons]
      exact (ih (soFar ++ [c])).trans (by simp)
  induction text generalizing soFar with
  | nil => simp
  | cons c rest ih =>
    rw [List.flatMap_cons, List.foldlM_append, List.flatMap_cons, ← List.append_assoc]
    by_cases hbreak : c = '\n'
    · subst hbreak
      exact ih (soFar ++ ['\n'])
    · rw [contentTokens, if_neg hbreak, hchars]
      exact ih (soFar ++ escapeChar c)

theorem take_image (attributes : List Attribute) (here : List Element)
    (around : List (List Attribute × List Element)) :
    Progress.take ⟨here, around, none⟩ (openingToken "img" attributes) =
      some ⟨here ++ [.void "img" (attributes.map unquotedAttribute)], around, none⟩ := by
  rw [openingToken]
  change (decodeAttributes (attributes.map writtenAttribute)).map _ = _
  rw [decodeAttributes_written]
  rfl

theorem take_paragraph (attributes : List Attribute) (here : List Element)
    (around : List (List Attribute × List Element)) :
    Progress.take ⟨here, around, none⟩ (openingToken "p" attributes) =
      some ⟨here, around, some (attributes.map unquotedAttribute, [])⟩ := by
  rw [openingToken]
  change (decodeAttributes (attributes.map writtenAttribute)).map _ = _
  rw [decodeAttributes_written]
  rfl

theorem take_paragraphEnd (attributes : List Attribute) (here : List Element)
    (around : List (List Attribute × List Element)) (text : String) :
    Progress.take ⟨here, around, some (attributes, text.toList.flatMap escapeChar)⟩
        (.closing "p") =
      some ⟨here ++ [.leaf "p" attributes text], around, none⟩ := by
  change (decode (text.toList.flatMap escapeChar)).map _ = _
  rw [decode_escape]
  simp only [Option.map_some, String.ofList_toList]
  rfl

theorem take_container (attributes : List Attribute) (here : List Element)
    (around : List (List Attribute × List Element)) :
    Progress.take ⟨here, around, none⟩ (openingToken "div" attributes) =
      some ⟨[], (attributes.map unquotedAttribute, here) :: around, none⟩ := by
  rw [openingToken]
  change (decodeAttributes (attributes.map writtenAttribute)).map _ = _
  rw [decodeAttributes_written]
  rfl

theorem take_containerEnd (attributes : List Attribute) (before here : List Element)
    (around : List (List Attribute × List Element)) :
    Progress.take ⟨here, (attributes, before) :: around, none⟩ (.closing "div") =
      some ⟨before ++ [.branch "div" attributes here], around, none⟩ := rfl

theorem take_newline (here : List Element) (around : List (List Attribute × List Element)) :
    Progress.take ⟨here, around, none⟩ (.char '\n') = some ⟨here, around, none⟩ := rfl

mutual

/-- **The tokens of an element add that element,** in whatever it stands. -/
theorem Element.take_tokens (depth : Nat) :
    ∀ e : Element, e.IsReadable → ∀ here around,
      (e.tokens depth).foldlM Progress.take ⟨here, around, none⟩ =
        some ⟨here ++ [e.unquoted], around, none⟩
  | .void tag attributes, h, here, around => by
    obtain ⟨rfl, -⟩ := h
    simp only [Element.tokens, List.foldlM_append, take_indentTokens, List.foldlM_cons,
      List.foldlM_nil, Option.bind_eq_bind, Option.bind_some, take_image, take_newline]
    rfl
  | .leaf tag attributes text, h, here, around => by
    obtain ⟨rfl, -⟩ := h
    simp only [Element.tokens, List.foldlM_append, take_indentTokens, List.foldlM_cons,
      List.foldlM_nil, Option.bind_eq_bind, Option.bind_some, take_paragraph, take_contentTokens,
      List.nil_append, take_paragraphEnd, take_newline]
    rfl
  | .branch tag attributes [], h, here, around => by
    obtain ⟨rfl, -⟩ := h
    simp only [Element.tokens, List.foldlM_append, take_indentTokens, List.foldlM_cons,
      List.foldlM_nil, Option.bind_eq_bind, Option.bind_some, take_container, take_containerEnd,
      take_newline]
    rfl
  | .branch tag attributes (first :: rest), h, here, around => by
    obtain ⟨rfl, -, hchildren⟩ := h
    have ih := take_elementsTokens (depth + 1) (first :: rest) hchildren
    simp only [Element.tokens, List.foldlM_append, take_indentTokens, List.foldlM_cons,
      List.foldlM_nil, Option.bind_eq_bind, Option.bind_some, take_container, take_newline, ih,
      List.nil_append, take_containerEnd]
    rfl

theorem take_elementsTokens (depth : Nat) :
    ∀ elements : List Element, AreReadable elements → ∀ here around,
      (elementsTokens depth elements).foldlM Progress.take ⟨here, around, none⟩ =
        some ⟨here ++ unquotedAll elements, around, none⟩
  | [], _, here, around => by
    rw [unquotedAll, List.append_nil]
    rfl
  | e :: rest, h, here, around => by
    rw [elementsTokens, List.foldlM_append, Element.take_tokens depth e h.1]
    refine (take_elementsTokens depth rest h.2 _ _).trans ?_
    rw [unquotedAll, List.append_assoc, List.singleton_append]

end

/-- **The text of elements reads back to the elements,** however far they are indented. -/
theorem read?_elementsText (depth : Nat) {elements : List Element} (h : AreReadable elements) :
    read? (elementsText depth elements) = some (unquotedAll elements) := by
  have htokens : tokens? (elementsText depth elements) = some (elementsTokens depth elements) := by
    rw [tokens?, ← chars_elementsTokens, lex_chars (isProper_elementsTokens depth elements h)]
  rw [read?, htokens]
  simp only [Option.bind_eq_bind, Option.bind_some, Progress.start,
    take_elementsTokens depth elements h, List.nil_append]
  rfl

/-- **The text of a fragment reads back to the fragment.** -/
theorem read?_text {f : Fragment} (hnamed : AreNamed f.attributes)
    (hchildren : AreReadable f.children) :
    read? f.text =
      some [.branch "div" (f.attributes.map unquotedAttribute) (unquotedAll f.children)] := by
  have htokens : f.tokens.foldlM Progress.take .start =
      some ⟨[.branch "div" (f.attributes.map unquotedAttribute) (unquotedAll f.children)],
        [], none⟩ := by
    simp only [Fragment.tokens, Progress.start, List.foldlM_append, List.foldlM_cons,
      List.foldlM_nil, Option.bind_eq_bind, Option.bind_some, take_container, take_newline,
      take_elementsTokens 1 f.children hchildren, List.nil_append, take_containerEnd]
    rfl
  rw [read?, tokens?_text hnamed hchildren]
  simp only [Option.bind_eq_bind, Option.bind_some, htokens]
  rfl

end DesignMarkup.Markup
