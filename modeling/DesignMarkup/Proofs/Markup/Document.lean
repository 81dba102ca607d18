/-
  DesignMarkup/Proofs/Markup/Document.lean
  ========================================
  **A reader for whole documents.**  After the document type a document is read as tokens,
  like any markup.  The reader wants one `html` element with a `head` and a `body`; in the head
  a `meta` for the encoding, a `title`, and perhaps a `style`.  An element ends at the first
  closing tag of its name, whatever was meant, so that a text which contained such a tag would
  cut the element short and leave the reader with something that it refuses.

  A title holds text with entities, a style element holds text as it is.  Style and body begin
  on a line of their own: the line break after the opening tag and the spaces before the
  closing tag are no part of what they hold (`innerText`).

  The main statements are `tokens?_chars`, that a document falls into the tokens that it was
  written as (`documentTokens`), and `ofTokens?_documentTokens`, that title, style and body are
  read back from them, as long as the tokens of the body do not close it.
-/
import DesignMarkup.Proofs.Markup.Reading
import Mathlib.Data.List.DropRight

namespace DesignMarkup.Markup

/-- A document: the text of the title, the text of the style element if there is one, and the
    body as it is written. -/
structure Document where
  title : String
  style : Option String
  body : String
deriving DecidableEq, Repr

namespace Token

def isChar : Token → Bool
  | .char _ => true
  | _ => false

def isBlank : Token → Bool
  | .char c => c.isWhitespace
  | _ => false

/-- The name of a tag, with a slash before it if the tag is a closing one. -/
def tagName? : Token → Option String
  | .opening tag _ _ => some tag
  | .closing tag => some ("/" ++ tag)
  | .char _ => none

end Token

/-- The tags among tokens, in order. -/
def tagNames (tokens : List Token) : List String := tokens.filterMap Token.tagName?

@[simp] theorem tagNames_nil : tagNames [] = [] := rfl

theorem tagNames_append (tokens tokens' : List Token) :
    tagNames (tokens ++ tokens') = tagNames tokens ++ tagNames tokens' :=
  List.filterMap_append

theorem tagNames_cons (t : Token) (tokens : List Token) :
    tagNames (t :: tokens) = t.tagName?.toList ++ tagNames tokens := by
  rw [tagNames, List.filterMap_cons]
  cases t.tagName? <;> rfl

namespace Document

/-! ### The reader -/

def doctype : List Char := "<!DOCTYPE html>".toList

/-- The tokens of a document, after its type. -/
def tokens? (text : String) : Option (List Token) :=
  (text.toList.dropPrefix? doctype).bind (lex .between)

/-- What follows a token, with white space before it. -/
def after? (t : Token) (tokens : List Token) : Option (List Token) :=
  match tokens.dropWhile Token.isBlank with
  | first :: rest => if first = t then some rest else none
  | [] => none

/-- What an element holds, and what follows it. -/
def element? (tag : String) (tokens : List Token) : Option (List Token × List Token) := do
  let inside ← after? (.opening tag [] false) tokens
  let rest ← after? (.closing tag) (inside.dropWhile (· != .closing tag))
  return (inside.takeWhile (· != .closing tag), rest)

/-- Tokens that are all characters, as text. -/
def text? (tokens : List Token) : Option (List Char) :=
  if tokens.all Token.isChar then some (tokens.flatMap Token.chars) else none

/-- A text without the line break that it begins with and the spaces that it ends with. -/
def innerText (text : List Char) : String :=
  let lines :=
    match text with
    | '\n' :: rest => rest
    | _ => text
  .ofList (lines.rdropWhile (· == ' '))

/-- The text of a style element, if there is one, and what follows it. -/
def style? (tokens : List Token) : Option (Option String × List Token) :=
  if tokens.all Token.isBlank then some (none, tokens)
  else do
    let (style, rest) ← element? "style" tokens
    let text ← text? style
    return (some (innerText text), rest)

def ofTokens? (tokens : List Token) : Option Document := do
  let html ← after? (.opening "html" [] false) tokens
  let (head, rest) ← element? "head" html
  let (body, rest) ← element? "body" rest
  let end_ ← after? (.closing "html") rest
  let head ← after? (.opening "meta" [("charset", "UTF-8")] false) head
  let (title, head) ← element? "title" head
  let title ← (text? title).bind decode
  let (style, head) ← style? head
  if head.all Token.isBlank && end_.all Token.isBlank then
    some ⟨.ofList title, style, innerText (body.flatMap Token.chars)⟩
  else none

def read? (text : String) : Option Document := (tokens? text).bind ofTokens?

/-! ### Documents as they are written -/

def charTokens (text : String) : List Token := text.toList.map Token.char

def styleTokens (css : String) : List Token :=
  if css = "" then []
  else charTokens "  " ++ .opening "style" [] false
    :: ((.char '\n' :: charTokens css ++ charTokens "  ") ++ .closing "style" :: [.char '\n'])

def headTokens (title css : String) : List Token :=
  charTokens "\n  " ++ .opening "meta" [("charset", "UTF-8")] false
    :: (charTokens "\n  " ++ .opening "title" [] false
      :: (charTokens (escapeText title) ++ .closing "title" :: .char '\n' :: styleTokens css))

def documentTokens (title css : String) (body : List Token) : List Token :=
  charTokens "\n" ++ .opening "html" [] false
    :: (charTokens "\n" ++ .opening "head" [] false
      :: (headTokens title css ++ .closing "head"
        :: (charTokens "\n" ++ .opening "body" [] false
          :: ((.char '\n' :: body) ++ .closing "body"
            :: (charTokens "\n" ++ .closing "html" :: charTokens "\n")))))

theorem isChar_charTokens (text : String) : (charTokens text).all Token.isChar = true := by
  simp [charTokens, Token.isChar]

theorem chars_charTokens (text : String) : (charTokens text).flatMap Token.chars = text.toList :=
  flatMap_chars_char text.toList

theorem closing_notMem_charTokens (tag text : String) : Token.closing tag ∉ charTokens text := by
  simp [charTokens]

theorem tagNames_charTokens (text : String) : tagNames (charTokens text) = [] := by
  rw [tagNames, charTokens, List.filterMap_map]
  exact List.filterMap_eq_nil_iff.mpr fun _ _ => rfl

/-! ### Reading what was written -/

theorem after?_append {t : Token} (ht : t.isBlank = false) {blanks : List Token}
    (hblanks : ∀ b ∈ blanks, b.isBlank = true) (rest : List Token) :
    after? t (blanks ++ t :: rest) = some rest := by
  have hdrop : (blanks ++ t :: rest).dropWhile Token.isBlank = t :: rest := by
    rw [List.dropWhile_append_of_pos hblanks, List.dropWhile_cons, if_neg (by simp [ht])]
  simp only [after?, hdrop, if_true]

/-- An element is read up to its closing tag, if there is no such tag inside of it. -/
theorem element?_append (tag : String) {blanks inside : List Token}
    (hblanks : ∀ b ∈ blanks, b.isBlank = true) (hinside : .closing tag ∉ inside)
    (rest : List Token) :
    element? tag (blanks ++ .opening tag [] false :: (inside ++ .closing tag :: rest)) =
      some (inside, rest) := by
  have hne : ∀ t ∈ inside, (t != .closing tag) = true := by
    intro t ht
    rw [bne_iff_ne]
    rintro rfl
    exact hinside ht
  have htake : (inside ++ .closing tag :: rest).takeWhile (· != .closing tag) = inside := by
    rw [List.takeWhile_append_of_pos hne, List.takeWhile_cons, if_neg (by simp), List.append_nil]
  have hdrop : (inside ++ .closing tag :: rest).dropWhile (· != .closing tag) =
      .closing tag :: rest := by
    rw [List.dropWhile_append_of_pos hne, List.dropWhile_cons, if_neg (by simp)]
  have hopening := after?_append (t := .opening tag [] false) rfl hblanks
    (inside ++ .closing tag :: rest)
  have hclosing : after? (.closing tag) (.closing tag :: rest) = some rest :=
    after?_append rfl (List.forall_mem_nil _) rest
  simp only [element?, hopening, Option.bind_eq_bind, Option.bind_some, hdrop, hclosing, htake]
  rfl

theorem text?_charTokens (text : String) : text? (charTokens text) = some text.toList := by
  rw [text?, if_pos (isChar_charTokens text), chars_charTokens]

/-- What stands on lines of its own is what is inside, whatever it is indented by. -/
theorem innerText_lines {text spaces : List Char} (hlast : text.getLast? ≠ some ' ')
    (hspaces : ∀ c ∈ spaces, c = ' ') : innerText ('\n' :: (text ++ spaces)) = .ofList text := by
  have hback : ∀ c ∈ spaces.reverse, (c == ' ') = true := by
    intro c hc
    rw [hspaces c (List.mem_reverse.mp hc)]
    rfl
  have hself : text.rdropWhile (· == ' ') = text := by
    rw [List.rdropWhile_eq_self_iff]
    intro hne hspace
    rw [List.getLast?_eq_some_getLast hne, beq_iff_eq.mp hspace] at hlast
    exact hlast rfl
  rw [innerText]
  apply congrArg String.ofList
  rw [List.rdropWhile] at hself ⊢
  rw [List.reverse_append, List.dropWhile_append_of_pos hback, hself]

theorem blank_charTokens {text : String} (h : text.toList.all Char.isWhitespace = true) :
    ∀ b ∈ charTokens text, b.isBlank = true := by
  intro b hb
  obtain ⟨c, hc, rfl⟩ := List.mem_map.mp hb
  exact List.all_eq_true.mp h c hc

theorem style?_styleTokens {css : String} (hlast : css.toList.getLast? ≠ some ' ') :
    ∃ rest, rest.all Token.isBlank = true ∧
      style? (.char '\n' :: styleTokens css) =
        some (if css = "" then none else some css, rest) := by
  by_cases hcss : css = ""
  · subst hcss
    exact ⟨[.char '\n'], rfl, rfl⟩
  · refine ⟨[.char '\n'], rfl, ?_⟩
    have htext : text? (Token.char '\n' :: charTokens css ++ charTokens "  ") =
        some ('\n' :: (css.toList ++ "  ".toList)) := by
      have hchars : (Token.char '\n' :: charTokens css ++ charTokens "  ").all Token.isChar =
          true := by
        simp [charTokens, Token.isChar]
      rw [text?, if_pos hchars, List.flatMap_append, List.flatMap_cons, chars_charTokens,
        chars_charTokens]
      rfl
    have hinner : innerText ('\n' :: (css.toList ++ "  ".toList)) = css := by
      rw [innerText_lines hlast (by simp), String.ofList_toList]
    have hinside :
        Token.closing "style" ∉ Token.char '\n' :: charTokens css ++ charTokens "  " := by
      simp [closing_notMem_charTokens]
    have hindent : ∀ b ∈ charTokens "\n  ", b.isBlank = true := blank_charTokens (by decide)
    have helement := element?_append "style" hindent hinside [.char '\n']
    have hblank : (.char '\n' :: styleTokens css).all Token.isBlank = false := by
      rw [styleTokens, if_neg hcss]
      simp [Token.isBlank]
    rw [style?, hblank, if_neg Bool.false_ne_true, styleTokens, if_neg hcss, if_neg hcss]
    change (element? "style" (charTokens "\n  " ++ _)).bind _ = _
    simp only [helement, Option.bind_some, htext, hinner, Option.bind_eq_bind]
    rfl

theorem closing_notMem_headTokens (title css : String) :
    Token.closing "head" ∉ headTokens title css := by
  unfold headTokens styleTokens
  split_ifs <;> simp [closing_notMem_charTokens]

/-- **What is written as a document is read as that document,** if nothing in its body closes
    the body. -/
theorem ofTokens?_documentTokens (title : String) {css : String}
    (hcss : css.toList.getLast? ≠ some ' ') {body : List Token} (hbody : .closing "body" ∉ body)
    (hlast : (body.flatMap Token.chars).getLast? ≠ some ' ') :
    ofTokens? (documentTokens title css body) =
      some ⟨title, if css = "" then none else some css, .ofList (body.flatMap Token.chars)⟩ := by
  have hbreak : ∀ b ∈ charTokens "\n", b.isBlank = true := blank_charTokens (by decide)
  have hindent : ∀ b ∈ charTokens "\n  ", b.isBlank = true := blank_charTokens (by decide)
  have hclosing : .closing "body" ∉ Token.char '\n' :: body := by simp [hbody]
  have htitle : (text? (charTokens (escapeText title))).bind decode = some title.toList := by
    rw [text?_charTokens, Option.bind_some, escapeText, String.toList_ofList, decode_escape]
  have hinner : innerText ((Token.char '\n' :: body).flatMap Token.chars) =
      .ofList (body.flatMap Token.chars) := by
    have h := innerText_lines hlast (List.forall_mem_nil (· = ' '))
    rw [List.append_nil] at h
    exact h
  obtain ⟨rest, hrest, hstyle⟩ := style?_styleTokens hcss
  have hend : (charTokens "\n").all Token.isBlank = true := by decide
  -- the document element by element, from the outside in
  simp only [ofTokens?, documentTokens, Option.bind_eq_bind, Option.bind_some,
    after?_append (t := .opening "html" [] false) rfl hbreak,
    element?_append "head" hbreak (closing_notMem_headTokens title css),
    element?_append "body" hbreak hclosing, after?_append (t := .closing "html") rfl hbreak]
  simp only [headTokens, Option.bind_some,
    after?_append (t := .opening "meta" [("charset", "UTF-8")] false) rfl hindent,
    element?_append "title" hindent (closing_notMem_charTokens "title" (escapeText title)),
    htitle, hstyle, hrest, hend, hinner, Bool.and_self, if_true, String.ofList_toList]

/-- The tags of a document are those of its form and those of its body. -/
theorem tagNames_documentTokens (title css : String) (body : List Token) :
    tagNames (documentTokens title css body) =
      ["html", "head", "meta", "title", "/title"]
        ++ (if css = "" then [] else ["style", "/style"])
        ++ ["/head", "body"] ++ tagNames body ++ ["/body", "/html"] := by
  unfold documentTokens headTokens styleTokens
  split_ifs <;> simp [tagNames_append, tagNames_cons, tagNames_charTokens, Token.tagName?]

/-! ### Documents as text -/

/-- Every tag of a document can be told from its text. -/
theorem isProper_documentTokens (title : String) {css : String} (hcss : '<' ∉ css.toList)
    {body : List Token} (hbody : ∀ t ∈ body, t.IsProper) :
    ∀ t ∈ documentTokens title css body, t.IsProper := by
  have hchars : ∀ text : String, '<' ∉ text.toList → ∀ t ∈ charTokens text, t.IsProper := by
    intro text htext t ht
    obtain ⟨c, hc, rfl⟩ := List.mem_map.mp ht
    rintro rfl
    exact htext hc
  have htitle : '<' ∉ (escapeText title).toList := by
    intro hmem
    rw [escapeText, String.toList_ofList] at hmem
    obtain ⟨c, -, hc⟩ := List.mem_flatMap.mp hmem
    exact angle_ne_of_mem_escapeChar hc rfl
  have hopening : ∀ tag, tag ≠ "" → IsName tag → (Token.opening tag [] false).IsProper := by
    intro tag hne hname
    exact ⟨hne, hname, by simp⟩
  have hmeta : (Token.opening "meta" [("charset", "UTF-8")] false).IsProper :=
    ⟨by decide, by decide, by decide⟩
  have hbreak : Token.IsProper (.char '\n') := (by decide : '\n' ≠ '<')
  have hclosing : ∀ tag, IsName tag → (Token.closing tag).IsProper := fun _ h => h
  have hstyle : ∀ t ∈ styleTokens css, t.IsProper := by
    unfold styleTokens
    split_ifs
    · exact List.forall_mem_nil _
    · simp only [List.forall_mem_append, List.forall_mem_cons]
      exact ⟨hchars _ (by decide), hopening _ (by decide) (by decide),
        ⟨⟨hbreak, hchars _ hcss⟩, hchars _ (by decide)⟩, hclosing _ (by decide), hbreak,
        List.forall_mem_nil _⟩
  have hhead : ∀ t ∈ headTokens title css, t.IsProper := by
    simp only [headTokens, List.forall_mem_append, List.forall_mem_cons]
    exact ⟨hchars _ (by decide), hmeta, hchars _ (by decide), hopening _ (by decide) (by decide),
      hchars _ htitle, hclosing _ (by decide), hbreak, hstyle⟩
  simp only [documentTokens, List.forall_mem_append, List.forall_mem_cons]
  exact ⟨hchars _ (by decide), hopening _ (by decide) (by decide), hchars _ (by decide),
    hopening _ (by decide) (by decide), hhead, hclosing _ (by decide), hchars _ (by decide),
    hopening _ (by decide) (by decide), ⟨hbreak, hbody⟩, hclosing _ (by decide),
    hchars _ (by decide), hclosing _ (by decide), hchars _ (by decide)⟩

/-- **The text of a document falls into the tokens that it was written as.** -/
theorem tokens?_chars (title : String) {css : String} (hcss : '<' ∉ css.toList)
    {body : List Token} (hbody : ∀ t ∈ body, t.IsProper) :
    tokens? (.ofList (doctype ++ (documentTokens title css body).flatMap Token.chars)) =
      some (documentTokens title css body) := by
  have hdrop : (doctype ++ (documentTokens title css body).flatMap Token.chars).dropPrefix?
      doctype = some ((documentTokens title css body).flatMap Token.chars) :=
    List.dropPrefix?_eq_some_iff.mpr ⟨doctype, rfl, beq_self_eq_true doctype⟩
  rw [tokens?, String.toList_ofList, hdrop, Option.bind_some,
    lex_chars (isProper_documentTokens title hcss hbody)]

end Document

end DesignMarkup.Markup
