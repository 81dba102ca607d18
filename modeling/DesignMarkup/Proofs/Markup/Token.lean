/-
  DesignMarkup/Proofs/Markup/Token.lean
  =====================================
  **The text of markup as tags and characters.**  A token is an opening tag with its
  attributes, a closing tag, or one character that stands between tags.  The values of
  attributes are kept as they are written.

  `lex` is the reader.  It goes over the text once, one character at a time, and its
  state says what part of a tag it is in.  Only the strict form is accepted: one space
  before an attribute, an equals sign, and double quotes around the value.

  `lex_chars` says that reading undoes writing, for tokens that can be told apart in
  the text at all (`Token.IsProper`).
-/
import DesignMarkup.Markup.Element
import Mathlib.Tactic.Common

namespace DesignMarkup.Markup

/-- A piece of markup.  The values of attributes are as they are written. -/
inductive Token where
  /-- `<tag name="value">`, with a slash before the end if `slashed`. -/
  | opening (tag : String) (attributes : List Attribute) (slashed : Bool)
  /-- `</tag>` -/
  | closing (tag : String)
  /-- A character outside of tags. -/
  | char (c : Char)
deriving DecidableEq, Repr

/-- An attribute as it stands in a tag, with the space before it. -/
def attributeChars (a : Attribute) : List Char :=
  ' ' :: (a.1.toList ++ '=' :: '"' :: (a.2.toList ++ ['"']))

def tagEndChars (slashed : Bool) : List Char := if slashed then ['/', '>'] else ['>']

def Token.chars : Token → List Char
  | .opening tag attributes slashed =>
    '<' :: (tag.toList ++ (attributes.flatMap attributeChars ++ tagEndChars slashed))
  | .closing tag => '<' :: '/' :: (tag.toList ++ ['>'])
  | .char c => [c]

/-- A character of the name of a tag or an attribute. -/
def isNameChar (c : Char) : Bool := c.isAlphanum || c == '-'

def IsName (name : String) : Prop := ∀ c ∈ name.toList, isNameChar c = true

instance (name : String) : Decidable (IsName name) :=
  List.decidableBAll (fun c => isNameChar c = true) name.toList

/-- The token can be told from its text. -/
def Token.IsProper : Token → Prop
  | .opening tag attributes _ =>
    tag ≠ "" ∧ IsName tag ∧ ∀ a ∈ attributes, IsName a.1 ∧ '"' ∉ a.2.toList
  | .closing tag => IsName tag
  | .char c => c ≠ '<'

/-! ### The reader -/

/-- What part of the text the reader is in; with it goes what was read of a tag. -/
inductive Lexer where
  | between
  | afterAngle
  | closingName (name : List Char)
  | openingName (name : List Char)
  | attributeName (tag : String) (attributes : List Attribute) (name : List Char)
  | beforeValue (tag : String) (attributes : List Attribute) (name : String)
  | inValue (tag : String) (attributes : List Attribute) (name : String) (value : List Char)
  | afterValue (tag : String) (attributes : List Attribute)
  | afterSlash (tag : String) (attributes : List Attribute)

namespace Lexer

/-- A character where an opening tag may go on with an attribute or come to its end. -/
def goOn (tag : String) (attributes : List Attribute) (c : Char) : Option (Lexer × Option Token) :=
  if c = ' ' then some (.attributeName tag attributes [], none)
  else if c = '/' then some (.afterSlash tag attributes, none)
  else if c = '>' then some (.between, some (.opening tag attributes false))
  else none

/-- The state after a character, and the token that the character completes. -/
def step : Lexer → Char → Option (Lexer × Option Token)
  | .between, c =>
    if c = '<' then some (.afterAngle, none) else some (.between, some (.char c))
  | .afterAngle, c =>
    if c = '/' then some (.closingName [], none)
    else if isNameChar c then some (.openingName [c], none)
    else none
  | .closingName name, c =>
    if isNameChar c then some (.closingName (name ++ [c]), none)
    else if c = '>' then some (.between, some (.closing (String.ofList name)))
    else none
  | .openingName name, c =>
    if isNameChar c then some (.openingName (name ++ [c]), none)
    else goOn (String.ofList name) [] c
  | .attributeName tag attributes name, c =>
    if isNameChar c then some (.attributeName tag attributes (name ++ [c]), none)
    else if c = '=' then some (.beforeValue tag attributes (String.ofList name), none)
    else none
  | .beforeValue tag attributes name, c =>
    if c = '"' then some (.inValue tag attributes name [], none) else none
  | .inValue tag attributes name value, c =>
    if c = '"' then some (.afterValue tag (attributes ++ [(name, String.ofList value)]), none)
    else some (.inValue tag attributes name (value ++ [c]), none)
  | .afterValue tag attributes, c => goOn tag attributes c
  | .afterSlash tag attributes, c =>
    if c = '>' then some (.between, some (.opening tag attributes true)) else none

end Lexer

/-- The tokens of a text, from a state of the reader on. -/
def lex : Lexer → List Char → Option (List Token)
  | .between, [] => some []
  | _, [] => none
  | state, c :: rest =>
    match state.step c with
    | some (next, token) => (lex next rest).map (token.toList ++ ·)
    | none => none

def tokens? (text : String) : Option (List Token) := lex .between text.toList

/-! ### Reading what was written -/

theorem lex_cons {state next : Lexer} {c : Char} {token : Option Token}
    (h : state.step c = some (next, token)) (rest : List Char) :
    lex state (c :: rest) = (lex next rest).map (token.toList ++ ·) := by
  rw [lex, h]

theorem lex_skip {state next : Lexer} {c : Char} (h : state.step c = some (next, none))
    (rest : List Char) : lex state (c :: rest) = lex next rest := by
  rw [lex_cons h]
  simp

/-- A state that only collects the characters it meets collects a whole run of them. -/
theorem lex_collect (state : List Char → Lexer) (p : Char → Prop)
    (hstep : ∀ soFar c, p c → (state soFar).step c = some (state (soFar ++ [c]), none))
    (run rest : List Char) (hrun : ∀ c ∈ run, p c) (soFar : List Char) :
    lex (state soFar) (run ++ rest) = lex (state (soFar ++ run)) rest := by
  induction run generalizing soFar with
  | nil => simp
  | cons c run ih =>
    have hc := hstep soFar c (hrun c List.mem_cons_self)
    rw [List.cons_append, lex_skip hc, ih (fun d hd => hrun d (List.mem_cons_of_mem c hd))]
    simp

theorem lex_closingName {name : String} (h : IsName name) (rest : List Char) :
    lex (.closingName []) (name.toList ++ '>' :: rest) =
      (lex .between rest).map (.closing name :: ·) := by
  have hcollect := lex_collect .closingName (fun c => isNameChar c = true)
    (by intro soFar c hc; simp [Lexer.step, hc]) name.toList ('>' :: rest) h []
  have hend : (Lexer.closingName name.toList).step '>' = some (.between, some (.closing name)) := by
    simp [Lexer.step, isNameChar]
  rw [hcollect, List.nil_append, lex_cons hend]
  rfl

theorem lex_attribute {a : Attribute} (hname : IsName a.1) (hvalue : '"' ∉ a.2.toList)
    (tag : String) (before : List Attribute) (rest : List Char) :
    lex (.afterValue tag before) (attributeChars a ++ rest) =
      lex (.afterValue tag (before ++ [a])) rest := by
  have hspace : (Lexer.afterValue tag before).step ' ' =
      some (.attributeName tag before [], none) := rfl
  have hequals : (Lexer.attributeName tag before a.1.toList).step '=' =
      some (.beforeValue tag before a.1, none) := by
    simp [Lexer.step, isNameChar]
  have hquote : (Lexer.beforeValue tag before a.1).step '"' =
      some (.inValue tag before a.1 [], none) := rfl
  have hend : (Lexer.inValue tag before a.1 a.2.toList).step '"' =
      some (.afterValue tag (before ++ [a]), none) := by
    simp [Lexer.step]
  simp only [attributeChars, List.cons_append, List.append_assoc, List.nil_append]
  rw [lex_skip hspace,
    lex_collect (.attributeName tag before) (fun c => isNameChar c = true)
      (by intro soFar c hc; simp [Lexer.step, hc]) a.1.toList _ hname,
    List.nil_append, lex_skip hequals, lex_skip hquote,
    lex_collect (.inValue tag before a.1) (fun c => c ≠ '"')
      (by intro soFar c hc; simp [Lexer.step, hc]) a.2.toList _
      (by rintro c hc rfl; exact hvalue hc),
    List.nil_append, lex_skip hend]

theorem lex_attributes {attributes : List Attribute}
    (h : ∀ a ∈ attributes, IsName a.1 ∧ '"' ∉ a.2.toList)
    (tag : String) (before : List Attribute) (rest : List Char) :
    lex (.afterValue tag before) (attributes.flatMap attributeChars ++ rest) =
      lex (.afterValue tag (before ++ attributes)) rest := by
  induction attributes generalizing before with
  | nil => simp
  | cons a more ih =>
    obtain ⟨hname, hvalue⟩ := h a List.mem_cons_self
    rw [List.flatMap_cons, List.append_assoc, lex_attribute hname hvalue,
      ih (fun b hb => h b (List.mem_cons_of_mem a hb))]
    simp

theorem lex_tagEnd (tag : String) (attributes : List Attribute) (slashed : Bool)
    (rest : List Char) :
    lex (.afterValue tag attributes) (tagEndChars slashed ++ rest) =
      (lex .between rest).map (.opening tag attributes slashed :: ·) := by
  cases slashed with
  | false =>
    have hend : (Lexer.afterValue tag attributes).step '>' =
        some (.between, some (.opening tag attributes false)) := rfl
    exact lex_cons hend rest
  | true =>
    have hslash : (Lexer.afterValue tag attributes).step '/' =
        some (.afterSlash tag attributes, none) := rfl
    have hend : (Lexer.afterSlash tag attributes).step '>' =
        some (.between, some (.opening tag attributes true)) := rfl
    exact (lex_skip hslash _).trans (lex_cons hend rest)

/-- After the name of a tag the reader goes on as it does after an attribute. -/
theorem lex_afterName {name : String} {c : Char} (hc : isNameChar c = false)
    (rest : List Char) :
    lex (.openingName name.toList) (c :: rest) = lex (.afterValue name []) (c :: rest) := by
  simp only [lex, Lexer.step, hc, String.ofList_toList]
  rfl

theorem lex_openingName {tag : String} (hne : tag ≠ "") (htag : IsName tag) {c : Char}
    (hc : isNameChar c = false) (rest : List Char) :
    lex .afterAngle (tag.toList ++ c :: rest) = lex (.afterValue tag []) (c :: rest) := by
  -- the first character of the name is what tells an opening tag from a closing one
  obtain ⟨first, more, htag_eq⟩ : ∃ first more, tag.toList = first :: more :=
    List.exists_cons_of_ne_nil fun h => hne (String.toList_eq_nil_iff.mp h)
  have hname : ∀ d ∈ first :: more, isNameChar d = true := by rw [← htag_eq]; exact htag
  have hfirst : isNameChar first = true := hname first List.mem_cons_self
  have hslash : first ≠ '/' := by
    rintro rfl
    exact absurd hfirst (by decide)
  have hstep : Lexer.afterAngle.step first = some (.openingName [first], none) := by
    simp [Lexer.step, hslash, hfirst]
  rw [← lex_afterName hc, htag_eq, List.cons_append, lex_skip hstep,
    lex_collect .openingName (fun c => isNameChar c = true)
      (by intro soFar c hc; simp [Lexer.step, hc]) more _
      (fun d hd => hname d (List.mem_cons_of_mem first hd)),
    List.singleton_append]

/-- What follows the name of an opening tag begins with a character of no name. -/
theorem tagRest_eq_cons (attributes : List Attribute) (slashed : Bool) (rest : List Char) :
    ∃ c more, isNameChar c = false ∧
      attributes.flatMap attributeChars ++ (tagEndChars slashed ++ rest) = c :: more := by
  cases attributes with
  | nil =>
    cases slashed with
    | false => exact ⟨'>', rest, by decide, rfl⟩
    | true => exact ⟨'/', '>' :: rest, by decide, rfl⟩
  | cons a more => exact ⟨' ', _, by decide, by simp [attributeChars]; rfl⟩

/-- **A proper token is read back, and nothing after it is touched.** -/
theorem lex_token {token : Token} (h : token.IsProper) (rest : List Char) :
    lex .between (token.chars ++ rest) = (lex .between rest).map (token :: ·) := by
  have hangle : Lexer.between.step '<' = some (.afterAngle, none) := rfl
  cases token with
  | opening tag attributes slashed =>
    obtain ⟨hne, htag, hattributes⟩ := h
    obtain ⟨c, more, hc, hmore⟩ := tagRest_eq_cons attributes slashed rest
    simp only [Token.chars, List.cons_append, List.append_assoc]
    rw [lex_skip hangle, hmore, lex_openingName hne htag hc, ← hmore,
      lex_attributes hattributes, lex_tagEnd, List.nil_append]
  | closing tag =>
    have hslash : Lexer.afterAngle.step '/' = some (.closingName [], none) := rfl
    simp only [Token.chars, List.cons_append, List.append_assoc, List.nil_append]
    rw [lex_skip hangle, lex_skip hslash, lex_closingName h]
  | char c =>
    have hc : Lexer.between.step c = some (.between, some (.char c)) := if_neg h
    exact lex_cons hc rest

/-- **Reading undoes writing.** -/
theorem lex_chars {tokens : List Token} (h : ∀ t ∈ tokens, t.IsProper) :
    lex .between (tokens.flatMap Token.chars) = some tokens := by
  induction tokens with
  | nil => rfl
  | cons t rest ih =>
    rw [List.flatMap_cons, lex_token (h t List.mem_cons_self),
      ih fun t' ht' => h t' (List.mem_cons_of_mem t ht'), Option.map_some]

end DesignMarkup.Markup
