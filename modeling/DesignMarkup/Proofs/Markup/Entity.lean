/-
  DesignMarkup/Proofs/Markup/Entity.lean
  ======================================
  **Entities are read back as the characters that they stand for.**  `decode` is what
  a reader makes of running text or of the value of an attribute: the three entities
  become characters again, and a character that should have been written as an entity
  is refused.

  Escaped text decodes to itself (`decode_escape`).  A value passes through one change
  before it is escaped, a double quote becoming a single one, so that an attribute
  decodes to `unquoted` of what it was made from (`decodeText_escapeAttribute`) and
  never contains the quote that would end it (`quote_notMem_escapeAttribute`).
-/
import DesignMarkup.Markup.Escape
import Mathlib.Tactic.Common

namespace DesignMarkup.Markup

/-- A character that text must not contain, apart from the ampersand of an entity. -/
def isReserved (c : Char) : Bool := c == '&' || c == '<' || c == '>'

/-- A text with its entities turned back into characters. -/
def decode : List Char → Option (List Char)
  | [] => some []
  | '&' :: 'a' :: 'm' :: 'p' :: ';' :: rest => (decode rest).map ('&' :: ·)
  | '&' :: 'l' :: 't' :: ';' :: rest => (decode rest).map ('<' :: ·)
  | '&' :: 'g' :: 't' :: ';' :: rest => (decode rest).map ('>' :: ·)
  | c :: rest => if isReserved c then none else (decode rest).map (c :: ·)

def decodeText (text : String) : Option String := (decode text.toList).map String.ofList

/-- A text with every double quote turned into a single one. -/
def unquoted (text : String) : String := String.ofList (text.toList.map singleQuote)

/-! ### Decoding what was escaped -/

theorem decode_cons {c : Char} (h : isReserved c = false) (rest : List Char) :
    decode (c :: rest) = (decode rest).map (c :: ·) := by
  have hc : c ≠ '&' := by
    rintro rfl
    exact absurd h (by decide)
  conv_lhs => unfold decode
  split <;> simp_all

theorem decode_escapeChar (c : Char) (rest : List Char) :
    decode (escapeChar c ++ rest) = (decode rest).map (c :: ·) := by
  by_cases hamp : c = '&'
  · subst hamp; rfl
  · by_cases hlt : c = '<'
    · subst hlt; rfl
    · by_cases hgt : c = '>'
      · subst hgt; rfl
      · have hc : escapeChar c = [c] := by
          simp only [escapeChar, if_neg hamp, if_neg hlt, if_neg hgt]
        have hr : isReserved c = false := by simp [isReserved, hamp, hlt, hgt]
        rw [hc, List.singleton_append, decode_cons hr]

/-- **Escaping is undone by decoding.** -/
theorem decode_escape (text : List Char) : decode (text.flatMap escapeChar) = some text := by
  induction text with
  | nil => rfl
  | cons c rest ih => rw [List.flatMap_cons, decode_escapeChar, ih, Option.map_some]

theorem decodeText_escapeAttribute (text : String) :
    decodeText (escapeAttribute text) = some (unquoted text) := by
  rw [decodeText, escapeAttribute, String.toList_ofList, decode_escape, Option.map_some, unquoted]

/-! ### What escaped text cannot contain -/

theorem mem_escapeChar {c d : Char} (h : d ∈ escapeChar c) :
    d = c ∨ d ∈ ['&', 'a', 'm', 'p', 'l', 't', 'g', ';'] := by
  unfold escapeChar at h
  split_ifs at h <;> simp only [List.mem_cons, List.not_mem_nil, or_false] at h ⊢ <;> tauto

theorem singleQuote_ne (c : Char) : singleQuote c ≠ '"' := by
  unfold singleQuote
  split_ifs with h
  · decide
  · exact h

theorem quote_notMem_escapeAttribute (text : String) :
    '"' ∉ (escapeAttribute text).toList := by
  intro h
  rw [escapeAttribute, String.toList_ofList, List.mem_flatMap] at h
  obtain ⟨c, hc, hq⟩ := h
  obtain ⟨d, -, rfl⟩ := List.mem_map.mp hc
  rcases mem_escapeChar hq with h | h
  · exact singleQuote_ne d h.symm
  · exact absurd h (by decide)

/-- A text is unquoted to itself only if it has no double quote. -/
theorem unquoted_eq_self_iff {text : String} : unquoted text = text ↔ '"' ∉ text.toList := by
  constructor
  · intro h hquote
    rw [← h, unquoted, String.toList_ofList] at hquote
    obtain ⟨c, -, hc⟩ := List.mem_map.mp hquote
    exact singleQuote_ne c hc
  · intro h
    have hkeep : ∀ c ∈ text.toList, singleQuote c = c := by
      rintro c hc
      apply if_neg
      rintro rfl
      exact h hc
    rw [unquoted, List.map_congr_left hkeep, List.map_id', String.ofList_toList]

theorem angle_ne_of_mem_escapeChar {c d : Char} (h : d ∈ escapeChar c) : d ≠ '<' := by
  rintro rfl
  unfold escapeChar at h
  split_ifs at h with hamp hlt hgt
  · exact absurd h (by decide)
  · exact absurd h (by decide)
  · exact absurd h (by decide)
  · exact hlt (List.mem_singleton.mp h).symm

/-! ### Text that needs no escape -/

def isHarmless (c : Char) : Bool := !isReserved c && c != '"'

theorem escapeChar_of_harmless {c : Char} (h : isHarmless c = true) :
    escapeChar (singleQuote c) = [c] := by
  simp only [isHarmless, isReserved, Bool.and_eq_true, Bool.not_eq_true', Bool.or_eq_false_iff,
    beq_eq_false_iff_ne, bne_iff_ne] at h
  obtain ⟨⟨⟨hamp, hlt⟩, hgt⟩, hquote⟩ := h
  rw [singleQuote, if_neg hquote, escapeChar, if_neg hamp, if_neg hlt, if_neg hgt]

theorem escapeAttribute_eq_self {text : String} (h : ∀ c ∈ text.toList, isHarmless c = true) :
    escapeAttribute text = text := by
  apply String.toList_injective
  rw [escapeAttribute, String.toList_ofList, List.flatMap_map]
  have hsingle : ∀ s : List Char, (∀ c ∈ s, isHarmless c = true) →
      s.flatMap (fun c => escapeChar (singleQuote c)) = s := by
    intro s hs
    induction s with
    | nil => rfl
    | cons c rest ih =>
      rw [List.flatMap_cons, escapeChar_of_harmless (hs c List.mem_cons_self),
        ih fun d hd => hs d (List.mem_cons_of_mem c hd), List.singleton_append]
  exact hsingle text.toList h

end DesignMarkup.Markup
