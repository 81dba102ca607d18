/-
  DesignMarkup/Proofs/Style/Reading.lean
  ======================================
  **A reader for style attributes.**  The value of a `style` attribute is read as
  declarations, each up to a semicolon, with a space between one and the next.  A property
  ends at its first colon.

  `Declarations.read?_text` says that plain declarations read back to themselves, so that
  two of them with the same text are the same.
-/
import DesignMarkup.Proofs.Stylesheet.Reading

namespace DesignMarkup.Declarations

open Stylesheet (splitOn_stopped span_stop ne_of_plain)

/-- A declaration without its semicolon, with the space before it. -/
def readPart : List Char → Option (String × String)
  | ' ' :: rest =>
    match rest.dropWhile (· != ':') with
    | ':' :: ' ' :: value =>
      some (String.ofList (rest.takeWhile (· != ':')), String.ofList value)
    | _ => none
  | _ => none

/-- Declarations, each with the space before it and the semicolon after it. -/
def readParts (text : List Char) : Option (List (String × String)) :=
  let parts := text.splitOn ';'
  if parts.getLast? = some [] then parts.dropLast.mapM readPart else none

/-- The declarations that the value of a style attribute holds. -/
def read? (text : String) : Option Declarations :=
  if text.toList.isEmpty then some empty else (readParts (' ' :: text.toList)).map Declarations.mk

def part (pair : String × String) : List Char :=
  ' ' :: (pair.1.toList ++ ':' :: ' ' :: pair.2.toList)

theorem toList_declarationText (pair : String × String) :
    ' ' :: (declarationText pair).toList = part pair ++ [';'] := by
  simp [declarationText, part]

theorem toList_intercalate (pairs : List (String × String)) (hne : pairs ≠ []) :
    ' ' :: (" ".intercalate (pairs.map declarationText)).toList =
      (pairs.map part).flatMap (· ++ [';']) := by
  induction pairs with
  | nil => exact absurd rfl hne
  | cons first rest ih =>
    cases rest with
    | nil =>
      rw [List.map_singleton, String.intercalate_singleton, toList_declarationText]
      simp
    | cons second more =>
      rw [List.map_cons, List.map_cons, String.intercalate_cons_cons, ← List.map_cons,
        String.toList_append, String.toList_append, ← List.cons_append, ← List.cons_append,
        toList_declarationText]
      rw [List.append_assoc]
      refine congrArg (part first ++ [';'] ++ ·) (ih (List.cons_ne_nil _ _)) |>.trans ?_
      simp

theorem readPart_part {pair : String × String} (h : IsPlain pair.1) :
    readPart (part pair) = some pair := by
  have hcolon : ':' ∉ pair.1.toList := fun hc => ne_of_plain h hc (by decide) rfl
  obtain ⟨htake, hdrop⟩ := span_stop hcolon (' ' :: pair.2.toList)
  rw [part, readPart, hdrop, htake]
  simp only [String.ofList_toList]

theorem semicolon_notMem_part {pair : String × String} (hproperty : IsPlain pair.1)
    (hvalue : IsPlain pair.2) : ';' ∉ part pair := by
  have hplain : ∀ text, IsPlain text → ';' ∉ text.toList := fun text ht hc =>
    ne_of_plain ht hc (by decide) rfl
  simp [part, hplain _ hproperty, hplain _ hvalue]

theorem mapM_readPart {pairs : List (String × String)} (h : PlainPairs pairs) :
    (pairs.map part).mapM readPart = some pairs := by
  induction pairs with
  | nil => rfl
  | cons pair rest ih =>
    rw [List.map_cons, List.mapM_cons, readPart_part (h pair List.mem_cons_self).1,
      ih fun p hp => h p (List.mem_cons_of_mem pair hp)]
    rfl

/-- **Plain declarations read back to themselves.** -/
theorem read?_text {d : Declarations} (h : d.ArePlain) : read? d.text = some d := by
  obtain ⟨pairs⟩ := d
  cases pairs with
  | nil => rfl
  | cons first rest =>
    have hchars := toList_intercalate (first :: rest) (List.cons_ne_nil first rest)
    have hparts : ∀ p ∈ (first :: rest).map part, ';' ∉ p := by
      intro p hp
      obtain ⟨pair, hpair, rfl⟩ := List.mem_map.mp hp
      exact semicolon_notMem_part (h pair hpair).1 (h pair hpair).2
    have hnonempty : (text ⟨first :: rest⟩).toList.isEmpty = false := by
      rw [List.isEmpty_eq_false_iff]
      intro hempty
      rw [text] at hempty
      rw [hempty] at hchars
      simp [part] at hchars
    rw [read?, hnonempty, if_neg Bool.false_ne_true, text, hchars, readParts,
      splitOn_stopped hparts]
    simp only [List.getLast?_concat, if_true, List.dropLast_concat, mapM_readPart h,
      Option.map_some]

theorem eq_of_text {d d' : Declarations} (h : d.ArePlain) (h' : d'.ArePlain)
    (heq : d.text = d'.text) : d = d' := by
  have hread := read?_text h
  rw [heq, read?_text h'] at hread
  exact (Option.some.inj hread).symm

end DesignMarkup.Declarations
