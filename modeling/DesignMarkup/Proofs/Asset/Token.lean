/-
  DesignMarkup/Proofs/Asset/Token.lean
  ====================================
  **A token in four steps.**  The token of a name is made in one pass over the name in lower
  case.  It is the same as making it in steps: drop all characters that are neither kept nor
  separators, make one dash of each longest run of separators, drop the dashes at both ends
  (`token_in_steps`).

  The pass writes the dash of a run when the next character is kept; until then the run is
  pending.  A pending run is to the steps a separator in front of what is left, and this
  carries the induction (`dashForRuns_pending`).  At the end of a name the steps write a dash
  for it and the pass writes none, which the last step makes good.

  How a name is put in lower case is settled for all but one letter by the letter alone.  A
  capital sigma has two small forms; both are dropped, so that either may stand in the name.
-/
import DesignMarkup.Proofs.Asset.Path
import DesignMarkup.Proofs.Text.Ascii
import Mathlib.Tactic.Common

namespace DesignMarkup

/-! ### Lower case -/

namespace Text

/-- `lowered` is a text in lower case.  At the end of a word a capital sigma has a small form
    of its own. -/
inductive Lowers : List Char → List Char → Prop where
  | nil : Lowers [] []
  | char (c : Char) {rest lowered : List Char} (h : Lowers rest lowered) :
      Lowers (c :: rest) (lowerChar c ++ lowered)
  | finalSigma {rest lowered : List Char} (h : Lowers rest lowered) :
      Lowers ('Σ' :: rest) ('ς' :: lowered)

theorem lowers_lowerCase (text : List Char) : Lowers text (lowerCase text) := by
  induction text with
  | nil => exact .nil
  | cons c rest ih => exact .char c ih

end Text

namespace Asset

/-! ### The steps -/

section Runs

variable {p : Char → Bool}

/-- One dash for each longest run of characters with the property `p`. -/
def dashForRuns (p : Char → Bool) : List Char → List Char
  | [] => []
  | c :: rest =>
    if p c then '-' :: dashForRuns p (rest.dropWhile p) else c :: dashForRuns p rest
termination_by text => text.length
decreasing_by
  · exact Nat.lt_succ_of_le (List.dropWhile_suffix p).length_le
  · exact Nat.lt_succ_self rest.length

theorem dashForRuns_of_pos {c : Char} (h : p c = true) (rest : List Char) :
    dashForRuns p (c :: rest) = '-' :: dashForRuns p (rest.dropWhile p) := by
  rw [dashForRuns, if_pos h]

theorem dashForRuns_of_neg {c : Char} (h : p c = false) (rest : List Char) :
    dashForRuns p (c :: rest) = c :: dashForRuns p rest := by
  rw [dashForRuns, if_neg (by simp [h])]

/-- A run gives what it gives without its first character. -/
theorem dashForRuns_run {c d : Char} (hc : p c = true) (hd : p d = true) (rest : List Char) :
    dashForRuns p (c :: d :: rest) = dashForRuns p (d :: rest) := by
  rw [dashForRuns_of_pos hc, dashForRuns_of_pos hd, List.dropWhile_cons_of_pos hd]

end Runs

/-- The characters that the first step leaves. -/
def isMeant (c : Char) : Bool := isTokenChar c || isSeparator c

/-- A token from a name in lower case, step by step. -/
def inSteps (lowered : List Char) : List Char :=
  Text.trimBoth (· == '-') (dashForRuns isSeparator (lowered.filter isMeant))

/-! ### The pass -/

theorem toNat_of_isTokenChar {c : Char} (h : isTokenChar c = true) :
    0x61 ≤ c.toNat ∧ c.toNat ≤ 0x7A ∨ 0x30 ≤ c.toNat ∧ c.toNat ≤ 0x39 ∨ c.toNat = 0x2D := by
  simp only [isTokenChar, Bool.or_eq_true, beq_iff_eq] at h
  rcases h with (hlower | hdigit) | rfl
  · exact Or.inl (Text.range_of_isLower hlower)
  · exact Or.inr (Or.inl (Text.range_of_isDigit hdigit))
  · exact Or.inr (Or.inr rfl)

theorem isSeparator_of_isTokenChar {c : Char} (h : isTokenChar c = true) :
    isSeparator c = false := by
  have hrange := toNat_of_isTokenChar h
  have hslash : c ≠ '/' := by
    rintro rfl
    exact absurd h (by decide)
  simp only [isSeparator, Text.isBlank, beq_false_of_ne hslash, Bool.or_false, Bool.or_eq_false_iff,
    Bool.and_eq_false_iff, decide_eq_false_iff_not, beq_eq_false_iff_ne]
  omega

theorem lowerChar_of_isTokenChar {c : Char} (h : isTokenChar c = true) :
    Text.lowerChar c = [c] := by
  have hrange := toNat_of_isTokenChar h
  have hlower : c.toLower = c := Text.toLower_of_not_upper (by omega)
  rw [Text.lowerChar, if_pos (by omega), hlower]

/-- A pending run, as a separator in front. -/
def pendingRun : Bool → List Char
  | true => [' ']
  | false => []

theorem pendingRun_true (text : List Char) : pendingRun true ++ text = ' ' :: text := rfl

theorem pendingRun_false (text : List Char) : pendingRun false ++ text = text := rfl

theorem dashForRuns_token {c : Char} (h : isTokenChar c = true) (pending : Bool)
    (rest : List Char) : dashForRuns isSeparator (pendingRun pending ++ c :: rest) =
      (if pending then ['-', c] else [c]) ++ dashForRuns isSeparator rest := by
  have hother := isSeparator_of_isTokenChar h
  cases pending with
  | false => exact dashForRuns_of_neg hother rest
  | true =>
    rw [pendingRun_true, dashForRuns_of_pos (by decide),
      List.dropWhile_cons_of_neg (by simp [hother]), dashForRuns_of_neg hother, if_pos rfl]
    rfl

/-- A separator makes a run pending, whether one was or not. -/
theorem dashForRuns_pending_separator {c : Char} (h : isSeparator c = true) (pending : Bool)
    (rest : List Char) :
    dashForRuns isSeparator (pendingRun pending ++ c :: rest) =
      dashForRuns isSeparator (pendingRun true ++ rest) := by
  have hrun : dashForRuns isSeparator (c :: rest) = dashForRuns isSeparator (' ' :: rest) := by
    rw [dashForRuns_of_pos h, dashForRuns_of_pos (by decide)]
  cases pending with
  | false => exact hrun
  | true => rw [pendingRun_true, pendingRun_true, dashForRuns_run (by decide) h, hrun]

theorem dashForRuns_pending (pending : Bool) (lowered : List Char) :
    ∃ dashes, (∀ c ∈ dashes, (c == '-') = true) ∧
      dashForRuns isSeparator (pendingRun pending ++ lowered.filter isMeant) =
        joinWords pending lowered ++ dashes := by
  induction lowered generalizing pending with
  | nil =>
    cases pending with
    | false => exact ⟨[], by simp, by rw [List.filter_nil, pendingRun_false, dashForRuns]; rfl⟩
    | true =>
      refine ⟨['-'], by simp, ?_⟩
      rw [List.filter_nil, pendingRun_true, dashForRuns_of_pos (by decide), List.dropWhile_nil,
        dashForRuns, joinWords, List.nil_append]
  | cons c rest ih =>
    by_cases htoken : isTokenChar c = true
    · obtain ⟨dashes, hdashes, hrest⟩ := ih false
      rw [pendingRun_false] at hrest
      refine ⟨dashes, hdashes, ?_⟩
      rw [List.filter_cons_of_pos (by simp [isMeant, htoken]), dashForRuns_token htoken, hrest,
        joinWords, if_pos htoken]
      split_ifs <;> rfl
    · by_cases hseparator : isSeparator c = true
      · obtain ⟨dashes, hdashes, hrest⟩ := ih true
        refine ⟨dashes, hdashes, ?_⟩
        rw [List.filter_cons_of_pos (by simp [isMeant, hseparator]),
          dashForRuns_pending_separator hseparator, hrest, joinWords, if_neg htoken, hseparator,
          Bool.or_true]
      · obtain ⟨dashes, hdashes, hrest⟩ := ih pending
        refine ⟨dashes, hdashes, ?_⟩
        rw [List.filter_cons_of_neg (by simp [isMeant, htoken, hseparator]), hrest, joinWords,
          if_neg htoken, Bool.eq_false_iff.mpr hseparator, Bool.or_false]

theorem inSteps_eq (lowered : List Char) :
    inSteps lowered = Text.trimBoth (· == '-') (joinWords false lowered) := by
  obtain ⟨dashes, hdashes, hpass⟩ := dashForRuns_pending false lowered
  rw [pendingRun_false] at hpass
  rw [inSteps, hpass, Text.trimBoth_append_right hdashes]

/-! ### The form of a sigma -/

theorem joinWords_append_congr {lowered lowered' : List Char}
    (h : ∀ pending, joinWords pending lowered = joinWords pending lowered') (front : List Char)
    (pending : Bool) :
    joinWords pending (front ++ lowered) = joinWords pending (front ++ lowered') := by
  induction front generalizing pending with
  | nil => exact h pending
  | cons c front ih =>
    rw [List.cons_append, List.cons_append, joinWords, joinWords, ih, ih]

theorem joinWords_of_lowers {text lowered : List Char} (h : Text.Lowers text lowered)
    (pending : Bool) :
    joinWords pending lowered = joinWords pending (Text.lowerCase text) := by
  induction h generalizing pending with
  | nil => rfl
  | char c _ ih => exact joinWords_append_congr ih (Text.lowerChar c) pending
  | @finalSigma rest lowered _ ih =>
    have hsigma : Text.lowerChar 'Σ' = ['σ'] := by decide
    have hdropped : ∀ (c : Char) text, isTokenChar c = false → isSeparator c = false →
        joinWords pending (c :: text) = joinWords pending text := by
      intro c text htoken hseparator
      rw [joinWords, if_neg (by simp [htoken]), hseparator, Bool.or_false]
    rw [Text.lowerCase, List.flatMap_cons, hsigma, List.singleton_append,
      hdropped 'σ' _ (by decide) (by decide), hdropped 'ς' _ (by decide) (by decide), ih]
    rfl

/-! ### A token again -/

theorem lowerCase_of_token {text : List Char} (h : ∀ c ∈ text, isTokenChar c = true) :
    Text.lowerCase text = text := by
  induction text with
  | nil => rfl
  | cons c rest ih =>
    rw [Text.lowerCase, List.flatMap_cons, lowerChar_of_isTokenChar (h c List.mem_cons_self),
      List.singleton_append, ← Text.lowerCase, ih fun d hd => h d (List.mem_cons_of_mem c hd)]

theorem joinWords_of_token {text : List Char} (h : ∀ c ∈ text, isTokenChar c = true) :
    joinWords false text = text := by
  induction text with
  | nil => rfl
  | cons c rest ih =>
    rw [joinWords, if_pos (h c List.mem_cons_self), if_neg Bool.false_ne_true,
      ih fun d hd => h d (List.mem_cons_of_mem c hd)]

/-- No dash stands at either end of a token. -/
theorem isTrimmed_token (name : String) : Text.IsTrimmed (· == '-') (token name).toList := by
  rw [token, String.toList_ofList]
  exact Text.isTrimmed_trimBoth _ _

theorem token_token (name : String) : token (token name) = token name := by
  have hchars : ∀ c ∈ (token name).toList, isTokenChar c = true := fun c =>
    isTokenChar_of_mem_token
  rw [token, lowerCase_of_token hchars, joinWords_of_token hchars,
    Text.trimBoth_of_isTrimmed (isTrimmed_token name), String.ofList_toList]

/-- **A token is made in steps,** from its name in lower case, whichever form a sigma has there;
    and a token is its own token. -/
theorem token_in_steps (name : String) :
    (∀ lowered, Text.Lowers name.toList lowered → token name = String.ofList (inSteps lowered)) ∧
      Text.Lowers name.toList (Text.lowerCase name.toList) ∧
      token (token name) = token name := by
  refine ⟨fun lowered h => ?_, Text.lowers_lowerCase _, token_token name⟩
  rw [token, inSteps_eq, joinWords_of_lowers h]

theorem token_in_steps_sigma :
    Text.Lowers "AΣ / b!".toList "aς / b!".toList ∧
      token "AΣ / b!" = String.ofList (inSteps "aς / b!".toList) ∧ token "AΣ / b!" = "a-b" := by
  have hlowers : Text.Lowers "AΣ / b!".toList "aς / b!".toList :=
    .char 'A' (.finalSigma (.char ' ' (.char '/' (.char ' ' (.char 'b' (.char '!' .nil))))))
  exact ⟨hlowers, (token_in_steps "AΣ / b!").1 _ hlowers, by decide⟩

example : token " Arrow // --Left-- ! " = "arrow---left" := by decide

/-! ### Tokens as names -/

/-- A text that is safe as a name: there is something in it, of token characters only, and no
    dash stands at either end. -/
structure IsToken (text : String) : Prop where
  ne_empty : text ≠ ""
  tokenChar : ∀ c ∈ text.toList, isTokenChar c = true
  head : text.toList.head? ≠ some '-'
  last : text.toList.getLast? ≠ some '-'

theorem isToken_placeholder (kind : AssetKind) : IsToken kind.placeholder := by
  have htoken : kind.placeholder.toList.all isTokenChar = true := by cases kind <;> decide
  cases kind <;> exact ⟨by decide, List.all_eq_true.mp htoken, by decide, by decide⟩

/-- Whatever the name of a layer, the name of its file is a token. -/
theorem isToken_fileName (name : String) (kind : AssetKind) : IsToken (fileName name kind) := by
  unfold fileName
  split_ifs with hempty
  · exact isToken_placeholder kind
  · have htrimmed := isTrimmed_token name
    refine ⟨hempty, fun c => isTokenChar_of_mem_token, ?_, ?_⟩
    · intro hdash
      exact absurd (htrimmed.first '-' hdash) (by decide)
    · intro hdash
      exact absurd (htrimmed.last '-' hdash) (by decide)

end Asset

end DesignMarkup
