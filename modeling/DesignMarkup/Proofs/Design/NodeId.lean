/-
  DesignMarkup/Proofs/Design/NodeId.lean
  ======================================
  **Every way to write an id gives the id.**  An id reaches the program as it is, or
  percent-encoded, or with a dash for its colon, and perhaps with white space around it.
  `NodeId.normalize` gives one id for all of these (`normalize_writings`).

  Each of its steps could undo what another relies on: trimming could cut into the id,
  decoding could make escapes of what is none, and a dash could be taken for a colon.  So it is told
  apart what the first two give (`plain_encode`, `plain_of_notMem`) and what the last one makes
  of that (`normalize_of_colon`, `normalize_of_dash`).
-/
import DesignMarkup.Design.NodeId
import DesignMarkup.Proofs.Text.Blank
import DesignMarkup.Proofs.Text.Percent

namespace DesignMarkup.NodeId

open Text

/-! ### The dash -/

theorem colonForDash_append {a : List Char} (h : '-' ∉ a) (b : List Char) :
    colonForDash (a ++ '-' :: b) = a ++ ':' :: b := by
  induction a with
  | nil => rfl
  | cons c a ih =>
    rw [List.mem_cons, not_or] at h
    obtain ⟨hc, ha⟩ := h
    rw [List.cons_append, colonForDash, if_neg (Ne.symm hc), ih ha, List.cons_append]

theorem isDashed_iff {id : String} :
    isDashed id = true ↔ '-' ∈ id.toList ∧ ':' ∉ id.toList := by
  simp [isDashed]

/-- A text with a dash, taken apart at the first one. -/
theorem exists_first_dash {id : String} (h : '-' ∈ id.toList) :
    ∃ a b : String, id = a ++ "-" ++ b ∧ '-' ∉ a.toList := by
  obtain ⟨a, b, hid, ha⟩ := List.eq_append_cons_of_mem h
  refine ⟨String.ofList a, String.ofList b, ?_, by rwa [String.toList_ofList]⟩
  rw [← String.toList_inj]
  simpa using hid

/-! ### What trimming and decoding give -/

variable {id u v : String}

/-- Nothing that encoding writes is white space. -/
theorem isTidy_encode (id : String) : IsTidy (Percent.encode id) := by
  apply isTrimmed_of_forall
  intro c hc
  obtain ⟨hlow, hhigh⟩ := Percent.range_of_isWritten (Percent.isWritten_of_mem_encode hc)
  simp only [isBlank, Bool.or_eq_false_iff, Bool.and_eq_false_iff, decide_eq_false_iff_not,
    beq_eq_false_iff_ne]
  omega

theorem plain_encode (id : String) (hu : AllBlank u) (hv : AllBlank v) :
    plain (u ++ Percent.encode id ++ v) = id := by
  rw [plain, trim_surrounded (isTidy_encode id) hu hv, Percent.decode?_encode, Option.getD_some]

theorem plain_of_trim {raw : String} (htrim : trim raw = id) (hsign : '%' ∉ id.toList) :
    plain raw = id := by
  rw [plain, htrim, Percent.decode?_of_notMem hsign, Option.getD_some]

theorem plain_of_notMem (hsign : '%' ∉ id.toList) (hid : IsTidy id) (hu : AllBlank u)
    (hv : AllBlank v) : plain (u ++ id ++ v) = id :=
  plain_of_trim (trim_surrounded hid hu hv) hsign

/-! ### What becomes of the dash -/

theorem normalize_of_not_dashed {raw : String} (h : isDashed (plain raw) = false) :
    normalize raw = plain raw := if_neg (by simp [h])

theorem normalize_of_colon {raw : String} (hplain : plain raw = id) (hcolon : ':' ∈ id.toList) :
    normalize raw = id := by
  have hdashed : isDashed (plain raw) = false := by simp [hplain, isDashed, hcolon]
  rw [normalize_of_not_dashed hdashed, hplain]

theorem normalize_of_dash {raw a b : String} (hplain : plain raw = a ++ "-" ++ b)
    (ha : '-' ∉ a.toList) (hacolon : ':' ∉ a.toList) (hbcolon : ':' ∉ b.toList) :
    normalize raw = a ++ ":" ++ b := by
  have hdashed : isDashed (plain raw) = true := by
    rw [hplain, isDashed_iff]
    simp [hacolon, hbcolon]
  have hchars : (a ++ "-" ++ b).toList = a.toList ++ '-' :: b.toList := by simp
  rw [normalize, if_pos hdashed, hplain, hchars, colonForDash_append ha, ← String.toList_inj]
  simp

/-! ### Normalizing again -/

theorem isTidy_colon {a b : String} (h : IsTidy (a ++ "-" ++ b)) : IsTidy (a ++ ":" ++ b) := by
  unfold IsTidy at h ⊢
  rw [String.toList_append, String.toList_append, List.append_assoc] at h ⊢
  exact h.replace (by decide)

theorem normalize_normalize {raw : String} (h : '%' ∉ raw.toList) :
    normalize (normalize raw) = normalize raw := by
  have hsign : '%' ∉ (trim raw).toList := fun hmem => h (mem_of_mem_trim hmem)
  have hplain : plain raw = trim raw := plain_of_trim rfl hsign
  cases hdashed : isDashed (plain raw) with
  | false =>
    have hagain : plain (plain raw) = plain raw := by
      rw [hplain]
      exact plain_of_trim (trim_of_isTidy (isTidy_trim raw)) hsign
    have hdashed' : isDashed (plain (plain raw)) = false := by rwa [hagain]
    rw [normalize_of_not_dashed hdashed, normalize_of_not_dashed hdashed', hagain]
  | true =>
    obtain ⟨hdash, hcolon⟩ := isDashed_iff.mp hdashed
    obtain ⟨a, b, hparts, ha⟩ := exists_first_dash hdash
    rw [← hplain, hparts] at hsign
    rw [hparts] at hcolon
    simp only [String.toList_append, List.mem_append, not_or] at hcolon hsign
    have htidy : IsTidy (a ++ "-" ++ b) := by
      rw [← hparts, hplain]
      exact isTidy_trim raw
    rw [normalize_of_dash hparts ha hcolon.1.1 hcolon.2]
    -- the colon is there now, so that the next dash stays
    have hagain : plain (a ++ ":" ++ b) = a ++ ":" ++ b := by
      apply plain_of_trim (trim_of_isTidy (isTidy_colon htidy))
      simp [hsign.1.1, hsign.2]
    exact normalize_of_colon hagain (by simp)

/-! ### The writings of an id -/

/-- **Every writing of an id gives the id.**  Around an id with a colon that is percent-encoded
    there may be white space, and also around one that stands as it is, if it has no percent
    sign and no white space at its ends.  An id with a dash in the place of the colon gives the
    id with the colon, encoded or not.  Of a text without a percent sign it is enough to
    normalize it once. -/
theorem normalize_writings :
    (∀ id u v : String, ':' ∈ id.toList → AllBlank u → AllBlank v →
      normalize (u ++ Percent.encode id ++ v) = id ∧
        ('%' ∉ id.toList → IsTidy id → normalize (u ++ id ++ v) = id)) ∧
    (∀ a b u v : String, '-' ∉ a.toList → ':' ∉ a.toList → '%' ∉ a.toList → ':' ∉ b.toList →
      '%' ∉ b.toList → IsTidy (a ++ "-" ++ b) → AllBlank u → AllBlank v →
      normalize (u ++ (a ++ "-" ++ b) ++ v) = a ++ ":" ++ b ∧
        normalize (u ++ Percent.encode (a ++ "-" ++ b) ++ v) = a ++ ":" ++ b) ∧
    ∀ raw : String, '%' ∉ raw.toList → normalize (normalize raw) = normalize raw := by
  refine ⟨?_, ?_, fun raw => normalize_normalize⟩
  · intro id u v hcolon hu hv
    refine ⟨normalize_of_colon (plain_encode id hu hv) hcolon, fun hsign hid => ?_⟩
    exact normalize_of_colon (plain_of_notMem hsign hid hu hv) hcolon
  · intro a b u v ha hacolon hasign hbcolon hbsign hid hu hv
    have hsign : '%' ∉ (a ++ "-" ++ b).toList := by simp [hasign, hbsign]
    exact ⟨normalize_of_dash (plain_of_notMem hsign hid hu hv) ha hacolon hbcolon,
      normalize_of_dash (plain_encode _ hu hv) ha hacolon hbcolon⟩

/-- An id that ends in a space and has a percent sign, and one with two dashes. -/
theorem normalize_writings_awkward :
    normalize ("\t" ++ Percent.encode "1:é% " ++ "\u3000") = "1:é% " ∧
      normalize ("\t" ++ "I1:2;3-4" ++ " ") = "I1:2;3-4" ∧
      normalize (" " ++ ("101" ++ "-" ++ "11-71") ++ "\n") = "101" ++ ":" ++ "11-71" ∧
      normalize (" " ++ Percent.encode ("101" ++ "-" ++ "11-71") ++ "\n") =
        "101" ++ ":" ++ "11-71" ∧
      normalize (normalize " 1-2-3") = normalize " 1-2-3" := by
  obtain ⟨hcolon, hdash, hagain⟩ := normalize_writings
  have hencoded := hcolon "1:é% " "\t" "\u3000" (by decide) (by decide) (by decide)
  have hplain := hcolon "I1:2;3-4" "\t" " " (by decide) (by decide) (by decide)
  have hdashed := hdash "101" "11-71" " " "\n" (by decide) (by decide) (by decide) (by decide)
    (by decide) (by decide) (by decide) (by decide)
  exact ⟨hencoded.1, hplain.2 (by decide) (by decide), hdashed.1, hdashed.2,
    hagain " 1-2-3" (by decide)⟩

end DesignMarkup.NodeId
