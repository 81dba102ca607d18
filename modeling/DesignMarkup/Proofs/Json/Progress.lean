/-
  DesignMarkup/Proofs/Json/Progress.lean
  ======================================
  **A scan that succeeds gets ahead.**  What is left after it is shorter than the text it
  started from.  The readers count their steps with a fuel that is taken from the length
  of the text, and they count the containers that they are in; neither runs out where the
  text is well formed, and this is why.

  `Advances` is the property, here of strings and numbers.  It passes from an item to lists
  and members (`ItemsAt.length_lt`, `MembersAt.length_lt`), and so to values of any depth.
-/
import DesignMarkup.Json.Read
import Mathlib.Data.List.DropRight

namespace DesignMarkup.Json

variable {α β : Type}

/-- Where the scan succeeds, less is left than there was. -/
def Advances (scan : Text → Outcome (α × Text)) : Prop :=
  ∀ {text a rest}, scan text = .ok (a, rest) → rest.length < text.length

theorem bind_eq_ok {x : Outcome α} {f : α → Outcome β} {b : β} :
    (x >>= f) = .ok b ↔ ∃ a, x = .ok a ∧ f a = .ok b := by
  cases x with
  | error r =>
    constructor
    · exact fun h => nomatch h
    · exact fun ⟨_, h, _⟩ => nomatch h
  | ok a =>
    constructor
    · exact fun h => ⟨a, rfl, h⟩
    · rintro ⟨a', h, h'⟩
      obtain rfl := Except.ok.inj h
      exact h'

theorem length_skipSpace_le (text : Text) : (skipSpace text).length ≤ text.length :=
  (List.dropWhile_suffix isSpace).length_le

theorem skipSpace_skipSpace (text : Text) : skipSpace (skipSpace text) = skipSpace text :=
  List.dropWhile_idempotent isSpace text

theorem length_lt_of_skipSpace {text : Text} {c : Char} {rest : Text}
    (h : skipSpace text = c :: rest) : rest.length < text.length := by
  have hle := length_skipSpace_le text
  rw [h, List.length_cons] at hle
  exact hle

/-! ### Words, strings and keys -/

theorem length_scanWord {word : List Char} {text : Text} {u : Unit} {rest : Text}
    (h : scanWord word text = .ok (u, rest)) : rest.length ≤ text.length := by
  induction word generalizing text with
  | nil =>
    cases h
    exact Nat.le_refl _
  | cons expected word ih =>
    cases text with
    | nil => cases h
    | cons c tail =>
      rw [scanWord] at h
      split_ifs at h
      · exact Nat.le_succ_of_le (ih h)
      · cases h

theorem advances_scanColon : Advances scanColon := by
  intro text u rest h
  unfold scanColon at h
  split at h
  · cases h
  · next hspace =>
    cases h
    exact length_lt_of_skipSpace hspace
  · cases h

theorem advances_scanUnit : Advances scanUnit := by
  intro text unit rest h
  unfold scanUnit at h
  split_ifs at h
  split at h
  · split at h
    · cases h
      simp only [List.length_cons]
      omega
    · cases h
  · cases h

theorem advances_scanTrailing (leading : Nat) : Advances (scanTrailing leading) := by
  intro text c rest h
  unfold scanTrailing at h
  split at h
  · cases h
  · split at h
    · cases h
    · obtain ⟨⟨unit, mid⟩, hunit, h⟩ := bind_eq_ok.mp h
      have hlt := advances_scanUnit hunit
      simp only at h
      split_ifs at h
      · obtain ⟨-, rfl⟩ := Prod.mk.inj (Except.ok.inj h)
        simp only [List.length_cons]
        omega
      · cases h
    · cases h
  · cases h

theorem advances_scanNumbered (mode : Mode) : Advances (scanNumbered mode) := by
  intro text c rest h
  obtain ⟨⟨unit, mid⟩, hunit, h⟩ := bind_eq_ok.mp h
  have hlt := advances_scanUnit hunit
  cases mode with
  | skip =>
    cases h
    exact hlt
  | keep =>
    simp only at h
    split_ifs at h
    · cases h
    · exact (advances_scanTrailing unit h).trans hlt
    · cases h
      exact hlt

theorem advances_scanEscape (mode : Mode) : Advances (scanEscape mode) := by
  intro text c rest h
  unfold scanEscape at h
  split at h
  · cases h
  · exact Nat.lt_succ_of_lt (advances_scanNumbered mode h)
  · split at h
    · cases h
      exact Nat.lt_succ_self _
    · cases h

theorem advances_scanStringBody (mode : Mode) (fuel : Nat) :
    Advances (scanStringBody mode fuel) := by
  intro text chars rest h
  induction fuel generalizing text chars with
  | zero => cases h
  | succ fuel ih =>
    unfold scanStringBody at h
    split at h
    · cases h
    · cases h
      exact Nat.lt_succ_self _
    · obtain ⟨⟨c, mid⟩, hescape, h⟩ := bind_eq_ok.mp h
      obtain ⟨⟨more, last⟩, hbody, h⟩ := bind_eq_ok.mp h
      cases h
      exact Nat.lt_succ_of_lt ((ih hbody).trans (advances_scanEscape mode hescape))
    · split_ifs at h
      · cases mode <;> cases h
      · obtain ⟨⟨more, last⟩, hbody, h⟩ := bind_eq_ok.mp h
        cases h
        exact Nat.lt_succ_of_lt (ih hbody)

theorem advances_scanString (mode : Mode) (fuel : Nat) : Advances (scanString mode fuel) := by
  intro text s rest h
  obtain ⟨⟨chars, mid⟩, hbody, h⟩ := bind_eq_ok.mp h
  cases h
  exact advances_scanStringBody mode fuel hbody

theorem advances_scanKey (mode : Mode) (fuel : Nat) : Advances (scanKey mode fuel) := by
  intro text key rest h
  unfold scanKey at h
  split at h
  · exact Nat.lt_succ_of_lt (advances_scanString mode fuel h)
  · cases h

/-! ### Numbers -/

theorem length_spanDigits (text : Text) : (spanDigits text).2.length ≤ text.length :=
  (List.dropWhile_suffix Char.isDigit).length_le

theorem advances_scanWhole (atEnd : Cause) : Advances (scanWhole atEnd) := by
  intro text whole rest h
  unfold scanWhole at h
  split at h
  · cases h
  · split at h
    · cases h
      exact Nat.lt_succ_self _
    · split_ifs at h
      · cases h
      · cases h
        exact Nat.lt_succ_self _
  · next c tail hne =>
    split_ifs at h with hdigit
    · cases h
      simp only [List.dropWhile_cons, hdigit, if_true, List.length_cons]
      exact Nat.lt_succ_of_le (List.dropWhile_suffix Char.isDigit).length_le
    · cases h

theorem length_scanFraction {atEnd : Cause} {text rest : Text} {fraction : Option (List Nat)}
    (h : scanFraction atEnd text = .ok (fraction, rest)) : rest.length ≤ text.length := by
  unfold scanFraction at h
  split at h
  · next tail =>
    have hspan := length_spanDigits tail
    split at h
    · cases h
    · cases h
    · next digits last _ _ hdigits =>
      cases h
      rw [hdigits] at hspan
      exact Nat.le_succ_of_le hspan
  · cases h
    exact Nat.le_refl _

theorem length_scanExponentDigits {atEnd : Cause} {negative : Bool} {text rest : Text}
    {exponent : Option (Bool × List Nat)}
    (h : scanExponentDigits atEnd negative text = .ok (exponent, rest)) :
    rest.length ≤ text.length := by
  have hspan := length_spanDigits text
  unfold scanExponentDigits at h
  split at h
  · cases h
  · cases h
  · next digits last _ _ hdigits =>
    cases h
    rw [hdigits] at hspan
    exact hspan

theorem length_scanExponent {atEnd : Cause} {text rest : Text}
    {exponent : Option (Bool × List Nat)} (h : scanExponent atEnd text = .ok (exponent, rest)) :
    rest.length ≤ text.length := by
  unfold scanExponent at h
  split at h
  · cases h
    exact Nat.le_refl _
  · split_ifs at h
    · split at h
      all_goals
        have hle := length_scanExponentDigits h
        simp only [List.length_cons]
        omega
    · cases h
      exact Nat.le_refl _

theorem advances_scanNumeral (atEnd : Cause) : Advances (scanNumeral atEnd) := by
  intro text numeral rest h
  unfold scanNumeral at h
  obtain ⟨⟨whole, afterWhole⟩, hwhole, h⟩ := bind_eq_ok.mp h
  obtain ⟨⟨fraction, afterFraction⟩, hfraction, h⟩ := bind_eq_ok.mp h
  obtain ⟨⟨exponent, afterExponent⟩, hexponent, h⟩ := bind_eq_ok.mp h
  cases h
  have hlt := advances_scanWhole atEnd hwhole
  have hle := length_scanFraction hfraction
  have hle' := length_scanExponent hexponent
  split at hlt
  all_goals
    simp only [List.length_cons] at *
    omega

theorem advances_scanNumber : Advances scanNumber := by
  intro text number rest h
  obtain ⟨⟨numeral, mid⟩, hnumeral, h⟩ := bind_eq_ok.mp h
  simp only at h
  split at h
  · cases h
    exact advances_scanNumeral _ hnumeral
  · cases h

end DesignMarkup.Json
