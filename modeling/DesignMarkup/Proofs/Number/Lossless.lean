/-
  DesignMarkup/Proofs/Number/Lossless.lean
  ========================================
  **Numbers in style values are written without loss.**  `plainNumber?` reads a sign, digits
  and possibly a point with digits that do not end in `0`, and gives the exact number; it
  knows no exponent.  It reads every `cssText` of a finite double, and what it reads rounds to
  that double; a whole number below `2 ^ 53` is its numeral; and two doubles have the same
  text exactly when they have the same value (`cssText_lossless`).

  The text comes from two places.  Below `10 ^ 15` a whole number is written by its numeral,
  and that is its exact value.  Otherwise the shortest digits are laid out, which are around
  the double (`isAround_shortest`); for a whole number below `2 ^ 53` they are its own
  (`value_shortest_of_whole`), so that nothing shows where one way ends and the other begins.
-/
import DesignMarkup.Number.Notation
import DesignMarkup.Proofs.Number.Rounding
import Mathlib.Data.List.TakeWhile
import Mathlib.Tactic.IntervalCases

namespace DesignMarkup

/-! ### Reading a number without exponent -/

/-- The number that digits write, at least one of them. -/
def natural? (text : List Char) : Option ℕ :=
  if text ≠ [] ∧ text.all Char.isDigit then some (Nat.ofDigitChars 10 text 0) else none

/-- Digits, and possibly a point and digits that do not end in `0`. -/
def unsigned? (text : List Char) : Option ℚ :=
  match text.dropWhile Char.isDigit with
  | [] => (natural? text).map fun n => (n : ℚ)
  | '.' :: places =>
    if places.getLast? = some '0' then none
    else do
      let whole ← natural? (text.takeWhile Char.isDigit)
      let part ← natural? places
      return whole + part / 10 ^ places.length
  | _ => none

/-- The exact number that a text writes, after an optional sign. -/
def plainNumber? (text : String) : Option ℚ :=
  match text.toList with
  | '-' :: digits => (unsigned? digits).map fun q => -q
  | digits => unsigned? digits

section Reading

variable {digits whole places : List Char}

theorem natural?_digits (hne : digits ≠ []) (hdigits : ∀ c ∈ digits, c.isDigit = true) :
    natural? digits = some (Nat.ofDigitChars 10 digits 0) := by
  rw [natural?, if_pos ⟨hne, List.all_eq_true.mpr hdigits⟩]

theorem unsigned?_digits (hne : digits ≠ []) (hdigits : ∀ c ∈ digits, c.isDigit = true) :
    unsigned? digits = some (Nat.ofDigitChars 10 digits 0 : ℚ) := by
  have hrest : digits.dropWhile Char.isDigit = [] := List.dropWhile_eq_nil_iff.mpr hdigits
  rw [unsigned?, hrest, natural?_digits hne hdigits]
  rfl

theorem unsigned?_point (hwhole : whole ≠ []) (hplaces : places ≠ [])
    (hdigits : ∀ c ∈ whole, c.isDigit = true) (hdigits' : ∀ c ∈ places, c.isDigit = true)
    (hlast : places.getLast? ≠ some '0') :
    unsigned? (whole ++ '.' :: places) = some
      (Nat.ofDigitChars 10 whole 0 + Nat.ofDigitChars 10 places 0 / 10 ^ places.length : ℚ) := by
  have hpoint : Char.isDigit '.' = false := rfl
  have hrest : (whole ++ '.' :: places).dropWhile Char.isDigit = '.' :: places := by
    rw [List.dropWhile_append_of_pos hdigits, List.dropWhile_cons_of_neg (by simp)]
  have hfirst : (whole ++ '.' :: places).takeWhile Char.isDigit = whole := by
    rw [List.takeWhile_append_of_pos hdigits, List.takeWhile_cons_of_neg (by simp),
      List.append_nil]
  rw [unsigned?, hrest]
  simp only
  rw [if_neg hlast, hfirst, natural?_digits hwhole hdigits, natural?_digits hplaces hdigits']
  rfl

/-- A point among the digits divides by a power of ten. -/
theorem unsigned?_within {k : ℕ} (hdigits : ∀ c ∈ digits, c.isDigit = true)
    (hlast : digits.getLast? ≠ some '0') (hpos : 0 < k) (hk : k < digits.length) :
    unsigned? (digits.take (digits.length - k) ++ '.' :: digits.drop (digits.length - k)) =
      some (Nat.ofDigitChars 10 digits 0 / 10 ^ k : ℚ) := by
  obtain ⟨n, hn⟩ : ∃ n, n = digits.length - k := ⟨_, rfl⟩
  rw [← hn]
  have hlength : (digits.drop n).length = k := by
    rw [List.length_drop]
    omega
  have hvalue : (Nat.ofDigitChars 10 digits 0 : ℚ) =
      Nat.ofDigitChars 10 (digits.take n) 0 * 10 ^ k + Nat.ofDigitChars 10 (digits.drop n) 0 := by
    conv => lhs; rw [← List.take_append_drop n digits, Nat.ofDigitChars_append,
      Nat.ofDigitChars_eq_ofDigitChars_zero, hlength]
    push_cast
    ring
  rw [unsigned?_point]
  · rw [hlength, hvalue]
    congr 1
    field_simp
  · intro hnil
    have hzero := congrArg List.length hnil
    rw [List.length_take, List.length_nil] at hzero
    omega
  · exact List.ne_nil_of_length_pos (by omega)
  · exact fun c hc => hdigits c (List.mem_of_mem_take hc)
  · exact fun c hc => hdigits c (List.mem_of_mem_drop hc)
  · rw [List.getLast?_drop]
    split
    · simp
    · exact hlast

/-- So does a point before the digits, with zeros between. -/
theorem unsigned?_below {k : ℕ} (hne : digits ≠ []) (hdigits : ∀ c ∈ digits, c.isDigit = true)
    (hlast : digits.getLast? ≠ some '0') (hk : digits.length ≤ k) :
    unsigned? ('0' :: '.' :: List.replicate (k - digits.length) '0' ++ digits) =
      some (Nat.ofDigitChars 10 digits 0 / 10 ^ k : ℚ) := by
  have hlength : (List.replicate (k - digits.length) '0' ++ digits).length = k := by
    rw [List.length_append, List.length_replicate]
    omega
  change unsigned? (['0'] ++ '.' :: (List.replicate (k - digits.length) '0' ++ digits)) = _
  rw [unsigned?_point]
  · rw [hlength, Nat.ofDigitChars_append, Nat.ofDigitChars_replicate_zero, mul_zero]
    simp [Nat.ofDigitChars]
  · exact List.cons_ne_nil _ _
  · exact List.append_ne_nil_of_right_ne_nil _ hne
  · simp
  · intro c hc
    rcases List.mem_append.mp hc with hzero | hdigit
    · rw [List.eq_of_mem_replicate hzero]
      rfl
    · exact hdigits c hdigit
  · rw [List.getLast?_append_of_ne_nil _ hne]
    exact hlast

/-- What is read without a sign is read behind one. -/
theorem plainNumber?_signText {text : String} {q : ℚ} (h : unsigned? text.toList = some q)
    (negative : Bool) : plainNumber? (signText negative ++ text) = some (withSign negative q) := by
  cases negative with
  | true =>
    have htext : (signText true ++ text).toList = '-' :: text.toList := by simp [signText]
    rw [plainNumber?, htext]
    simp only
    rw [h]
    rfl
  | false =>
    have htext : (signText false ++ text).toList = text.toList := by simp [signText]
    rw [plainNumber?, htext]
    split
    case h_1 rest hminus =>
      -- a minus sign is neither a digit nor a point
      rw [hminus, unsigned?, List.dropWhile_cons_of_neg (by decide)] at h
      cases h
    case h_2 => exact h

end Reading

/-! ### Digits around a point -/

theorem isDigit_of_mem_numeral {n : ℕ} : ∀ c ∈ Nat.toDigits 10 n, c.isDigit = true :=
  fun _ h => Nat.isDigit_of_mem_toDigits (by decide) (by decide) h

theorem unsigned?_toString (n : ℕ) : unsigned? (toString n).toList = some (n : ℚ) := by
  rw [Nat.toString_eq_ofList_toDigits, String.toList_ofList,
    unsigned?_digits Nat.toDigits_ne_nil isDigit_of_mem_numeral, Nat.ofDigitChars_ten_toDigits]

theorem toDigits_mul_pow {n : ℕ} (hn : n ≠ 0) (k : ℕ) :
    Nat.toDigits 10 (n * 10 ^ k) = Nat.toDigits 10 n ++ List.replicate k '0' := by
  induction k with
  | zero => simp
  | succ k ih =>
    have hpos : 0 < n * 10 ^ k := by positivity
    have hstep : n * 10 ^ (k + 1) = n * 10 ^ k * 10 := by ring
    rw [hstep, Nat.toDigits_of_base_le (by norm_num) (by omega), Nat.mul_div_cancel _ (by norm_num),
      Nat.mul_mod_left, ih, List.replicate_succ', List.append_assoc]
    rfl

/-- The last digit of a numeral. -/
theorem getLast?_toDigits (n : ℕ) : (Nat.toDigits 10 n).getLast? = some (n % 10).digitChar := by
  by_cases h : 10 ≤ n
  · rw [Nat.toDigits_of_base_le (by norm_num) h, List.getLast?_concat]
  · rw [Nat.toDigits_of_lt_base (by omega), Nat.mod_eq_of_lt (by omega)]
    rfl

theorem digitChar_ne_zero {n : ℕ} (h : n % 10 ≠ 0) : (n % 10).digitChar ≠ '0' := by
  have hlt : n % 10 < 10 := Nat.mod_lt _ (by norm_num)
  generalize n % 10 = r at h hlt
  interval_cases r
  · exact absurd rfl h
  all_goals decide

namespace Decimal

variable {d : Decimal}

/-- A whole number without zeros at the end has no places behind the point. -/
theorem IsStripped.exponent_nonneg (hd : d.IsStripped) {n : ℕ} (h : d.value = n) :
    0 ≤ d.exponent := by
  by_contra hneg
  obtain ⟨k, hk⟩ : ∃ k : ℕ, d.exponent = -((k + 1 : ℕ) : ℤ) := ⟨(-d.exponent - 1).toNat, by omega⟩
  have hdigits : d.digits = n * 10 ^ k * 10 := by
    rw [value, hk, zpow_neg, zpow_natCast] at h
    field_simp at h
    have hnat : d.digits = 10 ^ k * 10 * n := by exact_mod_cast h
    rw [hnat]
    ring
  have hzero := hd (by omega)
  rw [hzero] at hneg
  exact hneg le_rfl

theorem positional_of_nonneg (hd : d.IsStripped) (h : 0 ≤ d.exponent) :
    d.positional = toString (d.digits * 10 ^ d.exponent.toNat) := by
  rw [Nat.toString_eq_ofList_toDigits]
  simp only [positional, numeral, if_pos h]
  by_cases hzero : d.digits = 0
  · have hd' : d = ⟨0, 0⟩ := hd (by omega)
    rw [hd']
    rfl
  · rw [toDigits_mul_pow hzero]

/-- **The digits around the point** write the exact value. -/
theorem unsigned?_positional (hd : d.IsStripped) :
    unsigned? d.positional.toList = some d.value := by
  by_cases h : 0 ≤ d.exponent
  · rw [positional_of_nonneg hd h, unsigned?_toString, value_of_nonneg h]
  · obtain ⟨k, hk, hpos⟩ : ∃ k : ℕ, d.exponent = -(k : ℤ) ∧ 0 < k :=
      ⟨(-d.exponent).toNat, by omega, by omega⟩
    have hplaces : (-d.exponent).toNat = k := by omega
    have hlast : d.numeral.getLast? ≠ some '0' := by
      rw [numeral, getLast?_toDigits, ne_eq, Option.some.injEq]
      exact digitChar_ne_zero fun hzero => h (by rw [hd hzero])
    have hne : d.numeral ≠ [] := Nat.toDigits_ne_nil
    have hdigits : ∀ c ∈ d.numeral, c.isDigit = true := isDigit_of_mem_numeral
    have hvalue : d.value = (Nat.ofDigitChars 10 d.numeral 0 : ℚ) / 10 ^ k := by
      rw [value, hk, zpow_neg, zpow_natCast, div_eq_mul_inv, numeral, Nat.ofDigitChars_ten_toDigits]
    simp only [positional, if_neg h, hplaces]
    split_ifs with hlong
    · rw [String.toList_ofList, unsigned?_within hdigits hlast hpos hlong, hvalue]
    · rw [String.toList_ofList,
        unsigned?_below hne hdigits hlast (not_lt.mp hlong), hvalue]

end Decimal

/-! ### The text of a finite double -/

open Binary64

theorem toString_signed (negative : Bool) (n : ℕ) :
    toString (signed negative n) = signText (negative && n != 0) ++ toString n := by
  cases negative with
  | false =>
    rw [Bool.false_and, signText, if_neg Bool.false_ne_true, String.empty_append]
    rfl
  | true =>
    cases n with
    | zero => rfl
    | succ n => rfl

theorem cast_signed (negative : Bool) (n : ℕ) : (signed negative n : ℚ) = withSign negative n := by
  cases negative with
  | false => exact Int.cast_natCast n
  | true => exact (Int.cast_neg (n : ℤ)).trans (congrArg _ (Int.cast_natCast n))

section Finite

variable {x : Float} {negative : Bool} {m : Magnitude}

theorem cssText_of_finite (hx : ofFloat x = .finite negative m) :
    cssText x =
      if m.isWhole && m.floor < Nat.pow 10 15 then toString (signed negative m.floor)
      else signText negative ++ (m.shortest .upward).positional := by
  rw [cssText, plainText, hx]

/-- What the text writes is around the double. -/
theorem exists_plainNumber? (hx : ofFloat x = .finite negative m) :
    ∃ q, 0 ≤ q ∧ m.IsAround q ∧ plainNumber? (cssText x) = some (withSign negative q) := by
  rw [cssText_of_finite hx]
  split_ifs with hwhole
  · obtain ⟨hwhole, -⟩ := (Bool.and_eq_true _ _).mp hwhole
    rw [Magnitude.isWhole_iff] at hwhole
    refine ⟨m.value, m.value_nonneg, m.isAround_value, ?_⟩
    rw [toString_signed, plainNumber?_signText (unsigned?_toString _), hwhole]
    -- zero has no sign
    by_cases hzero : m.floor = 0
    · simp [hzero, withSign]
    · rw [bne_iff_ne.mpr hzero, Bool.and_true]
  · refine ⟨(m.shortest .upward).value, ?_, m.isAround_shortest .upward, ?_⟩
    · unfold Decimal.value
      positivity
    · exact plainNumber?_signText
        (Decimal.unsigned?_positional (m.isStripped_shortest .upward)) negative

/-- The neighbours of a value below `2 ^ 53` are not more than one apart. -/
theorem exponent_nonpos (hx : ofFloat x = .finite negative m) (h : m.value < 2 ^ 53) :
    m.exponent ≤ 0 := by
  obtain ⟨word, -, rfl, -⟩ := exists_word_of_ofFloat hx
  by_contra hpos
  unfold magnitudeAt magnitudeOf at h hpos
  split at hpos
  · simp at hpos
  · rw [if_neg ‹_›, Magnitude.value] at h
    simp only at h hpos
    have hmantissa : (2 : ℚ) ^ 52 ≤ ((Nat.pow 2 52 + word % 2 ^ 52 : ℕ) : ℚ) := by
      rw [← Nat.cast_ofNat, ← Nat.cast_pow, Nat.cast_le]
      exact Nat.le_add_right _ _
    have hpow : (2 : ℚ) ^ (1 : ℤ) ≤ 2 ^ (((word / 2 ^ 52 : ℕ) : ℤ) - 1075) :=
      zpow_le_zpow_right₀ (by norm_num) (by omega)
    have hmul := mul_le_mul hmantissa hpow (by norm_num) (by positivity)
    norm_num at hmul h
    linarith

/-- **A whole number below `2 ^ 53`** is its numeral. -/
theorem cssText_of_whole (hx : ofFloat x = .finite negative m) {n : ℤ}
    (hvalue : withSign negative m.value = n) (hn : |n| < 2 ^ 53) : cssText x = toString n := by
  have hk : m.value = n.natAbs := by
    rw [← abs_withSign m.value_nonneg negative, hvalue, Nat.cast_natAbs, Int.cast_abs]
  have hsigned : signed negative n.natAbs = n := by
    rw [← Int.cast_inj (α := ℚ), cast_signed, ← hk, hvalue]
  have hexp : m.exponent ≤ 0 := by
    apply exponent_nonpos hx
    rw [hk, Nat.cast_natAbs]
    exact_mod_cast hn
  rw [cssText_of_finite hx, Magnitude.isWhole_of_value hk, Magnitude.floor_of_value hk, hsigned,
    Bool.true_and]
  split_ifs with hsmall
  · rfl
  · -- the shortest digits are those of the number, which is not zero
    have hshortest := Magnitude.value_shortest_of_whole hk hexp .upward
    have hstripped := m.isStripped_shortest .upward
    have hexponent := hstripped.exponent_nonneg hshortest
    rw [Decimal.value_of_nonneg hexponent, Nat.cast_inj] at hshortest
    have hne : n.natAbs ≠ 0 := fun hzero => hsmall (by simp [hzero])
    have htext := toString_signed negative n.natAbs
    rw [hsigned, bne_iff_ne.mpr hne, Bool.and_true] at htext
    rw [Decimal.positional_of_nonneg hstripped hexponent, hshortest, htext]

end Finite

/-- The value tells a double, but for the sign of zero. -/
theorem ofFloat_eq_of_value {x y : Float} {v : ℚ} (hx : valueOf? x = some v)
    (hy : valueOf? y = some v) (hv : v ≠ 0) : ofFloat x = ofFloat y := by
  obtain ⟨negative, m, hx, hvalue⟩ := exists_of_valueOf? hx
  obtain ⟨negative', m', hy, hvalue'⟩ := exists_of_valueOf? hy
  have hmagnitude : m.value = m'.value := by
    rw [← abs_withSign m.value_nonneg negative, hvalue, ← hvalue',
      abs_withSign m'.value_nonneg negative']
  obtain ⟨word, -, rfl, -⟩ := exists_word_of_ofFloat hx
  obtain ⟨word', -, rfl, -⟩ := exists_word_of_ofFloat hy
  have hword : word = word' := strictMono_value_magnitudeAt.injective hmagnitude
  subst hword
  have hsign : negative = negative' := by
    have hne : (magnitudeAt word).value ≠ 0 := by
      intro hzero
      rw [hzero, withSign, neg_zero, ite_self] at hvalue
      exact hv hvalue.symm
    rw [← hvalue'] at hvalue
    cases negative
    all_goals cases negative'
    · rfl
    · exact absurd (self_eq_neg.mp hvalue) hne
    · exact absurd (neg_eq_self.mp hvalue) hne
    · rfl
  rw [hx, hy, hsign]

/-- **Numbers are written without loss.**  The text of a finite double reads as a number that
    rounds to it; a whole number below `2 ^ 53` is its numeral; and two doubles have one text
    exactly when they have one value. -/
theorem cssText_lossless :
    (∀ x v, valueOf? x = some v → ∃ q, plainNumber? (cssText x) = some q ∧ RoundsTo q x) ∧
    (∀ x (n : ℤ), valueOf? x = some (n : ℚ) → |n| < 2 ^ 53 → cssText x = toString n) ∧
    (∀ x y v u, valueOf? x = some v → valueOf? y = some u → (cssText x = cssText y ↔ v = u)) := by
  have hreads : ∀ x v, valueOf? x = some v →
      ∃ q, plainNumber? (cssText x) = some q ∧ RoundsTo q x := by
    intro x v h
    obtain ⟨negative, m, hx, -⟩ := exists_of_valueOf? h
    obtain ⟨q, hq, haround, htext⟩ := exists_plainNumber? hx
    exact ⟨_, htext, roundsTo_of_isAround hx hq haround⟩
  have hwhole : ∀ x (n : ℤ), valueOf? x = some (n : ℚ) → |n| < 2 ^ 53 → cssText x = toString n := by
    intro x n h hn
    obtain ⟨negative, m, hx, hvalue⟩ := exists_of_valueOf? h
    exact cssText_of_whole hx hvalue hn
  refine ⟨hreads, hwhole, ?_⟩
  intro x y v u hx hy
  constructor
  · -- the text rounds to both
    intro htext
    obtain ⟨q, hq, hround⟩ := hreads x v hx
    obtain ⟨q', hq', hround'⟩ := hreads y u hy
    rw [← htext, hq, Option.some.injEq] at hq'
    subst hq'
    have hunique := hround.value_unique hround'
    rw [hx, hy, Option.some.injEq] at hunique
    exact hunique
  · rintro rfl
    by_cases hv : v = 0
    · have hzero : v = ((0 : ℤ) : ℚ) := by rw [hv, Int.cast_zero]
      rw [hzero] at hx hy
      rw [hwhole x 0 hx (by norm_num), hwhole y 0 hy (by norm_num)]
    · rw [cssText, cssText, plainText, plainText, ofFloat_eq_of_value hx hy hv]

/-- The greatest whole number that the second part speaks of, beyond `10 ^ 15`, and the two
    zeros. -/
theorem cssText_lossless_last :
    valueOf? (Float.ofBits 0x433FFFFFFFFFFFFF) = some ((9007199254740991 : ℤ) : ℚ) ∧
      cssText (Float.ofBits 0x433FFFFFFFFFFFFF) = "9007199254740991" ∧
      (∃ q, plainNumber? (cssText (Float.ofBits 0x433FFFFFFFFFFFFF)) = some q ∧
        RoundsTo q (Float.ofBits 0x433FFFFFFFFFFFFF)) ∧
      cssText (Float.ofBits 0x8000000000000000) = cssText (Float.ofBits 0) := by
  have hbits : ofFloat (Float.ofBits 0x433FFFFFFFFFFFFF) =
      .finite false ⟨9007199254740991, 0, false⟩ := by decide
  have hvalue : valueOf? (Float.ofBits 0x433FFFFFFFFFFFFF) = some ((9007199254740991 : ℤ) : ℚ) := by
    rw [valueOf?_of_finite hbits, withSign, Magnitude.value]
    norm_num
  have hzero : ∀ bits negative, ofFloat (Float.ofBits bits) = .finite negative ⟨0, -1074, false⟩ →
      valueOf? (Float.ofBits bits) = some 0 := by
    intro bits negative hx
    rw [valueOf?_of_finite hx]
    simp [withSign, Magnitude.value]
  have hplus := hzero 0 false (by decide)
  have hminus := hzero 0x8000000000000000 true (by decide)
  obtain ⟨hreads, hwhole, hsame⟩ := cssText_lossless
  refine ⟨hvalue, ?_, hreads _ _ hvalue, (hsame _ _ _ _ hminus hplus).mpr rfl⟩
  rw [hwhole _ _ hvalue (by norm_num)]
  rfl

/-- A tenth is written with its one digit. -/
example : cssText (Float.ofBits 0x3FB999999999999A) = "0.1" := by decide +kernel

end DesignMarkup
