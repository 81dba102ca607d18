/-
  DesignMarkup/Proofs/Number/Rounding.lean
  ========================================
  **Rounding to the nearest double.**  `valueOf?` is the exact value of a finite double, and
  `RoundsTo q x` says that `x` is what the number `q` rounds to: among all finite doubles none
  is nearer to `q`, and one with another value is as near only if the last bit of `x` is 0.
  At most one value is rounded to (`RoundsTo.value_unique`).

  The finite doubles are counted from zero in both directions: `number i` is the `i`-th.  The
  sixty-three bits below the sign are the count, since one more in the count is one more in
  the last place of the mantissa, also from the last mantissa of one exponent to the first of
  the next (`value_magnitudeAt_succ`).  So the numbers ascend, the midpoints of a magnitude
  are those to the numbers counted before and after it, and what lies between them rounds to
  it (`roundsTo_of_isAround`).
-/
import DesignMarkup.Proofs.Number.Value
import Mathlib.Order.Monotone.Basic
import Mathlib.Tactic.LinearCombination
import Mathlib.Tactic.NormNum

namespace DesignMarkup

/-! ### Exact values and rounding -/

def withSign (negative : Bool) (q : ℚ) : ℚ := if negative then -q else q

theorem abs_withSign {q : ℚ} (hq : 0 ≤ q) (negative : Bool) : |withSign negative q| = q := by
  cases negative with
  | false => exact abs_of_nonneg hq
  | true => exact (abs_neg q).trans (abs_of_nonneg hq)

def Binary64.value? : Binary64 → Option ℚ
  | .finite negative m => some (withSign negative m.value)
  | _ => none

/-- The exact value of a finite double. -/
def valueOf? (x : Float) : Option ℚ := (Binary64.ofFloat x).value?

/-- Rounding to nearest, a tie going to the double whose last bit is 0; from the bound on, a
    number rounds to an infinity. -/
structure RoundsTo (q : ℚ) (x : Float) : Prop where
  inRange : |q| < 2 ^ 1024 - 2 ^ 970
  nearest : ∃ v, valueOf? x = some v ∧ ∀ y u, valueOf? y = some u →
    |q - v| < |q - u| ∨ |q - v| = |q - u| ∧ (u = v ∨ x.toBits.toNat % 2 = 0)

/-! ### Counting the magnitudes -/

namespace Binary64

/-- The magnitude with the given count: the exponent field and the fraction in one word. -/
def magnitudeAt (word : ℕ) : Magnitude := magnitudeOf (word / 2 ^ 52) (word % 2 ^ 52)

/-- The count that the infinities would have. -/
def countOfInfinity : ℕ := 2047 * 2 ^ 52

theorem mantissa_magnitudeAt (word : ℕ) : (magnitudeAt word).mantissa % 2 = word % 2 := by
  unfold magnitudeAt magnitudeOf
  split
  · change word % 2 ^ 52 % 2 = word % 2
    omega
  · change (2 ^ 52 + word % 2 ^ 52) % 2 = word % 2
    omega

/-- **One step of the count.**  The mantissa goes up by one, or the exponent does and the
    mantissa starts again at half of what would follow. -/
theorem magnitudeAt_succ (word : ℕ) :
    ((magnitudeAt (word + 1)).mantissa = (magnitudeAt word).mantissa + 1 ∧
        (magnitudeAt (word + 1)).exponent = (magnitudeAt word).exponent ∧
        (magnitudeAt (word + 1)).narrowBelow = false) ∨
      (2 * (magnitudeAt (word + 1)).mantissa = (magnitudeAt word).mantissa + 1 ∧
        (magnitudeAt (word + 1)).exponent = (magnitudeAt word).exponent + 1 ∧
        (magnitudeAt (word + 1)).narrowBelow = true) := by
  have hpow : Nat.pow 2 52 = 2 ^ 52 := rfl
  unfold magnitudeAt magnitudeOf
  rw [hpow]
  by_cases hlast : (word + 1) % 2 ^ 52 = 0
  · obtain ⟨biased, hbiased⟩ : ∃ biased, word / 2 ^ 52 = biased := ⟨_, rfl⟩
    have hbiased' : (word + 1) / 2 ^ 52 = biased + 1 := by omega
    have hfraction : word % 2 ^ 52 = 2 ^ 52 - 1 := by omega
    rw [hbiased, hbiased', hlast, hfraction, if_neg (Nat.succ_ne_zero biased)]
    by_cases hzero : biased = 0
    · -- from the last subnormal to the first normal the exponent stays
      left
      simp [hzero]
    · right
      have hnarrow : 1 < biased + 1 := by omega
      rw [if_neg hzero]
      refine ⟨by norm_num, ?_, by simp [hnarrow]⟩
      push_cast
      ring
  · left
    have hbiased : (word + 1) / 2 ^ 52 = word / 2 ^ 52 := by omega
    have hfraction : (word + 1) % 2 ^ 52 = word % 2 ^ 52 + 1 := by omega
    rw [hbiased, hfraction]
    split_ifs
    · exact ⟨rfl, rfl, rfl⟩
    · exact ⟨rfl, rfl, by simp⟩

/-- One more in the count is one more in the last place. -/
theorem value_magnitudeAt_succ (word : ℕ) :
    (magnitudeAt (word + 1)).value =
      (magnitudeAt word).value + 2 ^ (magnitudeAt word).exponent := by
  unfold Magnitude.value
  rcases magnitudeAt_succ word with ⟨hmantissa, hexponent, -⟩ | ⟨hmantissa, hexponent, -⟩
  · rw [hmantissa, hexponent]
    push_cast
    ring
  · have hdouble : (2 : ℚ) * (magnitudeAt (word + 1)).mantissa =
        (magnitudeAt word).mantissa + 1 := by exact_mod_cast hmantissa
    rw [hexponent, zpow_add_one₀ (by norm_num)]
    linear_combination 2 ^ (magnitudeAt word).exponent * hdouble

theorem upper_magnitudeAt (word : ℕ) :
    (magnitudeAt word).upper =
      ((magnitudeAt word).value + (magnitudeAt (word + 1)).value) / 2 := by
  rw [value_magnitudeAt_succ, Magnitude.upper]
  ring

/-- The gap below a magnitude is the last place of the one before. -/
theorem lower_magnitudeAt_succ (word : ℕ) :
    (magnitudeAt (word + 1)).lower =
      ((magnitudeAt word).value + (magnitudeAt (word + 1)).value) / 2 := by
  unfold Magnitude.lower
  rcases magnitudeAt_succ word with ⟨-, hexponent, hnarrow⟩ | ⟨-, hexponent, hnarrow⟩
  · rw [hnarrow, hexponent, value_magnitudeAt_succ, if_neg Bool.false_ne_true]
    ring
  · rw [hnarrow, hexponent, value_magnitudeAt_succ, zpow_add_one₀ (by norm_num), if_pos rfl]
    ring

theorem strictMono_value_magnitudeAt : StrictMono fun word => (magnitudeAt word).value := by
  apply strictMono_nat_of_lt_succ
  intro word
  rw [value_magnitudeAt_succ]
  have hpow : (0 : ℚ) < 2 ^ (magnitudeAt word).exponent := by positivity
  linarith

theorem magnitudeAt_zero : magnitudeAt 0 = ⟨0, -1074, false⟩ := rfl

/-! ### Counting in both directions -/

/-- The number that is counted `i`-th from zero. -/
def number (i : ℤ) : ℚ := i.sign * (magnitudeAt i.natAbs).value

theorem number_natCast (word : ℕ) : number word = (magnitudeAt word).value := by
  cases word with
  | zero =>
    change (0 : ℚ) * _ = ((0 : ℕ) : ℚ) * _
    simp
  | succ n =>
    have hsign : ((n + 1 : ℕ) : ℤ).sign = 1 := Int.sign_eq_one_of_pos (by omega)
    rw [number, hsign, Int.natAbs_natCast, Int.cast_one, one_mul]

theorem number_neg (i : ℤ) : number (-i) = -number i := by
  rw [number, number, Int.sign_neg, Int.natAbs_neg]
  push_cast
  ring

theorem number_lt_succ (i : ℤ) : number i < number (i + 1) := by
  rcases lt_or_ge i 0 with hneg | hpos
  · obtain ⟨n, rfl⟩ : ∃ n : ℕ, i = -((n + 1 : ℕ) : ℤ) := ⟨(-i - 1).toNat, by omega⟩
    have hnext : -((n + 1 : ℕ) : ℤ) + 1 = -(n : ℤ) := by omega
    rw [hnext, number_neg, number_neg, number_natCast, number_natCast]
    exact neg_lt_neg (strictMono_value_magnitudeAt n.lt_succ_self)
  · lift i to ℕ using hpos
    have hnext : (i : ℤ) + 1 = ((i + 1 : ℕ) : ℤ) := by omega
    rw [hnext, number_natCast, number_natCast]
    exact strictMono_value_magnitudeAt i.lt_succ_self

/-- The numbers ascend. -/
theorem number_lt {i j : ℤ} (h : i < j) : number i < number j :=
  strictMono_int_of_lt_succ number_lt_succ h

theorem number_le {i j : ℤ} (h : i ≤ j) : number i ≤ number j :=
  (strictMono_int_of_lt_succ number_lt_succ).monotone h

/-- `q` is between the midpoints around the `i`-th number, or on one of them and `i` is even. -/
def IsNear (i : ℤ) (q : ℚ) : Prop :=
  (number (i - 1) + number i < 2 * q ∨ i % 2 = 0 ∧ 2 * q = number (i - 1) + number i) ∧
    (2 * q < number i + number (i + 1) ∨ i % 2 = 0 ∧ 2 * q = number i + number (i + 1))

theorem IsNear.neg {i : ℤ} {q : ℚ} (h : IsNear i q) : IsNear (-i) (-q) := by
  have hbefore : -i - 1 = -(i + 1) := by ring
  have hafter : -i + 1 = -(i - 1) := by ring
  have heven : -i % 2 = 0 ↔ i % 2 = 0 := by omega
  unfold IsNear
  rw [hbefore, hafter, number_neg, number_neg, number_neg, heven]
  obtain ⟨hlow, hhigh⟩ := h
  constructor
  · rcases hhigh with hhigh | ⟨hmod, hhigh⟩
    · exact Or.inl (by linarith)
    · exact Or.inr ⟨hmod, by linarith⟩
  · rcases hlow with hlow | ⟨hmod, hlow⟩
    · exact Or.inl (by linarith)
    · exact Or.inr ⟨hmod, by linarith⟩

/-- The number counted before a magnitude's own, from zero on. -/
theorem lower_magnitudeAt (word : ℕ) :
    (magnitudeAt word).lower = (number ((word : ℤ) - 1) + number word) / 2 := by
  cases word with
  | zero =>
    have hbefore : ((0 : ℕ) : ℤ) - 1 = -((1 : ℕ) : ℤ) := rfl
    have hvalue := value_magnitudeAt_succ 0
    have hzero : (magnitudeAt 0).value = 0 := by simp [magnitudeAt_zero, Magnitude.value]
    rw [hbefore, number_neg, number_natCast, number_natCast, hvalue, Magnitude.lower, hzero,
      magnitudeAt_zero, if_neg Bool.false_ne_true]
    ring
  | succ n =>
    have hbefore : ((n + 1 : ℕ) : ℤ) - 1 = (n : ℤ) := by omega
    rw [hbefore, number_natCast, number_natCast, lower_magnitudeAt_succ]

theorem isNear_of_isAround {word : ℕ} {q : ℚ} (h : (magnitudeAt word).IsAround q) :
    IsNear word q := by
  have hafter : (word : ℤ) + 1 = ((word + 1 : ℕ) : ℤ) := by omega
  have heven : (word : ℤ) % 2 = 0 ↔ (magnitudeAt word).mantissa % 2 = 0 := by
    rw [mantissa_magnitudeAt]
    omega
  have hlower := lower_magnitudeAt word
  have hupper := upper_magnitudeAt word
  rw [← number_natCast, ← number_natCast, ← hafter] at hupper
  unfold IsNear
  rw [heven]
  obtain ⟨hlow, hhigh⟩ := h
  constructor
  · rcases hlow with hlow | ⟨hmod, hlow⟩
    · exact Or.inl (by linarith)
    · exact Or.inr ⟨hmod, by linarith⟩
  · rcases hhigh with hhigh | ⟨hmod, hhigh⟩
    · exact Or.inl (by linarith)
    · exact Or.inr ⟨hmod, by linarith⟩

theorem IsNear.nearest_above {i j : ℤ} {q : ℚ} (h : IsNear i q) (hij : i < j) :
    |q - number i| < |q - number j| ∨ |q - number i| = |q - number j| ∧ i % 2 = 0 := by
  have hmono : number (i + 1) ≤ number j := number_le (by omega)
  have hnumber : number i < number j := number_lt hij
  have hdistance : number j - q ≤ |q - number j| := by
    rw [abs_sub_comm]
    exact le_abs_self _
  rcases h.2 with hhigh | ⟨hmod, hhigh⟩
  · left
    refine lt_of_lt_of_le (abs_lt.mpr ⟨?_, ?_⟩) hdistance
    · linarith
    · linarith
  · have hle : |q - number i| ≤ |q - number j| := by
      refine le_trans (abs_le.mpr ⟨?_, ?_⟩) hdistance
      · linarith
      · linarith
    rcases hle.lt_or_eq with hstrict | hequal
    · exact Or.inl hstrict
    · exact Or.inr ⟨hequal, hmod⟩

/-- **Nearest by the midpoints.**  Every other number is farther away, or as far and `i` is
    even. -/
theorem IsNear.nearest {i j : ℤ} {q : ℚ} (h : IsNear i q) (hij : j ≠ i) :
    |q - number i| < |q - number j| ∨ |q - number i| = |q - number j| ∧ i % 2 = 0 := by
  rcases lt_or_gt_of_ne hij with hlt | hgt
  · -- below `i` it is above on the other side of zero
    have hflip : ∀ k, |-q - number (-k)| = |q - number k| := by
      intro k
      rw [number_neg, ← abs_neg]
      congr 1
      ring
    have habove := h.neg.nearest_above (neg_lt_neg hlt)
    rw [hflip, hflip] at habove
    rcases habove with hfar | ⟨hfar, heven⟩
    · exact Or.inl hfar
    · exact Or.inr ⟨hfar, by omega⟩
  · exact h.nearest_above hgt

/-! ### The range -/

theorem value_countOfInfinity : (magnitudeAt countOfInfinity).value = 2 ^ 1024 := by
  have hat : magnitudeAt countOfInfinity = ⟨2 ^ 52, (972 : ℕ), true⟩ := by decide
  rw [hat, Magnitude.value, Nat.cast_pow, Nat.cast_ofNat, zpow_natCast, ← pow_add]

/-- The last place of the greatest finite magnitude is `2 ^ 971`. -/
theorem value_before_infinity :
    (magnitudeAt (countOfInfinity - 1)).value + 2 ^ 971 = 2 ^ 1024 := by
  have hexponent : (magnitudeAt (countOfInfinity - 1)).exponent = (971 : ℕ) := by decide
  have hsucc := value_magnitudeAt_succ (countOfInfinity - 1)
  rw [hexponent, zpow_natCast] at hsucc
  rw [← hsucc, ← value_countOfInfinity]
  rfl

/-- What is around a finite magnitude does not round to an infinity. -/
theorem lt_of_isAround {word : ℕ} (hword : word < countOfInfinity) {q : ℚ}
    (h : (magnitudeAt word).IsAround q) : q < 2 ^ 1024 - 2 ^ 970 := by
  have hmono := strictMono_value_magnitudeAt
  have htop := value_countOfInfinity
  have hlast := value_before_infinity
  have hplace : (2 : ℚ) ^ 971 = 2 * 2 ^ 970 := pow_succ' 2 970
  have hpos : (0 : ℚ) < 2 ^ 970 := by positivity
  have hupper := upper_magnitudeAt word
  -- the powers stay unevaluated
  generalize (2 : ℚ) ^ 1024 = top at htop hlast ⊢
  generalize (2 : ℚ) ^ 971 = place at hlast hplace
  generalize (2 : ℚ) ^ 970 = half at hplace hpos ⊢
  by_cases hmax : word = countOfInfinity - 1
  · -- its mantissa is odd
    have hodd : ¬ (magnitudeAt word).mantissa % 2 = 0 := by
      rw [mantissa_magnitudeAt, hmax]
      decide
    have hnext : word + 1 = countOfInfinity := by omega
    rw [hnext, htop] at hupper
    rw [← hmax] at hlast
    rcases h.2 with hhigh | ⟨heven, -⟩
    · linarith
    · exact absurd heven hodd
  · have hself : (magnitudeAt word).value < (magnitudeAt (word + 1)).value :=
      hmono word.lt_succ_self
    have hnext : (magnitudeAt (word + 1)).value ≤ (magnitudeAt (countOfInfinity - 1)).value :=
      hmono.monotone (by omega)
    have hhigh := h.le.2
    linarith

/-! ### The doubles as counted numbers -/

/-- A finite magnitude has its count below that of the infinities; the count ends in the same
    bit as the word of the double. -/
theorem exists_word_of_ofFloat {x : Float} {negative : Bool} {m : Magnitude}
    (h : ofFloat x = .finite negative m) :
    ∃ word < countOfInfinity, m = magnitudeAt word ∧ x.toBits.toNat % 2 = word % 2 := by
  have hpow : Nat.pow 2 52 = 2 ^ 52 := rfl
  have hpow' : Nat.pow 2 11 = 2 ^ 11 := rfl
  unfold ofFloat ofBits at h
  simp only [hpow, hpow'] at h
  generalize x.toBits.toNat = bits at h ⊢
  split at h
  case isTrue =>
    split at h
    · cases h
    · cases h
  case isFalse hbiased =>
    cases h
    have hlt : bits / 2 ^ 52 % 2 ^ 11 < 2 ^ 11 := Nat.mod_lt _ (by norm_num)
    refine ⟨bits / 2 ^ 52 % 2 ^ 11 * 2 ^ 52 + bits % 2 ^ 52, ?_, ?_, ?_⟩
    · unfold countOfInfinity
      omega
    · unfold magnitudeAt
      congr 1
      · omega
      · omega
    · omega

theorem valueOf?_of_finite {x : Float} {negative : Bool} {m : Magnitude}
    (hx : ofFloat x = .finite negative m) : valueOf? x = some (withSign negative m.value) := by
  rw [valueOf?, hx]
  rfl

theorem exists_of_valueOf? {x : Float} {v : ℚ} (h : valueOf? x = some v) :
    ∃ negative m, ofFloat x = .finite negative m ∧ withSign negative m.value = v := by
  unfold valueOf? at h
  cases hx : ofFloat x with
  | notANumber => simp [hx, value?] at h
  | infinite negative => simp [hx, value?] at h
  | finite negative m =>
    rw [hx, value?, Option.some.injEq] at h
    exact ⟨negative, m, rfl, h⟩

/-- A finite double is one of the counted numbers. -/
theorem exists_index {x : Float} {v : ℚ} (h : valueOf? x = some v) :
    ∃ i : ℤ, i.natAbs < countOfInfinity ∧ v = number i ∧
      (x.toBits.toNat % 2 = 0 ↔ i % 2 = 0) := by
  obtain ⟨negative, m, hx, hvalue⟩ := exists_of_valueOf? h
  obtain ⟨word, hword, rfl, hlast⟩ := exists_word_of_ofFloat hx
  cases negative with
  | false =>
    refine ⟨word, by simpa using hword, ?_, by omega⟩
    rw [← hvalue, number_natCast]
    rfl
  | true =>
    refine ⟨-(word : ℤ), by simpa using hword, ?_, by omega⟩
    rw [← hvalue, number_neg, number_natCast]
    rfl

/-- Bits that are not those of a special value are the bits of a double. -/
theorem exists_toBits {bits : UInt64} (h : bits.toNat / 2 ^ 52 % 2 ^ 11 ≠ 2047) :
    ∃ x : Float, x.toBits = bits := by
  have hvalid : Float.Model.Format.binary64.Valid bits.toBitVec := by
    refine ⟨fun hexponent _ => absurd (congrArg BitVec.toNat hexponent) ?_⟩
    simpa [Float.Model.UnpackedFloat.unpackExponent, Nat.shiftRight_eq_div_pow] using h
  exact ⟨⟨⟨bits, hvalid⟩⟩, rfl⟩

theorem exists_ofFloat {word : ℕ} (hword : word < countOfInfinity) (negative : Bool) :
    ∃ x, ofFloat x = .finite negative (magnitudeAt word) := by
  have hpow : Nat.pow 2 52 = 2 ^ 52 := rfl
  have hpow' : Nat.pow 2 11 = 2 ^ 11 := rfl
  have hpow'' : Nat.pow 2 63 = 2 ^ 63 := rfl
  unfold countOfInfinity at hword
  obtain ⟨bits, hbits⟩ : ∃ bits : UInt64, bits.toNat = word + if negative then 2 ^ 63 else 0 := by
    refine ⟨UInt64.ofNat (word + if negative then 2 ^ 63 else 0), UInt64.toNat_ofNat_of_lt' ?_⟩
    change _ < 2 ^ 64
    split <;> omega
  have hbiased : bits.toNat / 2 ^ 52 % 2 ^ 11 = word / 2 ^ 52 := by
    split at hbits <;> omega
  have hfraction : bits.toNat % 2 ^ 52 = word % 2 ^ 52 := by
    split at hbits <;> omega
  have hsign : decide (2 ^ 63 ≤ bits.toNat) = negative := by
    cases negative
    · simp only [Bool.false_eq_true, if_false] at hbits
      exact decide_eq_false (by omega)
    · simp only [if_true] at hbits
      exact decide_eq_true (by omega)
  obtain ⟨x, rfl⟩ := exists_toBits (show bits.toNat / 2 ^ 52 % 2 ^ 11 ≠ 2047 by omega)
  have hfinite : word / 2 ^ 52 ≠ 2047 := by omega
  refine ⟨x, ?_⟩
  unfold ofFloat ofBits
  simp only [hpow, hpow', hpow'', hbiased, hfraction, hsign, if_neg hfinite]
  rfl

/-- A counted number below the infinities is a double. -/
theorem exists_float {i : ℤ} (h : i.natAbs < countOfInfinity) :
    ∃ x, valueOf? x = some (number i) := by
  obtain ⟨x, hx⟩ := exists_ofFloat h (decide (i < 0))
  refine ⟨x, ?_⟩
  rw [valueOf?_of_finite hx, ← number_natCast, withSign, ← number_neg]
  by_cases hneg : i < 0
  · have habs : -(i.natAbs : ℤ) = i := by omega
    rw [if_pos (decide_eq_true hneg), habs]
  · have habs : (i.natAbs : ℤ) = i := by omega
    rw [if_neg (by simpa using hneg), habs]

/-- Between two numbers as far away as each other there is a nearer one. -/
theorem exists_nearer {i j : ℤ} (hi : i.natAbs < countOfInfinity) (hj : j.natAbs < countOfInfinity)
    (hij : i + 1 < j) {q : ℚ} (h : |q - number i| = |q - number j|) :
    ∃ z u, valueOf? z = some u ∧ |q - u| < |q - number i| := by
  obtain ⟨z, hz⟩ := exists_float (i := i + 1) (by omega)
  refine ⟨z, _, hz, ?_⟩
  have hbefore : number i < number (i + 1) := number_lt (by omega)
  have hafter : number (i + 1) < number j := number_lt hij
  have hmiddle : q - number i = number j - q := by
    rcases abs_eq_abs.mp h with hsame | hopposite
    · linarith
    · linarith
  rw [abs_of_pos (by linarith : 0 < q - number i), abs_lt]
  constructor
  · linarith
  · linarith

end Binary64

/-! ### What a number rounds to -/

open Binary64

/-- **What is between the midpoints of a magnitude rounds to it.** -/
theorem roundsTo_of_isAround {x : Float} {negative : Bool} {m : Magnitude}
    (hx : ofFloat x = .finite negative m) {q : ℚ} (hq : 0 ≤ q) (h : m.IsAround q) :
    RoundsTo (withSign negative q) x := by
  obtain ⟨word, hword, rfl, hlast⟩ := exists_word_of_ofFloat hx
  have hrange := lt_of_isAround hword h
  obtain ⟨i, hi, hnear, heven⟩ : ∃ i, withSign negative (magnitudeAt word).value = number i ∧
      IsNear i (withSign negative q) ∧ (i % 2 = 0 ↔ x.toBits.toNat % 2 = 0) := by
    have hnear := isNear_of_isAround h
    cases negative with
    | false => exact ⟨word, (number_natCast word).symm, hnear, by omega⟩
    | true =>
      refine ⟨-(word : ℤ), ?_, hnear.neg, by omega⟩
      rw [number_neg, number_natCast]
      rfl
  constructor
  · rw [abs_withSign hq]
    exact hrange
  · refine ⟨number i, ?_, ?_⟩
    · rw [valueOf?_of_finite hx, hi]
    · intro y u hy
      obtain ⟨j, -, rfl, -⟩ := exists_index hy
      by_cases hij : j = i
      · subst hij
        exact Or.inr ⟨rfl, Or.inl rfl⟩
      · rcases hnear.nearest hij with hfar | ⟨hfar, hmod⟩
        · exact Or.inl hfar
        · exact Or.inr ⟨hfar, Or.inr (heven.mp hmod)⟩

/-- **Rounding gives one number.**  Two that are equally near are both even; then there is a
    number between them, and it is nearer. -/
theorem RoundsTo.value_unique {q : ℚ} {x y : Float} (hx : RoundsTo q x) (hy : RoundsTo q y) :
    valueOf? x = valueOf? y := by
  obtain ⟨v, hv, hnearest⟩ := hx.nearest
  obtain ⟨u, hu, hnearest'⟩ := hy.nearest
  rw [hv, hu, Option.some.injEq]
  by_contra hne
  obtain ⟨i, hi, rfl, heven⟩ := exists_index hv
  obtain ⟨j, hj, rfl, heven'⟩ := exists_index hu
  -- neither is nearer, so each is even
  obtain ⟨hdistance, hlast, hlast'⟩ : |q - number i| = |q - number j| ∧ i % 2 = 0 ∧ j % 2 = 0 := by
    rcases hnearest y _ hu with hlt | ⟨heq, hmod⟩
    · rcases hnearest' x _ hv with hlt' | ⟨heq', -⟩
      · exact absurd hlt (not_lt.mpr hlt'.le)
      · exact absurd heq'.symm hlt.ne
    · rcases hnearest' x _ hv with hlt' | ⟨-, hmod'⟩
      · exact absurd heq.symm hlt'.ne
      · refine ⟨heq, heven.mp (hmod.resolve_left fun h => hne h.symm),
          heven'.mp (hmod'.resolve_left hne)⟩
  rcases lt_trichotomy i j with hij | hij | hij
  · obtain ⟨z, w, hz, hlt⟩ := exists_nearer hi hj (by omega) hdistance
    rcases hnearest z w hz with hlt' | ⟨heq, -⟩
    · exact absurd hlt (not_lt.mpr hlt'.le)
    · exact absurd heq hlt.ne'
  · exact hne (congrArg number hij)
  · obtain ⟨z, w, hz, hlt⟩ := exists_nearer hj hi (by omega) hdistance.symm
    rcases hnearest' z w hz with hlt' | ⟨heq, -⟩
    · exact absurd hlt (not_lt.mpr hlt'.le)
    · exact absurd heq hlt.ne'

end DesignMarkup
