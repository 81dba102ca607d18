/-
  DesignMarkup/Proofs/Number/Value.lean
  =====================================
  **What the digits stand for.**  A decimal and a magnitude are read as rational numbers.
  Comparing them by cross-multiplied naturals is comparing these numbers
  (`compareScaled_eq`), so `readsBack` says that a decimal lies between the midpoints to the
  two neighbours of a magnitude, or on one of them when the mantissa is even
  (`readsBack_iff`).

  `Magnitude.shortest` returns such a decimal whatever its search goes through
  (`isAround_shortest`): a hit was tested, and the exact value, which stands in for a hit,
  lies between the midpoints.  When the value is a natural number and its neighbours are not
  more than one apart, the value itself is returned (`value_shortest_of_whole`).
-/
import DesignMarkup.Number.Shortest
import Mathlib.Algebra.Order.Field.Basic
import Mathlib.Algebra.Order.Field.Rat
import Mathlib.Algebra.Order.Field.Power
import Mathlib.Tactic.FieldSimp
import Mathlib.Tactic.Linarith
import Mathlib.Tactic.Positivity
import Mathlib.Tactic.Ring

namespace DesignMarkup

def Decimal.value (d : Decimal) : ℚ := d.digits * 10 ^ d.exponent

def Magnitude.value (x : Magnitude) : ℚ := x.mantissa * 2 ^ x.exponent

theorem Decimal.value_of_nonneg {d : Decimal} (h : 0 ≤ d.exponent) :
    d.value = ((d.digits * 10 ^ d.exponent.toNat : ℕ) : ℚ) := by
  rw [value, Nat.cast_mul, Nat.cast_pow, Nat.cast_ofNat, ← zpow_natCast, Int.toNat_of_nonneg h]

/-! ### Powers with a negative exponent -/

/-- A power is a quotient of two powers of which one is trivial. -/
theorem zpow_mul_pow_toNat {b : ℚ} (hb : b ≠ 0) (e : ℤ) :
    b ^ e * b ^ (-e).toNat = b ^ e.toNat := by
  rcases Int.le_total 0 e with h | h
  · lift e to ℕ using h
    simp
  · obtain ⟨n, rfl⟩ : ∃ n : ℕ, e = -(n : ℤ) := ⟨(-e).toNat, by omega⟩
    simp [zpow_neg, inv_mul_cancel₀ (pow_ne_zero n hb)]

/-- Cross multiplication compares the numbers that are meant. -/
theorem compareScaled_eq (a : ℕ) (i : ℤ) (b : ℕ) (j : ℤ) :
    compareScaled a i b j = compare ((a : ℚ) * 10 ^ i) ((b : ℚ) * 2 ^ j) := by
  have hten := zpow_mul_pow_toNat (b := 10) (by norm_num) i
  have htwo := zpow_mul_pow_toNat (b := 2) (by norm_num) j
  -- what both sides are multiplied by
  have hscale : (0 : ℚ) < 10 ^ (-i).toNat * 2 ^ (-j).toNat := by positivity
  have hleft : ((a * 10 ^ i.toNat * 2 ^ (-j).toNat : ℕ) : ℚ) =
      (a : ℚ) * 10 ^ i * (10 ^ (-i).toNat * 2 ^ (-j).toNat) := by
    push_cast
    rw [← hten]
    ring
  have hright : ((b * 2 ^ j.toNat * 10 ^ (-i).toNat : ℕ) : ℚ) =
      (b : ℚ) * 2 ^ j * (10 ^ (-i).toNat * 2 ^ (-j).toNat) := by
    push_cast
    rw [← htwo]
    ring
  change compare (a * 10 ^ i.toNat * 2 ^ (-j).toNat) (b * 2 ^ j.toNat * 10 ^ (-i).toNat) = _
  rcases lt_trichotomy ((a : ℚ) * 10 ^ i) ((b : ℚ) * 2 ^ j) with h | h | h
  · rw [compare_lt_iff_lt.mpr h, compare_lt_iff_lt, ← Nat.cast_lt (α := ℚ), hleft, hright]
    exact mul_lt_mul_of_pos_right h hscale
  · rw [compare_eq_iff_eq.mpr h, compare_eq_iff_eq, ← Nat.cast_inj (R := ℚ), hleft, hright, h]
  · rw [compare_gt_iff_gt.mpr h, compare_gt_iff_gt, ← Nat.cast_lt (α := ℚ), hleft, hright]
    exact mul_lt_mul_of_pos_right h hscale

namespace Magnitude

theorem value_nonneg (x : Magnitude) : 0 ≤ x.value := by
  unfold value
  positivity

/-! ### The reals that round to a magnitude -/

/-- The midpoint to the neighbour below. -/
def lower (x : Magnitude) : ℚ :=
  x.value - (if x.narrowBelow then 1 / 4 else 1 / 2) * 2 ^ x.exponent

/-- The midpoint to the neighbour above. -/
def upper (x : Magnitude) : ℚ := x.value + 1 / 2 * 2 ^ x.exponent

/-- A number is between the midpoints, or on one of them when the mantissa is even. -/
def IsAround (x : Magnitude) (q : ℚ) : Prop :=
  (x.lower < q ∨ x.mantissa % 2 = 0 ∧ q = x.lower) ∧
    (q < x.upper ∨ x.mantissa % 2 = 0 ∧ q = x.upper)

theorem lower_lt_value (x : Magnitude) : x.lower < x.value := by
  have hpow : (0 : ℚ) < 2 ^ x.exponent := by positivity
  unfold lower
  split <;> linarith

theorem value_lt_upper (x : Magnitude) : x.value < x.upper := by
  have hpow : (0 : ℚ) < 2 ^ x.exponent := by positivity
  unfold upper
  linarith

theorem isAround_value (x : Magnitude) : x.IsAround x.value :=
  ⟨Or.inl x.lower_lt_value, Or.inl x.value_lt_upper⟩

theorem IsAround.le {x : Magnitude} {q : ℚ} (h : x.IsAround q) : x.lower ≤ q ∧ q ≤ x.upper := by
  obtain ⟨hlow, hhigh⟩ := h
  constructor
  · rcases hlow with hlow | ⟨-, hlow⟩
    · exact hlow.le
    · exact hlow.ge
  · rcases hhigh with hhigh | ⟨-, hhigh⟩
    · exact hhigh.le
    · exact hhigh.le

theorem cast_lowerMidpoint {x : Magnitude} (h : x.mantissa ≠ 0) :
    (x.lowerMidpoint : ℚ) * 2 ^ (x.exponent - 2) = x.lower := by
  have hone : 1 ≤ x.mantissa := Nat.one_le_iff_ne_zero.mpr h
  unfold lowerMidpoint lower value
  rw [zpow_sub₀ (by norm_num)]
  split
  · rw [Nat.cast_sub (by omega)]
    push_cast
    ring
  · rw [Nat.cast_sub (by omega)]
    push_cast
    ring

theorem cast_upperMidpoint (x : Magnitude) :
    (x.upperMidpoint : ℚ) * 2 ^ (x.exponent - 2) = x.upper := by
  unfold upperMidpoint upper value
  rw [zpow_sub₀ (by norm_num)]
  push_cast
  ring

/-- **The test of the search** is that the decimal is around the magnitude. -/
theorem readsBack_iff {x : Magnitude} (h : x.mantissa ≠ 0) (d : Decimal) :
    x.readsBack d = true ↔ x.IsAround d.value := by
  simp only [readsBack, compareScaled_eq, cast_lowerMidpoint h, cast_upperMidpoint, IsAround,
    Bool.and_eq_true, Bool.or_eq_true, beq_iff_eq, compare_gt_iff_gt, compare_lt_iff_lt,
    compare_eq_iff_eq, Decimal.value]

/-! ### Whole values -/

theorem value_mul_pow (x : Magnitude) :
    x.value * 2 ^ (-x.exponent).toNat = x.mantissa * 2 ^ x.exponent.toNat := by
  rw [value, mul_assoc, zpow_mul_pow_toNat (by norm_num)]

theorem value_eq_natCast {x : Magnitude} {n : ℕ} :
    x.value = n ↔ x.mantissa * 2 ^ x.exponent.toNat = n * 2 ^ (-x.exponent).toNat := by
  have hpow : (0 : ℚ) < 2 ^ (-x.exponent).toNat := by positivity
  rw [← mul_left_inj' hpow.ne', value_mul_pow]
  norm_cast

theorem isWhole_iff (x : Magnitude) : x.isWhole = true ↔ x.value = x.floor := by
  rw [value_eq_natCast, isWhole, beq_iff_eq, floor, ← Nat.dvd_iff_mod_eq_zero,
    Nat.dvd_iff_div_mul_eq, eq_comm]
  rfl

theorem floor_of_value {x : Magnitude} {n : ℕ} (h : x.value = n) : x.floor = n := by
  have hpow : 0 < 2 ^ (-x.exponent).toNat := by positivity
  rw [value_eq_natCast] at h
  exact Nat.div_eq_of_eq_mul_left hpow h

theorem isWhole_of_value {x : Magnitude} {n : ℕ} (h : x.value = n) : x.isWhole = true := by
  rw [isWhole_iff, floor_of_value h, h]

/-! ### The candidates of the search -/

theorem value_exact (x : Magnitude) : x.exact.value = x.value := by
  unfold exact Decimal.value value
  split_ifs with h
  · lift x.exponent to ℕ using h with n
    simp
  · obtain ⟨n, hn⟩ : ∃ n : ℕ, x.exponent = -(n : ℤ) := ⟨(-x.exponent).toNat, by omega⟩
    have hten : (10 : ℚ) ^ n = 5 ^ n * 2 ^ n := by
      rw [← mul_pow]
      norm_num
    simp only [hn, neg_neg, Int.toNat_natCast, zpow_neg, zpow_natCast, Nat.cast_mul, hten]
    change (x.mantissa : ℚ) * ((5 ^ n : ℕ) : ℚ) * _ = _
    field_simp
    push_cast
    ring

/-- **A candidate** was tested, and it is one of the two grid points around the magnitude.
    The upper one is not taken while the lower one fits and is nearer. -/
theorem onGrid_eq_some {x : Magnitude} {tie : Tie} {place : ℤ} {d : Decimal}
    (h : x.onGrid tie place = some d) :
    x.readsBack d = true ∧
      (d = ⟨x.gridFloor place, place⟩ ∨
        d = ⟨x.gridFloor place + 1, place⟩ ∧
          (x.readsBack ⟨x.gridFloor place, place⟩ = true →
            compareScaled (2 * x.gridFloor place + 1) place (2 * x.mantissa) x.exponent ≠
              .gt)) := by
  unfold onGrid at h
  simp only at h
  split at h
  case isTrue hfit =>
    obtain ⟨hlow, hhigh⟩ := (Bool.and_eq_true _ _).mp hfit
    split at h
    case h_1 =>
      cases h
      exact ⟨hlow, Or.inl rfl⟩
    case h_2 hless =>
      cases h
      exact ⟨hhigh, Or.inr ⟨rfl, fun _ => by simp [hless]⟩⟩
    case h_3 hequal =>
      cases tie with
      | upward =>
        cases h
        exact ⟨hhigh, Or.inr ⟨rfl, fun _ => by simp [hequal]⟩⟩
      | toEven =>
        cases h
        split_ifs
        · exact ⟨hlow, Or.inl rfl⟩
        · exact ⟨hhigh, Or.inr ⟨rfl, fun _ => by simp [hequal]⟩⟩
  case isFalse =>
    split at h
    case isTrue hlow =>
      cases h
      exact ⟨hlow, Or.inl rfl⟩
    case isFalse hlow =>
      split at h
      case isTrue hhigh =>
        cases h
        exact ⟨hhigh, Or.inr ⟨rfl, fun hfits => absurd hfits hlow⟩⟩
      case isFalse => cases h

/-- On a grid finer than the units a natural number is a grid point. -/
theorem gridFloor_of_value {x : Magnitude} {n : ℕ} (h : x.value = n) {place : ℤ}
    (hplace : place ≤ 0) : x.gridFloor place = n * 10 ^ (-place).toNat := by
  have hpow : 0 < 2 ^ (-x.exponent).toNat := by positivity
  have hzero : place.toNat = 0 := Int.toNat_of_nonpos hplace
  rw [value_eq_natCast] at h
  change x.mantissa * 2 ^ x.exponent.toNat * 10 ^ (-place).toNat
    / (2 ^ (-x.exponent).toNat * 10 ^ place.toNat) = _
  rw [h, hzero, pow_zero, mul_one, mul_right_comm, Nat.mul_div_cancel _ hpow]

/-- On a coarser grid a candidate is a natural number less than one away. -/
theorem value_eq_of_whole_grid {x : Magnitude} {n : ℕ} (hvalue : x.value = n)
    (hexp : x.exponent ≤ 0) {d : Decimal} (haround : x.IsAround d.value) (hd : 0 ≤ d.exponent) :
    d.value = n := by
  obtain ⟨hlow, hhigh⟩ := haround.le
  have hulp : (2 : ℚ) ^ x.exponent ≤ 1 := zpow_le_one_of_nonpos₀ (by norm_num) hexp
  have hlower : (n : ℚ) - 1 / 2 ≤ x.lower := by
    unfold lower
    split <;> linarith
  have hupper : x.upper ≤ (n : ℚ) + 1 / 2 := by
    unfold upper
    linarith
  rw [Decimal.value_of_nonneg hd] at hlow hhigh ⊢
  generalize d.digits * 10 ^ d.exponent.toNat = k at hlow hhigh ⊢
  have hlt : (k : ℚ) < ((n + 1 : ℕ) : ℚ) := by
    push_cast
    linarith
  have hgt : (n : ℚ) < ((k + 1 : ℕ) : ℚ) := by
    push_cast
    linarith
  rw [Nat.cast_lt] at hlt hgt
  rw [Nat.cast_inj]
  omega

/-- On a finer grid the value is a grid point, and the next one is not nearer. -/
theorem value_eq_of_fine_grid {x : Magnitude} {n : ℕ} (hvalue : x.value = n)
    (hx : x.mantissa ≠ 0) {tie : Tie} {place : ℤ} (hplace : place ≤ 0) {d : Decimal}
    (h : x.onGrid tie place = some d) : d.value = n := by
  have hten : (0 : ℚ) < 10 ^ place := by positivity
  have hlow : (x.gridFloor place : ℚ) * 10 ^ place = n := by
    have hpow := zpow_mul_pow_toNat (b := 10) (by norm_num) place
    rw [Int.toNat_of_nonpos hplace, pow_zero] at hpow
    rw [gridFloor_of_value hvalue hplace]
    push_cast
    rw [mul_assoc, mul_comm _ ((10 : ℚ) ^ place), hpow, mul_one]
  obtain ⟨-, rfl | ⟨-, hnearer⟩⟩ := onGrid_eq_some h
  · exact hlow
  · refine absurd ?_ (hnearer ((readsBack_iff hx _).mpr ?_))
    · rw [compareScaled_eq, compare_gt_iff_gt]
      unfold value at hvalue
      push_cast
      linarith
    · rw [Decimal.value, hlow, ← hvalue]
      exact x.isAround_value

/-- **A whole value is found itself** on every grid that has a hit, when its neighbours are
    not more than one apart. -/
theorem value_of_onGrid_of_whole {x : Magnitude} {n : ℕ} (hvalue : x.value = n)
    (hexp : x.exponent ≤ 0) (hx : x.mantissa ≠ 0) {tie : Tie} {place : ℤ} {d : Decimal}
    (h : x.onGrid tie place = some d) : d.value = n := by
  obtain ⟨hreads, hcases⟩ := onGrid_eq_some h
  have hplace : d.exponent = place := by
    rcases hcases with rfl | ⟨rfl, -⟩
    · rfl
    · rfl
  rcases Int.le_total 0 place with hup | hdown
  · exact value_eq_of_whole_grid hvalue hexp ((readsBack_iff hx d).mp hreads) (hplace ▸ hup)
  · exact value_eq_of_fine_grid hvalue hx hdown h

end Magnitude

namespace Decimal

/-! ### Zeros at the end -/

/-- There is no zero at the end of the digits, but for the number zero itself. -/
def IsStripped (d : Decimal) : Prop := d.digits % 10 = 0 → d = ⟨0, 0⟩

theorem value_stripFrom (fuel : ℕ) (d : Decimal) : (stripFrom fuel d).value = d.value := by
  fun_induction stripFrom fuel d with
  | case1 d => rfl
  | case2 fuel d hzero ih =>
    have hdigits : d.digits = d.digits / 10 * 10 := by omega
    rw [ih, value, value, zpow_add_one₀ (by norm_num)]
    conv => rhs; rw [hdigits]
    push_cast
    ring
  | case3 fuel d hzero => rfl

/-- One step drops one digit, so as many steps as there are bits are enough. -/
theorem stripFrom_mod_ne_zero {fuel : ℕ} {d : Decimal} (hpos : d.digits ≠ 0)
    (hfuel : d.digits < 10 ^ fuel) : (stripFrom fuel d).digits % 10 ≠ 0 := by
  fun_induction stripFrom fuel d with
  | case1 d => omega
  | case2 fuel d hzero ih =>
    rw [pow_succ] at hfuel
    apply ih
    · change d.digits / 10 ≠ 0
      omega
    · change d.digits / 10 < 10 ^ fuel
      omega
  | case3 fuel d hzero => exact hzero

theorem value_strip (d : Decimal) : d.strip.value = d.value := by
  unfold strip
  split_ifs with h
  · simp [value, h]
  · exact value_stripFrom _ d

theorem isStripped_strip (d : Decimal) : d.strip.IsStripped := by
  unfold strip
  split_ifs with h
  · intro _
    rfl
  · intro hzero
    refine absurd hzero (stripFrom_mod_ne_zero h ?_)
    calc
      d.digits < 2 ^ (d.digits.log2 + 1) := Nat.lt_log2_self
      _ ≤ 10 ^ (d.digits.log2 + 1) := Nat.pow_le_pow_left (by norm_num) _

end Decimal

namespace Magnitude

/-! ### The shortest digits -/

theorem shortest_eq_of_zero {x : Magnitude} (h : x.mantissa = 0) (tie : Tie) :
    x.shortest tie = ⟨0, 0⟩ := by
  simp [shortest, isZero, h]

theorem isStripped_shortest (x : Magnitude) (tie : Tie) : (x.shortest tie).IsStripped := by
  unfold shortest
  split_ifs
  · intro _
    rfl
  · exact Decimal.isStripped_strip _

/-- The result stands for what a candidate of some grid or the exact value stands for. -/
theorem value_shortest_cases {x : Magnitude} (h : x.mantissa ≠ 0) (tie : Tie) :
    (x.shortest tie).value = x.value ∨
      ∃ place d, x.onGrid tie place = some d ∧ (x.shortest tie).value = d.value := by
  have hzero : ¬ x.isZero = true := by simpa [isZero] using h
  unfold shortest
  rw [if_neg hzero]
  simp only
  rw [Decimal.value_strip]
  cases hhit : (List.range 17).findSome? fun (n : ℕ) => x.onGrid tie (x.scale - 1 - n) with
  | none => exact Or.inl x.value_exact
  | some d =>
    obtain ⟨n, -, hgrid⟩ := List.exists_of_findSome?_eq_some hhit
    exact Or.inr ⟨_, d, hgrid, rfl⟩

/-- **The shortest digits read back.** -/
theorem isAround_shortest (x : Magnitude) (tie : Tie) : x.IsAround (x.shortest tie).value := by
  by_cases hzero : x.mantissa = 0
  · have hvalue : (x.shortest tie).value = x.value := by
      rw [shortest_eq_of_zero hzero, value, Decimal.value, hzero]
      simp
    rw [hvalue]
    exact x.isAround_value
  · rcases value_shortest_cases hzero tie with h | ⟨place, d, hgrid, h⟩
    · rw [h]
      exact x.isAround_value
    · rw [h, ← readsBack_iff hzero]
      exact (onGrid_eq_some hgrid).1

/-- **A whole value is its own shortest decimal** when its neighbours are not more than one
    apart. -/
theorem value_shortest_of_whole {x : Magnitude} {n : ℕ} (hvalue : x.value = n)
    (hexp : x.exponent ≤ 0) (tie : Tie) : (x.shortest tie).value = n := by
  by_cases hzero : x.mantissa = 0
  · rw [← hvalue, shortest_eq_of_zero hzero, value, Decimal.value, hzero]
    simp
  · rcases value_shortest_cases hzero tie with h | ⟨place, d, hgrid, h⟩
    · rw [h, hvalue]
    · rw [h]
      exact value_of_onGrid_of_whole hvalue hexp hzero hgrid

end Magnitude

end DesignMarkup
