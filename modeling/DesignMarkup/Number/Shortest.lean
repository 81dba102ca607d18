/-
  DesignMarkup/Number/Shortest.lean
  =================================
  **The fewest digits that read back.**  A decimal reads back as a magnitude when
  it lies among the reals that round to it: between the midpoints to its two
  neighbours, the midpoints included exactly when the mantissa is even.
  `Magnitude.readsBack` states that by cross-multiplying naturals.

  `Magnitude.shortest` looks for such a decimal with 1, 2, … 17 digits.  On the
  grid with a given last place the only candidates are the two grid points around
  the magnitude; the first grid with a hit wins, of two hits the nearer, and a tie
  goes as the caller says.
-/
import DesignMarkup.Number.Binary64

namespace DesignMarkup

structure Decimal where
  digits : Nat
  exponent : Int
deriving DecidableEq, Repr

/-- Which of two equally near decimals is taken. -/
inductive Tie where
  | toEven
  | upward
deriving DecidableEq, Repr

/-- Compare `a · 10 ^ i` with `b · 2 ^ j`. -/
def compareScaled (a : Nat) (i : Int) (b : Nat) (j : Int) : Ordering :=
  compare (a * Nat.pow 10 i.toNat * Nat.pow 2 (-j).toNat)
    (b * Nat.pow 2 j.toNat * Nat.pow 10 (-i).toNat)

namespace Magnitude

/-- Four times the lower midpoint, on the scale of the mantissa. -/
def lowerMidpoint (x : Magnitude) : Nat :=
  if x.narrowBelow then 4 * x.mantissa - 1 else 4 * x.mantissa - 2

/-- Four times the upper midpoint, on the scale of the mantissa. -/
def upperMidpoint (x : Magnitude) : Nat := 4 * x.mantissa + 2

/-- The decimal lies among the reals that round to `x`. -/
def readsBack (x : Magnitude) (d : Decimal) : Bool :=
  let below := compareScaled d.digits d.exponent x.lowerMidpoint (x.exponent - 2)
  let above := compareScaled d.digits d.exponent x.upperMidpoint (x.exponent - 2)
  let even := x.mantissa % 2 == 0
  (below == .gt || even && below == .eq) && (above == .lt || even && above == .eq)

/-- `⌊x / 10 ^ place⌋`, the grid point just below `x`. -/
def gridFloor (x : Magnitude) (place : Int) : Nat :=
  x.mantissa * Nat.pow 2 x.exponent.toNat * Nat.pow 10 (-place).toNat
    / (Nat.pow 2 (-x.exponent).toNat * Nat.pow 10 place.toNat)

/-- The least `k` with `x < 10 ^ k`, found from `start` in at most `steps` steps up. -/
def scaleFrom (x : Magnitude) : Nat → Int → Int
  | 0, k => k
  | steps + 1, k =>
    if compareScaled 1 k x.mantissa x.exponent == .gt then k else scaleFrom x steps (k + 1)

/-- The number of places before the decimal point: the least `k` with `x < 10 ^ k`,
    for `x` not zero.  The start is below the answer since `2 ^ 3 < 10 < 2 ^ 4`
    brackets the logarithm; `1233 / 4096` is just above the common logarithm of 2. -/
def scale (x : Magnitude) : Int :=
  let bits := (Nat.log2 x.mantissa : Int) + x.exponent
  scaleFrom x 6 (Int.fdiv (bits * 1233) 4096 - 2)

/-- The candidate on the grid `10 ^ place`, if one reads back. -/
def onGrid (x : Magnitude) (tie : Tie) (place : Int) : Option Decimal :=
  let low := x.gridFloor place
  let lowFits := x.readsBack ⟨low, place⟩
  let highFits := x.readsBack ⟨low + 1, place⟩
  if lowFits && highFits then
    match compareScaled (2 * low + 1) place (2 * x.mantissa) x.exponent with
    | .gt => some ⟨low, place⟩
    | .lt => some ⟨low + 1, place⟩
    | .eq =>
      match tie with
      | .upward => some ⟨low + 1, place⟩
      | .toEven => some ⟨if low % 2 = 0 then low else low + 1, place⟩
  else if lowFits then some ⟨low, place⟩
  else if highFits then some ⟨low + 1, place⟩
  else none

def exact (x : Magnitude) : Decimal :=
  if 0 ≤ x.exponent then ⟨x.mantissa * Nat.pow 2 x.exponent.toNat, 0⟩
  else ⟨x.mantissa * Nat.pow 5 (-x.exponent).toNat, x.exponent⟩

end Magnitude

namespace Decimal

/-- Move up to `fuel` trailing zeros of the digits into the exponent. -/
def stripFrom : Nat → Decimal → Decimal
  | 0, d => d
  | fuel + 1, d =>
    if d.digits % 10 = 0 then stripFrom fuel ⟨d.digits / 10, d.exponent + 1⟩ else d

/-- The same value with no zero at the end of the digits. -/
def strip (d : Decimal) : Decimal :=
  if d.digits = 0 then ⟨0, 0⟩ else stripFrom (Nat.log2 d.digits + 1) d

end Decimal

/-- The decimal with the fewest digits that reads back as `x`, and of those the
    nearest to `x`.  Seventeen digits always suffice; the exact value stands in
    should the search end without a hit. -/
def Magnitude.shortest (x : Magnitude) (tie : Tie) : Decimal :=
  if x.isZero then ⟨0, 0⟩
  else
    let k := x.scale
    let hit := (List.range 17).findSome? fun (n : Nat) => x.onGrid tie (k - 1 - n)
    (hit.getD x.exact).strip

end DesignMarkup
