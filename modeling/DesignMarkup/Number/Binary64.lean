/-
  DesignMarkup/Number/Binary64.lean
  =================================
  **What a floating-point number is, exactly.**  A double is not a number, an
  infinity, or a sign and a magnitude `mantissa · 2 ^ exponent`.  Everything the
  library prints or rounds is decided on that magnitude, in exact natural-number
  arithmetic, so that no printing rule depends on the arithmetic of the machine.

  `Binary64.ofFloat` reads the three cases off the bits; `Magnitude.floor` and
  `Magnitude.round` are the two roundings to a natural number, and
  `saturate` brings an integer into the range of a signed 64-bit word.
-/

namespace DesignMarkup

/-- The magnitude `mantissa · 2 ^ exponent` of a finite double. -/
structure Magnitude where
  mantissa : Nat
  exponent : Int
  /-- The gap to the next value below is half the gap to the next value above. -/
  narrowBelow : Bool
deriving DecidableEq, Repr

/-- A double as sign and magnitude, or one of the special values. -/
inductive Binary64 where
  | notANumber
  | infinite (negative : Bool)
  | finite (negative : Bool) (magnitude : Magnitude)
deriving DecidableEq, Repr

namespace Binary64

/-- The magnitude whose biased exponent and fraction field are given.  A zero
    exponent field means a subnormal: no leading bit is implied. -/
def magnitudeOf (biased fraction : Nat) : Magnitude :=
  if biased = 0 then ⟨fraction, -1074, false⟩
  else ⟨Nat.pow 2 52 + fraction, (biased : Int) - 1075, fraction == 0 && 1 < biased⟩

/-- Split sixty-four bits into sign, exponent and fraction. -/
def ofBits (bits : UInt64) : Binary64 :=
  let word := bits.toNat
  let negative := Nat.pow 2 63 ≤ word
  let biased := word / Nat.pow 2 52 % Nat.pow 2 11
  let fraction := word % Nat.pow 2 52
  if biased = 2047 then
    if fraction = 0 then .infinite negative else .notANumber
  else .finite negative (magnitudeOf biased fraction)

def ofFloat (x : Float) : Binary64 := ofBits x.toBits

end Binary64

namespace Magnitude

def isZero (x : Magnitude) : Bool := x.mantissa == 0

def floor (x : Magnitude) : Nat :=
  x.mantissa * Nat.pow 2 x.exponent.toNat / Nat.pow 2 (-x.exponent).toNat

def isWhole (x : Magnitude) : Bool :=
  x.mantissa * Nat.pow 2 x.exponent.toNat % Nat.pow 2 (-x.exponent).toNat == 0

/-- The natural number nearest to `x`; a half goes up. -/
def round (x : Magnitude) : Nat :=
  (2 * (x.mantissa * Nat.pow 2 x.exponent.toNat) + Nat.pow 2 (-x.exponent).toNat)
    / (2 * Nat.pow 2 (-x.exponent).toNat)

end Magnitude

/-- An integer brought into the range of a signed 64-bit word. -/
def saturate (i : Int) : Int := max (-(Nat.pow 2 63 : Int)) (min ((Nat.pow 2 63 : Int) - 1) i)

def signed (negative : Bool) (n : Nat) : Int := if negative then -(n : Int) else n

/-- The integer nearest to `x`, a half going away from zero, within 64 bits; what
    is not a number counts as zero. -/
def roundToWord (x : Float) : Int :=
  match Binary64.ofFloat x with
  | .notANumber => 0
  | .infinite negative =>
    if negative then -(Nat.pow 2 63 : Int) else (Nat.pow 2 63 : Int) - 1
  | .finite negative x => saturate (signed negative x.round)

end DesignMarkup
