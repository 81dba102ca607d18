/-
  DesignMarkup/Json/Numeral.lean
  ==============================
  **Numerals and the numbers they stand for.**  A numeral is read in two steps.  The
  grammar comes first: a sign, a whole part without a needless zero in front, an
  optional fraction and an optional exponent, each with at least one digit.  Its
  value is computed afterwards, from the digits.

  A value keeps as many leading digits as fit an unsigned 64-bit significand.  What
  has neither fraction nor exponent and fits 64 bits is an integer; negative zero is
  not.  All else is the significand as a double, times or divided by a power of ten,
  which rounds twice: `Numeral.number` is defined by these steps and is not always
  the double nearest to the numeral.
-/
import DesignMarkup.Json.Scan

namespace DesignMarkup.Json

structure Numeral where
  negative : Bool
  whole : List Nat
  fraction : Option (List Nat)
  /-- Whether the exponent is negative, and its digits. -/
  exponent : Option (Bool × List Nat)
deriving DecidableEq, Repr

/-! ### The grammar -/

def digitValue (c : Char) : Nat := c.toNat - 48

/-- The values of the leading digits, and what follows them. -/
def spanDigits (text : Text) : List Nat × Text :=
  ((text.takeWhile Char.isDigit).map digitValue, text.dropWhile Char.isDigit)

/-- Read the whole part.  `atEnd` is the cause given when the text ends too soon. -/
def scanWhole (atEnd : Cause) (text : Text) : Outcome (List Nat × Text) :=
  match text with
  | [] => rejectAt atEnd []
  | '0' :: rest =>
    match rest with
    | [] => .ok ([0], rest)
    | c :: _ => if c.isDigit then rejectPast .invalidNumber rest else .ok ([0], rest)
  | c :: _ => if c.isDigit then .ok (spanDigits text) else rejectPast .invalidNumber text

def scanFraction (atEnd : Cause) (text : Text) : Outcome (Option (List Nat) × Text) :=
  match text with
  | '.' :: rest =>
    match spanDigits rest with
    | ([], []) => rejectPast atEnd []
    | ([], other) => rejectPast .invalidNumber other
    | (digits, rest) => .ok (some digits, rest)
  | _ => .ok (none, text)

/-- Read the digits of an exponent. -/
def scanExponentDigits (atEnd : Cause) (negative : Bool) (text : Text) :
    Outcome (Option (Bool × List Nat) × Text) :=
  match spanDigits text with
  | ([], []) => rejectAt atEnd []
  | ([], other) => rejectPast .invalidNumber other
  | (digits, rest) => .ok (some (negative, digits), rest)

def scanExponent (atEnd : Cause) (text : Text) : Outcome (Option (Bool × List Nat) × Text) :=
  match text with
  | [] => .ok (none, text)
  | c :: rest =>
    if c = 'e' || c = 'E' then
      match rest with
      | '+' :: digits => scanExponentDigits atEnd false digits
      | '-' :: digits => scanExponentDigits atEnd true digits
      | digits => scanExponentDigits atEnd false digits
    else .ok (none, text)

def scanNumeral (atEnd : Cause) (text : Text) : Outcome (Numeral × Text) := do
  let (negative, rest) :=
    match text with
    | '-' :: rest => (true, rest)
    | _ => (false, text)
  let (whole, rest) ← scanWhole atEnd rest
  let (fraction, rest) ← scanFraction atEnd rest
  let (exponent, rest) ← scanExponent atEnd rest
  .ok (⟨negative, whole, fraction, exponent⟩, rest)

/-! ### The value -/

/-- Append digits to a significand while it fits 64 bits; the digits from the first
    one that does not fit are left over. -/
def appendDigits (significand : Nat) : List Nat → Nat × List Nat
  | [] => (significand, [])
  | d :: rest =>
    if significand * 10 + d < Nat.pow 2 64 then appendDigits (significand * 10 + d) rest
    else (significand, d :: rest)

/-- The value of exponent digits, within a signed 32-bit word.  The error is the
    number of digits after the one that passes its end. -/
def exponentValue (value : Nat) : List Nat → Except Nat Nat
  | [] => .ok value
  | d :: rest =>
    if value * 10 + d < Nat.pow 2 31 then exponentValue (value * 10 + d) rest
    else .error rest.length

def powerOfTen (n : Nat) : Float := Float.ofScientific 1 false n

/-- `x · 10 ^ power`, in one multiplication or division when the power of ten is a
    double, and in steps of `10 ^ 308` below that.  Nothing when it is too large. -/
def scaleByTen : Nat → Float → Int → Option Float
  | 0, x, _ => some x
  | fuel + 1, x, power =>
    if power.natAbs ≤ 308 then
      if 0 ≤ power then
        let y := x * powerOfTen power.natAbs
        if y.isInf then none else some y
      else some (x / powerOfTen power.natAbs)
    else if x == 0 then some x
    else if 0 ≤ power then none
    else scaleByTen fuel (x / 1e308) (power + 308)

def withSign (negative : Bool) (x : Float) : Float := if negative then -x else x

/-- The number that a numeral stands for.  The error says that it is out of range,
    and how many digits of the numeral had not been looked at by then. -/
def Numeral.number (n : Numeral) : Except Nat Number :=
  let (head, dropped) := appendDigits 0 n.whole
  if dropped.isEmpty && n.fraction.isNone && n.exponent.isNone then
    if !n.negative then .ok (.integer head)
    else if 0 < head ∧ head ≤ Nat.pow 2 63 then .ok (.integer (-(head : Int)))
    else .ok (.float (-(Float.ofNat head)))
  else
    let fraction := n.fraction.getD []
    let (significand, lost) := appendDigits head fraction
    let start : Int := (dropped.length : Int) - ((fraction.length : Int) - lost.length)
    let finish (power : Int) : Except Nat Number :=
      match scaleByTen (power.natAbs + 1) (Float.ofNat significand) power with
      | some x => .ok (.float (withSign n.negative x))
      | none => .error 0
    match n.exponent with
    | none => finish start
    | some (negative, digits) =>
      match exponentValue 0 digits with
      | .ok e => finish (if negative then start - e else start + e)
      | .error unseen =>
        if significand ≠ 0 ∧ !negative then .error unseen
        else .ok (.float (withSign n.negative 0))

def scanNumber (text : Text) : Outcome (Number × Text) := do
  let (numeral, rest) ← scanNumeral .endInValue text
  match numeral.number with
  | .ok number => .ok (number, rest)
  | .error unseen => .error ⟨.numberOutOfRange, byteCount rest + unseen⟩

end DesignMarkup.Json
