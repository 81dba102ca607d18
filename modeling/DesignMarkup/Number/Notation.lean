/-
  DesignMarkup/Number/Notation.lean
  =================================
  **How a number is laid out.**  Which digits stand for a number is decided in
  `Shortest`; here they are put around a decimal point.  Two notations are in use.
  `plainText` never writes an exponent: it is the notation of style values.
  `messageText` is the notation of numbers quoted in messages: positional for
  middling sizes, always with a point, and with an exponent beyond.

  `cssText` is the number form of a style value: a whole number below `10 ^ 15` is
  its numeral, so that negative zero loses its sign; all else is `plainText`.
-/
import DesignMarkup.Number.Shortest

namespace DesignMarkup

namespace Decimal

def numeral (d : Decimal) : List Char := Nat.toDigits 10 d.digits

/-- The exponent of the leading digit: the value is `a.bcd · 10 ^ order`. -/
def order (d : Decimal) : Int := d.exponent + d.numeral.length - 1

/-- The digits around a decimal point, with no exponent and no point when whole. -/
def positional (d : Decimal) : String :=
  let digits := d.numeral
  if 0 ≤ d.exponent then
    String.ofList (digits ++ List.replicate d.exponent.toNat '0')
  else
    let places := (-d.exponent).toNat
    if places < digits.length then
      let whole := digits.length - places
      String.ofList (digits.take whole ++ '.' :: digits.drop whole)
    else
      String.ofList ('0' :: '.' :: List.replicate (places - digits.length) '0' ++ digits)

/-- One digit, a point and the others if there are any, and a signed exponent. -/
def scientific (d : Decimal) : String :=
  let mantissa :=
    match d.numeral with
    | [] => []
    | [lead] => [lead]
    | lead :: rest => lead :: '.' :: rest
  let sign := if d.order < 0 then "-" else "+"
  String.ofList mantissa ++ "e" ++ sign ++ toString d.order.natAbs

/-- Positional from `10 ^ (-5)` up to but not including `10 ^ 16`, where a whole
    number keeps `.0`; scientific outside. -/
def message (d : Decimal) : String :=
  if d.digits = 0 then "0.0"
  else if -5 ≤ d.order ∧ d.order ≤ 15 then
    if 0 ≤ d.exponent then d.positional ++ ".0" else d.positional
  else d.scientific

end Decimal

def signText (negative : Bool) : String := if negative then "-" else ""

/-- The shortest digits without an exponent, an equally near pair going up. -/
def plainText (x : Float) : String :=
  match Binary64.ofFloat x with
  | .notANumber => "NaN"
  | .infinite negative => signText negative ++ "inf"
  | .finite negative x => signText negative ++ (x.shortest .upward).positional

/-- The number as a message quotes it, an equally near pair going to the even one. -/
def messageText (x : Float) : String :=
  match Binary64.ofFloat x with
  | .notANumber => "NaN"
  | .infinite negative => signText negative ++ "inf"
  | .finite negative x => signText negative ++ (x.shortest .toEven).message

def cssText (x : Float) : String :=
  match Binary64.ofFloat x with
  | .finite negative m =>
    if m.isWhole && m.floor < Nat.pow 10 15 then toString (signed negative m.floor) else plainText x
  | _ => plainText x

end DesignMarkup
