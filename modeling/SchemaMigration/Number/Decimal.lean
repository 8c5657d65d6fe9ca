import SchemaMigration.Number.Double
/-!
Decimal numbers of any precision: a sign, a coefficient and an exponent. Numbers of the same value
with different exponents are different decimals; `Exact` is the form in which values are compared.
-/
namespace SchemaMigration

inductive Decimal where
  | finite (negative : Bool) (coefficient : Nat) (exponent : Int)
  | infinite (negative : Bool)
  | nan (negative signaling : Bool) (payload : Nat)
  deriving DecidableEq

namespace Decimal

def signText (negative : Bool) : List Char := if negative then ['-'] else []

def exponentText (e : Int) : List Char :=
  'E' :: (if e < 0 then '-' else '+') :: Numeral.digits e.natAbs

/--
Digits with a point after the first `pointAfter` of them, filled up with zeros where there are not
enough.
-/
def pointed (ds : List Char) (pointAfter : Int) : List Char :=
  let count : Int := ds.length
  if pointAfter ≤ 0 then '0' :: '.' :: (List.replicate pointAfter.natAbs '0' ++ ds)
  else if count ≤ pointAfter then ds ++ List.replicate (pointAfter - count).toNat '0'
  else ds.take pointAfter.toNat ++ '.' :: ds.drop pointAfter.toNat

/--
Positional when the exponent is not positive and the first digit stands at most six places after
the point; otherwise one digit before the point, and an exponent.
-/
def text : Decimal → List Char
  | .finite negative coefficient exponent =>
    let ds := Numeral.digits coefficient
    let pointAfter := exponent + ds.length
    signText negative ++
      if exponent ≤ 0 && -6 < pointAfter then pointed ds pointAfter
      else pointed ds 1 ++ (if pointAfter == 1 then [] else exponentText (pointAfter - 1))
  | .infinite negative => signText negative ++ "Infinity".toList
  | .nan negative signaling payload =>
    signText negative ++ (if signaling then ['s'] else []) ++ "NaN".toList ++
      (if payload == 0 then [] else Numeral.digits payload)

def isZero : Decimal → Bool
  | .finite _ coefficient _ => coefficient == 0
  | _ => false

end Decimal

/-- The value of a number: finite ones as `± coefficient * 10 ^ exponent` without zeros at the end. -/
inductive Exact where
  | finite (negative : Bool) (coefficient : Nat) (exponent : Int)
  | infinite (negative : Bool)
  deriving DecidableEq

namespace Exact

def strip (coefficient : Nat) (exponent : Int) : Nat → Nat × Int
  | 0 => (coefficient, exponent)
  | fuel + 1 =>
    if coefficient % 10 == 0 then strip (coefficient / 10) (exponent + 1) fuel
    else (coefficient, exponent)

def ofFinite (negative : Bool) (coefficient : Nat) (exponent : Int) : Exact :=
  if coefficient == 0 then .finite false 0 0
  else
    let (c, e) := strip coefficient exponent (Numeral.digits coefficient).length
    .finite negative c e

def ofInt (n : Int) : Exact := ofFinite (n < 0) n.natAbs 0

def ofDouble : Double → Option Exact
  | .finite negative place =>
    let m := Double.mantissa place
    let e := Double.exponent place
    if e < 0 then some (ofFinite negative (m * Nat.pow 5 e.natAbs) e)
    else some (ofFinite negative (m * twoTo e.natAbs) 0)
  | .infinite negative => some (.infinite negative)
  | .nan => none

def ofDecimal : Decimal → Option Exact
  | .finite negative coefficient exponent => some (ofFinite negative coefficient exponent)
  | .infinite negative => some (.infinite negative)
  | .nan .. => none

end Exact
end SchemaMigration
