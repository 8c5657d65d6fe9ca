import SchemaMigration.Text.Numeral
/-!
Floating point numbers of 64 bits, held exactly: a finite number is a sign and its place in the
increasing sequence of non-negative finite numbers. Reading rounds to the nearest number, writing
takes the fewest digits that read back.
-/
namespace SchemaMigration

def twoTo (n : Nat) : Nat := Nat.pow 2 n

def tenTo (n : Nat) : Nat := Nat.pow 10 n

def finiteCount : Nat := 2047 * twoTo 52

inductive Double where
  | finite (negative : Bool) (place : Fin finiteCount)
  | infinite (negative : Bool)
  | nan
  deriving DecidableEq

namespace Double

/-- The number at `place` is `mantissa place * 2 ^ exponent place`. -/
def mantissa (place : Nat) : Nat :=
  if place < twoTo 52 then place else place % twoTo 52 + twoTo 52

def exponent (place : Nat) : Int :=
  if place < twoTo 52 then -1074 else (place / twoTo 52 : Nat) - 1075

def ofPlace (negative : Bool) (place : Nat) : Double :=
  if h : place < finiteCount then .finite negative ⟨place, h⟩ else .infinite negative

/-- `num / den` rounded to an integer, a half going to the even neighbour. -/
def roundHalfEven (num den : Nat) : Nat :=
  let low := num / den
  let twice := 2 * (num % den)
  if twice > den || (twice == den && low % 2 == 1) then low + 1 else low

/-- The power of two below which digits of `num / den` are rounded away. -/
def gridExponent (num den : Nat) : Int :=
  let guess : Int := (Nat.log2 num : Int) - Nat.log2 den - 53
  let scaled := if guess < 0 then num * twoTo guess.natAbs / den else num / (den * twoTo guess.natAbs)
  max (-1074) (if scaled < twoTo 53 then guess else guess + 1)

def ofRatio (negative : Bool) (num den : Nat) : Double :=
  if num == 0 then ofPlace negative 0
  else
    let e := gridExponent num den
    let units :=
      if e < 0 then roundHalfEven (num * twoTo e.natAbs) den else roundHalfEven num (den * twoTo e.natAbs)
    ofPlace negative ((e + 1074).toNat * twoTo 52 + units)

def ofDecimal (negative : Bool) (coefficient : Nat) (exponent : Int) : Double :=
  let size := exponent + (Numeral.digits coefficient).length
  if coefficient == 0 || size < -330 then ofPlace negative 0
  else if size > 310 then .infinite negative
  else if exponent < 0 then ofRatio negative coefficient (tenTo exponent.natAbs)
  else ofRatio negative (coefficient * tenTo exponent.natAbs) 1

/-- `num / den` as a multiple of `10 ^ e`, rounded down. -/
def decimalFloor (num den : Nat) (e : Int) : Nat :=
  if e < 0 then num * tenTo e.natAbs / den else num / (den * tenTo e.natAbs)

def compareScaled (left : Nat) (e : Int) (right : Nat) (f : Int) : Ordering :=
  let l := left * (if e < 0 then 1 else twoTo e.natAbs) * (if f < 0 then tenTo f.natAbs else 1)
  let r := right * (if f < 0 then 1 else tenTo f.natAbs) * (if e < 0 then twoTo e.natAbs else 1)
  compare l r

/--
Whether `candidate * 10 ^ f` is read as the number at `place`: it lies between the midpoints to the
two neighbours, which belong to numbers with an even place.
-/
def readsBack (place candidate : Nat) (f : Int) : Bool :=
  let m := mantissa place
  let e := exponent place
  let atBoundary := m == twoTo 52 && place ≥ twoTo 53
  let low := compareScaled (if atBoundary then 4 * m - 1 else 4 * m - 2) (e - 2) candidate f
  let high := compareScaled (4 * m + 2) (e - 2) candidate f
  let even := place % 2 == 0
  (low == .lt || (even && low == .eq)) && (high == .gt || (even && high == .eq))

def leadingExponent (num den : Nat) : Int :=
  let guess : Int := ((Numeral.digits num).length : Int) - (Numeral.digits den).length
  if decimalFloor num den guess == 0 then guess - 1 else guess

/-- Of the two neighbours of the number at `place` among multiples of `10 ^ f`, the one to write. -/
def neighbour? (place num den : Nat) (f : Int) : Option Nat :=
  let low := decimalFloor num den f
  let lowFits := readsBack place low f
  let highFits := readsBack place (low + 1) f
  if lowFits && highFits then
    match compareScaled (2 * mantissa place) (exponent place) (2 * low + 1) f with
    | .lt => some low
    | .gt => some (low + 1)
    | .eq => some (if low % 2 == 0 then low else low + 1)
  else if lowFits then some low
  else if highFits then some (low + 1)
  else none

/-- The first grid, from coarse to fine, that holds a number which reads back. -/
def shortestFrom (place num den : Nat) (top : Int) : Nat → Nat → Nat × Int
  | 0, _ => (decimalFloor num den (top - 16), top - 16)
  | more + 1, count =>
    match neighbour? place num den (top - count) with
    | some units => (units, top - count)
    | none => shortestFrom place num den top more (count + 1)

def ratio (place : Nat) : Nat × Nat :=
  let e := exponent place
  if e < 0 then (mantissa place, twoTo e.natAbs) else (mantissa place * twoTo e.natAbs, 1)

def shortest (place : Nat) : Nat × Int :=
  let (num, den) := ratio place
  shortestFrom place num den (leadingExponent num den) 17 0

/-- Digits without the zeros at the end, of which each raises the exponent by one. -/
def dropZeros : List Char → List Char
  | [] => []
  | c :: rest =>
    match dropZeros rest with
    | [] => if c == '0' then [] else [c]
    | tail => c :: tail

/-- Positional from `0.0001` up to sixteen digits before the point, with an exponent beyond. -/
def layout (ds : List Char) (pointAfter : Int) : List Char :=
  let count : Int := ds.length
  if -4 < pointAfter && pointAfter ≤ 16 then
    if pointAfter ≤ 0 then '0' :: '.' :: (List.replicate pointAfter.natAbs '0' ++ ds)
    else if count ≤ pointAfter then ds ++ List.replicate (pointAfter - count).toNat '0' ++ ['.', '0']
    else ds.take pointAfter.toNat ++ '.' :: ds.drop pointAfter.toNat
  else
    let e := pointAfter - 1
    let fraction := if ds.length ≤ 1 then [] else '.' :: ds.drop 1
    ds.take 1 ++ fraction ++ 'e' :: (if e < 0 then '-' else '+') :: Numeral.padded 2 e.natAbs

def magnitudeText (place : Nat) : List Char :=
  if place == 0 then ['0', '.', '0']
  else
    let (units, f) := shortest place
    let ds := Numeral.digits units
    layout (dropZeros ds) (ds.length + f)

def text : Double → List Char
  | .finite negative place => (if negative then ['-'] else []) ++ magnitudeText place
  | .infinite negative => if negative then "-inf".toList else "inf".toList
  | .nan => "nan".toList

def isZero : Double → Bool
  | .finite _ place => place.val == 0
  | _ => false

end Double
end SchemaMigration
