import SchemaMigration.Fault
import SchemaMigration.Value.Basic
/-!
Values by what they say: numbers of any kind by their exact value, with true as one and false as
zero, dictionaries without regard to order, aware points in time by their instant. A comparison
reads both values from the front and stops at the first difference, or where it is undefined.
-/
namespace SchemaMigration

/-- How two values compare. The comparison of a signaling NaN with a number is undefined. -/
inductive Comparison where
  | equal
  | unequal
  | undefined
  deriving DecidableEq

namespace Comparison

def ofBool (b : Bool) : Comparison := if b then .equal else .unequal

def andThen : Comparison → Comparison → Comparison
  | .equal, next => next
  | first, _ => first

def andAll : List Comparison → Comparison
  | [] => .equal
  | c :: rest => c.andThen (andAll rest)

def ofLists {α : Type} (compare : α → α → Comparison) (a b : List α) : Comparison :=
  if a.length == b.length then andAll (List.zipWith compare a b) else .unequal

def faults : Comparison → List Fault
  | .undefined => [.incomparable]
  | _ => []

def searchFaults {α : Type} (compare : α → Comparison) : List α → List Fault
  | [] => []
  | a :: rest =>
    match compare a with
    | .equal => []
    | .unequal => searchFaults compare rest
    | .undefined => [.incomparable]

end Comparison

namespace Value

/-- The exact value of a number; none for other values and for what is not a number. -/
def numeric? : Value → Option Exact
  | .bool b => some (.ofInt (if b then 1 else 0))
  | .int n => some (.ofInt n)
  | .float x => Exact.ofDouble x
  | .decimal d => Exact.ofDecimal d
  | _ => none

def isNumber : Value → Bool
  | .bool _ | .int _ | .float _ | .decimal _ => true
  | _ => false

def isSignaling : Value → Bool
  | .decimal (.nan _ signaling _) => signaling
  | _ => false

def compareNumbers (a b : Value) : Comparison :=
  if a.isNumber && b.isNumber && (a.isSignaling || b.isSignaling) then .undefined
  else match a.numeric?, b.numeric? with
    | some x, some y => .ofBool (decide (x = y))
    | _, _ => .unequal

/-- An aware point in time never equals one without an offset. -/
def timeEquals (a b : DateTime) : Bool :=
  match a.instant?, b.instant? with
  | some x, some y => x == y
  | none, none => decide (a = b)
  | _, _ => false

mutual

def compare : Value → Value → Comparison
  | .null, .null => .equal
  | .str a, .str b => .ofBool (a == b)
  | .date a, .date b => .ofBool (decide (a = b))
  | .datetime a, .datetime b => .ofBool (timeEquals a b)
  | .list a, .list b => if a.length == b.length then compareItems a b else .unequal
  | .tuple a, .tuple b => compareItems a b
  | .dict a, .dict b => if a.length == b.length then compareEntries a b else .unequal
  | a, b => compareNumbers a b

/-- Items from the front; that one sequence is longer counts when it shows. -/
def compareItems : List Value → List Value → Comparison
  | [], [] => .equal
  | a :: as, b :: bs => (compare a b).andThen (compareItems as bs)
  | _, _ => .unequal

def compareEntries : List (String × Value) → List (String × Value) → Comparison
  | [], _ => .equal
  | (k, a) :: as, bs =>
    Comparison.andThen
      (match bs.lookup k with
        | some b => compare a b
        | none => .unequal)
      (compareEntries as bs)

end

def equals (a b : Value) : Bool := decide (a.compare b = .equal)

end Value
end SchemaMigration
