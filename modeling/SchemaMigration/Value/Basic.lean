import SchemaMigration.Calendar.DateTime
import SchemaMigration.Number.Decimal
/-!
Values as they occur in model definitions, plans and snapshots: what a JSON text can say, and the
numbers, dates and sequences that a definition held in memory may use beside it.
-/
namespace SchemaMigration

inductive Value where
  | null
  | bool (b : Bool)
  | int (n : Int)
  | float (x : Double)
  | str (s : String)
  | decimal (d : Decimal)
  | date (d : Date)
  | datetime (t : DateTime)
  | list (items : List Value)
  | tuple (items : List Value)
  | dict (entries : List (String × Value))
  /-- A value of a kind that the library does not know. -/
  | foreign (kind : String)

namespace Value

instance : Inhabited Value := ⟨.null⟩

/-- Null, false, zeros and empty texts or containers do not hold. -/
def holds : Value → Bool
  | .null => false
  | .bool b => b
  | .int n => n != 0
  | .float x => !x.isZero
  | .str s => s != ""
  | .decimal d => !d.isZero
  | .list items | .tuple items => !items.isEmpty
  | .dict entries => !entries.isEmpty
  | .date _ | .datetime _ | .foreign _ => true

def kindName : Value → String
  | .null => "NoneType"
  | .bool _ => "bool"
  | .int _ => "int"
  | .float _ => "float"
  | .str _ => "str"
  | .decimal _ => "Decimal"
  | .date _ => "date"
  | .datetime _ => "datetime"
  | .list _ => "list"
  | .tuple _ => "tuple"
  | .dict _ => "dict"
  | .foreign kind => kind

mutual

/-- Whether a value may be a key: lists and dictionaries may not, nor may what holds them. -/
def hashable : Value → Bool
  | .list _ | .dict _ => false
  | .tuple items => allHashable items
  | .decimal (.nan _ signaling _) => !signaling
  | _ => true

def allHashable : List Value → Bool
  | [] => true
  | v :: rest => hashable v && allHashable rest

end

end Value

/-- Puts a value under a key: in the place of the old one, or at the end. -/
def Entries.put (key : String) (v : Value) : List (String × Value) → List (String × Value)
  | [] => [(key, v)]
  | (k, w) :: rest => if k == key then (k, v) :: rest else (k, w) :: Entries.put key v rest

namespace Value

/-- Members of a value that can be listed: those of a sequence, characters of a text, keys. -/
def members? : Value → Option (List Value)
  | .list items | .tuple items => some items
  | .str s => some (s.toList.map fun c => .str (String.singleton c))
  | .dict entries => some (entries.map fun entry => .str entry.1)
  | _ => none

end Value
end SchemaMigration
