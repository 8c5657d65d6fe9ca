import SchemaMigration.Model.Basic
import SchemaMigration.Text.Identifier
import SchemaMigration.Value.Text
/-!
Checking that a value is a model definition. Every problem is reported with its place, in the order
of the fields. Two-word fields may be spelled in either of two ways, and unknown fields are passed
over.
-/
namespace SchemaMigration

/-- A step towards the place of a problem: into a field or an attribute, or to an item of a list. -/
inductive PlaceStep where
  | field (name : String)
  | item (position : Nat)
  deriving DecidableEq

inductive ProblemKind where
  | notModel
  | missing
  | notText
  | notList
  | notDictionary
  | tooShort
  /-- A value of a kind that says neither yes nor no. -/
  | notBoolean
  /-- A number or a text other than those that say yes or no. -/
  | unclearBoolean
  | unknownType
  | refused (message : String)
  deriving DecidableEq

structure Problem where
  place : List PlaceStep
  kind : ProblemKind
  deriving DecidableEq

abbrev Checked (α : Type) := Except (List Problem) α

namespace Checked

def problem {α : Type} (kind : ProblemKind) : Checked α := .error [⟨[], kind⟩]

def within {α : Type} (step : PlaceStep) : Checked α → Checked α
  | .ok a => .ok a
  | .error problems => .error (problems.map fun p => { p with place := step :: p.place })

def both {α β : Type} : Checked α → Checked β → Checked (α × β)
  | .ok a, .ok b => .ok (a, b)
  | .ok _, .error q => .error q
  | .error p, .ok _ => .error p
  | .error p, .error q => .error (p ++ q)

def next {α β : Type} (check : α → Checked β) : Checked α → Checked β
  | .ok a => check a
  | .error p => .error p

end Checked

open Checked

def spelled? (entries : List (String × Value)) (name other : String) : Option (String × Value) :=
  match entries.lookup name with
  | some v => some (name, v)
  | none => (entries.lookup other).map fun v => (other, v)

/-- Checks a field where it stands, and otherwise takes what holds without it. -/
def checkField {α : Type} (entries : List (String × Value)) (name other : String)
    (absent : Checked α) (check : Value → Checked α) : Checked α :=
  match spelled? entries name other with
  | some (spelling, v) => within (.field spelling) (check v)
  | none => absent

def required {α : Type} (name : String) : Checked α := within (.field name) (problem .missing)

def checkEntries : Value → Checked (List (String × Value))
  | .dict entries => .ok entries
  | _ => problem .notModel

def checkText : Value → Checked String
  | .str s => .ok s
  | _ => problem .notText

def checkList : Value → Checked (List Value)
  | .list items | .tuple items => .ok items
  | _ => problem .notList

def checkOptional {α : Type} (check : Value → Checked α) : Value → Checked (Option α)
  | .null => .ok none
  | v => match check v with
    | .ok a => .ok (some a)
    | .error p => .error p

def checkIdentifier (context name : String) : Checked String :=
  if Identifier.accepts name then .ok name
  else problem (.refused (Identifier.refusal context name))

def checkName (context : String) (v : Value) : Checked String :=
  next (checkIdentifier context) (checkText v)

def checkItems {α : Type} (check : Value → Checked α) : Nat → List Value → Checked (List α)
  | _, [] => .ok []
  | position, v :: rest =>
    match both (within (.item position) (check v)) (checkItems check (position + 1) rest) with
    | .ok (a, as) => .ok (a :: as)
    | .error p => .error p

def requireSome {α : Type} : List α → Checked (List α)
  | [] => problem .tooShort
  | items => .ok items

def yesWords : List String := ["1", "on", "t", "true", "y", "yes"]
def noWords : List String := ["0", "off", "f", "false", "n", "no"]

def checkWord (s : String) : Checked Bool :=
  let word := String.ofList (s.toList.map Char.toLower)
  if yesWords.contains word then .ok true
  else if noWords.contains word then .ok false
  else problem .unclearBoolean

def checkNumber (n : Int) : Checked Bool :=
  if n == 1 then .ok true
  else if n == 0 then .ok false
  else problem .unclearBoolean

/-- Signed integers of 64 bits lie below this bound and not below its negative. -/
def bound64 : Int := 9223372036854775808

/-- Whole numbers of 64 bits count as integers, other floating point numbers say nothing. -/
def checkDouble (x : Double) : Checked Bool :=
  match Exact.ofDouble x with
  | some (.finite negative coefficient exponent) =>
    let n : Int := (coefficient * tenTo exponent.toNat : Nat)
    if exponent < 0 || bound64 ≤ n then problem .notBoolean
    else checkNumber (if negative then -n else n)
  | _ => problem .notBoolean

def checkBoolean : Value → Checked Bool
  | .bool b => .ok b
  | .int n => if -bound64 ≤ n && n < bound64 then checkNumber n else problem .notBoolean
  | .float x => checkDouble x
  | .decimal (.finite negative coefficient exponent) =>
    checkDouble (.ofDecimal negative coefficient exponent)
  | .str s => checkWord s
  | _ => problem .notBoolean

def checkColumnType : Value → Checked ColumnType
  | .str s => match ColumnType.ofName? s with
    | some t => .ok t
    | none => problem .unknownType
  | _ => problem .unknownType

def integerRefusal : String :=
  "Exceeds the limit (4300 digits) for integer string conversion; use sys.set_int_max_str_digits() to increase the limit"

/-- Members of an enum are taken as texts, of whatever kind they are. -/
def checkEnumValues (v : Value) : Checked (List String) :=
  next (fun items =>
      match Value.allTextFaults items with
      | [] => requireSome (items.map Value.text)
      | _ :: _ => problem (.refused integerRefusal))
    (checkList v)

namespace Attribute

def assemble (entries : List (String × Value)) (unique : Bool) (enumValues : Option (List String))
    (type : Option ColumnType) : Checked Attribute :=
  if type = some .enum && enumValues.isNone then
    problem (.refused "type 'enum' requires a non-empty enum_values list")
  else .ok {
    unique, enumValues, type
    default := (entries.lookup "default").getD .null
    hasDefault := (entries.lookup "default").isSome }

def check (v : Value) : Checked Attribute :=
  next (fun entries =>
      next (fun (unique, enumValues, type) => assemble entries unique enumValues type)
        (both (checkField entries "unique" "unique" (.ok false) checkBoolean)
          (both (checkField entries "enumValues" "enum_values" (.ok none) (checkOptional checkEnumValues))
            (checkField entries "type" "type" (.ok none) (checkOptional checkColumnType)))))
    (checkEntries v)

end Attribute

namespace IndexDefinition

def check (v : Value) : Checked IndexDefinition :=
  next (fun entries =>
      next (fun (name, columns) => .ok ⟨name, columns⟩)
        (both (checkField entries "name" "name" (required "name") (checkName "index name"))
          (checkField entries "columns" "columns" (required "columns") fun v =>
            next (fun items => next requireSome (checkItems checkText 0 items)) (checkList v))))
    (checkEntries v)

end IndexDefinition

def checkAttributes : List (String × Value) → Checked (List (String × Attribute))
  | [] => .ok []
  | (name, v) :: rest =>
    match both (within (.field name) (Attribute.check v)) (checkAttributes rest) with
    | .ok (a, as) => .ok ((name, a) :: as)
    | .error p => .error p

def checkAttributeNames (attributes : List (String × Attribute)) : Checked (List (String × Attribute)) :=
  match attributes.find? fun a => !Identifier.accepts a.1 with
  | some (name, _) => problem (.refused (Identifier.refusal "attribute name" name))
  | none => .ok attributes

def checkDictionary : Value → Checked (List (String × Value))
  | .dict entries => .ok entries
  | _ => problem .notDictionary

namespace Model

def check (v : Value) : Checked Model :=
  next (fun entries =>
      next (fun (name, table, primaryKey, attributes, indexes) =>
          .ok { name, table, primaryKey, attributes, indexes })
        (both (checkField entries "name" "name" (required "name") (checkName "model name"))
          (both (checkField entries "table" "table" (.ok none) (checkOptional (checkName "table name")))
            (both (checkField entries "primaryKey" "primary_key" (.ok none)
                (checkOptional (checkName "primary key")))
              (both (checkField entries "attributes" "attributes" (.ok []) fun v =>
                  next (fun found => next checkAttributeNames (checkAttributes found)) (checkDictionary v))
                (checkField entries "indexes" "indexes" (.ok []) fun v =>
                  next (checkItems IndexDefinition.check 0) (checkList v)))))))
    (checkEntries v)

end Model
end SchemaMigration
