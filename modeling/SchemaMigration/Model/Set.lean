import SchemaMigration.Model.Validation
/-!
Model sets given as one value: a dictionary of definitions by name. A definition may also be written
as a sequence of pairs; without a `name` it is named after its key.
-/
namespace SchemaMigration.ModelSet

inductive Refusal where
  | noDictionary
  /-- A definition or one of its entries cannot be listed, or a key cannot be one. -/
  | noEntries
  /-- An entry of a listed definition does not have two members. -/
  | noPair
  | invalid (key : String) (problems : List Problem)
  deriving DecidableEq

/-- An entry from a pair; keys that are no texts name no field. -/
def putPair (entries : List (String × Value)) (pair : Value) : Except Refusal (List (String × Value)) :=
  match pair.members? with
  | none => .error .noEntries
  | some [key, v] =>
    match key with
    | .str name => .ok (Entries.put name v entries)
    | _ => if key.hashable then .ok entries else .error .noEntries
  | some _ => .error .noPair

def putPairs : List (String × Value) → List Value → Except Refusal (List (String × Value))
  | entries, [] => .ok entries
  | entries, pair :: rest => do
    let entries ← putPair entries pair
    putPairs entries rest

def definitionEntries : Value → Except Refusal (List (String × Value))
  | .dict entries => .ok entries
  | v => match v.members? with
    | none => .error .noEntries
    | some pairs => putPairs [] pairs

def withName (name : String) (entries : List (String × Value)) : List (String × Value) :=
  if (entries.lookup "name").isSome then entries else entries ++ [("name", .str name)]

def readEntry (key : String) (definition : Value) : Except Refusal Model := do
  let entries ← definitionEntries definition
  match Model.check (.dict (withName key entries)) with
  | .ok model => return model
  | .error problems => .error (.invalid key problems)

def readEntries : List (String × Value) → Except Refusal ModelSet
  | [] => .ok []
  | (key, definition) :: rest => do
    let model ← readEntry key definition
    let models ← readEntries rest
    return (key, model) :: models

def ofValue : Value → Except Refusal ModelSet
  | .dict entries => readEntries entries
  | _ => .error .noDictionary

end SchemaMigration.ModelSet
