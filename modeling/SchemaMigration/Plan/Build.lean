import SchemaMigration.Inference

namespace SchemaMigration

namespace Outline

def add (outline : Outline) (name : String) (model : Model) : Outline :=
  ⟨outline.modelTables ++ [(name, model.tableName)],
    outline.primaryKeys ++ [(model.tableName, model.primaryKeyName)]⟩

end Outline

structure TableConflict where
  first : String
  second : String
  table : String
  deriving DecidableEq

namespace ModelSet

def outlineFrom (outline : Outline) : ModelSet → Except TableConflict Outline
  | [] => .ok outline
  | (name, model) :: rest =>
    match outline.modelTables.find? fun entry => entry.2 == model.tableName with
    | some (first, table) => .error ⟨first, name, table⟩
    | none => outlineFrom (outline.add name model) rest

def outline (models : ModelSet) : Except TableConflict Outline := outlineFrom {} models

end ModelSet

namespace Plan

def buildColumns (outline : Outline) (model : Model) : List Column :=
  model.attributes.map fun (name, declared) =>
    Inference.column name declared (name == model.primaryKeyName) (some outline)

def declaredIndex (i : IndexDefinition) : Index :=
  ⟨.str i.name, i.columns.map .str, .plain⟩

def uniqueIndex (c : Column) : Index := ⟨.str (c.name.text ++ "_unique"), [c.name], .unique⟩

def buildTable (outline : Outline) (model : Model) : Table :=
  let columns := buildColumns outline model
  { name := .str model.tableName
    columns
    indexes := model.indexes.map declaredIndex ++
      (columns.filter fun c => c.isUnique && !c.isPrimaryKey).map uniqueIndex }

def buildWith (outline : Outline) (models : ModelSet) (dialect : Dialect) : Plan :=
  ⟨dialect, models.map fun entry => buildTable outline entry.2⟩

def build (models : ModelSet) (dialect : Dialect) : Except TableConflict Plan := do
  let outline ← models.outline
  return buildWith outline models dialect

end Plan
end SchemaMigration
