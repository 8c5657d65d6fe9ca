import SchemaMigration.Migration.Diff
import SchemaMigration.Proofs.Fingerprint.Canonical
import SchemaMigration.Proofs.Plan.Typed

namespace SchemaMigration
open Document

namespace Document

theorem each_map {α : Type} {read : Value → Except Refusal α} {write : α → Value} {items : List α}
    (back : ∀ a ∈ items, read (write a) = .ok a) : each read (items.map write) = .ok items := by
  induction items with
  | nil => rfl
  | cons a rest ih =>
      rcases List.forall_mem_cons.mp back with ⟨first, later⟩
      rw [List.map_cons, each, first, ih later]
      rfl

theorem dialectOf_name (d : Dialect) : dialectOf (.str d.name) = .ok d := by
  cases d <;> rfl

theorem columnTypeOf_name (t : ColumnType) : columnTypeOf (.str t.name) = .ok t := by
  cases t <;> rfl

theorem indexKindOf_name (k : IndexKind) : indexKindOf (.str k.name) = .ok k := by
  cases k <;> rfl

end Document

theorem Reference.ofValue_toValue (r : Reference) : Reference.ofValue r.toValue = .ok r := rfl

theorem Index.ofValue_toValue (i : Index) : Index.ofValue i.toValue = .ok i := by
  rcases i with ⟨name, columns, kind⟩
  cases kind <;> rfl

namespace Column

def optionalEntries (c : Column) : List (String × Value) :=
  (if c.defaultValue = .null then [] else [("defaultValue", c.defaultValue)]) ++
    (match c.references with
      | none => []
      | some r => [("references", r.toValue)]) ++
    (match c.enumValues with
      | none => []
      | some vs => [("enumValues", .list (vs.map .str))])

def requiredEntries (c : Column) : List (String × Value) :=
  [ ("name", c.name), ("type", .str c.type.name), ("isPrimaryKey", .bool c.isPrimaryKey),
    ("isUnique", .bool c.isUnique), ("isNullable", .bool c.isNullable), ("hasDefault", .bool c.hasDefault) ]

theorem toValue_eq (c : Column) : c.toValue = .dict (c.requiredEntries ++ c.optionalEntries) := by
  unfold toValue optionalEntries requiredEntries
  cases c.references <;> cases c.enumValues <;> simp

theorem lookup_optional (c : Column) :
    (c.optionalEntries.lookup "defaultValue").getD .null = c.defaultValue ∧
      c.optionalEntries.lookup "references" = c.references.map Reference.toValue ∧
      c.optionalEntries.lookup "enumValues" = c.enumValues.map fun vs => .list (vs.map .str) := by
  unfold optionalEntries
  by_cases null : c.defaultValue = .null <;> cases c.references <;> cases c.enumValues <;> simp [null, List.lookup_cons]

theorem referencesOf_eq {entries : List (String × Value)} {references : Option Reference}
    (found : entries.lookup "references" = references.map Reference.toValue) :
    referencesOf entries = .ok references := by
  rw [referencesOf, found]
  cases references <;> rfl

theorem enumValuesOf_eq {entries : List (String × Value)} {texts : Option (List String)}
    (found : entries.lookup "enumValues" = texts.map fun vs => .list (vs.map .str)) :
    enumValuesOf entries = .ok texts := by
  rw [enumValuesOf, found]
  cases texts with
  | none => rfl
  | some vs =>
      have read : each textOf (vs.map Value.str) = .ok vs := each_map fun _ _ => rfl
      simp only [Option.map_some, membersOf, Value.members?, bind, Except.bind, read]
      rfl

theorem ofValue_toValue (c : Column) : Column.ofValue c.toValue = .ok c := by
  rcases lookup_optional c with ⟨default, references, enumValues⟩
  have type := columnTypeOf_name c.type
  have readReferences : referencesOf (c.requiredEntries ++ c.optionalEntries) = .ok c.references :=
    referencesOf_eq (by rw [List.lookup_append, references]; rfl)
  have readEnumValues : enumValuesOf (c.requiredEntries ++ c.optionalEntries) = .ok c.enumValues :=
    enumValuesOf_eq (by rw [List.lookup_append, enumValues]; rfl)
  have readDefault : ((c.requiredEntries ++ c.optionalEntries).lookup "defaultValue").getD .null = c.defaultValue := by
    rw [List.lookup_append]
    exact default
  have nameField : field "name" (.dict (c.requiredEntries ++ c.optionalEntries)) = .ok c.name := rfl
  have typeField : field "type" (.dict (c.requiredEntries ++ c.optionalEntries)) = .ok (.str c.type.name) := rfl
  rw [toValue_eq, ofValue]
  simp only [entriesOf, bind, Except.bind, nameField, typeField, type, readReferences, readEnumValues, readDefault]
  rfl

end Column

namespace Table

def entries (t : Table) : List (String × Value) :=
  [("table", t.name), ("columns", .list (t.columns.map Column.toValue)),
    ("indexes", .list (t.indexes.map Index.toValue))]

theorem ofValue_toValue (t : Table) : Table.ofValue t.toValue = .ok t := by
  have columns : each Column.ofValue (t.columns.map Column.toValue) = .ok t.columns :=
    each_map fun c _ => c.ofValue_toValue
  have indexes : each Index.ofValue (t.indexes.map Index.toValue) = .ok t.indexes :=
    each_map fun i _ => i.ofValue_toValue
  have nameField : field "table" (.dict t.entries) = .ok t.name := rfl
  have columnsFound : (t.entries.lookup "columns").getD (.list []) = .list (t.columns.map Column.toValue) := rfl
  have indexesFound : (t.entries.lookup "indexes").getD (.list []) = .list (t.indexes.map Index.toValue) := rfl
  have document : t.toValue = .dict t.entries := rfl
  rw [document, ofValue]
  simp only [nameField, entriesOf, columnsFound, indexesFound, membersOf, Value.members?, bind, Except.bind, columns,
    indexes]
  rfl

end Table

namespace Plan

theorem ofValue_toValue (p : Plan) : Plan.ofValue p.toValue = .ok p := by
  have tables : each Table.ofValue (p.tables.map Table.toValue) = .ok p.tables :=
    each_map fun t _ => t.ofValue_toValue
  have dialect := dialectOf_name p.dialect
  have dialectField : field "dialect" p.toValue = .ok (.str p.dialect.name) := rfl
  have tablesField : field "tables" p.toValue = .ok (.list (p.tables.map Table.toValue)) := rfl
  rw [ofValue]
  simp only [dialectField, tablesField, bind, Except.bind, dialect, membersOf, Value.members?, tables]
  rfl

end Plan

namespace Value

theorem IsText.stored {v : Value} (text : v.IsText) : v.stored = v := by
  rcases text with ⟨s, rfl⟩
  rfl

theorem IsText.wellKeyed {v : Value} (text : v.IsText) : v.WellKeyed := by
  rcases text with ⟨s, rfl⟩
  exact wellKeyed_str s

theorem IsSingle.stored_eq_null_iff {v : Value} (single : v.IsSingle) : v.stored = .null ↔ v = .null := by
  cases v <;> simp [stored, storedLeaf, Json.substitute?]

end Value

def Column.stored (c : Column) : Column := { c with defaultValue := c.storedDefault }

def Table.stored (t : Table) : Table := { t with columns := t.columns.map Column.stored }

def Plan.stored (p : Plan) : Plan := { p with tables := p.tables.map Table.stored }

theorem Reference.toValue_stored {r : Reference} (texts : r.table.IsText ∧ r.column.IsText) :
    r.toValue.stored = r.toValue := by
  simp only [toValue, Value.stored, Value.storedEntries, texts.1.stored, texts.2.stored]

theorem Reference.wellKeyed_toValue {r : Reference} (texts : r.table.IsText ∧ r.column.IsText) : r.toValue.WellKeyed := by
  apply Value.wellKeyed_dict (by simp)
  simp only [List.forall_mem_cons]
  exact ⟨texts.1.wellKeyed, texts.2.wellKeyed, List.forall_mem_nil _⟩

theorem Value.stored_texts (vs : List String) : Value.stored (.list (vs.map .str)) = .list (vs.map .str) := by
  rw [Value.stored, Value.storedItems_eq_map, List.map_map]
  rfl

theorem Value.wellKeyed_texts (vs : List String) : Value.WellKeyed (.list (vs.map .str)) := by
  apply Value.wellKeyed_list
  rw [List.forall_mem_map]
  exact fun s _ => Value.wellKeyed_str s

namespace Column
variable {c : Column} (typed : c.Typed)
include typed

theorem toValue_stored : c.toValue.stored = c.stored.toValue := by
  have null := typed.default.stored_eq_null_iff
  have default : c.defaultValue.stored = c.stored.defaultValue := Value.stored_of_isLeaf typed.default.leaf
  rw [default] at null
  have required : c.requiredEntries.map (fun e => (e.1, e.2.stored)) = c.stored.requiredEntries := by
    simp only [requiredEntries, List.map_cons, List.map_nil, typed.name.stored]
    rfl
  have optional : c.optionalEntries.map (fun e => (e.1, e.2.stored)) = c.stored.optionalEntries := by
    have references : c.stored.references = c.references := rfl
    have enumValues : c.stored.enumValues = c.enumValues := rfl
    have texts := typed.references
    simp only [optionalEntries, List.map_append, references, enumValues, null]
    congr 1
    · congr 1
      · split <;> simp [default]
      · cases found : c.references with
        | none => rfl
        | some r => simp [Reference.toValue_stored (texts r found)]
    · cases c.enumValues with
      | none => rfl
      | some vs => simp [Value.stored_texts]
  rw [toValue_eq, toValue_eq, Value.stored, Value.storedEntries_eq_map, List.map_append, required, optional]

theorem wellKeyed_toValue : c.toValue.WellKeyed := by
  have required : ∀ e ∈ c.requiredEntries, e.2.WellKeyed := by
    simp only [requiredEntries, List.forall_mem_cons]
    exact ⟨typed.name.wellKeyed, Value.wellKeyed_str _, Value.wellKeyed_of_isLeaf rfl, Value.wellKeyed_of_isLeaf rfl,
      Value.wellKeyed_of_isLeaf rfl, Value.wellKeyed_of_isLeaf rfl, List.forall_mem_nil _⟩
  have optional : ∀ e ∈ c.optionalEntries, e.2.WellKeyed := by
    have default := Value.wellKeyed_of_isLeaf typed.default.leaf
    have references : ∀ r ∈ c.references, r.toValue.WellKeyed := fun r found =>
      Reference.wellKeyed_toValue (typed.references r found)
    unfold optionalEntries
    split <;> cases found : c.references <;> cases c.enumValues <;>
      simp_all [Value.wellKeyed_texts]
  rw [toValue_eq]
  apply Value.wellKeyed_dict
  · unfold requiredEntries optionalEntries
    split <;> cases c.references <;> cases c.enumValues <;> simp
  · intro e member
    rcases List.mem_append.mp member with inRequired | inOptional
    · exact required e inRequired
    · exact optional e inOptional

end Column

namespace Index
variable {i : Index} (typed : i.Typed)
include typed

theorem toValue_stored : i.toValue.stored = i.toValue := by
  have columns : i.columns.map Value.stored = i.columns := by
    rw [List.map_congr_left fun v member => (typed.columns v member).stored, List.map_id']
  simp only [toValue, Value.stored, Value.storedEntries, Value.storedItems_eq_map, typed.name.stored, columns]
  rfl

theorem wellKeyed_toValue : i.toValue.WellKeyed := by
  apply Value.wellKeyed_dict (by simp)
  simp only [List.forall_mem_cons]
  exact ⟨typed.name.wellKeyed, Value.wellKeyed_list fun v member => (typed.columns v member).wellKeyed,
    Value.wellKeyed_str _, List.forall_mem_nil _⟩

end Index

namespace Table
variable {t : Table} (typed : t.Typed)
include typed

theorem toValue_stored : t.toValue.stored = t.stored.toValue := by
  have columns : (t.columns.map Column.toValue).map Value.stored = t.stored.columns.map Column.toValue := by
    simp only [stored, List.map_map]
    exact List.map_congr_left fun c inTable => Column.toValue_stored (typed.columns c inTable)
  have indexes : (t.indexes.map Index.toValue).map Value.stored = t.indexes.map Index.toValue := by
    rw [List.map_map]
    exact List.map_congr_left fun i listed => Index.toValue_stored (typed.indexes i listed)
  simp only [toValue, Value.stored, Value.storedEntries, Value.storedItems_eq_map, typed.name.stored, columns, indexes]
  rfl

theorem wellKeyed_toValue : t.toValue.WellKeyed := by
  apply Value.wellKeyed_dict (by simp)
  simp only [List.forall_mem_cons]
  refine ⟨typed.name.wellKeyed, Value.wellKeyed_list ?_, Value.wellKeyed_list ?_, List.forall_mem_nil _⟩
  · rw [List.forall_mem_map]
    exact fun c inTable => Column.wellKeyed_toValue (typed.columns c inTable)
  · rw [List.forall_mem_map]
    exact fun i listed => Index.wellKeyed_toValue (typed.indexes i listed)

end Table

namespace Plan
variable {p : Plan} (typed : p.Typed)
include typed

theorem toValue_stored : p.toValue.stored = p.stored.toValue := by
  have tables : (p.tables.map Table.toValue).map Value.stored = p.stored.tables.map Table.toValue := by
    simp only [stored, List.map_map]
    exact List.map_congr_left fun t inPlan => Table.toValue_stored (typed.tables t inPlan)
  simp only [toValue, Value.stored, Value.storedEntries, Value.storedItems_eq_map, tables]
  rfl

theorem wellKeyed_toValue : p.toValue.WellKeyed := by
  apply Value.wellKeyed_dict (by simp)
  simp only [List.forall_mem_cons]
  refine ⟨Value.wellKeyed_str _, Value.wellKeyed_list ?_, List.forall_mem_nil _⟩
  rw [List.forall_mem_map]
  exact fun t inPlan => Table.wellKeyed_toValue (typed.tables t inPlan)

theorem ofValue_toValue_stored : Plan.ofValue p.toValue.stored = .ok p.stored := by
  rw [toValue_stored typed, ofValue_toValue]

end Plan
end SchemaMigration
