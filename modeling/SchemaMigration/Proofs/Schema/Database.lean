import SchemaMigration.Proofs.Schema.Object
/-!
A database as statements make it. `Database.run` executes statements one after the other and stops at
the first that does not find what it needs or whose table, column or enum type is already there.
Only the kinds of statements that migrations are made of run; nothing is dropped or altered.
-/
namespace SchemaMigration

def Column.inlineReference (d : Dialect) (c : Column) : Option Reference :=
  if d = .sqlite then c.references else none

structure StoredColumn where
  name : Value
  shape : ColumnShape
  reference : Option Reference
  deriving DecidableEq

namespace StoredColumn
open Sql

def ofNew (d : Dialect) (c : Column) : StoredColumn := ⟨c.name, .ofNew d c, c.inlineReference d⟩

def ofAdded (d : Dialect) (c : Column) : StoredColumn := ⟨c.name, .ofAdded d c, c.inlineReference d⟩

def referenceText (d : Dialect) (r : Reference) : String :=
  "REFERENCES " ++ quoted d r.table ++ "(" ++ quoted d r.column ++ ")"

def text (d : Dialect) (s : StoredColumn) : String :=
  s.shape.text (quoted d s.name) (s.reference.map (referenceText d))

theorem inlineReference?_eq_map (d : Dialect) (c : Column) :
    inlineReference? d c = (c.inlineReference d).map (referenceText d) := by
  unfold inlineReference? Column.inlineReference
  cases d <;> cases c.references <;> rfl

/-- What is stored of a column is what its definition says. -/
theorem text_ofNew (d : Dialect) (c : Column) : (ofNew d c).text d = definition d c := by
  rw [ColumnShape.definition_eq_text, inlineReference?_eq_map]
  rfl

theorem text_ofAdded (d : Dialect) (c : Column) : (ofAdded d c).text d = addedDefinition d c := by
  rw [ColumnShape.addedDefinition_eq_text, inlineReference?_eq_map]
  rfl

end StoredColumn

structure StoredTable where
  name : Value
  columns : List StoredColumn
  deriving DecidableEq

def StoredTable.ofNew (d : Dialect) (t : Table) : StoredTable := ⟨t.name, t.columns.map (.ofNew d)⟩

structure ForeignKey where
  table : Value
  column : Value
  target : Reference
  deriving DecidableEq

def ForeignKey.statement (key : ForeignKey) : Statement := .addForeignKey key.table key.column key.target

structure Database where
  enumTypes : List (String × List String) := []
  tables : List StoredTable := []
  /-- Foreign keys that are no part of a column. -/
  constraints : List ForeignKey := []
  indexes : List (Value × Index) := []
  deriving DecidableEq

namespace Database

def foreignKeys (db : Database) : List ForeignKey :=
  (db.tables.flatMap fun t => t.columns.flatMap fun c => c.reference.toList.map (⟨t.name, c.name, ·⟩)) ++
    db.constraints

def HasType (db : Database) (name : String) : Prop := name ∈ db.enumTypes.map (·.1)

def HasTable (db : Database) (name : Value) : Prop := ∃ t ∈ db.tables, t.name = name

def HasColumn (db : Database) (table name : Value) : Prop :=
  ∃ t ∈ db.tables, t.name = table ∧ ∃ c ∈ t.columns, c.name = name

def HasTypeOf (d : Dialect) (db : Database) (c : Column) : Prop :=
  d = .postgres → c.isEnum → db.HasType (Sql.enumTypeName c)

instance (db : Database) (name : String) : Decidable (db.HasType name) := inferInstanceAs (Decidable (_ ∈ _))

instance (db : Database) (name : Value) : Decidable (db.HasTable name) := inferInstanceAs (Decidable (∃ _ ∈ _, _))

instance (db : Database) (table name : Value) : Decidable (db.HasColumn table name) :=
  inferInstanceAs (Decidable (∃ _ ∈ _, _))

instance (d : Dialect) (db : Database) (c : Column) : Decidable (db.HasTypeOf d c) :=
  inferInstanceAs (Decidable (_ → _))

/-- Whether a statement finds what it needs and room for what it creates. An inline reference may point ahead. -/
def Allows (d : Dialect) (db : Database) : Statement → Prop
  | .createType name _ => d = .postgres ∧ ¬ db.HasType name
  | .createTable table columns =>
      ¬ db.HasTable table ∧ (columns.map (·.name)).Nodup ∧ ∀ c ∈ columns, db.HasTypeOf d c
  | .addColumn table c => db.HasTable table ∧ ¬ db.HasColumn table c.name ∧ db.HasTypeOf d c
  | .addForeignKey table column target =>
      d ≠ .sqlite ∧ db.HasColumn table column ∧ db.HasColumn target.table target.column
  | .createIndex table index => db.HasTable table ∧ ∀ name ∈ index.columns, db.HasColumn table name
  | _ => False

instance decidableAllows (d : Dialect) (db : Database) (s : Statement) : Decidable (db.Allows d s) := by
  cases s <;> unfold Allows <;> infer_instance

def addColumn (table : Value) (column : StoredColumn) (db : Database) : Database :=
  { db with tables := db.tables.map fun t =>
      if t.name = table then { t with columns := t.columns ++ [column] } else t }

def execute (d : Dialect) (db : Database) : Statement → Database
  | .createType name values => { db with enumTypes := db.enumTypes ++ [(name, values)] }
  | .createTable table columns => { db with tables := db.tables ++ [⟨table, columns.map (.ofNew d)⟩] }
  | .addColumn table c => db.addColumn table (.ofAdded d c)
  | .addForeignKey table column target =>
      { db with constraints := db.constraints ++ [⟨table, column, target⟩] }
  | .createIndex table index => { db with indexes := db.indexes ++ [(table, index)] }
  | _ => db

/-- The database after all statements; none if one of them does not run. -/
def run (d : Dialect) : Database → List Statement → Option Database
  | db, [] => some db
  | db, s :: rest => if db.Allows d s then run d (db.execute d s) rest else none

variable {d : Dialect} {db : Database}

@[simp] theorem run_nil : db.run d [] = some db := rfl

theorem run_cons {s : Statement} (allowed : db.Allows d s) (rest : List Statement) :
    db.run d (s :: rest) = (db.execute d s).run d rest := if_pos allowed

theorem run_append {after : Database} {first : List Statement} (done : db.run d first = some after)
    (second : List Statement) : db.run d (first ++ second) = after.run d second := by
  induction first generalizing db with
  | nil => exact congrArg (run d · second) (Option.some.inj done)
  | cons s rest ih =>
      by_cases allowed : db.Allows d s
      · rw [run_cons allowed] at done
        rw [List.cons_append, run_cons allowed, ih done]
      · rw [run, if_neg allowed] at done
        cases done

theorem exists_run_append_iff (first second : List Statement) :
    (∃ after, db.run d (first ++ second) = some after) ↔
      ∃ middle, db.run d first = some middle ∧ ∃ after, middle.run d second = some after := by
  induction first generalizing db with
  | nil => simp
  | cons s rest ih =>
      by_cases allowed : db.Allows d s
      · rw [List.cons_append, run_cons allowed, run_cons allowed, ih]
      · simp [run, allowed]

/-- Statements of which none changes whether another one is allowed run exactly if all are allowed at the start. -/
theorem exists_run_iff {statements : List Statement}
    (kept : ∀ s ∈ statements, ∀ other ∈ statements, ∀ db : Database, (db.execute d s).Allows d other ↔ db.Allows d other) :
    (∃ after, db.run d statements = some after) ↔ ∀ s ∈ statements, db.Allows d s := by
  induction statements generalizing db with
  | nil => simp
  | cons s rest ih =>
      rw [List.forall_mem_cons]
      by_cases allowed : db.Allows d s
      · have later : (∃ after, (db.execute d s).run d rest = some after) ↔ ∀ other ∈ rest, (db.execute d s).Allows d other :=
          ih fun first inRest other member =>
            kept first (List.mem_cons_of_mem s inRest) other (List.mem_cons_of_mem s member)
        rw [run_cons allowed, later, and_iff_right allowed]
        exact forall₂_congr fun other member => kept s List.mem_cons_self other (List.mem_cons_of_mem s member) db
      · simp [run, allowed]

theorem run_createTypes (postgres : d = .postgres) (types : List (String × List String))
    (apart : ((db.enumTypes ++ types).map (·.1)).Nodup) :
    db.run d (types.map fun type => .createType type.1 type.2) =
      some { db with enumTypes := db.enumTypes ++ types } := by
  induction types generalizing db with
  | nil => simp
  | cons type rest ih =>
      rw [List.append_cons] at apart
      have fresh : ¬ db.HasType type.1 := by
        rw [List.map_append, List.map_append, List.append_assoc] at apart
        intro present
        exact (List.nodup_append.mp apart).2.2 _ present type.1 (by simp) rfl
      have allowed : db.Allows d (.createType type.1 type.2) := ⟨postgres, fresh⟩
      rw [List.map_cons, run_cons allowed, execute, ih apart, List.append_cons db.enumTypes type rest]

theorem run_addForeignKeys (separate : d ≠ .sqlite) (keys : List ForeignKey)
    (found : ∀ key ∈ keys, db.HasColumn key.table key.column ∧ db.HasColumn key.target.table key.target.column) :
    db.run d (keys.map ForeignKey.statement) = some { db with constraints := db.constraints ++ keys } := by
  induction keys generalizing db with
  | nil => simp
  | cons key rest ih =>
      have allowed : db.Allows d key.statement := ⟨separate, found key List.mem_cons_self⟩
      rw [List.map_cons, run_cons allowed, ForeignKey.statement, execute, ih, List.append_assoc]
      · rfl
      · intro other later
        exact found other (List.mem_cons_of_mem key later)

theorem run_createIndexes (indexes : List (Value × Index))
    (found : ∀ entry ∈ indexes, db.HasTable entry.1 ∧ ∀ name ∈ entry.2.columns, db.HasColumn entry.1 name) :
    db.run d (indexes.map fun entry => .createIndex entry.1 entry.2) =
      some { db with indexes := db.indexes ++ indexes } := by
  induction indexes generalizing db with
  | nil => simp
  | cons entry rest ih =>
      have allowed : db.Allows d (.createIndex entry.1 entry.2) := found entry List.mem_cons_self
      rw [List.map_cons, run_cons allowed, execute, ih, List.append_assoc]
      · rfl
      · intro other later
        exact found other (List.mem_cons_of_mem entry later)

end Database
end SchemaMigration
