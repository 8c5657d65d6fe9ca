import SchemaMigration.Sql.Statement
import Mathlib.Algebra.Order.Ring.Nat

namespace SchemaMigration

namespace Column

/-- The column as it is added: a key is an ordinary column then, and nullable like any other. -/
def withoutKey (c : Column) : Column :=
  if c.isPrimaryKey then { c with isPrimaryKey := false, isNullable := true } else c

theorem withoutKey_of_key {c : Column} (key : c.isPrimaryKey = true) :
    c.withoutKey = { c with isPrimaryKey := false, isNullable := true } := if_pos key

theorem withoutKey_of_ordinary {c : Column} (ordinary : c.isPrimaryKey = false) : c.withoutKey = c :=
  if_neg (Bool.eq_false_iff.mp ordinary)

end Column

namespace Sql
variable (d : Dialect) (c : Column)

theorem toList_spaced_cons (first : String) (rest : List String) :
    (spaced (first :: rest)).toList = first.toList ++ rest.flatMap fun part => ' ' :: part.toList := by
  induction rest generalizing first with
  | nil => simp [spaced]
  | cons second rest ih =>
      have joined : spaced (first :: second :: rest) = first ++ " " ++ spaced (second :: rest) :=
        String.intercalate_cons_cons
      rw [joined, String.toList_append, String.toList_append, ih, List.flatMap_cons, List.append_assoc]
      rfl

theorem length_spaced_cons (first : String) (rest : List String) :
    (spaced (first :: rest)).length = first.length + (rest.map fun part => part.length + 1).sum := by
  rw [← String.length_toList, toList_spaced_cons, List.length_append, List.length_flatMap, String.length_toList]
  rfl

/-- The type of a column is not so much longer than that of a key as to make up for the word that marks a key. -/
theorem length_columnType_lt : (columnType d c).length < (keyType d c).length + "PRIMARY KEY".length := by
  have ordinary : (columnType d c).length < (columnType d c).length + "PRIMARY KEY".length :=
    Nat.lt_add_of_pos_right (by decide)
  have integral : ∀ t : ColumnType, c.type = t → t ≠ .enum → columnType d c = plainType d t := by
    intro t type other
    have plain : c.isEnum = false := by simp [Column.isEnum, Column.enumMembers, type, other]
    rw [columnType, plain, type, if_neg Bool.false_ne_true]
  unfold keyType
  split
  case h_1 type =>
    rw [integral .integer type (by decide)]
    decide
  case h_2 type =>
    rw [integral .bigint type (by decide)]
    decide
  case h_3 => exact ordinary

theorem constraints_withoutKey : constraints d c.withoutKey = constraints d c := by
  cases key : c.isPrimaryKey with
  | false => rw [Column.withoutKey_of_ordinary key]
  | true =>
      have nullable : notNull? c = none := by simp [notNull?, key]
      rw [Column.withoutKey_of_key key, constraints, constraints, nullable]
      rfl

theorem addedDefinition_eq_definition_withoutKey : addedDefinition d c = definition d c.withoutKey := by
  have ordinary : c.withoutKey.isPrimaryKey = false := by
    unfold Column.withoutKey
    split
    case isTrue => rfl
    case isFalse other => exact Bool.eq_false_iff.mpr other
  have name : c.withoutKey.name = c.name := by
    unfold Column.withoutKey
    split <;> rfl
  have type : columnType d c.withoutKey = columnType d c := by
    unfold Column.withoutKey
    split <;> rfl
  rw [addedDefinition, definition, ordinary, name, type, constraints_withoutKey]
  rfl

theorem definition_withoutKey_eq_iff : definition d c.withoutKey = definition d c ↔ c.isPrimaryKey = false := by
  constructor
  · intro same
    cases key : c.isPrimaryKey with
    | false => rfl
    | true =>
        -- The word for the key makes the one definition longer than the other.
        have shorter := length_columnType_lt d c
        have lengths := congrArg String.length same
        rw [← addedDefinition_eq_definition_withoutKey, addedDefinition, definition, key, if_pos rfl,
          if_pos rfl] at lengths
        simp only [length_spaced_cons, List.cons_append, List.map_cons, List.map_append, List.sum_cons, List.sum_append]
          at lengths
        omega
  · intro ordinary
    rw [Column.withoutKey_of_ordinary ordinary]

end Sql

namespace Statement
open Sql

def addColumnAround (d : Dialect) (table : Value) (definition : String) : String :=
  "ALTER TABLE " ++ quoted d table ++ " ADD COLUMN " ++ definition ++ ";"

theorem addColumnAround_inj {d : Dialect} {table : Value} {first second : String} :
    addColumnAround d table first = addColumnAround d table second ↔ first = second := by
  simp [addColumnAround]

theorem text_addColumn (d : Dialect) (table : Value) (c : Column) :
    (Statement.addColumn table c).text d = addColumnAround d table (addedDefinition d c) := rfl

/--
A column is added with the definition that it would be created with if it were not the key, which is its own
definition exactly if it is not. Without the key it keeps its default and its reference, and it can be added wherever
it can be created.
-/
theorem column_added_as_created_iff (d : Dialect) (table : Value) (c : Column) :
    ((Statement.addColumn table c).text d = addColumnAround d table (definition d c) ↔ c.isPrimaryKey = false) ∧
      (Statement.addColumn table c).text d = addColumnAround d table (definition d c.withoutKey) ∧
      constraints d c.withoutKey = constraints d c ∧
      (Statement.addColumn table c).faults d = (Statement.createTable table [c]).faults d := by
  have added := addedDefinition_eq_definition_withoutKey d c
  refine ⟨?_, ?_, constraints_withoutKey d c, ?_⟩
  · rw [text_addColumn, addColumnAround_inj, added, definition_withoutKey_eq_iff]
  · rw [text_addColumn, added]
  · simp [Statement.faults, Statement.supported]

/-- A number that counts by itself in the key of its table, but not where it is added. -/
theorem key_added_without_counting : ¬ ∀ (d : Dialect) (table : Value) (c : Column),
    (Statement.addColumn table c).text d = addColumnAround d table (definition d c) := by
  intro claimed
  have same := claimed .postgres (.str "users") { name := .str "id", type := .bigint, isPrimaryKey := true }
  exact absurd same (by decide)

end Statement
end SchemaMigration
