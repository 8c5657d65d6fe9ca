import SchemaMigration.Sql.Statement
/-!
The texts of statements, taken apart. A text is made of words from a fixed vocabulary, of names, bare or
in quotes, and of values. `Statement.text_eq_assemble` says that the pieces give the text, so there is
no other way for a name into it than as a name.
-/
namespace SchemaMigration.Sql

inductive Piece where
  | words (text : String)
  | bare (name : String)
  | inQuotes (name : String)
  | literal (text : String)
  | default (value : Value)

namespace Piece

def text (d : Dialect) : Piece → String
  | .words text | .bare text => text
  | .inQuotes name => nameMark d ++ name ++ nameMark d
  | .literal s => Sql.literal s
  | .default v => defaultText d v

def name? : Piece → Option String
  | .bare name | .inQuotes name => some name
  | _ => none

def assemble (d : Dialect) (pieces : List Piece) : String := String.join (pieces.map (text d))

def joined (between : String) (groups : List (List Piece)) : List Piece := [words between].intercalate groups

section
variable (d : Dialect)

@[simp] theorem text_words (s : String) : (words s).text d = s := rfl

@[simp] theorem text_bare (name : String) : (bare name).text d = name := rfl

@[simp] theorem text_inQuotes (name : String) : (inQuotes name).text d = quoted d (.str name) := rfl

@[simp] theorem text_literal (s : String) : (literal s).text d = Sql.literal s := rfl

@[simp] theorem text_default (v : Value) : (default v).text d = defaultText d v := rfl

@[simp] theorem assemble_nil : assemble d [] = "" := String.join_nil

@[simp] theorem assemble_cons (p : Piece) (rest : List Piece) : assemble d (p :: rest) = p.text d ++ assemble d rest :=
  String.join_cons

@[simp] theorem assemble_append (first second : List Piece) :
    assemble d (first ++ second) = assemble d first ++ assemble d second := by
  rw [assemble, List.map_append, String.join_append, assemble, assemble]

@[simp] theorem assemble_joined (between : String) (groups : List (List Piece)) :
    assemble d (joined between groups) = String.intercalate between (groups.map (assemble d)) := by
  unfold joined
  induction groups with
  | nil => rfl
  | cons group rest ih =>
      cases rest with
      | nil => simp
      | cons next later =>
          rw [List.map_cons] at ih
          rw [List.intercalate_cons_cons, List.map_cons, List.map_cons, String.intercalate_cons_cons, assemble_append,
            assemble_append, ih]
          simp

end

theorem mem_joined {between : String} {groups : List (List Piece)} {p : Piece} (member : p ∈ joined between groups) :
    p = words between ∨ ∃ group ∈ groups, p ∈ group := by
  unfold joined at member
  induction groups with
  | nil => cases member
  | cons group rest ih =>
      cases rest with
      | nil =>
          rw [List.intercalate_singleton] at member
          exact .inr ⟨group, List.mem_cons_self, member⟩
      | cons next later =>
          rw [List.intercalate_cons_cons, List.mem_append, List.mem_append, List.mem_singleton] at member
          rcases member with (first | between) | others
          · exact .inr ⟨group, List.mem_cons_self, first⟩
          · exact .inl between
          · exact (ih others).imp_right fun ⟨other, inRest, inside⟩ => ⟨other, List.mem_cons_of_mem group inRest, inside⟩

theorem mem_joined_of_mem (between : String) {groups : List (List Piece)} {group : List Piece} (listed : group ∈ groups)
    {p : Piece} (inside : p ∈ group) : p ∈ joined between groups := by
  unfold joined
  induction groups with
  | nil => cases listed
  | cons first rest ih =>
      cases rest with
      | nil =>
          rw [List.intercalate_singleton]
          rwa [← List.mem_singleton.mp listed]
      | cons next later =>
          rw [List.intercalate_cons_cons, List.mem_append, List.mem_append]
          rcases List.mem_cons.mp listed with rfl | inRest
          · exact .inl (.inl inside)
          · exact .inr (ih inRest)

end Piece
open Piece

def nameOf (name : Value) : Piece := .inQuotes name.text

def literalPieces (values : List String) : List Piece := joined ", " (values.map fun s => [.literal s])

def enumPieces (d : Dialect) (c : Column) : List Piece :=
  match d with
  | .postgres => [.bare (enumTypeName c)]
  | .mysql => .words "ENUM(" :: literalPieces c.enumMembers ++ [.words ")"]
  | .sqlite => .words "TEXT CHECK (" :: nameOf c.name :: .words " IN (" :: literalPieces c.enumMembers ++ [.words "))"]

def typePieces (d : Dialect) (c : Column) : List Piece :=
  if c.isEnum then enumPieces d c else [.words (plainType d c.type)]

def keyTypePieces (d : Dialect) (c : Column) : List Piece :=
  match d, c.type with
  | .postgres, .integer => [.words "SERIAL"]
  | .postgres, .bigint => [.words "BIGSERIAL"]
  | _, _ => typePieces d c

def referencePieces (r : Reference) : List Piece :=
  [.words "REFERENCES ", nameOf r.table, .words "(", nameOf r.column, .words ")"]

def constraintPieces (d : Dialect) (c : Column) : List (List Piece) :=
  (notNull? c).toList.map (fun clause => [.words clause]) ++
    (if c.hasDefault && decide (c.defaultValue ≠ .null) then [[.words "default ", .default c.defaultValue]] else []) ++
    (if d = .sqlite then c.references.toList.map referencePieces else [])

def definitionPieces (d : Dialect) (c : Column) : List Piece :=
  joined " " ([nameOf c.name] :: (if c.isPrimaryKey then keyTypePieces d c else typePieces d c) ::
    (if c.isPrimaryKey then [.words "PRIMARY KEY"] :: (countingClause? d c).toList.map (fun clause => [.words clause])
      else []) ++ constraintPieces d c)

def addedPieces (d : Dialect) (c : Column) : List Piece :=
  joined " " ([nameOf c.name] :: typePieces d c :: constraintPieces d c)

section
variable (d : Dialect)

@[simp] theorem text_nameOf (name : Value) : (nameOf name).text d = quoted d name := rfl

theorem assemble_literalPieces (values : List String) : assemble d (literalPieces values) = literals values := by
  simp [literalPieces, literals, Function.comp_def]

theorem assemble_enumPieces (c : Column) : assemble d (enumPieces d c) = enumType d c := by
  unfold enumPieces enumType
  cases d <;> simp [assemble_literalPieces, String.append_assoc]

theorem assemble_typePieces (c : Column) : assemble d (typePieces d c) = columnType d c := by
  unfold typePieces columnType
  split
  · exact assemble_enumPieces ..
  · simp

theorem assemble_keyTypePieces (c : Column) : assemble d (keyTypePieces d c) = keyType d c := by
  unfold keyTypePieces keyType
  cases d <;> cases c.type <;> simp [assemble_typePieces]

theorem assemble_constraintPieces (c : Column) : (constraintPieces d c).map (assemble d) = constraints d c := by
  have defaults : (if c.hasDefault && decide (c.defaultValue ≠ .null) then
      [[Piece.words "default ", .default c.defaultValue]] else []).map (assemble d) = (defaultClause? d c).toList := by
    unfold defaultClause?
    split <;> simp
  have references : (if d = .sqlite then c.references.toList.map referencePieces else []).map (assemble d) =
      (inlineReference? d c).toList := by
    unfold inlineReference?
    cases c.references <;> cases d <;> simp [referencePieces, String.append_assoc]
  rw [constraintPieces, List.map_append, List.map_append, defaults, references, constraints, List.map_map]
  simp [Function.comp_def]

theorem assemble_definitionPieces (c : Column) : assemble d (definitionPieces d c) = definition d c := by
  rw [definitionPieces, assemble_joined, List.map_append, assemble_constraintPieces, definition, spaced]
  split <;>
    simp [assemble_keyTypePieces, assemble_typePieces, Function.comp_def, List.map_map]

theorem assemble_addedPieces (c : Column) : assemble d (addedPieces d c) = addedDefinition d c := by
  rw [addedPieces, assemble_joined, List.map_cons, List.map_cons, assemble_constraintPieces, addedDefinition, spaced]
  simp [assemble_typePieces]

end

end SchemaMigration.Sql

namespace SchemaMigration.Statement
open Sql Piece

def namePieces (names : List Value) : List Piece := joined ", " (names.map fun name => [nameOf name])

def indexPieces (table : Value) (index : Index) : List Piece :=
  [.words "CREATE ", .words (if index.kind = .unique then "UNIQUE " else ""), .words "INDEX ",
      .bare (indexName table index.name), .words " ON ", nameOf table, .words " ("] ++
    namePieces index.columns ++ [.words ");"]

def foreignKeyPieces (table column : Value) (target : Reference) : List Piece :=
  [.words "ALTER TABLE ", nameOf table, .words " ADD CONSTRAINT ", .bare (foreignKeyName table column),
    .words " FOREIGN KEY (", nameOf column, .words ") REFERENCES ", nameOf target.table, .words "(",
    nameOf target.column, .words ");"]

def modifyPieces (d : Dialect) (table : Value) (c : Column) : List Piece :=
  match d with
  | .postgres =>
    [.words "ALTER TABLE ", nameOf table, .words " ALTER COLUMN ", nameOf c.name, .words " TYPE "] ++
      typePieces d c ++ [.words ";"]
  | .mysql => [.words "ALTER TABLE ", nameOf table, .words " MODIFY COLUMN "] ++ addedPieces d c ++ [.words ";"]
  | .sqlite =>
    [.words "-- SQLite cannot alter column ", nameOf table, .words ".", nameOf c.name,
      .words " in place; rebuild the table manually to change it to "] ++ typePieces d c

def dropIndexPieces (d : Dialect) (table index : Value) : List Piece :=
  match d with
  | .mysql => [.words "DROP INDEX ", .bare (indexName table index), .words " ON ", nameOf table, .words ";"]
  | _ => [.words "DROP INDEX IF EXISTS ", .bare (indexName table index), .words ";"]

def pieces (d : Dialect) (s : Statement) : List Piece :=
  if !s.supported d then []
  else match s with
    | .createType name values =>
      [.words "CREATE TYPE ", .inQuotes name, .words " AS ENUM ("] ++ literalPieces values ++ [.words ");"]
    | .createTable table columns =>
      [.words "CREATE TABLE ", nameOf table, .words " (\n  "] ++ joined ",\n  " (columns.map (definitionPieces d)) ++
        [.words "\n);"]
    | .addColumn table c =>
      [.words "ALTER TABLE ", nameOf table, .words " ADD COLUMN "] ++ addedPieces d c ++ [.words ";"]
    | .addForeignKey table column target => foreignKeyPieces table column target
    | .createIndex table index => indexPieces table index
    | .modifyColumn table c => modifyPieces d table c
    | .dropTable table =>
      [.words "DROP TABLE IF EXISTS ", nameOf table, .words (if d = .postgres then " CASCADE;" else ";")]
    | .dropColumn table column =>
      [.words "ALTER TABLE ", nameOf table, .words " DROP COLUMN ", nameOf column, .words ";"]
    | .dropIndex table index => dropIndexPieces d table index
    | .dropType name => [.words "DROP TYPE IF EXISTS ", .inQuotes name, .words " CASCADE;"]

def names (d : Dialect) (s : Statement) : List String := (s.pieces d).filterMap name?

section
variable (d : Dialect)

theorem assemble_namePieces (names : List Value) : assemble d (namePieces names) = quotedNames d names := by
  simp [namePieces, quotedNames, Function.comp_def]

theorem assemble_indexPieces (table : Value) (index : Index) :
    assemble d (indexPieces table index) = createIndexText d table index := by
  unfold indexPieces createIndexText
  simp [assemble_namePieces, String.append_assoc]

theorem assemble_foreignKeyPieces (table column : Value) (target : Reference) :
    assemble d (foreignKeyPieces table column target) = addForeignKeyText d table column target := by
  unfold foreignKeyPieces addForeignKeyText
  simp [String.append_assoc]

theorem assemble_modifyPieces (table : Value) (c : Column) :
    assemble d (modifyPieces d table c) = modifyColumnText d table c := by
  unfold modifyPieces modifyColumnText
  cases d <;> simp [assemble_typePieces, assemble_addedPieces, String.append_assoc]

theorem assemble_dropIndexPieces (table index : Value) :
    assemble d (dropIndexPieces d table index) = dropIndexText d table index := by
  unfold dropIndexPieces dropIndexText
  cases d <;> simp [String.append_assoc]

theorem text_eq_assemble (s : Statement) : s.text d = assemble d (s.pieces d) := by
  unfold text pieces
  split
  · rfl
  · cases s with
    | createType name values => simp [assemble_literalPieces, String.append_assoc]
    | createTable table columns =>
        simp [columnLines, assemble_definitionPieces, Function.comp_def, String.append_assoc]
    | addColumn table c => simp [assemble_addedPieces, String.append_assoc]
    | addForeignKey table column target => exact (assemble_foreignKeyPieces ..).symm
    | createIndex table index => exact (assemble_indexPieces ..).symm
    | modifyColumn table c => exact (assemble_modifyPieces ..).symm
    | dropTable table => simp [String.append_assoc]
    | dropColumn table column => simp [String.append_assoc]
    | dropIndex table index => exact (assemble_dropIndexPieces ..).symm
    | dropType name => simp [String.append_assoc]

end

end SchemaMigration.Statement
