import SchemaMigration.Proofs.Sql.Piece
import SchemaMigration.Proofs.Text.Identifier
/-!
Which names stand in a statement. Everything else in its text is a value or belongs to a fixed vocabulary.
The lemmas say for each kind of statement when all its names meet a condition that names put together from
others inherit from these.
-/
namespace SchemaMigration

def Reference.NamesMeet (good : String → Prop) (r : Reference) : Prop := good r.table.text ∧ good r.column.text

def Column.ReferencesMeet (good : String → Prop) (c : Column) : Prop :=
  ∀ r ∈ c.references, Reference.NamesMeet good r

namespace Sql

/-- All words of the texts that migrations are made of. -/
def vocabulary : List String :=
  [" ", ", ", ",\n  ", "", "(", ")", "))", ");", " (", " (\n  ", "\n);", ";", " IN (", " ON ", " ADD COLUMN ",
    " ADD CONSTRAINT ", " AS ENUM (", " FOREIGN KEY (", ") REFERENCES ", "ALTER TABLE ", "AUTOINCREMENT",
    "AUTO_INCREMENT", "BIGSERIAL", "CREATE ", "CREATE TABLE ", "CREATE TYPE ", "ENUM(", "INDEX ", "PRIMARY KEY",
    "REFERENCES ", "SERIAL", "TEXT CHECK (", "UNIQUE ", "default ", "not null"] ++
    Dialect.all.flatMap fun d => ColumnType.all.map (plainType d)

namespace Piece

def Meets (good : String → Prop) : Piece → Prop
  | .words text => text ∈ vocabulary
  | .bare name | .inQuotes name => good name
  | .literal _ | .default _ => True

def AllMeet (good : String → Prop) (pieces : List Piece) : Prop := ∀ p ∈ pieces, p.Meets good

end Piece

/-- A condition that holds of every name which is put together from names of which it holds. -/
structure Joins (good : String → Prop) : Prop where
  type : ∀ {name}, good name → good (name ++ "_type")
  key : ∀ {table column}, good table → good column → good (table ++ "_" ++ column ++ "_fk")

theorem joins_true : Joins fun _ => True := ⟨fun _ => trivial, fun _ _ => trivial⟩

theorem joins_isSafe : Joins Identifier.IsSafe where
  type := fun safe => safe.append_ending (by decide)
  key := by
    intro table column safe safe'
    exact ((safe.append_ending (by decide)).append safe'.all_isTail).append_ending (by decide)

section
variable {good : String → Prop} {d : Dialect}
open Piece

@[simp] theorem allMeet_nil : AllMeet good [] := by simp [AllMeet]

@[simp] theorem allMeet_cons (p : Piece) (rest : List Piece) :
    AllMeet good (p :: rest) ↔ p.Meets good ∧ AllMeet good rest := List.forall_mem_cons

@[simp] theorem allMeet_append (first second : List Piece) :
    AllMeet good (first ++ second) ↔ AllMeet good first ∧ AllMeet good second := List.forall_mem_append

@[simp] theorem meets_words (text : String) : (words text).Meets good ↔ text ∈ vocabulary := Iff.rfl

@[simp] theorem meets_nameOf (name : Value) : (nameOf name).Meets good ↔ good name.text := Iff.rfl

@[simp] theorem meets_bare (name : String) : (bare name).Meets good ↔ good name := Iff.rfl

@[simp] theorem meets_inQuotes (name : String) : (inQuotes name).Meets good ↔ good name := Iff.rfl

@[simp] theorem meets_literal (s : String) : (Piece.literal s).Meets good := trivial

@[simp] theorem meets_default (v : Value) : (Piece.default v).Meets good := trivial

theorem allMeet_iff_names {pieces : List Piece} (known : AllMeet (fun _ => True) pieces) :
    AllMeet good pieces ↔ ∀ name ∈ pieces.filterMap name?, good name := by
  simp only [List.mem_filterMap, forall_exists_index, and_imp]
  constructor
  · intro all name p inside named
    have meets := all p inside
    cases p <;> cases named <;> exact meets
  · intro names p inside
    have word := known p inside
    cases p with
    | words | literal | default => exact word
    | bare name | inQuotes name => exact names name _ inside rfl

theorem allMeet_joined {between : String} (known : between ∈ vocabulary) (groups : List (List Piece)) :
    AllMeet good (joined between groups) ↔ ∀ group ∈ groups, AllMeet good group := by
  constructor
  · intro all group listed p inside
    exact all p (mem_joined_of_mem between listed inside)
  · intro each p member
    rcases mem_joined member with rfl | ⟨group, listed, inside⟩
    · exact known
    · exact each group listed p inside

theorem plainType_mem_vocabulary (d : Dialect) (t : ColumnType) : plainType d t ∈ vocabulary := by
  apply List.mem_append_right
  rw [List.mem_flatMap]
  refine ⟨d, ?_, List.mem_map_of_mem ?_⟩
  · cases d <;> decide
  · cases t <;> decide

theorem allMeet_literalPieces (values : List String) : AllMeet good (literalPieces values) := by
  rw [literalPieces, allMeet_joined (by decide)]
  simp

variable (joins : Joins good)
include joins

theorem allMeet_enumPieces {c : Column} (name : good c.name.text) : AllMeet good (enumPieces d c) := by
  have ends : ∀ text ∈ ["ENUM(", ")", "TEXT CHECK (", " IN (", "))"], text ∈ vocabulary := by decide
  cases d with
  | postgres =>
      change AllMeet good [.bare (c.name.text ++ "_type")]
      simpa using joins.type name
  | mysql => simp [enumPieces, allMeet_literalPieces, ends]
  | sqlite => simp [enumPieces, allMeet_literalPieces, ends, name]

theorem allMeet_typePieces {c : Column} (name : good c.name.text) : AllMeet good (typePieces d c) := by
  unfold typePieces
  split
  · exact allMeet_enumPieces joins name
  · simpa using plainType_mem_vocabulary d c.type

theorem allMeet_keyTypePieces {c : Column} (name : good c.name.text) : AllMeet good (keyTypePieces d c) := by
  have counting : ∀ text ∈ ["SERIAL", "BIGSERIAL"], text ∈ vocabulary := by decide
  unfold keyTypePieces
  split
  · simp [counting]
  · simp [counting]
  · exact allMeet_typePieces joins name

omit joins in
theorem allMeet_referencePieces (r : Reference) : AllMeet good (referencePieces r) ↔ r.NamesMeet good := by
  have ends : ∀ text ∈ ["REFERENCES ", "(", ")"], text ∈ vocabulary := by decide
  simp [referencePieces, ends, Reference.NamesMeet]

omit joins in
theorem allMeet_constraintPieces (c : Column) :
    (∀ group ∈ constraintPieces d c, AllMeet good group) ↔ (d = .sqlite → c.ReferencesMeet good) := by
  have clauses : ∀ text ∈ ["not null", "default "], text ∈ vocabulary := by decide
  have nullable : ∀ group ∈ (notNull? c).toList.map (fun clause => [words clause]), AllMeet good group := by
    unfold notNull?
    split <;> simp [clauses]
  have default : ∀ group ∈ (if c.hasDefault && decide (c.defaultValue ≠ .null) then
      [[words "default ", .default c.defaultValue]] else []), AllMeet good group := by
    split <;> simp [clauses]
  rw [constraintPieces, List.forall_mem_append, List.forall_mem_append, and_iff_right ⟨nullable, default⟩]
  by_cases inline : d = .sqlite <;>
    simp [inline, Column.ReferencesMeet, allMeet_referencePieces]

theorem allMeet_definitionPieces (c : Column) :
    AllMeet good (definitionPieces d c) ↔ good c.name.text ∧ (d = .sqlite → c.ReferencesMeet good) := by
  have clauses : ∀ text ∈ ["PRIMARY KEY", "AUTO_INCREMENT", "AUTOINCREMENT"], text ∈ vocabulary := by decide
  have keys : ∀ group ∈ (if c.isPrimaryKey then
      [words "PRIMARY KEY"] :: (countingClause? d c).toList.map (fun clause => [words clause]) else []),
      AllMeet good group := by
    unfold countingClause?
    cases d <;> split <;> (try split) <;> simp [clauses]
  rw [definitionPieces, allMeet_joined (by decide), List.forall_mem_append, List.forall_mem_cons,
    List.forall_mem_cons, allMeet_constraintPieces, and_iff_left keys]
  simp only [allMeet_cons, meets_nameOf, allMeet_nil, and_true]
  apply and_congr_left
  intro _
  apply and_iff_left_of_imp
  intro name
  split
  · exact allMeet_keyTypePieces joins name
  · exact allMeet_typePieces joins name

end

end Sql

namespace Statement
open Sql Piece

section
variable {good : String → Prop} {d : Dialect}

theorem allMeet_createType {name : String} (values : List String) (named : good name) :
    AllMeet good ((createType name values).pieces d) := by
  have clauses : ∀ text ∈ ["CREATE TYPE ", " AS ENUM (", ");"], text ∈ vocabulary := by decide
  unfold pieces
  split
  · exact allMeet_nil
  · simp [clauses, allMeet_literalPieces, named]

theorem allMeet_createTable (joins : Joins good) (table : Value) (columns : List Column) :
    AllMeet good ((createTable table columns).pieces d) ↔
      good table.text ∧ ∀ c ∈ columns, good c.name.text ∧ (d = .sqlite → c.ReferencesMeet good) := by
  have clauses : ∀ text ∈ ["CREATE TABLE ", " (\n  ", "\n);"], text ∈ vocabulary := by decide
  simp [pieces, supported, clauses, allMeet_joined (show ",\n  " ∈ vocabulary by decide),
    allMeet_definitionPieces joins]

theorem allMeet_addForeignKey (joins : Joins good) (later : d ≠ .sqlite) (table column : Value) (target : Reference) :
    AllMeet good ((addForeignKey table column target).pieces d) ↔
      good table.text ∧ good column.text ∧ target.NamesMeet good := by
  have clauses : ∀ text ∈ ["ALTER TABLE ", " ADD CONSTRAINT ", " FOREIGN KEY (", ") REFERENCES ", "(", ");"],
      text ∈ vocabulary := by decide
  have derived : good table.text → good column.text → good (foreignKeyName table column) := joins.key
  simp only [pieces, supported, bne_iff_ne.mpr later, foreignKeyPieces, Bool.not_true, Bool.false_eq_true, if_false,
    allMeet_cons, allMeet_nil, meets_words, meets_nameOf, meets_bare, Reference.NamesMeet, List.forall_mem_cons] at clauses ⊢
  grind

theorem allMeet_createIndex (table : Value) (index : Index) :
    AllMeet good ((createIndex table index).pieces d) ↔
      good (indexName table index.name) ∧ good table.text ∧ ∀ column ∈ index.columns, good column.text := by
  have clauses : ∀ text ∈ ["CREATE ", "UNIQUE ", "", "INDEX ", " ON ", " (", ");"], text ∈ vocabulary := by decide
  have kind : (if index.kind = .unique then "UNIQUE " else "") ∈ vocabulary := by
    split <;> simp [clauses]
  simp [pieces, supported, indexPieces, namePieces, clauses, kind, allMeet_joined (show ", " ∈ vocabulary by decide)]

end

end Statement
end SchemaMigration
