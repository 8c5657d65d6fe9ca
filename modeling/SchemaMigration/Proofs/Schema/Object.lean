import SchemaMigration.Sql.Statement
/-!
What statements do to a database, object by object. A statement creates objects and uses objects;
`Supplied` says that statements run in their order and each of them finds what it uses.
-/
namespace SchemaMigration

/-- How a column is defined, apart from its name and its reference. -/
structure ColumnShape where
  sqlType : String
  isKey : Bool
  counting : Option String
  notNull : Option String
  default : Option String
  deriving DecidableEq

namespace ColumnShape
open Sql

def ofNew (d : Dialect) (c : Column) : ColumnShape :=
  ⟨if c.isPrimaryKey then keyType d c else columnType d c, c.isPrimaryKey, countingClause? d c,
    notNull? c, defaultClause? d c⟩

def ofAdded (d : Dialect) (c : Column) : ColumnShape :=
  ⟨columnType d c, false, none, notNull? c, defaultClause? d c⟩

def text (name : String) (shape : ColumnShape) (reference : Option String) : String :=
  spaced (name :: shape.sqlType ::
    (if shape.isKey then "PRIMARY KEY" :: shape.counting.toList else []) ++
    (shape.notNull.toList ++ shape.default.toList ++ reference.toList))

theorem definition_eq_text (d : Dialect) (c : Column) :
    definition d c = text (quoted d c.name) (ofNew d c) (inlineReference? d c) := rfl

theorem addedDefinition_eq_text (d : Dialect) (c : Column) :
    addedDefinition d c = text (quoted d c.name) (ofAdded d c) (inlineReference? d c) := rfl

theorem ofAdded_eq_ofNew (d : Dialect) (c : Column) (ordinary : c.isPrimaryKey = false) :
    ofAdded d c = ofNew d c := by
  simp [ofAdded, ofNew, countingClause?, ordinary]

theorem isKey_of_ofAdded_eq_ofNew {d : Dialect} {added created : Column}
    (same : ofAdded d added = ofNew d created) : created.isPrimaryKey = false := by
  have key := congrArg ColumnShape.isKey same
  simpa [ofAdded, ofNew] using key.symm

end ColumnShape

inductive SchemaObject where
  | table (name : Value)
  | column (table name : Value)
  | definition (table column : Value) (shape : ColumnShape)
  | foreignKey (table column : Value) (target : Reference)
  | index (table : Value) (index : Index)
  | enumType (name : String)
  deriving DecidableEq

namespace SchemaObject

def isPlace : SchemaObject → Bool
  | .table _ | .column .. => true
  | _ => false

/-- Places and enum types are there or not by their names alone. -/
def isNamed : SchemaObject → Bool
  | .enumType _ => true
  | object => object.isPlace

end SchemaObject

namespace Column

def keyObjects (table : Value) (c : Column) : List SchemaObject :=
  match c.references with
  | some target => [.foreignKey table c.name target]
  | none => []

/-- The foreign key that a column definition carries along. -/
def inlineKeys (d : Dialect) (table : Value) (c : Column) : List SchemaObject :=
  if d = .sqlite then c.keyObjects table else []

def typeUsed (d : Dialect) (c : Column) : List SchemaObject :=
  if d = .postgres ∧ c.isEnum then [.enumType (Sql.enumTypeName c)] else []

end Column

namespace Statement

def creates (d : Dialect) : Statement → List SchemaObject
  | .createType name _ => [.enumType name]
  | .createTable table columns => .table table :: columns.flatMap fun c =>
      .column table c.name :: .definition table c.name (.ofNew d c) :: c.inlineKeys d table
  | .addColumn table c =>
      .column table c.name :: .definition table c.name (.ofAdded d c) :: c.inlineKeys d table
  | .addForeignKey table column target => [.foreignKey table column target]
  | .createIndex table index => [.index table index]
  | _ => []

def typesUsed (d : Dialect) : Statement → List SchemaObject
  | .createTable _ columns => columns.flatMap (·.typeUsed d)
  | .addColumn _ c => c.typeUsed d
  | _ => []

/--
The tables and columns that a statement of a migration names. A reference inside a column definition
may point ahead.
-/
def placesUsed : Statement → List SchemaObject
  | .addColumn table _ => [.table table]
  | .addForeignKey table column target =>
      [.table table, .column table column, .table target.table, .column target.table target.column]
  | .createIndex table index => .table table :: index.columns.map (.column table)
  | _ => []

def uses (d : Dialect) (s : Statement) : List SchemaObject := s.typesUsed d ++ s.placesUsed

end Statement

def created (d : Dialect) (statements : List Statement) : List SchemaObject :=
  statements.flatMap (Statement.creates d)

/-- Every statement finds what it uses, held from the start or created by an earlier one. -/
def Supplied (d : Dialect) (needs : Statement → List SchemaObject) :
    List SchemaObject → List Statement → Prop
  | _, [] => True
  | held, s :: rest => (∀ object ∈ needs s, object ∈ held) ∧ Supplied d needs (held ++ s.creates d) rest

instance decidableSupplied (d : Dialect) (needs : Statement → List SchemaObject) :
    ∀ held statements, Decidable (Supplied d needs held statements)
  | _, [] => isTrue trivial
  | held, s :: rest =>
    @instDecidableAnd _ _ inferInstance (decidableSupplied d needs (held ++ s.creates d) rest)

/-- Some statement creates an object that an earlier one has created. -/
def CreatedAgain (d : Dialect) (object : SchemaObject) (statements : List Statement) : Prop :=
  ∃ before s after, statements = before ++ s :: after ∧ object ∈ s.creates d ∧ object ∈ created d before

section
variable (d : Dialect) (needs : Statement → List SchemaObject)

@[simp] theorem created_nil : created d [] = [] := rfl

@[simp] theorem created_cons (s : Statement) (rest : List Statement) :
    created d (s :: rest) = s.creates d ++ created d rest := rfl

@[simp] theorem created_append (first second : List Statement) :
    created d (first ++ second) = created d first ++ created d second :=
  List.flatMap_append

theorem supplied_append (held : List SchemaObject) (first second : List Statement) :
    Supplied d needs held (first ++ second) ↔
      Supplied d needs held first ∧ Supplied d needs (held ++ created d first) second := by
  induction first generalizing held with
  | nil => simp [Supplied]
  | cons s rest ih => simp only [List.cons_append, Supplied, ih, created_cons, List.append_assoc, and_assoc]

theorem supplied_of_needless {statements : List Statement} (held : List SchemaObject)
    (needless : ∀ s ∈ statements, needs s = []) : Supplied d needs held statements := by
  induction statements generalizing held with
  | nil => trivial
  | cons s rest ih =>
      refine ⟨by simp [needless s List.mem_cons_self], ih _ ?_⟩
      intro later member
      exact needless later (List.mem_cons_of_mem s member)

theorem supplied_both (more : Statement → List SchemaObject) (held : List SchemaObject)
    (statements : List Statement) :
    Supplied d (fun s => needs s ++ more s) held statements ↔
      Supplied d needs held statements ∧ Supplied d more held statements := by
  induction statements generalizing held with
  | nil => simp [Supplied]
  | cons s rest ih =>
      simp only [Supplied, ih, List.mem_append]
      constructor
      · intro given
        rcases given with ⟨now, first, second⟩
        exact ⟨⟨fun object needed => now object (.inl needed), first⟩,
          fun object needed => now object (.inr needed), second⟩
      · intro given
        rcases given with ⟨⟨now, first⟩, later, second⟩
        exact ⟨fun object needed => needed.elim (now object) (later object), first, second⟩

end

theorem not_createdAgain_of_count_le_one {d : Dialect} {statements : List Statement} {object : SchemaObject}
    (once : (created d statements).count object ≤ 1) : ¬ CreatedAgain d object statements := by
  intro given
  rcases given with ⟨before, s, after, rfl, now, earlier⟩
  have first := List.count_pos_iff.mpr earlier
  have second := List.count_pos_iff.mpr now
  simp only [created_append, created_cons, List.count_append] at once
  omega

theorem createdAgain_append (d : Dialect) (object : SchemaObject) (first second : List Statement) :
    CreatedAgain d object (first ++ second) ↔
      CreatedAgain d object first ∨ CreatedAgain d object second ∨
        object ∈ created d first ∧ object ∈ created d second := by
  constructor
  · intro given
    rcases given with ⟨before, s, after, split, now, earlier⟩
    rcases List.append_eq_append_iff.mp split with ⟨between, rfl, rfl⟩ | ⟨between, rfl, rest⟩
    · rw [created_append, List.mem_append] at earlier
      rcases earlier with inFirst | inSecond
      · exact .inr (.inr ⟨inFirst, by simp [now]⟩)
      · exact .inr (.inl ⟨between, s, after, rfl, now, inSecond⟩)
    · cases between with
      | nil =>
          obtain rfl : s :: after = second := rest
          exact .inr (.inr ⟨by simpa using earlier, by simp [now]⟩)
      | cons head between =>
          obtain ⟨rfl, rfl⟩ : s = head ∧ after = between ++ second := List.cons.inj rest
          exact .inl ⟨before, s, between, rfl, now, earlier⟩
  · intro given
    rcases given with ⟨before, s, after, rfl, now, earlier⟩ | ⟨before, s, after, rfl, now, earlier⟩ |
      ⟨earlier, later⟩
    · exact ⟨before, s, after ++ second, by simp, now, earlier⟩
    · exact ⟨first ++ before, s, after, by simp, now, by simp [earlier]⟩
    · rcases List.mem_flatMap.mp later with ⟨s, inSecond, now⟩
      rcases List.append_of_mem inSecond with ⟨before, after, rfl⟩
      exact ⟨first ++ before, s, after, by simp, now, by simp [earlier]⟩

end SchemaMigration
