import SchemaMigration.Proofs.Migration.Skipped
import SchemaMigration.Proofs.Plan.Built
import SchemaMigration.Proofs.Schema.Object
import SchemaMigration.Proofs.Sql.Redefinition
/-!
Whether the statement that comes with an alteration makes the column what it is to be. In one dialect it gives the whole
definition again; in another it gives the type and leaves nullability and default as they were.
-/
namespace SchemaMigration
open Sql

/--
What the statement that alters a column makes of it: a column of another type, or one that is defined anew and stays a
key if it was one, or nothing else.
-/
def ColumnShape.alteredTo (d : Dialect) (c : Column) (before : ColumnShape) : ColumnShape :=
  match d with
  | .postgres => { before with sqlType := columnType d c }
  | .mysql => { ofAdded d c with isKey := before.isKey }
  | .sqlite => before

section
variable {d : Dialect} {b c : Column} (alters : d ≠ .sqlite) (ordinary : b.isPrimaryKey = false)
  (ordinary' : c.isPrimaryKey = false)
include alters ordinary ordinary'

theorem ColumnShape.alteredTo_eq_iff : alteredTo d c (ofNew d b) = ofNew d c ↔
    d = .mysql ∨ b.isNullable = c.isNullable ∧ defaultClause? d b = defaultClause? d c := by
  rw [← notNull?_eq_iff ordinary ordinary']
  cases d with
  | postgres => simp [alteredTo, ofNew, countingClause?, ordinary, ordinary']
  | mysql => simp [alteredTo, ofNew, ofAdded, countingClause?, ordinary, ordinary']
  | sqlite => exact absurd rfl alters

theorem Statement.text_modifyColumn_eq_iff (table : Value) (name : b.name = c.name) :
    (Statement.modifyColumn table b).text d = (Statement.modifyColumn table c).text d ↔
      columnType d b = columnType d c ∧
        (d = .mysql → b.isNullable = c.isNullable ∧ defaultClause? d b = defaultClause? d c) := by
  cases d with
  | postgres =>
      have text : ∀ e, (Statement.modifyColumn table e).text .postgres = "ALTER TABLE " ++ quoted .postgres table ++
          " ALTER COLUMN " ++ quoted .postgres e.name ++ " TYPE " ++ columnType .postgres e ++ ";" := fun _ => rfl
      have other : Dialect.postgres ≠ .mysql := by decide
      rw [text, text, name, and_iff_left fun same => absurd same other]
      simp
  | mysql =>
      have text : ∀ e, (Statement.modifyColumn table e).text .mysql =
          "ALTER TABLE " ++ quoted .mysql table ++ " MODIFY COLUMN " ++ addedDefinition .mysql e ++ ";" := fun _ => rfl
      have around : (Statement.modifyColumn table b).text .mysql = (Statement.modifyColumn table c).text .mysql ↔
          addedDefinition .mysql b = addedDefinition .mysql c := by
        rw [text, text]
        simp
      rw [around, addedDefinition_eq_iff name ordinary ordinary', imp_iff_right rfl]
  | sqlite => exact absurd rfl alters

end

namespace Diff

/--
Where the dialect alters columns, the text of the statement tells ordinary columns of one name apart by type and, in one
dialect, also by nullability and default. An alteration that is skipped comes with the statement for the current column,
which makes an ordinary column what it is to be exactly in that dialect or if nullability and default have not changed.
-/
theorem alteration_complete_iff {d : Dialect} (alters : d ≠ .sqlite) :
    (∀ (table : Value) (b c : Column), b.name = c.name → b.isPrimaryKey = false → c.isPrimaryKey = false →
      ((Statement.modifyColumn table b).text d = (Statement.modifyColumn table c).text d ↔
        columnType d b = columnType d c ∧
          (d = .mysql → b.isNullable = c.isNullable ∧ defaultClause? d b = defaultClause? d c))) ∧
    ∀ previous current : Plan, previous.dialect = d → current.Regular d →
      ∀ s ∈ (skipped (some previous) current).value, s.kind = .alterColumn →
        ∃ before ∈ previous.tables, ∃ t ∈ current.tables, t.name = before.name ∧
          ∃ b ∈ before.columns, ∃ c ∈ t.columns, c.name = b.name ∧ s.statement = .modifyColumn before.name c ∧
            (b.isPrimaryKey = false → c.isPrimaryKey = false →
              (ColumnShape.alteredTo d c (.ofNew d b) = .ofNew d c ↔
                d = .mysql ∨ b.isNullable = c.isNullable ∧ defaultClause? d b = defaultClause? d c)) := by
  constructor
  · intro table b c name ordinary ordinary'
    exact Statement.text_modifyColumn_eq_iff alters ordinary ordinary' table name
  · intro previous current past now s member alteration
    rcases (alterColumn_mem_skipped_iff now.toWellNamed (past.trans now.dialect.symm) s).mp ⟨member, alteration⟩ with
      ⟨before, inPrevious, t, inPlan, table, b, inBefore, c, inTable, name, -, rfl⟩
    exact ⟨before, inPrevious, t, inPlan, table, b, inBefore, c, inTable, name, rfl,
      ColumnShape.alteredTo_eq_iff alters⟩

def usersAged (age : Attribute) : ModelSet := [("User", { name := "User", attributes := [("id", {}), ("age", age)] })]

def plainAge : Attribute := { type := some .integer }

def defaultAge : Attribute := { type := some .integer, default := .int 18, hasDefault := true }

def agesIn (d : Dialect) (age : Attribute) : Plan := Plan.buildWith (.ofModels (usersAged age)) (usersAged age) d

def ageColumn (age : Attribute) : Column := Inference.column "age" age false none

def ageAltered (age : Attribute) : SkippedChange :=
  ⟨.alterColumn, .str "users", some (.str "age"), .modifyColumn (.str "users") (ageColumn age)⟩

theorem ages_altered_completely : Dialect.mysql ≠ .sqlite ∧
    (Statement.modifyColumn (.str "users") (ageColumn plainAge)).text .mysql ≠
      (Statement.modifyColumn (.str "users") (ageColumn defaultAge)).text .mysql ∧
    ∃ s ∈ (skipped (some (agesIn .mysql plainAge)) (agesIn .mysql defaultAge)).value, s.kind = .alterColumn ∧
      ∃ b c, s.statement = .modifyColumn (.str "users") c ∧ b.name = .str "age" ∧ c.defaultValue = .int 18 ∧
        ColumnShape.alteredTo .mysql c (.ofNew .mysql b) = .ofNew .mysql c := by
  have alters : Dialect.mysql ≠ .sqlite := by decide
  rcases alteration_complete_iff alters with ⟨texts, skips⟩
  have apart := texts (.str "users") (ageColumn plainAge) (ageColumn defaultAge) (by decide) (by decide) (by decide)
  refine ⟨alters, fun same => absurd (apart.mp same).2 (by decide), ?_⟩
  have member : ageAltered defaultAge ∈ (skipped (some (agesIn .mysql plainAge)) (agesIn .mysql defaultAge)).value := by
    decide +kernel
  have now : (agesIn .mysql defaultAge).Regular .mysql := (Plan.built_buildWith _ (by decide) (by decide)).regular
  rcases skips (agesIn .mysql plainAge) _ rfl now _ member rfl with
    ⟨before, inPrevious, -, -, -, b, inBefore, c, -, name, statement, shape⟩
  have ordinary : ∀ before ∈ (agesIn .mysql plainAge).tables, ∀ b ∈ before.columns, b.name = .str "age" →
      b.isPrimaryKey = false := by decide
  obtain rfl := (Statement.modifyColumn.inj statement).2
  exact ⟨_, member, rfl, b, _, rfl, name.symm, rfl,
    (shape (ordinary before inPrevious b inBefore name.symm) rfl).mpr (.inl rfl)⟩

/-- In the other dialect the statement for a new default is that for the type that the column has already. -/
theorem default_left_out :
    (¬ ∀ (d : Dialect), d ≠ .sqlite → ∀ (table : Value) (b c : Column), b.name = c.name → b.isPrimaryKey = false →
      c.isPrimaryKey = false → (Statement.modifyColumn table b).text d = (Statement.modifyColumn table c).text d →
        columnType d b = columnType d c ∧ b.isNullable = c.isNullable ∧ defaultClause? d b = defaultClause? d c) ∧
    (skipped (some (agesIn .postgres plainAge)) (agesIn .postgres defaultAge)).value.map
        (fun s => (s.kind, s.statement.text .postgres)) =
      [(.alterColumn, "ALTER TABLE \"users\" ALTER COLUMN \"age\" TYPE integer;")] := by
  refine ⟨fun claimed => ?_, by decide +kernel⟩
  have same := claimed .postgres (by decide) (.str "users") (ageColumn plainAge) (ageColumn defaultAge) (by decide)
    (by decide) (by decide) (by decide)
  exact absurd same (by decide)

end Diff
end SchemaMigration
