import SchemaMigration.Proofs.Migration.Mirror
import SchemaMigration.Proofs.Plan.Growth
import SchemaMigration.Proofs.Snapshot.UpToDate
/-!
What is left of an alteration that a migration skips. A column that is still there never gets another definition, but the
index that keeps the values of a column apart is created like any other: a column that only became unique is reported as
unaltered although nothing is left to do. So is one whose default is not a number, which does not equal itself.
-/
namespace SchemaMigration

namespace Column

/-- Columns that are defined in the same way, whether or not their values are kept apart. -/
@[mk_iff] structure SameButUnique (b c : Column) : Prop where
  type : b.type = c.type
  isNullable : b.isNullable = c.isNullable
  hasDefault : b.hasDefault = c.hasDefault
  default : b.defaultValue = c.defaultValue
  enumMembers : b.enumMembers.Perm c.enumMembers

instance (b c : Column) : Decidable (b.SameButUnique c) := decidable_of_iff' _ (sameButUnique_iff b c)

/-- The values of a column are kept apart from now on, by an index. -/
def BecomesUnique (b c : Column) : Prop := b.isUnique = false ∧ c.isUnique = true ∧ c.isPrimaryKey = false

instance (b c : Column) : Decidable (b.BecomesUnique c) := inferInstanceAs (Decidable (_ ∧ _))

theorem SameButUnique.differs_iff {b c : Column} (same : b.SameButUnique c) (unique : b.isUnique = c.isUnique)
    (typed : c.Typed) : b.differs c = true ↔ c.defaultValue = .float .nan := by
  have stored : b.storedDefault = c.storedDefault := by rw [storedDefault, same.default, ← storedDefault]
  have alike : b.Alike c ↔ c.Alike c := by
    rw [alike_iff, alike_iff, stored]
    simp [same.type, same.isNullable, same.hasDefault, same.enumMembers, unique]
  rw [← typed.differs_self_iff, ← Bool.not_eq_false, ← Bool.not_eq_false, differs_eq_false_iff, differs_eq_false_iff,
    alike]

end Column

namespace Plan
variable {d : Dialect} {p : Plan}

/-- A built table has the index that keeps the values of a column apart exactly if the column is unique and not the key. -/
theorem Built.uniqueIndex_key_iff (built : p.Built d) {t : Table} (inPlan : t ∈ p.tables) {b c : Column}
    (inTable : b ∈ t.columns) (named : b.name = c.name) :
    (∃ i ∈ t.indexes, i.key = (uniqueIndex c).key) ↔ b.isUnique = true ∧ b.isPrimaryKey = false := by
  have regular := built.regular
  rcases built with ⟨models, accepted, done⟩
  rcases build_eq_ok_iff.mp done with ⟨-, rfl⟩
  rcases regular.columnTexts t inPlan b inTable with ⟨name, text⟩
  constructor
  · rintro ⟨i, listed, same⟩
    rcases List.mem_map.mp inPlan with ⟨entry, -, rfl⟩
    rcases (mem_indexes_buildTable ..).mp listed with ⟨declared, -, rfl⟩ | ⟨other, alsoInTable, unique, rfl⟩
    · cases kind_eq_of_key_eq same
    · rcases (mem_buildColumns ..).mp alsoInTable with ⟨a, -, rfl⟩
      have sameName := name_eq_of_uniqueIndex_key rfl (named.symm.trans text) same
      rw [regular.column_eq inPlan inTable alsoInTable (text.trans (congrArg Value.str sameName.symm))]
      simpa using unique
  · intro unique
    rcases List.mem_map.mp inPlan with ⟨entry, -, rfl⟩
    refine ⟨uniqueIndex b, (mem_indexes_buildTable ..).mpr (.inr ⟨b, inTable, by simpa using unique, rfl⟩), ?_⟩
    rw [uniqueIndex, uniqueIndex, named]

theorem Built.uniqueIndex_mem_iff (built : p.Built d) {t : Table} (inPlan : t ∈ p.tables) {c : Column}
    (inTable : c ∈ t.columns) : uniqueIndex c ∈ t.indexes ↔ c.isUnique = true ∧ c.isPrimaryKey = false := by
  constructor
  · intro listed
    exact (built.uniqueIndex_key_iff inPlan inTable rfl).mp ⟨_, listed, rfl⟩
  · intro unique
    rcases built with ⟨models, -, done⟩
    rcases build_eq_ok_iff.mp done with ⟨-, rfl⟩
    rcases List.mem_map.mp inPlan with ⟨entry, -, rfl⟩
    exact (mem_indexes_buildTable ..).mpr (.inr ⟨c, inTable, by simpa using unique, rfl⟩)

end Plan

namespace Diff
open Migration
variable {d : Dialect} {p q : Plan}

section
variable (past : p.Built d) (now : q.Built d) {before t : Table} (inPast : before ∈ p.tables) (inPlan : t ∈ q.tables)
  (same : before.name = t.name) {b c : Column} (inBefore : b ∈ before.columns) (inTable : c ∈ t.columns)
  (kept : b.name = c.name)
include past now inPast inPlan same inBefore inTable kept

theorem uniqueIndex_created_iff :
    .index t.name (Plan.uniqueIndex c) ∈ created d (statements (some p) q).value ↔
      (c.isUnique = true ∧ c.isPrimaryKey = false) ∧ ¬ (b.isUnique = true ∧ b.isPrimaryKey = false) := by
  have missing : Plan.uniqueIndex c ∈ missingIndexes p t ↔
      (c.isUnique = true ∧ c.isPrimaryKey = false) ∧ ¬ (b.isUnique = true ∧ b.isPrimaryKey = false) := by
    rw [missingIndexes, List.mem_filter, now.uniqueIndex_mem_iff inPlan inTable, decide_eq_true_iff,
      past.regular.forall_namesake_iff inPast same, ← past.uniqueIndex_key_iff inPast inBefore kept]
    simp
  rw [index_mem_created past.regular.dialect now.regular.dialect, ← missing]
  constructor
  · rintro ⟨u, alsoInPlan, named, isCreated⟩
    rw [now.regular.table_eq alsoInPlan inPlan named.symm] at isCreated
    rwa [← createdIndexes_eq_missingIndexes past.regular.toWellNamed (now.regular.tableTexts t inPlan)]
  · intro isMissing
    rw [← createdIndexes_eq_missingIndexes past.regular.toWellNamed (now.regular.tableTexts t inPlan)] at isMissing
    exact ⟨t, inPlan, rfl, isMissing⟩

omit inTable in
theorem not_redefined (shape : ColumnShape) :
    .definition t.name c.name shape ∉ created d (statements (some p) q).value := by
  rw [definition_mem_created past.regular.dialect now.regular.dialect]
  rintro ⟨u, alsoInPlan, named, a, isCreated, sameName, -⟩
  rw [now.regular.table_eq alsoInPlan inPlan named.symm] at isCreated
  have new := ((mem_createdIn past.regular.toWellNamed now.regular.toWellNamed inPlan a).mp isCreated).2
  exact new ((p.column_mem_inventory ..).mpr ⟨before, inPast, same, b, inBefore, by rw [← sameName, kept]⟩)

end

/--
A migration leaves unapplied in what two definitions of a column differ: anything but uniqueness, and uniqueness where it
does not create the index that keeps the values apart.
-/
def LeavesUnapplied (previous current : Plan) (t : Table) (b c : Column) : Prop :=
  ¬ b.SameButUnique c ∨
    b.isUnique ≠ c.isUnique ∧
      .index t.name (Plan.uniqueIndex c) ∉ created current.dialect (statements (some previous) current).value

/--
Every alteration that is reported as skipped is that of a column which both plans have and which does not get another
definition. Something of it is left unapplied, except where nothing but uniqueness changes and the migration creates the
index for it, or where nothing changes at all and the default is not a number.
-/
theorem reported_unapplied_iff (past : p.Built d) (now : q.Built d) {table column : Value}
    (alters : Alters p q table column) :
    ∃ before ∈ p.tables, ∃ t ∈ q.tables, ∃ b ∈ before.columns, ∃ c ∈ t.columns,
      (before.name = table ∧ t.name = table ∧ b.name = column ∧ c.name = column) ∧
      (∀ shape, .definition table column shape ∉ created d (statements (some p) q).value) ∧
      (LeavesUnapplied p q t b c ↔
        ¬ (b.SameButUnique c ∧ (b.BecomesUnique c ∨ b.isUnique = c.isUnique ∧ c.defaultValue = .float .nan))) := by
  rcases (alters_iff past.regular now.regular table column).mp alters with
    ⟨before, inPast, t, inPlan, rfl, same, b, inBefore, c, inTable, rfl, kept, differs⟩
  refine ⟨before, inPast, t, inPlan, b, inBefore, c, inTable, ⟨rfl, same, rfl, kept⟩, ?_, ?_⟩
  · intro shape
    rw [← same, ← kept]
    exact not_redefined past now inPast inPlan same.symm inBefore kept.symm shape
  · have typed := (now.typed.tables t inPlan).columns c inTable
    rw [LeavesUnapplied, now.regular.dialect,
      uniqueIndex_created_iff past now inPast inPlan same.symm inBefore inTable kept.symm]
    by_cases alike : b.SameButUnique c
    · by_cases unique : b.isUnique = c.isUnique
      -- Nothing changes, and yet the definitions do not compare as equal.
      · have undefined := (alike.differs_iff unique typed).mp differs
        simp [alike, unique, undefined]
      · have becomes : (c.isUnique = true ∧ c.isPrimaryKey = false) ∧ ¬ (b.isUnique = true ∧ b.isPrimaryKey = false) ↔
            b.BecomesUnique c := by
          unfold Column.BecomesUnique
          cases former : b.isUnique <;> cases later : c.isUnique <;> simp [former, later] at unique ⊢
        rw [becomes]
        simp [alike, unique]
    · simp [alike]

def addressedUsers : ModelSet := [("User", { name := "User", attributes := [("id", {}), ("email", {})] })]

def distinctUsers : ModelSet :=
  [("User", { name := "User", attributes := [("id", {}), ("email", { unique := true })] })]

def longNamedUsers : ModelSet :=
  [("User", { name := "User", attributes := [("id", {}), ("email", { unique := true, type := some .text })] })]

/-- The index is created, but the addresses stay short. -/
theorem email_type_unapplied :
    Alters (Plan.postgresOf addressedUsers) (Plan.postgresOf longNamedUsers) (.str "users") (.str "email") ∧
      ∃ t ∈ (Plan.postgresOf longNamedUsers).tables, ∃ b c, b.name = .str "email" ∧ c.name = .str "email" ∧
        b.BecomesUnique c ∧ LeavesUnapplied (Plan.postgresOf addressedUsers) (Plan.postgresOf longNamedUsers) t b c := by
  have past : (Plan.postgresOf addressedUsers).Built .postgres := Plan.postgresOf_built (by decide) (by decide)
  have now : (Plan.postgresOf longNamedUsers).Built .postgres := Plan.postgresOf_built (by decide) (by decide)
  have alters : Alters (Plan.postgresOf addressedUsers) (Plan.postgresOf longNamedUsers) (.str "users") (.str "email") :=
    (alters_iff past.regular now.regular _ _).mpr (by decide +kernel)
  have retyped : ∀ before ∈ (Plan.postgresOf addressedUsers).tables, ∀ t ∈ (Plan.postgresOf longNamedUsers).tables,
      ∀ b ∈ before.columns, ∀ c ∈ t.columns, b.name = .str "email" → c.name = .str "email" →
        b.BecomesUnique c ∧ ¬ b.SameButUnique c := by
    decide +kernel
  rcases reported_unapplied_iff past now alters with
    ⟨before, inPast, t, inPlan, b, inBefore, c, inTable, ⟨-, -, named, alsoNamed⟩, -, left⟩
  rcases retyped before inPast t inPlan b inBefore c inTable named alsoNamed with ⟨becomes, different⟩
  exact ⟨alters, t, inPlan, b, c, named, alsoNamed, becomes, left.mpr fun same => different same.1⟩

/-- That addresses are told apart is applied and reported as skipped. -/
theorem unique_email_applied_and_reported :
    ¬ ∀ (d : Dialect) (p q : Plan) (table column : Value), p.Built d → q.Built d → Alters p q table column →
      ∃ before ∈ p.tables, ∃ t ∈ q.tables, ∃ b ∈ before.columns, ∃ c ∈ t.columns,
        (before.name = table ∧ t.name = table ∧ b.name = column ∧ c.name = column) ∧ LeavesUnapplied p q t b c := by
  intro claimed
  have past : (Plan.postgresOf addressedUsers).Built .postgres := Plan.postgresOf_built (by decide) (by decide)
  have now : (Plan.postgresOf distinctUsers).Built .postgres := Plan.postgresOf_built (by decide) (by decide)
  have alters : Alters (Plan.postgresOf addressedUsers) (Plan.postgresOf distinctUsers) (.str "users") (.str "email") :=
    (alters_iff past.regular now.regular _ _).mpr (by decide +kernel)
  have applied : ∀ before ∈ (Plan.postgresOf addressedUsers).tables, ∀ t ∈ (Plan.postgresOf distinctUsers).tables,
      ∀ b ∈ before.columns, ∀ c ∈ t.columns, b.name = .str "email" → c.name = .str "email" →
        b.SameButUnique c ∧ .index t.name (Plan.uniqueIndex c) ∈
          created .postgres
            (statements (some (Plan.postgresOf addressedUsers)) (Plan.postgresOf distinctUsers)).value := by
    decide +kernel
  rcases claimed _ _ _ _ _ past now alters with
    ⟨before, inPast, t, inPlan, b, inBefore, c, inTable, ⟨-, -, named, alsoNamed⟩, left⟩
  rcases applied before inPast t inPlan b inBefore c inTable named alsoNamed with ⟨same, isCreated⟩
  rcases left with different | ⟨-, missing⟩
  · exact different same
  · exact missing isCreated

end Diff
end SchemaMigration
