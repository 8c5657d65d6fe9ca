import SchemaMigration.Proofs.Migration.Growth
import SchemaMigration.Proofs.Migration.Outcome
import SchemaMigration.Proofs.Migration.Skipped

namespace SchemaMigration

namespace Value

theorem IsText.textFaults_eq_nil {name : Value} (text : name.IsText) : name.textFaults = [] := by
  rcases text with ⟨s, rfl⟩
  rfl

theorem IsText.hashable {name : Value} (text : name.IsText) : name.hashable := by
  rcases text with ⟨s, rfl⟩
  rfl

theorem IsText.hashFaults_eq_nil {name : Value} (text : name.IsText) : Diff.hashFaults name = [] := by
  rcases text with ⟨s, rfl⟩
  rfl

theorem IsText.compare_ne_undefined {name : Value} (text : name.IsText) (v : Value) :
    v.compare name ≠ .undefined := by
  rcases text with ⟨s, rfl⟩
  cases v <;> simp [compare, compareNumbers, isNumber, numeric?, Comparison.ofBool]
  split <;> simp

theorem IsText.compare_ne_undefined_left {name : Value} (text : name.IsText) (v : Value) : name.compare v ≠ .undefined := by
  rcases text with ⟨s, rfl⟩
  cases v <;> simp [compare, compareNumbers, isNumber, numeric?, Comparison.ofBool]
  split <;> simp

end Value

theorem Comparison.searchFaults_eq_nil {α : Type} {compare : α → Comparison} {items : List α}
    (defined : ∀ a ∈ items, compare a ≠ .undefined) : searchFaults compare items = [] := by
  induction items with
  | nil => rfl
  | cons a rest ih =>
      rcases List.forall_mem_cons.mp defined with ⟨first, later⟩
      rw [searchFaults]
      cases answer : compare a with
      | equal => rfl
      | unequal => exact ih later
      | undefined => exact absurd answer first

theorem Index.writable_of_keyFaults {i : Index} (keyed : i.keyFaults = []) : i.Writable := by
  rcases List.append_eq_nil_iff.mp keyed with ⟨name, texts⟩
  refine ⟨name, ?_⟩
  intro column listed
  have all : i.columns.all isText := by
    by_contra mixed
    simp [mixed] at texts
  have text := List.all_eq_true.mp all column listed
  cases column <;> simp [isText] at text
  rfl

structure Plan.NamesWritable (p : Plan) : Prop where
  tables : ∀ t ∈ p.tables, t.name.textFaults = []
  columns : ∀ t ∈ p.tables, ∀ c ∈ t.columns, c.name.textFaults = []

theorem Plan.WellNamed.namesWritable {p : Plan} (named : p.WellNamed) : p.NamesWritable where
  tables t inPlan := (named.tableTexts t inPlan).textFaults_eq_nil
  columns t inPlan c inTable := (named.columnTexts t inPlan c inTable).textFaults_eq_nil

theorem Plan.WellNamed.columnFaults_eq_nil {p : Plan} (named : p.WellNamed) {t : Table} (inPlan : t ∈ p.tables)
    (name : Value) : t.columnFaults name = [] :=
  Comparison.searchFaults_eq_nil fun c inTable => (named.columnTexts t inPlan c inTable).compare_ne_undefined_left name

namespace Diff
open Migration

theorem hashFaults_eq_nil_iff (v : Value) : hashFaults v = [] ↔ v.hashable := by
  unfold hashFaults
  cases v.hashable <;> simp

variable {d : Dialect} {previous current : Plan}

theorem succeeds_addColumn (d : Dialect) (types : EnumTypes) {table : Value} (writable : table.textFaults = [])
    (c : Column) : (addColumn d types table c).Succeeds ↔ c.Writable := by
  have parts : (addColumn d types table c).Succeeds ↔ c.name.textFaults = [] ∧
      (Sql.definitionFaults d c = [] ∧ (foreignKey d table c).Succeeds) := by
    simpa [addColumn, EnumTypes.succeeds_declare, statement, Statement.faults, Statement.supported, writable]
      using fun name _ _ _ => name
  rw [parts, succeeds_column d c writable, and_iff_right_of_imp]
  exact Column.Writable.name

theorem succeeds_addColumns (d : Dialect) (types : EnumTypes) {table : Value} (text : table.IsText)
    (previous : List Column) {columns : List Column} (texts : ∀ c ∈ columns, c.name.IsText) :
    (addColumns d table previous types columns).Succeeds ↔
      ∀ c ∈ columns, hasColumn previous c.name = false → c.Writable := by
  induction columns generalizing types with
  | nil => simp [addColumns]
  | cons c rest ih =>
      have now := (texts c List.mem_cons_self).hashFaults_eq_nil
      have later := fun types => ih types fun other member => texts other (List.mem_cons_of_mem c member)
      cases had : hasColumn previous c.name with
      | true => simp [addColumns, now, later, had]
      | false => simp [addColumns, now, later, had, succeeds_addColumn d _ text.textFaults_eq_nil]

theorem succeeds_addIndex (d : Dialect) {table : Value} (text : table.IsText) (previous : List Index) (i : Index) :
    (addIndex d table previous i).Succeeds ↔ i.keyFaults = [] := by
  have writable := text.textFaults_eq_nil
  cases had : hasIndex previous i with
  | true => simp [addIndex, had]
  | false =>
      have create : i.keyFaults = [] → (statement d (.createIndex table i)).Succeeds := by
        intro keyed
        have index := Index.writable_of_keyFaults keyed
        simpa [statement, Statement.faults, Statement.supported, writable] using ⟨index.columns, index.name⟩
      have name : i.keyFaults = [] → i.name.textFaults = [] := fun keyed => (Index.writable_of_keyFaults keyed).name
      simpa [addIndex, had, writable] using fun keyed => ⟨name keyed, create keyed⟩

/-- What has to be written, and which keys have to be made, to alter a table. -/
@[mk_iff] structure Alterable (before t : Table) : Prop where
  columns : ∀ c ∈ t.columns, (∀ b ∈ before.columns, b.name ≠ c.name) → c.Writable
  formerKeys : ∀ i ∈ before.indexes, i.keyFaults = []
  keys : ∀ i ∈ t.indexes, i.keyFaults = []

theorem succeeds_alterTableFile (d : Dialect) (types : EnumTypes) {before t : Table} (text : t.name.IsText)
    (texts : ∀ c ∈ t.columns, c.name.IsText) :
    (alterTableFile d types before t).Succeeds ↔ (∀ b ∈ before.columns, b.name.hashable) ∧ Alterable before t := by
  have parts : (alterTableFile d types before t).Succeeds ↔
      (∀ b ∈ before.columns, b.name.hashable) ∧ (∀ i ∈ before.indexes, i.keyFaults = []) ∧
        (∀ c ∈ t.columns, hasColumn before.columns c.name = false → c.Writable) ∧
          ∀ i ∈ t.indexes, i.keyFaults = [] := by
    rw [← succeeds_addColumns d types text before.columns texts]
    simp [alterTableFile, succeeds_addIndex d text, text.textFaults_eq_nil, hashFaults_eq_nil_iff, and_assoc]
  have lacking : (∀ c ∈ t.columns, hasColumn before.columns c.name = false → c.Writable) ↔
      ∀ c ∈ t.columns, (∀ b ∈ before.columns, b.name ≠ c.name) → c.Writable := by
    apply forall₂_congr
    intro c inTable
    rw [← Bool.not_eq_true, hasColumn_iff (texts c inTable)]
    simp
  rw [parts, lacking, alterable_iff]
  exact and_congr_right' and_left_comm

theorem succeeds_alterTableFiles (d : Dialect) (types : EnumTypes) (previous : Plan) {tables : List Table}
    (texts : ∀ t ∈ tables, t.name.IsText ∧ ∀ c ∈ t.columns, c.name.IsText) :
    (alterTableFiles d previous types tables).Succeeds ↔
      ∀ t ∈ tables, ∀ before ∈ previous.table? t.name,
        (∀ b ∈ before.columns, b.name.hashable) ∧ Alterable before t := by
  induction tables generalizing types with
  | nil => simp [alterTableFiles]
  | cons t rest ih =>
      have later := fun types => ih types fun other member => texts other (List.mem_cons_of_mem t member)
      rcases texts t List.mem_cons_self with ⟨text, columns⟩
      cases found : previous.table? t.name with
      | none => simp [alterTableFiles, found, later]
      | some before =>
          have file : ∀ types, (alterTableFile d types before t).Succeeds ↔
              (∀ b ∈ before.columns, b.name.hashable) ∧ Alterable before t :=
            fun types => succeeds_alterTableFile d types text columns
          simp [alterTableFiles, found, later, file]

theorem succeeds_additions (writable : previous.NamesWritable) (now : current.WellNamed) :
    (additions previous current).Succeeds ↔
      (∀ t ∈ current.tables, isNew previous t → t.Writable) ∧
        ∀ t ∈ current.tables, ∀ before ∈ previous.table? t.name,
          (∀ b ∈ before.columns, b.name.hashable) ∧ Alterable before t := by
  have known : (knownTypes previous).Succeeds := by
    have named : ∀ c ∈ enumColumns previous, c.name.textFaults = [] := by
      intro c enum
      rcases List.mem_flatMap.mp enum with ⟨t, inPrevious, inTable⟩
      exact writable.columns t inPrevious c (List.mem_filter.mp inTable).1
    simpa [knownTypes] using named
  have searched : (newTables previous current).Succeeds := by
    have found : ∀ t ∈ current.tables, previous.tableFaults t.name = [] := fun t inPlan =>
      Comparison.searchFaults_eq_nil fun before _ => (now.tableTexts t inPlan).compare_ne_undefined before.name
    simpa [newTables] using found
  have told : ∀ t ∈ current.tables, isNew previous t → (tellNewTable t).Succeeds := by
    intro t inPlan _
    simp [tellNewTable, (now.tableTexts t inPlan).textFaults_eq_nil]
  have texts : ∀ t ∈ current.tables, t.name.IsText ∧ ∀ c ∈ t.columns, c.name.IsText :=
    fun t inPlan => ⟨now.tableTexts t inPlan, now.columnTexts t inPlan⟩
  have altered := fun types => succeeds_alterTableFiles current.dialect types previous texts
  have tables : (newTables previous current).value = current.tables.filter (isNew previous) := rfl
  simpa [additions, known, searched, tables, altered, succeeds_tableFiles] using fun _ _ => told

theorem succeeds_droppedIndex (d : Dialect) {table : Value} (writable : table.textFaults = []) (current : List Index)
    (i : Index) : (droppedIndex d table current i).Succeeds ↔ i.keyFaults = [] := by
  have name : i.keyFaults = [] → i.name.textFaults = [] := fun keyed => (Index.writable_of_keyFaults keyed).name
  cases had : hasIndex current i with
  | true => simp [droppedIndex, had]
  | false =>
      simpa [droppedIndex, had, skip, statement, Statement.faults, Statement.supported, writable] using name

/-- The definitions of a column that stays can be compared and, where they differ, written. -/
def Comparable (d : Dialect) (table : Value) (b c : Column) : Prop :=
  (b.compareDefinitions c).faults = [] ∧ (b.differs c → (Statement.modifyColumn table c).faults d = [])

theorem succeeds_changedColumn (d : Dialect) {table : Value} (writable : table.textFaults = []) {after : Table} {b : Column}
    (columnWritable : b.name.textFaults = []) (searched : after.columnFaults b.name = []) :
    (changedColumn d table after b).Succeeds ↔ ∀ c ∈ after.column? b.name, Comparable d table b c := by
  cases found : after.column? b.name with
  | none =>
      simp [changedColumn, searched, found, skip, statement, Statement.faults, Statement.supported, writable,
        columnWritable]
  | some c => cases differs : b.differs c <;> simp [changedColumn, searched, found, differs, skip, statement, Comparable]

theorem mem_of_lastTable? {name : Value} {t : Table} (found : lastTable? current name = some t) : t ∈ current.tables :=
  List.mem_reverse.mp (List.mem_of_find?_eq_some found)

theorem succeeds_changedTable (writable : previous.NamesWritable) (now : current.WellNamed) {t : Table}
    (inPrevious : t ∈ previous.tables) :
    (changedTable current t).Succeeds ↔ t.name.hashable ∧ ∀ after ∈ lastTable? current t.name,
      (∀ i ∈ after.indexes, i.keyFaults = []) ∧ (∀ i ∈ t.indexes, i.keyFaults = []) ∧
        ∀ b ∈ t.columns, ∀ c ∈ after.column? b.name, Comparable current.dialect t.name b c := by
  have named := writable.tables t inPrevious
  cases found : lastTable? current t.name with
  | none =>
      simp [changedTable, found, hashFaults_eq_nil_iff, skip, statement, Statement.faults, Statement.supported, named]
  | some after =>
      have columns : (∀ b ∈ t.columns, (changedColumn current.dialect t.name after b).Succeeds) ↔
          ∀ b ∈ t.columns, ∀ c ∈ after.column? b.name, Comparable current.dialect t.name b c := by
        apply forall₂_congr
        intro b inTable
        have searched := now.columnFaults_eq_nil (mem_of_lastTable? found) b.name
        exact succeeds_changedColumn current.dialect named (writable.columns t inPrevious b inTable) searched
      simp [changedTable, found, hashFaults_eq_nil_iff, succeeds_droppedIndex current.dialect named, columns]

theorem describeFaults_of_changedTable (writable : previous.NamesWritable) (now : current.WellNamed) {t : Table}
    (inPrevious : t ∈ previous.tables) (done : (changedTable current t).Succeeds) :
    ∀ s ∈ (changedTable current t).value, describeFaults s = [] := by
  have tableNamed := writable.tables t inPrevious
  have described : ∀ (kind : ChangeKind) (name : Value) (s : Statement), name.textFaults = [] →
      describeFaults ⟨kind, t.name, some name, s⟩ = [] := by
    intro kind name s named
    simp [describeFaults, tableNamed, named]
  rw [succeeds_changedTable writable now inPrevious] at done
  rw [changedTable_value]
  intro s member
  cases found : lastTable? current t.name with
  | none =>
      rw [found] at member
      rcases List.mem_singleton.mp member with rfl
      simp [describeFaults, tableNamed]
  | some after =>
      rw [found] at member
      rcases List.mem_append.mp member with index | column
      · rcases List.mem_flatMap.mp index with ⟨i, inTable, dropped⟩
        rw [droppedIndex_value] at dropped
        split at dropped
        · cases dropped
        · rcases List.mem_singleton.mp dropped with rfl
          exact described _ _ _ (Index.writable_of_keyFaults ((done.2 after found).2.1 i inTable)).name
      · rcases List.mem_flatMap.mp column with ⟨b, inTable, changed⟩
        have named := writable.columns t inPrevious b inTable
        rw [changedColumn_value] at changed
        split at changed
        · rcases List.mem_singleton.mp changed with rfl
          exact described _ _ _ named
        · split at changed
          · rcases List.mem_singleton.mp changed with rfl
            exact described _ _ _ named
          · cases changed

/-- What a migration between two plans has to write and to compare. -/
structure Feasible (previous current : Plan) : Prop where
  newTables : ∀ t ∈ current.tables, (∀ before ∈ previous.tables, before.name ≠ t.name) → t.Writable
  tables : previous.Staying current Alterable
  columns : previous.Staying current fun before t =>
    ∀ b ∈ before.columns, ∀ c ∈ t.columns, c.name = b.name → Comparable current.dialect before.name b c

theorem forall_table?_iff (past : previous.WellNamed) (now : current.WellNamed) (holds : Table → Table → Prop) :
    (∀ t ∈ current.tables, ∀ before ∈ previous.table? t.name, holds before t) ↔ previous.Staying current holds := by
  constructor
  · intro given before inPrevious t inPlan same
    exact given t inPlan before ((past.table?_eq_some_iff (now.tableTexts t inPlan) before).mpr ⟨inPrevious, same.symm⟩)
  · intro given t inPlan before found
    rcases (past.table?_eq_some_iff (now.tableTexts t inPlan) before).mp found with ⟨inPrevious, same⟩
    exact given before inPrevious t inPlan same.symm

theorem forall_lastTable?_iff (now : current.WellNamed) (holds : Table → Table → Prop) :
    (∀ before ∈ previous.tables, ∀ t ∈ lastTable? current before.name, holds before t) ↔
      previous.Staying current holds := by
  apply forall₂_congr
  intro before inPrevious
  simp only [Option.mem_def, now.lastTable?_eq_some_iff, and_imp]

theorem succeeds_skippedFrom (previous : Plan) (now : current.WellNamed) :
    (skippedFrom previous current).Succeeds ↔
      ∀ before ∈ previous.tables, (changedTable current before).Succeeds := by
  have hashed : ∀ t ∈ current.tables, hashFaults t.name = [] :=
    fun t inPlan => (now.tableTexts t inPlan).hashFaults_eq_nil
  simpa [skippedFrom] using fun _ => hashed

theorem succeeds_skippedFrom_iff (past : previous.WellNamed) (now : current.WellNamed) :
    (skippedFrom previous current).Succeeds ↔ previous.Staying current fun before t =>
      (∀ i ∈ t.indexes, i.keyFaults = []) ∧ (∀ i ∈ before.indexes, i.keyFaults = []) ∧
        ∀ b ∈ before.columns, ∀ c ∈ t.columns, c.name = b.name → Comparable current.dialect before.name b c := by
  rw [succeeds_skippedFrom previous now, ← forall_lastTable?_iff now]
  apply forall₂_congr
  intro before inPrevious
  have text := past.tableTexts before inPrevious
  have texts := past.columnTexts before inPrevious
  rw [succeeds_changedTable past.namesWritable now inPrevious, and_iff_right text.hashable]
  apply forall₂_congr
  intro t found
  have inPlan := mem_of_lastTable? found
  apply and_congr_right'
  apply and_congr_right'
  apply forall₂_congr
  intro b inTable
  simp only [Option.mem_def, now.column?_eq_some_iff inPlan, and_imp]

theorem Feasible.skipped_succeeds (past : previous.Regular d) (now : current.Regular d)
    (feasible : Feasible previous current) : (skipped (some previous) current).Succeeds := by
  rw [skipped_some (past.dialect.trans now.dialect.symm),
    succeeds_skippedFrom_iff past.toWellNamed now.toWellNamed]
  intro before inPrevious t inPlan same
  have keyed := feasible.tables before inPrevious t inPlan same
  exact ⟨keyed.keys, keyed.formerKeys, feasible.columns before inPrevious t inPlan same⟩

theorem succeeds_statements (writable : previous.NamesWritable) (now : current.WellNamed)
    (same : previous.dialect = current.dialect) :
    (statements (some previous) current).Succeeds ↔
      (additions previous current).Succeeds ∧ (skippedFrom previous current).Succeeds := by
  have incremental : isFullRebuild (some previous) current = false := by simp [isFullRebuild, same]
  have parts : (statements (some previous) current).Succeeds ↔
      (additions previous current).Succeeds ∧ (skippedFrom previous current).Succeeds ∧
        ∀ s ∈ (skippedFrom previous current).value, describeFaults s = [] := by
    simp [statements, files, incremental, skipped, tellSkipped]
  have described : (skippedFrom previous current).Succeeds →
      ∀ s ∈ (skippedFrom previous current).value, describeFaults s = [] := by
    intro done s member
    rw [skippedFrom_value] at member
    rcases List.mem_flatMap.mp member with ⟨before, inPrevious, changed⟩
    have succeeded := (succeeds_skippedFrom previous now).mp done before inPrevious
    exact describeFaults_of_changedTable writable now inPrevious succeeded s changed
  rw [parts, and_iff_left_of_imp described]

theorem succeeds_statements_iff (past : previous.Regular d) (now : current.Regular d) :
    (statements (some previous) current).Succeeds ↔ Feasible previous current := by
  have new : (∀ t ∈ current.tables, isNew previous t → t.Writable) ↔
      ∀ t ∈ current.tables, (∀ before ∈ previous.tables, before.name ≠ t.name) → t.Writable :=
    forall₂_congr fun t inPlan => by rw [isNew_iff (now.tableTexts t inPlan)]
  have hashed : ∀ t ∈ current.tables, ∀ before ∈ previous.table? t.name, ∀ b ∈ before.columns, b.name.hashable := by
    intro t inPlan before found b inBefore
    have inPrevious := ((past.table?_eq_some_iff (now.tableTexts t inPlan) before).mp found).1
    exact (past.columnTexts before inPrevious b inBefore).hashable
  have altered : (∀ t ∈ current.tables, ∀ before ∈ previous.table? t.name,
      (∀ b ∈ before.columns, b.name.hashable) ∧ Alterable before t) ↔
        ∀ t ∈ current.tables, ∀ before ∈ previous.table? t.name, Alterable before t :=
    forall₂_congr fun t inPlan => forall₂_congr fun before found => and_iff_right (hashed t inPlan before found)
  rw [succeeds_statements past.namesWritable now.toWellNamed (past.dialect.trans now.dialect.symm),
    succeeds_additions past.namesWritable now.toWellNamed, new, altered,
    forall_table?_iff past.toWellNamed now.toWellNamed, succeeds_skippedFrom_iff past.toWellNamed now.toWellNamed]
  constructor
  · intro given
    rcases given with ⟨⟨tables, alterable⟩, compared⟩
    exact ⟨tables, alterable, fun before inPrevious t inPlan same => (compared before inPrevious t inPlan same).2.2⟩
  · intro feasible
    refine ⟨⟨feasible.newTables, feasible.tables⟩, ?_⟩
    rw [← succeeds_skippedFrom_iff past.toWellNamed now.toWellNamed, ← skipped_some (past.dialect.trans now.dialect.symm)]
    exact feasible.skipped_succeeds past now

theorem succeeds_script_iff (past : previous.Regular d) (now : current.Regular d) :
    (script (some previous) current).Succeeds ↔ Feasible previous current := by
  rw [← succeeds_statements_iff past now]
  simp [script]

end Diff
end SchemaMigration
