import SchemaMigration.Proofs.Fingerprint.Canonical
import SchemaMigration.Proofs.Migration.Exactness
import SchemaMigration.Proofs.Plan.Typed
import SchemaMigration.Proofs.Reset.Undoing
import SchemaMigration.Proofs.Value.Symmetry

namespace SchemaMigration

namespace Column

theorem wellKeyed_storedDefault {c : Column} (keyed : c.defaultValue.WellKeyed) : c.storedDefault.WellKeyed := by
  unfold storedDefault
  split
  · exact Value.wellKeyed_str _
  · exact keyed

theorem Alike.symm {b c : Column} (keyed : b.defaultValue.WellKeyed) (keyed' : c.defaultValue.WellKeyed)
    (alike : b.Alike c) : c.Alike b where
  type := alike.type.symm
  isNullable := alike.isNullable.symm
  hasDefault := alike.hasDefault.symm
  default := by
    rw [Value.equals_comm (wellKeyed_storedDefault keyed') (wellKeyed_storedDefault keyed)]
    exact alike.default
  isUnique := alike.isUnique.symm
  enumMembers := alike.enumMembers.symm

theorem differs_comm {b c : Column} (keyed : b.defaultValue.WellKeyed) (keyed' : c.defaultValue.WellKeyed) :
    b.differs c = c.differs b := by
  rw [← Bool.not_inj_iff, Bool.eq_iff_iff, Bool.not_eq_true', Bool.not_eq_true', differs_eq_false_iff,
    differs_eq_false_iff]
  exact ⟨.symm keyed keyed', .symm keyed' keyed⟩

end Column

/-- No default holds a dictionary that has a key twice. -/
def Plan.KeyedDefaults (p : Plan) : Prop := ∀ t ∈ p.tables, ∀ c ∈ t.columns, c.defaultValue.WellKeyed

theorem Plan.Typed.keyedDefaults {p : Plan} (typed : p.Typed) : p.KeyedDefaults := fun t inPlan c inTable =>
  Value.wellKeyed_of_isLeaf ((typed.tables t inPlan).columns c inTable).default.leaf

namespace Statement

def columnAdded? : Statement → Option (Value × Value)
  | .addColumn table c => some (table, c.name)
  | _ => none

def indexCreated? : Statement → Option (Value × Value)
  | .createIndex table i => some (table, i.name)
  | _ => none

end Statement

namespace SkippedChange

def tableDrop (table : Value) : SkippedChange := ⟨.dropTable, table, none, .dropTable table⟩

def columnDrop (place : Value × Value) : SkippedChange :=
  ⟨.dropColumn, place.1, some place.2, .dropColumn place.1 place.2⟩

def indexDrop (place : Value × Value) : SkippedChange := ⟨.dropIndex, place.1, some place.2, .dropIndex place.1 place.2⟩

def isRemoval (s : SkippedChange) : Bool := decide (s.kind ≠ .alterColumn)

end SkippedChange

namespace Diff
open Migration
variable {d : Dialect} {p q : Plan}

/-- The change that undoes a statement of a migration from the plan that is kept. The indexes of a new table go with it. -/
def removal? (kept : Plan) : Statement → Option SkippedChange
  | .createTable table _ => some (.tableDrop table)
  | .addColumn table c => some (.columnDrop (table, c.name))
  | .createIndex table i => if ∃ t ∈ kept.tables, t.name = table then some (.indexDrop (table, i.name)) else none
  | _ => none

theorem removals_changedColumn (d : Dialect) (table : Value) (after : Table) (columns : List Column) :
    (columns.flatMap fun c => (changedColumn d table after c).value).filter (·.isRemoval) =
      (columns.filter fun c => (after.column? c.name).isNone).map fun c => .columnDrop (table, c.name) := by
  induction columns with
  | nil => rfl
  | cons c rest ih =>
      rw [List.flatMap_cons, List.filter_append, ih, changedColumn_value]
      cases found : after.column? c.name with
      | none => simp [found, SkippedChange.isRemoval, SkippedChange.columnDrop]
      | some now => cases differs : c.differs now <;> simp [found, differs, SkippedChange.isRemoval]

theorem removals_droppedIndex (d : Dialect) (table : Value) (current indexes : List Index) :
    (indexes.flatMap fun i => (droppedIndex d table current i).value).filter (·.isRemoval) =
      (indexes.filter fun i => !hasIndex current i).map fun i => .indexDrop (table, i.name) := by
  induction indexes with
  | nil => rfl
  | cons i rest ih =>
      rw [List.flatMap_cons, List.filter_append, ih, droppedIndex_value]
      cases had : hasIndex current i <;> simp [had, SkippedChange.isRemoval, SkippedChange.indexDrop]

theorem filterMap_removal?_keys (kept : Plan) (d : Dialect) (table : Value) (columns : List Column) :
    (if d = .sqlite then []
      else columns.flatMap fun c => c.references.toList.map (Statement.addForeignKey table c.name)).filterMap
        (removal? kept) = [] := by
  rw [List.filterMap_eq_nil_iff]
  intro s member
  split at member
  · cases member
  · rcases List.mem_flatMap.mp member with ⟨c, -, key⟩
    rcases List.mem_map.mp key with ⟨target, -, rfl⟩
    rfl

section
variable (now : q.WellNamed) {t after : Table} (found : lastTable? q t.name = some after)
include now found

theorem missingColumns_of_lastTable? :
    missingColumns q t = t.columns.filter fun c => (after.column? c.name).isNone := by
  rcases (now.lastTable?_eq_some_iff t.name after).mp found with ⟨inPlan, same⟩
  rw [missingColumns]
  simp only [now.forall_namesake_iff inPlan same]
  apply List.filter_congr
  intro c _
  rw [Bool.eq_iff_iff, decide_eq_true_iff, Option.isNone_iff_eq_none, Option.eq_none_iff_forall_ne_some]
  simp only [ne_eq, now.column?_eq_some_iff inPlan, not_and]

theorem missingIndexes_of_lastTable? :
    missingIndexes q t = t.indexes.filter fun i => !hasIndex after.indexes i := by
  rcases (now.lastTable?_eq_some_iff t.name after).mp found with ⟨inPlan, same⟩
  rw [missingIndexes]
  simp only [now.forall_namesake_iff inPlan same]
  apply List.filter_congr
  intro i _
  rw [Bool.eq_iff_iff]
  simp [hasIndex]

end

theorem removals_changedTable (d : Dialect) (now : q.WellNamed) (t : Table) :
    ((changedTable q t).value.filter (·.isRemoval)).Perm ((statementsFor d q t).filterMap (removal? q)) := by
  rw [changedTable_value, statementsFor, List.filterMap_append, List.filterMap_append, filterMap_removal?_keys,
    List.append_nil]
  cases found : lastTable? q t.name with
  | none =>
      have gone : ¬ ∃ after ∈ q.tables, after.name = t.name := by
        rintro ⟨after, inPlan, same⟩
        rw [(now.lastTable?_eq_some_iff t.name after).mpr ⟨inPlan, same⟩] at found
        cases found
      -- The table is created as a whole, and its indexes, though statements of their own, go with it.
      have indexes : ((missingIndexes q t).map (Statement.createIndex t.name)).filterMap (removal? q) = [] := by
        simp [removal?, gone]
      rw [if_neg gone, indexes]
      exact .refl _
  | some after =>
      rcases (now.lastTable?_eq_some_iff t.name after).mp found with ⟨inPlan, same⟩
      have stays : ∃ after ∈ q.tables, after.name = t.name := ⟨after, inPlan, same⟩
      have columns : ((missingColumns q t).map (Statement.addColumn t.name)).filterMap (removal? q) =
          (missingColumns q t).map fun c => .columnDrop (t.name, c.name) := by
        rw [List.filterMap_map]
        exact congrFun List.filterMap_eq_map _
      have indexes : ((missingIndexes q t).map (Statement.createIndex t.name)).filterMap (removal? q) =
          (missingIndexes q t).map fun i => .indexDrop (t.name, i.name) := by
        have each : removal? q ∘ Statement.createIndex t.name = some ∘ fun i => .indexDrop (t.name, i.name) :=
          funext fun i => if_pos stays
        rw [List.filterMap_map, each]
        exact congrFun List.filterMap_eq_map _
      rw [if_pos stays, columns, indexes, missingColumns_of_lastTable? now found, missingIndexes_of_lastTable? now found,
        List.filter_append, removals_changedColumn, removals_droppedIndex]
      -- Removals name the indexes of a table first, additions its columns.
      exact List.perm_append_comm

theorem removals_perm (past : p.Regular d) (now : q.Regular d) :
    ((skipped (some p) q).value.filter (·.isRemoval)).Perm ((statements (some q) p).value.filterMap (removal? q)) := by
  have types : ∀ brought, (EnumTypes.createTypes brought).filterMap (removal? q) = [] := by
    intro brought
    simp [EnumTypes.createTypes, removal?]
  have added := (statements_perm now past).filterMap (removal? q)
  rw [List.filterMap_append, types, List.nil_append, List.filterMap_flatMap] at added
  rw [skipped_some (past.dialect.trans now.dialect.symm), skippedFrom_value, List.filter_flatMap]
  refine .trans ?_ added.symm
  exact List.Perm.flatMap_left _ fun t _ => removals_changedTable d now.toWellNamed t

theorem filter_kind_perm (past : p.Regular d) (now : q.Regular d) {kind : ChangeKind} (removes : kind ≠ .alterColumn) :
    ((skipped (some p) q).value.filter (·.kind = kind)).Perm
      (((statements (some q) p).value.filterMap (removal? q)).filter (·.kind = kind)) := by
  have kinds : (skipped (some p) q).value.filter (·.kind = kind) =
      ((skipped (some p) q).value.filter (·.isRemoval)).filter (·.kind = kind) := by
    rw [List.filter_filter]
    apply List.filter_congr
    intro s _
    by_cases same : s.kind = kind <;> simp [SkippedChange.isRemoval, same, removes]
  rw [kinds]
  exact (removals_perm past now).filter _

section
variable (kept : Plan) (additions : List Statement)

theorem filter_removal?_dropTable : (additions.filterMap (removal? kept)).filter (·.kind = .dropTable) =
    (additions.filterMap Statement.tableCreated?).map .tableDrop := by
  rw [List.filter_filterMap, List.map_filterMap]
  congr 1
  funext s
  cases s with
  | createIndex => simp only [removal?]; split <;> rfl
  | _ => rfl

theorem filter_removal?_dropColumn : (additions.filterMap (removal? kept)).filter (·.kind = .dropColumn) =
    (additions.filterMap Statement.columnAdded?).map .columnDrop := by
  rw [List.filter_filterMap, List.map_filterMap]
  congr 1
  funext s
  cases s with
  | createIndex => simp only [removal?]; split <;> rfl
  | _ => rfl

theorem filter_removal?_dropIndex : (additions.filterMap (removal? kept)).filter (·.kind = .dropIndex) =
    ((additions.filterMap Statement.indexCreated?).filter fun place => ∃ t ∈ kept.tables, t.name = place.1).map
      .indexDrop := by
  rw [List.filter_filterMap, List.filter_filterMap, List.map_filterMap]
  congr 1
  funext s
  cases s with
  | createIndex table i =>
      simp only [removal?, Statement.indexCreated?, Option.filter_some]
      split
      case isTrue stays =>
        rw [if_pos (decide_eq_true stays)]
        rfl
      case isFalse gone =>
        rw [if_neg (mt of_decide_eq_true gone)]
        rfl
  | _ => rfl

end

def Alters (p q : Plan) (table column : Value) : Prop :=
  ∃ s ∈ (skipped (some p) q).value, s.kind = .alterColumn ∧ s.table = table ∧ s.name = some column

theorem alters_iff (past : p.Regular d) (now : q.Regular d) (table column : Value) :
    Alters p q table column ↔ ∃ before ∈ p.tables, ∃ after ∈ q.tables, before.name = table ∧ after.name = table ∧
      ∃ b ∈ before.columns, ∃ c ∈ after.columns, b.name = column ∧ c.name = column ∧ b.differs c := by
  have altered := alterColumn_mem_skipped_iff now.toWellNamed (past.dialect.trans now.dialect.symm)
  constructor
  · rintro ⟨s, member, alters, rfl, named⟩
    rcases (altered s).mp ⟨member, alters⟩ with
      ⟨before, inPast, after, inNow, same, b, inBefore, c, inAfter, kept, differs, rfl⟩
    cases named
    exact ⟨before, inPast, after, inNow, rfl, same, b, inBefore, c, inAfter, rfl, kept, differs⟩
  · rintro ⟨before, inPast, after, inNow, rfl, same, b, inBefore, c, inAfter, rfl, kept, differs⟩
    rcases (altered _).mpr ⟨before, inPast, after, inNow, same, b, inBefore, c, inAfter, kept, differs, rfl⟩ with
      ⟨member, alters⟩
    exact ⟨_, member, alters, rfl, rfl⟩

theorem Alters.symm (past : p.Regular d) (now : q.Regular d) (keyed : p.KeyedDefaults) (keyed' : q.KeyedDefaults)
    {table column : Value} (alters : Alters p q table column) : Alters q p table column := by
  rw [alters_iff past now] at alters
  rw [alters_iff now past]
  rcases alters with ⟨before, inPast, after, inNow, first, second, b, inBefore, c, inAfter, name, kept, differs⟩
  refine ⟨after, inNow, before, inPast, second, first, c, inAfter, b, inBefore, kept, name, ?_⟩
  rwa [Column.differs_comm (keyed' after inNow c inAfter) (keyed before inPast b inBefore)]

/-- What has to be written and compared to list the changes that a migration skips. -/
def Listable (previous current : Plan) : Prop :=
  previous.Staying current fun before t =>
    (∀ i ∈ t.indexes, i.keyFaults = []) ∧ (∀ i ∈ before.indexes, i.keyFaults = []) ∧
      ∀ b ∈ before.columns, ∀ c ∈ t.columns, c.name = b.name → Comparable current.dialect before.name b c

/-- What is skipped on the way from one plan to the other one, against what is added on the way back. -/
structure Mirrors (p q : Plan) : Prop where
  tables : ((skipped (some p) q).value.filter (·.kind = .dropTable)).Perm
    (((statements (some q) p).value.filterMap Statement.tableCreated?).map .tableDrop)
  columns : ((skipped (some p) q).value.filter (·.kind = .dropColumn)).Perm
    (((statements (some q) p).value.filterMap Statement.columnAdded?).map .columnDrop)
  indexes : ((skipped (some p) q).value.filter (·.kind = .dropIndex)).Perm
    ((((statements (some q) p).value.filterMap Statement.indexCreated?).filter fun place =>
      ∃ t ∈ q.tables, t.name = place.1).map .indexDrop)
  alterations : ∀ table column, Alters p q table column ↔ Alters q p table column

/--
Where names tell tables and columns apart, the tables, columns and indexes that a migration would have to remove are, as
often as they occur, those that the migration in the opposite direction adds: whole tables, and columns and indexes of
tables that both plans have. Both migrations leave the same columns unaltered. The removals are listed, and the additions
written, exactly if the definitions and keys that this takes can be.
-/
theorem removals_mirror_additions (past : p.Regular d) (now : q.Regular d) (keyed : p.KeyedDefaults)
    (keyed' : q.KeyedDefaults) :
    ((skipped (some p) q).outcome = .ok (skipped (some p) q).value ↔ Listable p q) ∧
      ((statements (some q) p).outcome = .ok (statements (some q) p).value ↔ Feasible q p) ∧ Mirrors p q := by
  refine ⟨?_, ?_, ?_⟩
  · rw [Reported.outcome_eq_ok_iff, and_iff_left rfl, skipped_some (past.dialect.trans now.dialect.symm),
      succeeds_skippedFrom_iff past.toWellNamed now.toWellNamed]
    rfl
  · rw [Reported.outcome_eq_ok_iff, and_iff_left rfl, succeeds_statements_iff now past]
  · constructor
    · rw [← filter_removal?_dropTable q]
      exact filter_kind_perm past now (by decide)
    · rw [← filter_removal?_dropColumn q]
      exact filter_kind_perm past now (by decide)
    · rw [← filter_removal?_dropIndex]
      exact filter_kind_perm past now (by decide)
    · intro table column
      exact ⟨.symm past now keyed keyed', .symm now past keyed' keyed⟩

def taggedUsers : ModelSet :=
  [("User", {
      name := "User"
      attributes := [("id", {}), ("email", { unique := true }), ("age", { hasDefault := true, default := .int 1 })] }),
    ("Tag", { name := "Tag", attributes := [("id", {})], indexes := [⟨"by_id", ["id"]⟩] })]

def agedUsers : ModelSet :=
  [("User", { name := "User", attributes := [("id", {}), ("age", { hasDefault := true, default := .int 2 })] })]

theorem agedUsers_mirror_taggedUsers :
    Mirrors (Plan.postgresOf taggedUsers) (Plan.postgresOf agedUsers) ∧
      ((skipped (some (Plan.postgresOf taggedUsers)) (Plan.postgresOf agedUsers)).value.map fun s => (s.kind, s.name)) =
        [(.dropIndex, some (.str "email_unique")), (.dropColumn, some (.str "email")), (.alterColumn, some (.str "age")),
          (.dropTable, none)] := by
  have past : (Plan.postgresOf taggedUsers).Built .postgres := Plan.postgresOf_built (by decide) (by decide)
  have now : (Plan.postgresOf agedUsers).Built .postgres := Plan.postgresOf_built (by decide) (by decide)
  have mirror := removals_mirror_additions past.regular now.regular past.typed.keyedDefaults now.typed.keyedDefaults
  exact ⟨mirror.2.2, by decide +kernel⟩

end Diff
end SchemaMigration
