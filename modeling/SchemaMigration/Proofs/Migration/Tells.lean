import SchemaMigration.Proofs.Migration.Composition
import SchemaMigration.Proofs.Migration.Outcome

namespace SchemaMigration

namespace Reported
variable {α β : Type} {about : Notice → Prop}

def Tells (about : Notice → Prop) (x : Reported α) : Prop := ∃ n, Event.notice n ∈ x.events ∧ about n

@[simp] theorem tells_pure (a : α) : ¬ (Pure.pure a : Reported α).Tells about := by
  intro told
  rcases told with ⟨n, member, -⟩
  cases member

@[simp] theorem tells_bind (x : Reported α) (f : α → Reported β) :
    (x >>= f).Tells about ↔ x.Tells about ∨ (f x.value).Tells about := by
  have events : (x >>= f).events = x.events ++ (f x.value).events := rfl
  simp only [Tells, events, List.mem_append, or_and_right, exists_or]

@[simp] theorem tells_tell (n : Notice) : (tell n).Tells about ↔ about n := by simp [Tells, tell]

@[simp] theorem tells_faults (found : List Fault) : ¬ (faults found).Tells about := by simp [Tells, faults]

@[simp] theorem tells_statement (found : α → List Fault) (s : α) : ¬ (statement found s).Tells about := by
  simp [Tells, statement]

@[simp] theorem tells_collect (f : α → Reported β) (items : List α) :
    (collect f items).Tells about ↔ ∃ a ∈ items, (f a).Tells about := by
  induction items with
  | nil => simp [collect, Tells, Reported.pure]
  | cons a rest ih =>
      have step : collect f (a :: rest) = f a >>= fun b => collect f rest >>= fun bs => Pure.pure (b :: bs) := rfl
      simp [step, ih]

theorem mem_noticesOf_iff {events : List Event} (done : ∀ f, Event.fault f ∉ events) (n : Notice) :
    n ∈ noticesOf events ↔ Event.notice n ∈ events := by
  induction events with
  | nil => simp [noticesOf]
  | cons event rest ih =>
      cases event with
      | fault f => exact absurd List.mem_cons_self (done f)
      | notice first =>
          have others := ih fun f member => done f (List.mem_cons_of_mem _ member)
          simp [noticesOf, others]

theorem Succeeds.tells_iff {x : Reported α} (done : x.Succeeds) : x.Tells about ↔ ∃ n ∈ x.notices, about n :=
  exists_congr fun n => and_congr_left' (mem_noticesOf_iff done n).symm

end Reported

namespace EnumTypes
variable (d : Dialect) (types : EnumTypes) (about : Notice → Prop)

theorem tells_declareColumn (c : Column) : (types.declareColumn d c).Tells about ↔
    c.isEnum ∧ ∃ kept, types.seen.lookup (Sql.enumTypeName c) = some kept ∧ ∃ n ∈ conflict? kept c, about n := by
  unfold declareColumn
  cases enum : c.isEnum with
  | false => simp
  | true =>
      cases found : types.seen.lookup (Sql.enumTypeName c) with
      | none => simp [found]
      | some kept => cases differing : conflict? kept c <;> simp [found, differing]

theorem tells_declare_cons (c : Column) (rest : List Column) :
    (types.declare d (c :: rest)).Tells about ↔
      (types.declareColumn d c).Tells about ∨ ((types.declareColumn d c).value.1.declare d rest).Tells about := by
  simp [declare]

theorem tells_declare_append (first second : List Column) :
    (types.declare d (first ++ second)).Tells about ↔
      (types.declare d first).Tells about ∨ ((types.declare d first).value.1.declare d second).Tells about := by
  induction first generalizing types with
  | nil => simp [declare]
  | cons c rest ih => rw [List.cons_append, tells_declare_cons, tells_declare_cons, ih, declare_cons, or_assoc]

end EnumTypes

namespace Migration
variable (d : Dialect) (types : EnumTypes) (about : Notice → Prop)

theorem not_tells_foreignKey (table : Value) (c : Column) : ¬ (foreignKey d table c).Tells about := by
  unfold foreignKey supportedStatement
  split
  · simp
  · split <;> simp [statement]

theorem tells_createTableFiles (tables : List Table) :
    (createTableFiles d types tables).Tells about ↔ (types.declare d (tables.flatMap (·.columns))).Tells about := by
  induction tables generalizing types with
  | nil => simp [createTableFiles, EnumTypes.declare]
  | cons t rest ih =>
      rw [List.flatMap_cons, EnumTypes.tells_declare_append, ← ih]
      simp [createTableFiles, createTableFile, statement]

theorem tells_tableFiles (tables : List Table) :
    (tableFiles d types tables).Tells about ↔ (types.declare d (tables.flatMap (·.columns))).Tells about := by
  rw [← tells_createTableFiles]
  simp [tableFiles, foreignKeyFiles, not_tells_foreignKey, indexFiles, statement]

end Migration

namespace Diff
open Migration
variable {about : Notice → Prop}

/-- What announces something new is not asked for. -/
structure IgnoresNews (about : Notice → Prop) : Prop where
  table : ∀ table, ¬ about (.newTable table)
  column : ∀ table column, ¬ about (.newColumn table column)
  index : ∀ table index, ¬ about (.newIndex table index)

theorem tells_addColumns (ignores : IgnoresNews about) (d : Dialect) (types : EnumTypes) (table : Value)
    (previous columns : List Column) :
    (addColumns d table previous types columns).Tells about ↔
      (types.declare d (columns.filter fun c => !hasColumn previous c.name)).Tells about := by
  induction columns generalizing types with
  | nil => simp [addColumns, EnumTypes.declare]
  | cons c rest ih =>
      cases had : hasColumn previous c.name with
      | true => simp [addColumns, had, ih]
      | false =>
          rw [List.filter_cons_of_pos (by simp [had]), EnumTypes.tells_declare_cons]
          simp [addColumns, had, ih, addColumn, EnumTypes.declare, not_tells_foreignKey, statement, ignores.column]

theorem not_tells_addIndex (ignores : IgnoresNews about) (d : Dialect) (table : Value) (previous : List Index)
    (i : Index) : ¬ (addIndex d table previous i).Tells about := by
  cases had : hasIndex previous i <;> simp [addIndex, had, statement, ignores.index]

theorem tells_alterTableFiles (ignores : IgnoresNews about) (d : Dialect) (types : EnumTypes) (previous : Plan)
    (tables : List Table) :
    (alterTableFiles d previous types tables).Tells about ↔
      (types.declare d (tables.flatMap fun t => if isNew previous t then [] else createdIn previous t)).Tells about := by
  induction tables generalizing types with
  | nil => simp [alterTableFiles, EnumTypes.declare]
  | cons t rest ih =>
      rw [List.flatMap_cons]
      cases found : previous.table? t.name with
      | none =>
          have new : isNew previous t = true := by simp [isNew, found]
          simp [alterTableFiles, found, new, ih]
      | some before =>
          have stays : isNew previous t = false := by simp [isNew, found]
          rw [stays, if_neg Bool.false_ne_true, EnumTypes.tells_declare_append,
            ← alterColumns_types d previous types before t found, ← ih]
          simp [alterTableFiles, found, alterTableFile, tells_addColumns ignores, not_tells_addIndex ignores, createdIn]

theorem tells_additions (ignores : IgnoresNews about) (previous current : Plan) :
    (additions previous current).Tells about ↔
      ((knownTypes previous).value.declare current.dialect (createdColumns previous current)).Tells about := by
  have known : ¬ (knownTypes previous).Tells about := by simp [knownTypes]
  have looked : ¬ (newTables previous current).Tells about := by simp [newTables]
  have announced : ∀ tables, ¬ (Reported.collect tellNewTable tables).Tells about := by
    simp [tellNewTable, ignores.table]
  rw [createdColumns, EnumTypes.tells_declare_append, ← createTableFiles_types, ← tells_tableFiles,
    ← tells_alterTableFiles ignores]
  simp only [additions, Reported.tells_bind, known, looked, announced, Reported.tells_pure, false_or, or_false]
  exact Iff.rfl

theorem not_tells_changedColumn (d : Dialect) (table : Value) (after : Table) (b : Column) :
    ¬ (changedColumn d table after b).Tells about := by
  cases found : after.column? b.name with
  | none => simp [changedColumn, found, skip, statement]
  | some c => cases differs : b.differs c <;> simp [changedColumn, found, differs, skip, statement]

theorem not_tells_changedTable (current : Plan) (t : Table) : ¬ (changedTable current t).Tells about := by
  have dropped : ∀ indexes i, ¬ (droppedIndex current.dialect t.name indexes i).Tells about := by
    intro indexes i
    cases had : hasIndex indexes i <;> simp [droppedIndex, had, skip, statement]
  cases found : lastTable? current t.name <;>
    simp [changedTable, found, dropped, not_tells_changedColumn, skip, statement]

theorem not_tells_skipped (previous : Option Plan) (current : Plan) : ¬ (skipped previous current).Tells about := by
  cases previous with
  | none => simp [skipped]
  | some p =>
      cases rebuild : isFullRebuild (some p) current <;>
        simp [skipped, rebuild, skippedFrom, not_tells_changedTable]

theorem tells_statements (ignores : ∀ description, ¬ about (.changeSkipped description)) (previous : Option Plan)
    (current : Plan) : (statements previous current).Tells about ↔ (files previous current).Tells about := by
  cases rebuild : isFullRebuild previous current <;>
    simp [statements, rebuild, not_tells_skipped, tellSkipped, ignores]

/-! A migration without a former plan is one from the plan without tables. -/

theorem statements_eq_additions {previous : Option Plan} {current : Plan}
    (same : ∀ p ∈ previous, p.dialect = current.dialect) :
    (statements previous current).value =
      MigrationFile.flatten (additions (previous.getD (.empty current.dialect)) current).value := by
  cases previous with
  | none => exact (additions_empty current).symm
  | some p => exact statements_some p current (same p rfl)

theorem tells_statements_iff_additions (news : IgnoresNews about)
    (skips : ∀ description, ¬ about (.changeSkipped description)) {previous : Option Plan} {current : Plan}
    (same : ∀ p ∈ previous, p.dialect = current.dialect) :
    (statements previous current).Tells about ↔
      (additions (previous.getD (.empty current.dialect)) current).Tells about := by
  rw [tells_statements skips]
  cases previous with
  | none =>
      have columns : createdColumns (.empty current.dialect) current = current.tables.flatMap (·.columns) := by
        have all : current.tables.filter (isNew (.empty current.dialect)) = current.tables :=
          List.filter_eq_self.mpr fun _ _ => rfl
        have others : (current.tables.flatMap fun t =>
            if isNew (.empty current.dialect) t then [] else createdIn (.empty current.dialect) t) = [] :=
          List.flatMap_eq_nil_iff.mpr fun _ _ => rfl
        rw [createdColumns, all, others, List.append_nil]
      rw [tells_additions news, Option.getD_none, columns]
      simp only [files, Plan.migrationFiles, Reported.tells_bind, Reported.tells_pure, or_false, tells_tableFiles]
      exact Iff.rfl
  | some p =>
      have incremental : isFullRebuild (some p) current = false := by simp [isFullRebuild, same p rfl]
      simp [files, incremental]

end Diff
end SchemaMigration
