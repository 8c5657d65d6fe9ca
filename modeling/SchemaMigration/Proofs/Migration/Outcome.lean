import SchemaMigration.Migration.Full
import Mathlib.Tactic.MkIffOfInductiveProp

namespace SchemaMigration

namespace Reported
variable {α β : Type}

def Succeeds (x : Reported α) : Prop := ∀ f, Event.fault f ∉ x.events

theorem firstFault?_eq_none_iff (events : List Event) :
    firstFault? events = none ↔ ∀ f, Event.fault f ∉ events := by
  induction events with
  | nil => simp [firstFault?]
  | cons event rest ih =>
      cases event with
      | notice n => simp [firstFault?, ih]
      | fault f =>
          constructor
          · intro found
            cases found
          · intro absent
            exact absurd List.mem_cons_self (absent f)

theorem outcome_eq_ok_iff (x : Reported α) (a : α) : x.outcome = .ok a ↔ x.Succeeds ∧ x.value = a := by
  rw [outcome, Succeeds, ← firstFault?_eq_none_iff]
  cases firstFault? x.events <;> simp

@[simp] theorem succeeds_pure (a : α) : (Pure.pure a : Reported α).Succeeds := fun _ => List.not_mem_nil

@[simp] theorem succeeds_bind (x : Reported α) (f : α → Reported β) :
    (x >>= f).Succeeds ↔ x.Succeeds ∧ (f x.value).Succeeds := by
  have events : (x >>= f).events = x.events ++ (f x.value).events := rfl
  simp only [Succeeds, events, List.mem_append, not_or, forall_and]

@[simp] theorem succeeds_tell (n : Notice) : (tell n).Succeeds := by simp [Succeeds, tell]

@[simp] theorem succeeds_faults (found : List Fault) : (faults found).Succeeds ↔ found = [] := by
  simp [Succeeds, faults, List.eq_nil_iff_forall_not_mem]

@[simp] theorem succeeds_statement (found : α → List Fault) (s : α) :
    (statement found s).Succeeds ↔ found s = [] := by
  simp [Succeeds, statement, List.eq_nil_iff_forall_not_mem]

@[simp] theorem succeeds_collect (f : α → Reported β) (items : List α) :
    (collect f items).Succeeds ↔ ∀ a ∈ items, (f a).Succeeds := by
  induction items with
  | nil => simp [collect, Succeeds, Reported.pure]
  | cons a rest ih =>
      have step : collect f (a :: rest) = f a >>= fun b => collect f rest >>= fun bs => Pure.pure (b :: bs) := rfl
      simp [step, ih]

end Reported

@[mk_iff] structure Column.Writable (c : Column) : Prop where
  name : c.name.textFaults = []
  default : Sql.defaultFaults c = []
  references : ∀ r ∈ c.references, r.table.textFaults = [] ∧ r.column.textFaults = []

@[mk_iff] structure Index.Writable (i : Index) : Prop where
  name : i.name.textFaults = []
  columns : ∀ name ∈ i.columns, name.textFaults = []

@[mk_iff] structure Table.Writable (t : Table) : Prop where
  name : t.name.textFaults = []
  columns : ∀ c ∈ t.columns, c.Writable
  indexes : ∀ i ∈ t.indexes, i.Writable

def Plan.Writable (p : Plan) : Prop := ∀ t ∈ p.tables, t.Writable

namespace EnumTypes

theorem succeeds_declareColumn (d : Dialect) (types : EnumTypes) (c : Column) :
    (types.declareColumn d c).Succeeds ↔ (c.isEnum → c.name.textFaults = []) := by
  unfold declareColumn
  cases enum : c.isEnum with
  | false => simp
  | true =>
      cases found : types.seen.lookup (Sql.enumTypeName c) with
      | none => simp [found]
      | some kept => cases differing : conflict? kept c <;> simp [found, differing]

theorem succeeds_declare (d : Dialect) (types : EnumTypes) (columns : List Column) :
    (types.declare d columns).Succeeds ↔ ∀ c ∈ columns, c.isEnum → c.name.textFaults = [] := by
  induction columns generalizing types with
  | nil => simp [declare]
  | cons c rest ih => simp [declare, succeeds_declareColumn, ih]

end EnumTypes

namespace Migration

theorem succeeds_column (d : Dialect) {table : Value} (c : Column) (writable : table.textFaults = []) :
    Sql.definitionFaults d c = [] ∧ (foreignKey d table c).Succeeds ↔ c.Writable := by
  rw [Column.writable_iff, Sql.definitionFaults, List.append_eq_nil_iff, List.append_eq_nil_iff]
  unfold Sql.referenceFaults foreignKey
  cases references : c.references with
  | none => cases d <;> simp
  | some target =>
      cases d <;>
        simp [supportedStatement, Statement.supported, statement, Statement.faults, writable, and_assoc,
          and_left_comm]

theorem succeeds_createTableFile (d : Dialect) (types : EnumTypes) (t : Table) :
    (createTableFile d types t).Succeeds ↔
      t.name.textFaults = [] ∧ ∀ c ∈ t.columns, Sql.definitionFaults d c = [] := by
  have definitions : (createTableFile d types t).Succeeds ↔
      (∀ c ∈ t.columns, c.isEnum → c.name.textFaults = []) ∧
        (∀ c ∈ t.columns, Sql.definitionFaults d c = []) ∧ t.name.textFaults = [] := by
    simp [createTableFile, EnumTypes.succeeds_declare, statement, Statement.faults, Statement.supported]
  rw [definitions, and_comm (a := t.name.textFaults = []), and_iff_right_of_imp]
  intro given c listed _
  have definition := given.1 c listed
  simp only [Sql.definitionFaults, List.append_eq_nil_iff] at definition
  exact definition.1.1

theorem succeeds_createTableFiles (d : Dialect) (types : EnumTypes) (tables : List Table) :
    (createTableFiles d types tables).Succeeds ↔
      ∀ t ∈ tables, t.name.textFaults = [] ∧ ∀ c ∈ t.columns, Sql.definitionFaults d c = [] := by
  induction tables generalizing types with
  | nil => simp [createTableFiles]
  | cons t rest ih => simp [createTableFiles, succeeds_createTableFile, ih]

theorem succeeds_foreignKeyFiles (d : Dialect) (t : Table) :
    (foreignKeyFiles d t).Succeeds ↔ ∀ c ∈ t.columns, (foreignKey d t.name c).Succeeds := by
  simp [foreignKeyFiles]

theorem succeeds_indexFiles (d : Dialect) {t : Table} (writable : t.name.textFaults = []) :
    (indexFiles d t).Succeeds ↔ ∀ i ∈ t.indexes, i.Writable := by
  simp [indexFiles, statement, Statement.faults, Statement.supported, Index.writable_iff, writable,
    and_comm]

theorem succeeds_tableFiles (d : Dialect) (types : EnumTypes) (tables : List Table) :
    (tableFiles d types tables).Succeeds ↔ ∀ t ∈ tables, t.Writable := by
  have passes : (tableFiles d types tables).Succeeds ↔ (createTableFiles d types tables).Succeeds ∧
      (∀ t ∈ tables, (foreignKeyFiles d t).Succeeds) ∧ ∀ t ∈ tables, (indexFiles d t).Succeeds := by
    simp [tableFiles]
  rw [passes, succeeds_createTableFiles]
  simp only [← forall_and]
  apply forall₂_congr
  intro t _
  rw [Table.writable_iff]
  by_cases writable : t.name.textFaults = []
  · rw [succeeds_indexFiles d writable, succeeds_foreignKeyFiles]
    simp only [← succeeds_column d _ writable, forall_and, writable, true_and, and_assoc]
  · simp [writable]

end Migration

theorem Plan.succeeds_migration_iff (p : Plan) : p.migration.Succeeds ↔ p.Writable := by
  simp [migration, migrationFiles, Migration.succeeds_tableFiles, Writable]

end SchemaMigration
