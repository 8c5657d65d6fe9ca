import SchemaMigration.Proofs.Migration.PlaceOrder
import SchemaMigration.Proofs.Plan.References
/-!
The tables that statements mention. A migration creates its tables first, and everything else that it does is about
tables of the current plan. Therefore no statement of a history names a table that is not there yet. References
inside column definitions are apart: these may point ahead.
-/
namespace SchemaMigration

def SchemaObject.isTable : SchemaObject → Bool
  | .table _ => true
  | _ => false

namespace Statement

/-- The tables that a statement names outside of column definitions. -/
def tablesNamed (s : Statement) : List SchemaObject := s.placesUsed.filter (·.isTable)

@[simp] theorem tablesNamed_addColumn (table : Value) (c : Column) : (addColumn table c).tablesNamed = [.table table] := rfl

@[simp] theorem tablesNamed_addForeignKey (table column : Value) (target : Reference) :
    (addForeignKey table column target).tablesNamed = [.table table, .table target.table] := rfl

@[simp] theorem tablesNamed_createIndex (table : Value) (i : Index) :
    (createIndex table i).tablesNamed = [.table table] := by
  simp [tablesNamed, placesUsed, SchemaObject.isTable]

theorem table_of_mem_tablesNamed {s : Statement} {object : SchemaObject} (named : object ∈ s.tablesNamed) :
    ∃ name, object = .table name := by
  have isTable := (List.mem_filter.mp named).2
  cases object with
  | table name => exact ⟨name, rfl⟩
  | column | definition | foreignKey | index | enumType => cases isTable

/-- The other tables that column definitions lead to. -/
def tablesReferenced : Statement → List SchemaObject
  | .createTable table columns =>
    (columns.filterMap (·.references)).filterMap fun r => if r.table = table then none else some (.table r.table)
  | .addColumn _ c => c.references.toList.map fun r => .table r.table
  | _ => []

/-- A column definition carries its reference along only in one dialect. -/
def tablesMentioned (d : Dialect) (s : Statement) : List SchemaObject :=
  s.tablesNamed ++ if d = .sqlite then s.tablesReferenced else []

end Statement

section
variable {d : Dialect} {needs : Statement → List SchemaObject} {held more : List SchemaObject}
  {statements : List Statement}

/-- What is held may be exchanged as long as what is needed of it stays. -/
theorem Supplied.exchange (supplied : Supplied d needs held statements)
    (stays : ∀ s ∈ statements, ∀ object ∈ needs s, object ∈ held → object ∈ more) :
    Supplied d needs more statements := by
  induction statements generalizing held more with
  | nil => trivial
  | cons s rest ih =>
      rcases List.forall_mem_cons.mp stays with ⟨here, later⟩
      refine ⟨fun object needed => here object needed (supplied.1 object needed), ih supplied.2 ?_⟩
      intro r member object needed present
      rw [List.mem_append] at present ⊢
      exact present.imp_left (later r member object needed)

theorem supplied_of_held (found : ∀ s ∈ statements, ∀ object ∈ needs s, object ∈ held) :
    Supplied d needs held statements := by
  induction statements generalizing held with
  | nil => trivial
  | cons s rest ih =>
      rcases List.forall_mem_cons.mp found with ⟨here, later⟩
      exact ⟨here, ih fun r member object needed => List.mem_append_left _ (later r member object needed)⟩

theorem supplied_flatten_iff (files : List MigrationFile) :
    Supplied d needs held (MigrationFile.flatten files) ↔
      ∀ before f after, files = before ++ f :: after →
        Supplied d needs (held ++ created d (MigrationFile.flatten before)) f.statements := by
  induction files generalizing held with
  | nil => simp [Supplied]
  | cons f rest ih =>
      rw [MigrationFile.flatten_cons, supplied_append, ih]
      constructor
      · rintro ⟨now, later⟩ before g after split
        rcases List.cons_eq_append_iff.mp split with ⟨rfl, same⟩ | ⟨others, rfl, remain⟩
        · cases same
          simpa using now
        · have behind := later others g after remain
          rwa [List.append_assoc, ← created_append, ← MigrationFile.flatten_cons] at behind
      · intro given
        refine ⟨by simpa using given [] f rest rfl, fun before g after split => ?_⟩
        rw [List.append_assoc, ← created_append, ← MigrationFile.flatten_cons]
        exact given (f :: before) g after (by rw [split, List.cons_append])

end

namespace Plan

def Closed (p : Plan) : Prop := ∀ t ∈ p.tables, ∀ c ∈ t.columns, ∀ r ∈ c.references, .table r.table ∈ p.inventory

theorem Built.closed {d : Dialect} {p : Plan} (built : p.Built d) : p.Closed := by
  rcases built with ⟨models, -, done⟩
  rcases build_eq_ok_iff.mp done with ⟨distinct, rfl⟩
  intro t inPlan c inTable r references
  rcases reference_of_mem_built distinct inPlan inTable references with ⟨name, entry, member, -, -, rfl⟩
  rw [table_mem_inventory]
  exact ⟨_, List.mem_map_of_mem member, rfl⟩

end Plan

namespace Diff
open Migration

variable {d : Dialect} {previous current : Plan} {held : List SchemaObject}

theorem tablesNamed_tableStatements (closed : current.Closed) {t : Table} (inPlan : t ∈ current.tables) :
    ∀ s ∈ tableStatements d previous t, ∀ object ∈ s.tablesNamed, object ∈ current.inventory := by
  have own : .table t.name ∈ current.inventory := (current.table_mem_inventory _).mpr ⟨t, inPlan, rfl⟩
  intro s member
  rcases tableStatements_cases member with ⟨-, rfl⟩ | ⟨-, c, -, rfl⟩ | ⟨-, c, isCreated, target, references, rfl⟩ |
    ⟨i, -, rfl⟩
  · exact fun object named => by cases named
  · simpa using own
  · have inTable := (createdIn_sublist previous t).subset isCreated
    rw [Statement.tablesNamed_addForeignKey, List.forall_mem_cons, List.forall_mem_singleton]
    exact ⟨own, closed t inPlan c inTable target references⟩
  · simpa using own

theorem tablesNamed_additions (closed : current.Closed) :
    ∀ s ∈ MigrationFile.flatten (additions previous current).value, ∀ object ∈ s.tablesNamed,
      object ∈ current.inventory := by
  intro s member
  rcases additions_cases member with ⟨name, values, rfl⟩ | ⟨t, inPlan, inside⟩
  · exact fun object named => by cases named
  · exact tablesNamed_tableStatements closed inPlan s inside

theorem tables_held (now : current.Regular d)
    (past : ∀ t ∈ previous.tables, .table t.name ∈ held) :
    ∀ t ∈ current.tables, .table t.name ∈ held ++ created d (MigrationFile.flatten
      (createTableFiles d (knownTypes previous).value (current.tables.filter (isNew previous))).value.2) := by
  intro t inPlan
  rw [List.mem_append, mem_created_createTableFiles rfl]
  by_cases new : isNew previous t
  · exact .inr ⟨t, List.mem_filter.mpr ⟨inPlan, new⟩, by simp [Statement.creates]⟩
  · rw [Bool.not_eq_true, isNew_eq_false_iff (now.tableTexts t inPlan)] at new
    rcases new with ⟨before, inPrevious, same⟩
    exact .inl (same ▸ past before inPrevious)

theorem supplied_tablesNamed (now : current.Regular d) (closed : current.Closed)
    (past : ∀ t ∈ previous.tables, .table t.name ∈ held) :
    Supplied d Statement.tablesNamed held (MigrationFile.flatten (additions previous current).value) := by
  have about := @tablesNamed_additions previous current closed
  have there := tables_held now past
  have found : ∀ name, .table name ∈ current.inventory → .table name ∈ held ++ created d (MigrationFile.flatten
      (createTableFiles d (knownTypes previous).value (current.tables.filter (isNew previous))).value.2) := by
    intro name inPlan
    rcases (current.table_mem_inventory name).mp inPlan with ⟨t, listed, rfl⟩
    exact there t listed
  rw [flatten_additions, flatten_tableFiles, now.dialect, List.append_assoc, List.append_assoc] at about ⊢
  rw [supplied_append]
  constructor
  · apply supplied_of_needless
    intro s member
    rw [Statement.tablesNamed, placesUsed_createTableFiles _ _ s member, List.filter_nil]
  · apply supplied_of_held
    intro s member object named
    have inPlan := about s (List.mem_append_right _ member) object named
    rcases Statement.table_of_mem_tablesNamed named with ⟨name, rfl⟩
    exact found name inPlan

end Diff
end SchemaMigration
