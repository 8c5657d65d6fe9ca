import SchemaMigration.Proofs.Migration.Step
import Mathlib.Tactic.MkIffOfInductiveProp
/-!
Plans that only grow. Creating a plan and then leading on to its grown form is compared with creating
the grown form at once. The two create the same tables, columns and enum types. They agree on
definitions, foreign keys and indexes where no table gets what a migration does not give to a table
that stays.
-/
namespace SchemaMigration

/-- Tables that keep their columns, up to references, and their indexes. -/
structure Table.GrowsTo (t grown : Table) : Prop where
  name : grown.name = t.name
  columns : ∀ c ∈ t.columns, ∃ kept ∈ grown.columns, kept = { c with references := kept.references }
  indexes : t.indexes ⊆ grown.indexes

def Plan.GrowsTo (p grown : Plan) : Prop := ∀ t ∈ p.tables, ∃ after ∈ grown.tables, t.GrowsTo after

/-- What holds of every table that stays, between its former and its grown form. -/
def Plan.Staying (p grown : Plan) (holds : Table → Table → Prop) : Prop :=
  ∀ t ∈ p.tables, ∀ after ∈ grown.tables, after.name = t.name → holds t after

/-- No key is added, no reference is changed, and no index is mistaken for one that is there. -/
@[mk_iff] structure Table.Completable (t grown : Table) : Prop where
  keys : ∀ c ∈ grown.columns, c.isPrimaryKey → ∃ b ∈ t.columns, b.name = c.name
  references : ∀ b ∈ t.columns, ∀ c ∈ grown.columns, c.name = b.name → c.references = b.references
  indexes : ∀ i ∈ grown.indexes, Diff.hasIndex t.indexes i → i ∈ t.indexes

namespace Plan
variable {d : Dialect} {p grown : Plan}

theorem GrowsTo.table (grows : p.GrowsTo grown) (named : grown.WellNamed) {t after : Table}
    (inPlan : t ∈ p.tables) (inGrown : after ∈ grown.tables) (same : after.name = t.name) :
    t.GrowsTo after := by
  rcases grows t inPlan with ⟨other, otherIn, growth⟩
  rwa [named.table_eq inGrown otherIn (same.trans growth.name.symm)]

theorem GrowsTo.column (grows : p.GrowsTo grown) (named : grown.WellNamed) {t after : Table}
    (inPlan : t ∈ p.tables) (inGrown : after ∈ grown.tables) (same : after.name = t.name) {b c : Column}
    (inTable : b ∈ t.columns) (inAfter : c ∈ after.columns) (sameColumn : c.name = b.name) :
    c = { b with references := c.references } := by
  rcases (grows.table named inPlan inGrown same).columns b inTable with ⟨kept, keptIn, alike⟩
  have keptName : kept.name = b.name := by rw [alike]
  rwa [named.column_eq inGrown inAfter keptIn (sameColumn.trans keptName.symm)]

theorem GrowsTo.kept (grows : p.GrowsTo grown) {t : Table} (inPlan : t ∈ p.tables) {b : Column}
    (inTable : b ∈ t.columns) :
    ∃ after ∈ grown.tables, t.name = after.name ∧ ∃ c ∈ after.columns, b.name = c.name ∧
      c = { b with references := c.references } := by
  rcases grows t inPlan with ⟨after, inGrown, growth⟩
  rcases growth.columns b inTable with ⟨c, inAfter, alike⟩
  exact ⟨after, inGrown, growth.name.symm, c, inAfter, by rw [alike], alike⟩

theorem GrowsTo.inventory_subset (grows : p.GrowsTo grown) (before : p.dialect = d)
    (after : grown.dialect = d) : p.inventory ⊆ grown.inventory := by
  intro object member
  cases object with
  | table name =>
      rcases (p.table_mem_inventory name).mp member with ⟨t, inPlan, rfl⟩
      rcases grows t inPlan with ⟨after, inGrown, growth⟩
      exact (grown.table_mem_inventory _).mpr ⟨after, inGrown, growth.name⟩
  | column table name =>
      rcases (p.column_mem_inventory table name).mp member with ⟨t, inPlan, rfl, b, inTable, rfl⟩
      rcases grows.kept inPlan inTable with ⟨after, inGrown, same, c, inAfter, sameColumn, -⟩
      exact (grown.column_mem_inventory _ _).mpr ⟨after, inGrown, same.symm, c, inAfter, sameColumn.symm⟩
  | enumType name =>
      rcases (p.enumType_mem_inventory name).mp member with ⟨postgres, used⟩
      rcases (p.mem_enumTypeNames name).mp used with ⟨t, inPlan, b, inTable, enum, rfl⟩
      rcases grows.kept inPlan inTable with ⟨other, inGrown, -, c, inOther, -, alike⟩
      refine (grown.enumType_mem_inventory _).mpr ⟨after.trans (before.symm.trans postgres), ?_⟩
      refine (grown.mem_enumTypeNames _).mpr ⟨other, inGrown, c, inOther, ?_⟩
      rw [alike]
      exact ⟨enum, rfl⟩
  | definition | foreignKey | index => cases p.isNamed_of_mem_inventory member

end Plan

namespace Diff
variable {d : Dialect} {p grown : Plan}

theorem named_mem_created_anew (regular : p.Regular d) {object : SchemaObject} (named : object.isNamed) :
    object ∈ created d (statements (some (.empty d)) p).value ↔ object ∈ p.inventory := by
  constructor
  · intro isCreated
    exact (new_of_created (Plan.regular_empty d) regular named isCreated).1
  · intro inPlan
    cases object with
    | table | column => exact created_of_new (Plan.regular_empty d) regular rfl inPlan (by simp [Plan.empty])
    | enumType name =>
        rcases (p.enumType_mem_inventory name).mp inPlan with ⟨postgres, used⟩
        rcases (p.mem_enumTypeNames name).mp used with ⟨t, listed, c, inTable, enum, rfl⟩
        refine (enumType_mem_created (Plan.regular_empty d).dialect regular.dialect _).mpr
          ⟨regular.dialect ▸ postgres, List.not_mem_nil, c, ?_, enum, rfl⟩
        exact (mem_createdColumns _ p c).mpr ⟨t, listed, inTable⟩
    | definition | foreignKey | index => cases named

theorem named_mem_created_growing (before : p.Regular d) (after : grown.Regular d) (grows : p.GrowsTo grown)
    {object : SchemaObject} (inGrown : object ∈ grown.inventory) (new : object ∉ p.inventory) :
    object ∈ created d (statements (some p) grown).value := by
  cases object with
  | table | column => exact created_of_new before after rfl inGrown new
  | enumType name =>
      rcases (grown.enumType_mem_inventory name).mp inGrown with ⟨postgres, used⟩
      rcases (grown.mem_enumTypeNames name).mp used with ⟨t, listed, c, inTable, enum, rfl⟩
      rw [p.enumType_mem_inventory, before.dialect, ← after.dialect, not_and] at new
      refine (enumType_mem_created before.dialect after.dialect _).mpr
        ⟨after.dialect ▸ postgres, new postgres, c, ?_, enum, rfl⟩
      refine (mem_createdColumns p grown c).mpr ⟨t, listed, ?_⟩
      refine (mem_createdIn before.toWellNamed after.toWellNamed listed c).mpr ⟨inTable, ?_⟩
      intro had
      rcases (p.column_mem_inventory _ _).mp had with ⟨former, inPlan, sameTable, b, inFormer, sameColumn⟩
      have alike := grows.column after.toWellNamed inPlan listed sameTable.symm inFormer inTable sameColumn.symm
      refine new postgres ((p.mem_enumTypeNames _).mpr ⟨former, inPlan, b, inFormer, ?_⟩)
      rw [alike] at enum
      exact ⟨enum, by rw [alike]; rfl⟩
  | definition | foreignKey | index => cases grown.isNamed_of_mem_inventory inGrown

theorem former_or_created (before : p.Regular d) (after : grown.Regular d) {t : Table}
    (inGrown : t ∈ grown.tables) {c : Column} (inTable : c ∈ t.columns) :
    (∃ former ∈ p.tables, t.name = former.name ∧ ∃ b ∈ former.columns, c.name = b.name) ∨
      c ∈ createdIn p t := by
  rw [mem_createdIn before.toWellNamed after.toWellNamed inGrown]
  by_cases had : .column t.name c.name ∈ p.inventory
  · rcases (p.column_mem_inventory _ _).mp had with ⟨former, inPlan, same, b, inFormer, sameColumn⟩
    exact .inl ⟨former, inPlan, same.symm, b, inFormer, sameColumn.symm⟩
  · exact .inr ⟨inTable, had⟩

theorem name_ne_of_created (before : p.Regular d) (after : grown.Regular d) {t later : Table}
    (inPlan : t ∈ p.tables) (inGrown : later ∈ grown.tables) (same : later.name = t.name) {b c : Column}
    (inTable : b ∈ t.columns) (isCreated : c ∈ createdIn p later) : b.name ≠ c.name := by
  intro sameColumn
  have new := ((mem_createdIn before.toWellNamed after.toWellNamed inGrown c).mp isCreated).2
  exact new ((p.column_mem_inventory _ _).mpr ⟨t, inPlan, same.symm, b, inTable, sameColumn⟩)

/-- Whether the way over a former plan and the way from nothing both create an object, or none does. -/
def Agree (d : Dialect) (p grown : Plan) (object : SchemaObject) : Prop :=
  object ∈ created d (p.migration.value ++ (statements (some p) grown).value) ↔
    object ∈ created d grown.migration.value

theorem agree_iff (before : p.dialect = d) (after : grown.dialect = d) (object : SchemaObject) :
    Agree d p grown object ↔
      (object ∈ created d (statements (some (.empty d)) p).value ∨
          object ∈ created d (statements (some p) grown).value ↔
        object ∈ created d (statements (some (.empty d)) grown).value) := by
  rw [Agree, created_append, List.mem_append, ← statements_empty, ← statements_empty, before, after]

theorem agree_of_named (before : p.Regular d) (after : grown.Regular d) (grows : p.GrowsTo grown)
    {object : SchemaObject} (named : object.isNamed) : Agree d p grown object := by
  rw [agree_iff before.dialect after.dialect, named_mem_created_anew before named,
    named_mem_created_anew after named]
  constructor
  · intro given
    rcases given with former | isCreated
    · exact grows.inventory_subset before.dialect after.dialect former
    · exact (new_of_created before after named isCreated).1
  · intro inGrown
    by_cases former : object ∈ p.inventory
    · exact .inl former
    · exact .inr (named_mem_created_growing before after grows inGrown former)

theorem shapeIn_eq_ofNew (before : p.Regular d) (after : grown.Regular d)
    (keys : p.Staying grown fun t after =>
      ∀ c ∈ after.columns, c.isPrimaryKey → ∃ b ∈ t.columns, b.name = c.name)
    {t : Table} (inGrown : t ∈ grown.tables) {c : Column} (isCreated : c ∈ createdIn p t) :
    shapeIn d p t c = .ofNew d c := by
  unfold shapeIn
  split
  case isTrue => rfl
  case isFalse stays =>
    obtain ⟨former, inPlan, same⟩ :=
      (isNew_eq_false_iff (after.tableTexts t inGrown)).mp (Bool.not_eq_true _ ▸ stays)
    apply ColumnShape.ofAdded_eq_ofNew
    rw [← Bool.not_eq_true]
    intro key
    obtain ⟨b, inFormer, sameColumn⟩ :=
      keys former inPlan t inGrown same.symm c ((createdIn_sublist p t).subset isCreated) key
    exact name_ne_of_created before after inPlan inGrown same.symm inFormer isCreated sameColumn

/--
The two ways agree on what columns bear exactly if each column that stays bears the same in both
plans, and each column that is added later bears what it would from the start.
-/
theorem agree_on_columns {α : Type} (before : p.Regular d) (after : grown.Regular d) (grows : p.GrowsTo grown)
    (anew : Column → α → Prop) (added : Table → Column → α → Prop) :
    (∀ table name x,
        (∃ t ∈ p.tables, table = t.name ∧ ∃ c ∈ t.columns, name = c.name ∧ anew c x) ∨
          (∃ t ∈ grown.tables, table = t.name ∧ ∃ c ∈ createdIn p t, name = c.name ∧ added t c x) ↔
        ∃ t ∈ grown.tables, table = t.name ∧ ∃ c ∈ t.columns, name = c.name ∧ anew c x) ↔
      (p.Staying grown fun t after =>
        ∀ b ∈ t.columns, ∀ c ∈ after.columns, c.name = b.name → ∀ x, anew c x ↔ anew b x) ∧
      ∀ t ∈ grown.tables, ∀ c ∈ createdIn p t, ∀ x, added t c x ↔ anew c x := by
  constructor
  · intro agree
    constructor
    · intro t inPlan later inGrown same b inTable c inLater sameColumn x
      constructor
      · intro bears
        rcases (agree later.name c.name x).mpr ⟨later, inGrown, rfl, c, inLater, rfl, bears⟩ with
          ⟨former, formerIn, sameTable, e, inFormer, sameName, formerBears⟩ |
          ⟨other, otherIn, sameTable, e, isCreated, sameName, -⟩
        · obtain rfl := before.table_eq formerIn inPlan (sameTable.symm.trans same)
          rwa [before.column_eq formerIn inFormer inTable (sameName.symm.trans sameColumn)] at formerBears
        · obtain rfl := after.table_eq inGrown otherIn sameTable
          have apart := name_ne_of_created before after inPlan inGrown same inTable isCreated
          exact absurd (sameColumn.symm.trans sameName) apart
      · intro bears
        obtain ⟨other, otherIn, sameTable, e, inOther, sameName, laterBears⟩ :=
          (agree t.name b.name x).mp (.inl ⟨t, inPlan, rfl, b, inTable, rfl, bears⟩)
        obtain rfl := after.table_eq inGrown otherIn (same.trans sameTable)
        rwa [after.column_eq inGrown inLater inOther (sameColumn.trans sameName)]
    · intro t inGrown c isCreated x
      have inTable := (createdIn_sublist p t).subset isCreated
      constructor
      · intro bears
        obtain ⟨other, otherIn, sameTable, e, inOther, sameName, otherBears⟩ :=
          (agree t.name c.name x).mp (.inr ⟨t, inGrown, rfl, c, isCreated, rfl, bears⟩)
        obtain rfl := after.table_eq inGrown otherIn sameTable
        rwa [after.column_eq inGrown inTable inOther sameName]
      · intro bears
        rcases (agree t.name c.name x).mpr ⟨t, inGrown, rfl, c, inTable, rfl, bears⟩ with
          ⟨former, inPlan, sameTable, b, inFormer, sameName, -⟩ |
          ⟨other, otherIn, sameTable, e, alsoCreated, sameName, addedBears⟩
        · have apart := name_ne_of_created before after inPlan inGrown sameTable inFormer isCreated
          exact absurd sameName.symm apart
        · obtain rfl := after.table_eq inGrown otherIn sameTable
          rwa [after.column_eq inGrown inTable ((createdIn_sublist p t).subset alsoCreated) sameName]
  · intro given table name x
    rcases given with ⟨staying, new⟩
    constructor
    · intro bearer
      rcases bearer with ⟨t, inPlan, rfl, b, inTable, rfl, bears⟩ | ⟨t, inGrown, rfl, c, isCreated, rfl, bears⟩
      · rcases grows.kept inPlan inTable with ⟨later, inGrown, same, c, inLater, sameColumn, -⟩
        have laterBears :=
          (staying t inPlan later inGrown same.symm b inTable c inLater sameColumn.symm x).mpr bears
        exact ⟨later, inGrown, same, c, inLater, sameColumn, laterBears⟩
      · exact ⟨t, inGrown, rfl, c, (createdIn_sublist p t).subset isCreated, rfl,
          (new t inGrown c isCreated x).mp bears⟩
    · intro bearer
      rcases bearer with ⟨t, inGrown, rfl, c, inTable, rfl, bears⟩
      rcases former_or_created before after inGrown inTable with
        ⟨former, inPlan, same, b, inFormer, sameColumn⟩ | isCreated
      · have formerBears := (staying former inPlan t inGrown same b inFormer c inTable sameColumn x).mp bears
        exact .inl ⟨former, inPlan, same, b, inFormer, sameColumn, formerBears⟩
      · exact .inr ⟨t, inGrown, rfl, c, isCreated, rfl, (new t inGrown c isCreated x).mpr bears⟩

theorem agree_on_definitions (before : p.Regular d) (after : grown.Regular d) (grows : p.GrowsTo grown) :
    (∀ table name shape, Agree d p grown (.definition table name shape)) ↔
      p.Staying grown fun t after =>
        ∀ c ∈ after.columns, c.isPrimaryKey → ∃ b ∈ t.columns, b.name = c.name := by
  have anew := (Plan.regular_empty d).dialect
  simp only [agree_iff before.dialect after.dialect, definition_mem_created anew before.dialect,
    definition_mem_created anew after.dialect, definition_mem_created before.dialect after.dialect,
    createdIn_empty, shapeIn_empty]
  rw [agree_on_columns before after grows (fun c shape => shape = .ofNew d c)
    fun t c shape => shape = shapeIn d p t c, and_iff_right]
  · constructor
    · intro shapes t inPlan later inGrown same c inTable key
      rcases former_or_created before after inGrown inTable with
        ⟨former, formerIn, sameTable, b, inFormer, sameColumn⟩ | isCreated
      · obtain rfl := before.table_eq formerIn inPlan (sameTable.symm.trans same)
        exact ⟨b, inFormer, sameColumn.symm⟩
      · have shape := (shapes later inGrown c isCreated _).mp rfl
        have stays := (isNew_eq_false_iff (after.tableTexts later inGrown)).mpr ⟨t, inPlan, same.symm⟩
        rw [shapeIn, stays, if_neg Bool.false_ne_true] at shape
        rw [ColumnShape.isKey_of_ofAdded_eq_ofNew shape] at key
        cases key
    · intro keys t inGrown c isCreated shape
      rw [shapeIn_eq_ofNew before after keys inGrown isCreated]
  · -- The reference, all that may differ, is no part of the shape.
    intro t inPlan later inGrown same b inTable c inLater sameColumn shape
    rw [grows.column after.toWellNamed inPlan inGrown same inTable inLater sameColumn]
    exact Iff.rfl

theorem agree_on_foreignKeys (before : p.Regular d) (after : grown.Regular d) (grows : p.GrowsTo grown) :
    (∀ table name target, Agree d p grown (.foreignKey table name target)) ↔
      p.Staying grown fun t after =>
        ∀ b ∈ t.columns, ∀ c ∈ after.columns, c.name = b.name → c.references = b.references := by
  have anew := (Plan.regular_empty d).dialect
  simp only [agree_iff before.dialect after.dialect, foreignKey_mem_created anew before.dialect,
    foreignKey_mem_created anew after.dialect, foreignKey_mem_created before.dialect after.dialect,
    createdIn_empty]
  rw [agree_on_columns before after grows (fun c target => c.references = some target)
    fun _ c target => c.references = some target, and_iff_left fun _ _ _ _ _ => Iff.rfl]
  simp only [← Option.ext_iff]

theorem agree_on_indexes (before : p.Regular d) (after : grown.Regular d) (grows : p.GrowsTo grown) :
    (∀ table index, Agree d p grown (.index table index)) ↔
      p.Staying grown fun t after => ∀ i ∈ after.indexes, hasIndex t.indexes i → i ∈ t.indexes := by
  have anew := (Plan.regular_empty d).dialect
  simp only [agree_iff before.dialect after.dialect, index_mem_created anew before.dialect,
    index_mem_created anew after.dialect, index_mem_created before.dialect after.dialect,
    createdIndexes_empty]
  constructor
  · intro agree t inPlan later inGrown same i inLater had
    rcases (agree later.name i).mpr ⟨later, inGrown, rfl, inLater⟩ with
      ⟨former, formerIn, sameTable, inFormer⟩ | ⟨other, otherIn, sameTable, isCreated⟩
    · rwa [before.table_eq formerIn inPlan (sameTable.symm.trans same)] at inFormer
    · obtain rfl := after.table_eq inGrown otherIn sameTable
      have text := after.tableTexts later inGrown
      have lacking := ((mem_createdIndexes before.toWellNamed text i).mp isCreated).2
      simp [lacking t inPlan same.symm] at had
  · intro indexes table i
    constructor
    · intro given
      rcases given with ⟨t, inPlan, rfl, inTable⟩ | ⟨t, inGrown, rfl, isCreated⟩
      · rcases grows t inPlan with ⟨later, inGrown, growth⟩
        exact ⟨later, inGrown, growth.name.symm, growth.indexes inTable⟩
      · exact ⟨t, inGrown, rfl, createdIndexes_subset p t isCreated⟩
    · intro given
      rcases given with ⟨t, inGrown, rfl, inTable⟩
      by_cases had : ∃ former ∈ p.tables, t.name = former.name ∧ hasIndex former.indexes i
      · rcases had with ⟨former, inPlan, same, had⟩
        exact .inl ⟨former, inPlan, same, indexes former inPlan t inGrown same i inTable had⟩
      · have lacking : ∀ former ∈ p.tables, former.name = t.name → hasIndex former.indexes i = false := by
          intro former inPlan same
          rw [← Bool.not_eq_true]
          exact fun found => had ⟨former, inPlan, same.symm, found⟩
        exact .inr ⟨t, inGrown, rfl,
          (mem_createdIndexes before.toWellNamed (after.tableTexts t inGrown) i).mpr ⟨inTable, lacking⟩⟩

theorem agree_iff_completable (before : p.Regular d) (after : grown.Regular d) (grows : p.GrowsTo grown) :
    (∀ object, Agree d p grown object) ↔ p.Staying grown Table.Completable := by
  constructor
  · intro agree t inPlan later inGrown same
    exact ⟨(agree_on_definitions before after grows).mp (fun _ _ _ => agree _) t inPlan later inGrown same,
      (agree_on_foreignKeys before after grows).mp (fun _ _ _ => agree _) t inPlan later inGrown same,
      (agree_on_indexes before after grows).mp (fun _ _ => agree _) t inPlan later inGrown same⟩
  · intro completable object
    cases object with
    | table | column | enumType => exact agree_of_named before after grows rfl
    | definition table name shape =>
        exact (agree_on_definitions before after grows).mpr
          (fun t inPlan later inGrown same => (completable t inPlan later inGrown same).keys) table name shape
    | foreignKey table name target =>
        exact (agree_on_foreignKeys before after grows).mpr
          (fun t inPlan later inGrown same => (completable t inPlan later inGrown same).references)
          table name target
    | index table index =>
        exact (agree_on_indexes before after grows).mpr
          (fun t inPlan later inGrown same => (completable t inPlan later inGrown same).indexes) table index

end Diff
end SchemaMigration
