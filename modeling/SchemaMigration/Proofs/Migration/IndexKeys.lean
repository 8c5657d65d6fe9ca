import SchemaMigration.Proofs.Migration.IndexNames
import SchemaMigration.Proofs.Migration.Mirror
import SchemaMigration.Proofs.Plan.IndexColumns
/-!
What the key of an index tells about it. Kind and name can be read off it, but of the columns only what stands between
commas. That is enough for columns that a table has. Nothing keeps commas out of the columns that an index lists,
though, and a list of columns that is only cut at other commas has the same key, so that neither the migration nor its
report of skipped changes sees the change.
-/
namespace SchemaMigration

namespace Text

/-- What stands between the commas once the texts are joined by commas. -/
def commaPieces (texts : List String) : List (List Char) := texts.flatMap fun text => text.toList.splitOn ','

theorem splitOn_intercalate_comma {texts : List String} (filled : texts ≠ []) :
    (String.intercalate "," texts).toList.splitOn ',' = commaPieces texts := by
  induction texts with
  | nil => exact absurd rfl filled
  | cons first rest ih =>
      cases rest with
      | nil => simp [commaPieces]
      | cons second more =>
          have joined : (String.intercalate "," (first :: second :: more)).toList =
              first.toList ++ ',' :: (String.intercalate "," (second :: more)).toList := by simp
          rw [joined, List.splitOn_append_cons_self, ih (List.cons_ne_nil _ _)]
          rfl

theorem intercalate_comma_eq_iff {texts others : List String} (filled : texts ≠ []) (filled' : others ≠ []) :
    String.intercalate "," texts = String.intercalate "," others ↔ commaPieces texts = commaPieces others := by
  rw [← splitOn_intercalate_comma filled, ← splitOn_intercalate_comma filled']
  constructor
  · exact congrArg fun joined : String => joined.toList.splitOn ','
  · intro same
    have texts := congrArg (List.intercalate [',']) same
    rw [List.intercalate_splitOn, List.intercalate_splitOn] at texts
    exact String.toList_inj.mp texts

theorem commaPieces_eq_map {texts : List String} (plain : ∀ text ∈ texts, ',' ∉ text.toList) :
    commaPieces texts = texts.map String.toList := by
  rw [commaPieces, List.map_eq_flatMap]
  exact List.flatMap_congr fun text member => List.splitOn_eq_singleton (plain text member)

end Text

namespace Index

def columnPieces (i : Index) : List (List Char) := Text.commaPieces (i.columns.map Value.text)

/-- The indexes are of one kind and have one name, and the pieces of their columns are the same. -/
def Resembles (i j : Index) : Prop := i.kind = j.kind ∧ i.name = j.name ∧ i.columnPieces = j.columnPieces

instance (i j : Index) : Decidable (i.Resembles j) := inferInstanceAs (Decidable (_ ∧ _))

section
variable {i j : Index}

theorem key_eq_iff (first : ':' ∉ i.name.text.toList) (second : ':' ∉ j.name.text.toList) (filled : i.columns ≠ [])
    (filled' : j.columns ≠ []) :
    i.key = j.key ↔ i.kind = j.kind ∧ i.name.text = j.name.text ∧ i.columnPieces = j.columnPieces := by
  have lists := Text.intercalate_comma_eq_iff (mt List.map_eq_nil_iff.mp filled : i.columns.map Value.text ≠ [])
    (mt List.map_eq_nil_iff.mp filled' : j.columns.map Value.text ≠ [])
  constructor
  · intro same
    have kind := Plan.kind_eq_of_key_eq same
    have name := name_eq_of_key_eq first second same
    rw [key, key, kind, name, String.append_right_inj] at same
    exact ⟨kind, name, lists.mp same⟩
  · rintro ⟨kind, name, pieces⟩
    rw [key, key, kind, name, lists.mpr pieces]

theorem columnPieces_eq_map (plain : ∀ v ∈ i.columns, ',' ∉ v.text.toList) :
    i.columnPieces = (i.columns.map Value.text).map String.toList :=
  Text.commaPieces_eq_map (List.forall_mem_map.mpr plain)

theorem Typed.str_text_columns (typed : i.Typed) : (i.columns.map Value.text).map Value.str = i.columns := by
  rw [List.map_map]
  have same : ∀ v ∈ i.columns, (Value.str ∘ Value.text) v = id v := by
    intro v listed
    rcases typed.columns v listed with ⟨s, rfl⟩
    rfl
  rw [List.map_congr_left same, List.map_id]

theorem resembles_iff_eq (first : i.Typed) (second : j.Typed) (plain : ∀ v ∈ i.columns, ',' ∉ v.text.toList)
    (alsoPlain : ∀ v ∈ j.columns, ',' ∉ v.text.toList) : i.Resembles j ↔ i = j := by
  constructor
  · rintro ⟨kind, name, pieces⟩
    rw [columnPieces_eq_map plain, columnPieces_eq_map alsoPlain] at pieces
    have texts := List.map_injective_iff.mpr (fun _ _ => String.toList_injective) pieces
    have columns : i.columns = j.columns := by rw [← first.str_text_columns, texts, second.str_text_columns]
    calc
      i = ⟨i.name, i.columns, i.kind⟩ := rfl
      _ = j := by rw [kind, name, columns]
  · rintro rfl
    exact ⟨rfl, rfl, rfl⟩

end

end Index

namespace Plan
variable {d e : Dialect} {p q : Plan}

theorem Built.columns_ne_nil (built : p.Built d) {t : Table} (inPlan : t ∈ p.tables) {i : Index}
    (listed : i ∈ t.indexes) : i.columns ≠ [] := by
  rcases built with ⟨models, accepted, done⟩
  rcases build_eq_ok_iff.mp done with ⟨-, rfl⟩
  rcases List.mem_map.mp inPlan with ⟨entry, member, rfl⟩
  rcases (mem_indexes_buildTable ..).mp listed with ⟨declared, inModel, rfl⟩ | ⟨c, -, -, rfl⟩
  · have filled := ((accepted.models entry member).indexes declared inModel).someColumns
    exact mt List.map_eq_nil_iff.mp filled
  · exact List.cons_ne_nil _ _

theorem Built.comma_notMem (built : p.Built d) {t : Table} (inPlan : t ∈ p.tables) {c : Column}
    (inTable : c ∈ t.columns) : ',' ∉ c.name.text.toList := by
  rcases built with ⟨models, accepted, done⟩
  rcases build_eq_ok_iff.mp done with ⟨-, rfl⟩
  rcases List.mem_map.mp inPlan with ⟨entry, member, rfl⟩
  rcases (mem_buildColumns ..).mp inTable with ⟨a, inModel, rfl⟩
  exact Identifier.notMem_of_accepts ((accepted.models entry member).attributeNames a inModel) rfl (by decide)

section
variable (first : p.Built d) (second : q.Built e) {u t : Table} (inFirst : u ∈ p.tables) (inSecond : t ∈ q.tables)
  {j i : Index} (listed : j ∈ u.indexes) (alsoListed : i ∈ t.indexes)
include first second inFirst inSecond listed alsoListed

theorem Built.key_eq_iff_resembles : j.key = i.key ↔ j.Resembles i := by
  have names : j.name.text = i.name.text ↔ j.name = i.name := by
    constructor
    · have text := ((first.typed.tables u inFirst).indexes j listed).name
      exact text.eq_of_text_eq ((second.typed.tables t inSecond).indexes i alsoListed).name
    · exact congrArg Value.text
  rw [Index.key_eq_iff (first.colon_notMem inFirst listed) (second.colon_notMem inSecond alsoListed)
    (first.columns_ne_nil inFirst listed) (second.columns_ne_nil inSecond alsoListed), names]
  rfl

theorem Built.key_eq_iff_eq (fits : j.Fits u) (alsoFits : i.Fits t) : j.key = i.key ↔ j = i := by
  have plain : ∀ v ∈ j.columns, ',' ∉ v.text.toList := by
    intro v member
    rcases fits v member with ⟨c, inTable, rfl⟩
    exact first.comma_notMem inFirst inTable
  have alsoPlain : ∀ v ∈ i.columns, ',' ∉ v.text.toList := by
    intro v member
    rcases alsoFits v member with ⟨c, inTable, rfl⟩
    exact second.comma_notMem inSecond inTable
  rw [Built.key_eq_iff_resembles first second inFirst inSecond listed alsoListed]
  exact Index.resembles_iff_eq ((first.typed.tables u inFirst).indexes j listed)
    ((second.typed.tables t inSecond).indexes i alsoListed) plain alsoPlain

end

end Plan

theorem Statement.mem_filterMap_indexCreated? (statements : List Statement) (table name : Value) :
    (table, name) ∈ statements.filterMap indexCreated? ↔ ∃ i, .createIndex table i ∈ statements ∧ i.name = name := by
  rw [List.mem_filterMap]
  constructor
  · rintro ⟨s, member, found⟩
    cases s with
    | createIndex other i =>
        obtain ⟨rfl, rfl⟩ := Prod.mk.inj (Option.some.inj found)
        exact ⟨i, member, rfl⟩
    | _ => cases found
  · rintro ⟨i, member, rfl⟩
    exact ⟨_, member, rfl⟩

theorem SkippedChange.indexDrop_injective : Function.Injective indexDrop := by
  rintro ⟨table, name⟩ ⟨other, name'⟩ same
  rcases SkippedChange.mk.inj same with ⟨-, tables, names, -⟩
  exact Prod.ext tables (Option.some.inj names)

namespace Diff
variable {d e : Dialect} {p q : Plan}

theorem mem_missingIndexes_iff (past : p.WellNamed) {u t : Table} (inPast : u ∈ p.tables) (same : u.name = t.name)
    (i : Index) : i ∈ missingIndexes p t ↔ i ∈ t.indexes ∧ ∀ j ∈ u.indexes, j.key ≠ i.key := by
  rw [missingIndexes, List.mem_filter, decide_eq_true_iff, past.forall_namesake_iff inPast same]

theorem createIndex_mem_statementsFor_iff (d : Dialect) (previous : Plan) (t : Table) (table : Value) (i : Index) :
    Statement.createIndex table i ∈ statementsFor d previous t ↔ table = t.name ∧ i ∈ missingIndexes previous t := by
  rw [statementsFor]
  split <;> split <;> simp [eq_comm, and_comm]

section
variable (past : p.Regular d) (now : q.Regular d)
include past now

theorem createIndex_mem_statements_iff {t : Table} (inPlan : t ∈ q.tables) (i : Index) :
    Statement.createIndex t.name i ∈ (statements (some p) q).value ↔ i ∈ missingIndexes p t := by
  have types : Statement.createIndex t.name i ∉ EnumTypes.createTypes (newTypes p q) := by simp [EnumTypes.createTypes]
  rw [(statements_perm past now).mem_iff, List.mem_append, or_iff_right types, List.mem_flatMap]
  simp only [createIndex_mem_statementsFor_iff]
  constructor
  · rintro ⟨other, alsoInPlan, same, missing⟩
    rwa [now.table_eq inPlan alsoInPlan same]
  · exact fun missing => ⟨t, inPlan, rfl, missing⟩

theorem indexDrop_mem_skipped_iff (table name : Value) :
    SkippedChange.indexDrop (table, name) ∈ (skipped (some p) q).value ↔ (∃ t ∈ q.tables, t.name = table) ∧
      ∃ j, Statement.createIndex table j ∈ (statements (some q) p).value ∧ j.name = name := by
  have kind : (SkippedChange.indexDrop (table, name)).kind = .dropIndex := rfl
  have filtered : SkippedChange.indexDrop (table, name) ∈ (skipped (some p) q).value ↔
      SkippedChange.indexDrop (table, name) ∈ (skipped (some p) q).value.filter (·.kind = .dropIndex) := by
    simp [List.mem_filter, kind]
  rw [filtered, (filter_kind_perm past now (by decide)).mem_iff, filter_removal?_dropIndex,
    List.mem_map_of_injective SkippedChange.indexDrop_injective, List.mem_filter, decide_eq_true_iff, and_comm,
    Statement.mem_filterMap_indexCreated?]

theorem indexDrop_mem_skipped_iff_missing {u t : Table} (inPast : u ∈ p.tables) (inPlan : t ∈ q.tables)
    (same : t.name = u.name) (name : Value) :
    SkippedChange.indexDrop (u.name, name) ∈ (skipped (some p) q).value ↔ ∃ j ∈ missingIndexes q u, j.name = name := by
  have stays : ∃ t ∈ q.tables, t.name = u.name := ⟨t, inPlan, same⟩
  rw [indexDrop_mem_skipped_iff past now, and_iff_right stays]
  exact exists_congr fun j => and_congr_left' (createIndex_mem_statements_iff now past inPast j)

end

/--
Indexes of built plans have the same key exactly if kind and name are the same and the columns have the same pieces
between commas; indexes of columns that their tables have are the same then. In a table that stays, a migration creates
the indexes that no former one resembles, and the drops that it skips are those of the former indexes that none resembles
now.
-/
theorem index_changes_seen_iff (first : p.Built d) (second : q.Built e) :
    (∀ u ∈ p.tables, ∀ t ∈ q.tables, ∀ j ∈ u.indexes, ∀ i ∈ t.indexes,
      (j.key = i.key ↔ j.Resembles i) ∧ (j.Fits u → i.Fits t → (j.key = i.key ↔ j = i))) ∧
    (d = e → p.Staying q fun u t =>
      (∀ i ∈ t.indexes, .createIndex t.name i ∈ (statements (some p) q).value ↔ ∀ j ∈ u.indexes, ¬ j.Resembles i) ∧
      ∀ name, .indexDrop (u.name, name) ∈ (skipped (some p) q).value ↔
        ∃ j ∈ u.indexes, j.name = name ∧ ∀ i ∈ t.indexes, ¬ j.Resembles i) := by
  have keys : ∀ u ∈ p.tables, ∀ t ∈ q.tables, ∀ j ∈ u.indexes, ∀ i ∈ t.indexes, (j.key = i.key ↔ j.Resembles i) :=
    fun u inFirst t inSecond j listed i alsoListed =>
      Plan.Built.key_eq_iff_resembles first second inFirst inSecond listed alsoListed
  refine ⟨?_, ?_⟩
  · intro u inFirst t inSecond j listed i alsoListed
    exact ⟨keys u inFirst t inSecond j listed i alsoListed,
      Plan.Built.key_eq_iff_eq first second inFirst inSecond listed alsoListed⟩
  · rintro rfl u inPast t inPlan same
    have past := first.regular
    have now := second.regular
    constructor
    · intro i listed
      rw [createIndex_mem_statements_iff past now inPlan, mem_missingIndexes_iff past.toWellNamed inPast same.symm,
        and_iff_right listed]
      exact forall₂_congr fun j formerly => not_congr (keys u inPast t inPlan j formerly i listed)
    · intro name
      rw [indexDrop_mem_skipped_iff_missing past now inPast inPlan same]
      apply exists_congr
      intro j
      rw [mem_missingIndexes_iff now.toWellNamed inPlan same, and_right_comm, and_assoc]
      apply and_congr_right
      intro formerly
      apply and_congr_right'
      apply forall₂_congr
      intro i listed
      rw [← keys u inPast t inPlan j formerly i listed, ne_comm]

/-- An index that gets a second column is created anew, and the drop of the former one is told about. -/
theorem second_column_seen :
    .createIndex (.str "users") ⟨.str "by_email", [.str "email", .str "id"], .plain⟩ ∈
        (statements (some (Plan.postgresOf (usersIndexed ["email"] [])))
          (Plan.postgresOf (usersIndexed ["email", "id"] []))).value ∧
      .indexDrop (.str "users", .str "by_email") ∈
        (skipped (some (Plan.postgresOf (usersIndexed ["email"] [])))
          (Plan.postgresOf (usersIndexed ["email", "id"] []))).value := by
  have first : (Plan.postgresOf (usersIndexed ["email"] [])).Built .postgres :=
    Plan.postgresOf_built (by decide) (by decide)
  have second : (Plan.postgresOf (usersIndexed ["email", "id"] [])).Built .postgres :=
    Plan.postgresOf_built (by decide) (by decide)
  rcases (index_changes_seen_iff first second).2 rfl _ (List.mem_singleton_self _) _ (List.mem_singleton_self _) rfl with
    ⟨created, dropped⟩
  exact ⟨(created _ (by decide)).mpr (by decide), (dropped _).mpr (by decide)⟩

/-- An index over two columns has the key of one over a single column that is called like both. -/
theorem joined_columns_share_key : ¬ ∀ (d e : Dialect) (p q : Plan), p.Built d → q.Built e →
    ∀ u ∈ p.tables, ∀ t ∈ q.tables, ∀ j ∈ u.indexes, ∀ i ∈ t.indexes,
      (j.key = i.key ↔ j.kind = i.kind ∧ j.name = i.name ∧ j.columns = i.columns) := by
  intro claimed
  have first : (Plan.postgresOf (usersIndexed ["email", "id"] [])).Built .postgres :=
    Plan.postgresOf_built (by decide) (by decide)
  have second : (Plan.postgresOf (usersIndexed ["email,id"] [])).Built .postgres :=
    Plan.postgresOf_built (by decide) (by decide)
  have same := claimed .postgres .postgres _ _ first second _ (List.mem_singleton_self _) _ (List.mem_singleton_self _)
    ⟨.str "by_email", [.str "email", .str "id"], .plain⟩ (by decide) ⟨.str "by_email", [.str "email,id"], .plain⟩ (by decide)
  exact absurd (same.mp (by decide)).2.2 (by decide)

end Diff
end SchemaMigration
