import SchemaMigration.Proofs.Migration.Files
import SchemaMigration.Proofs.Migration.ObjectNames
import SchemaMigration.Proofs.Plan.References
import SchemaMigration.Proofs.Scripts.OnePerSlug
import SchemaMigration.Proofs.Text.Slug
/-!
Whether the files of a migration can be told apart by their slugs. A slug names what the file is about: a table that is
created, a foreign key, an index, a table that is altered. It does so without capital letters and line breaks, so two
names that differ in these alone give one slug, and so do two indexes of one name.
-/
namespace SchemaMigration
open Migration

/-- What a file of a migration is about, in names. -/
inductive Subject where
  | creation (table : String)
  | key (table column : String)
  | index (table name : String)
  | alteration (table : String)
  deriving DecidableEq

namespace Subject
open Slug Identifier

def slug : Subject → String
  | creation table => createTableSlug (.str table)
  | key table column => foreignKeySlug (.str table) (.str column)
  | index table name => indexSlug (.str table) (.str name)
  | alteration table => Diff.alterTableSlug (.str table)

def names : Subject → List String
  | creation table | alteration table => [table]
  | key table column => [table, column]
  | index table name => [table, name]

def words : Subject → List (List Char)
  | creation table => ["create".toList, folded table, "table".toList]
  | key table column => ["alter".toList, folded table, folded column]
  | index table name => ["create".toList, folded name, "index".toList, "in".toList, folded table]
  | alteration table => ["alter".toList, folded table, "table".toList]

theorem words_ne_nil (s : Subject) : s.words ≠ [] := by cases s <;> exact List.cons_ne_nil _ _

theorem folded_slug (s : Subject) : folded s.slug = dashed s.words := by
  cases s <;> simp only [slug, createTableSlug, foreignKeySlug, indexSlug, Diff.alterTableSlug, Value.text, words,
    folded_append, dashed_cons_cons] <;> simp [folded, dashed, ofChar, isSlugChar]

theorem isWord_of_mem_words {s : Subject} (spelled : ∀ name ∈ s.names, IsSpelled name) :
    ∀ word ∈ s.words, IsWord word := by
  have fixed : ∀ word ∈ ["create".toList, "alter".toList, "table".toList, "index".toList, "in".toList],
      IsWord word := by decide
  simp only [List.forall_mem_cons] at fixed
  rcases fixed with ⟨create, alter, table, index, inside, -⟩
  cases s <;> simp only [names, List.forall_mem_cons] at spelled <;> simp only [words, List.forall_mem_cons]
  case creation => exact ⟨create, isWord_folded spelled.1, table, nofun⟩
  case key => exact ⟨alter, isWord_folded spelled.1, isWord_folded spelled.2.1, nofun⟩
  case index => exact ⟨create, isWord_folded spelled.2.1, index, inside, isWord_folded spelled.1, nofun⟩
  case alteration => exact ⟨alter, isWord_folded spelled.1, table, nofun⟩

theorem ofText_slug_inj {a b : Subject} (spelled : ∀ name ∈ a.names, IsSpelled name)
    (spelled' : ∀ name ∈ b.names, IsSpelled name) : ofText a.slug = ofText b.slug ↔ a.words = b.words := by
  have first := isWord_of_mem_words spelled
  have second := isWord_of_mem_words spelled'
  rw [ofText_of_dashed a.words_ne_nil first a.folded_slug, ofText_of_dashed b.words_ne_nil second b.folded_slug,
    String.ofList_inj, dashed_inj a.words_ne_nil b.words_ne_nil first second]

end Subject

/-- Pairs of an owner and a part are distinct where the owners are, exactly if the parts of each owner are. -/
theorem nodup_flatMap_map_iff {α β γ κ : Type} {items : List α} {tag : α → κ} {parts : α → List β} {f : κ → β → γ}
    (injective : ∀ {a b x y}, f a x = f b y → a = b ∧ x = y) (distinct : (items.map tag).Nodup) :
    (items.flatMap fun a => (parts a).map (f (tag a))).Nodup ↔ ∀ a ∈ items, (parts a).Nodup := by
  have each : ∀ a, ((parts a).map (f (tag a))).Nodup ↔ (parts a).Nodup := fun a =>
    List.nodup_map_iff fun _ _ same => (injective same).2
  have apart : items.Pairwise (Function.onFun List.Disjoint fun a => (parts a).map (f (tag a))) := by
    refine (List.pairwise_map.mp distinct).imp fun different z first second => ?_
    rcases List.mem_map.mp first with ⟨x, -, rfl⟩
    rcases List.mem_map.mp second with ⟨y, -, same⟩
    exact different (injective same).1.symm
  rw [List.nodup_flatMap, and_iff_left apart]
  exact forall₂_congr fun a _ => each a

namespace Diff

def creations (previous current : Plan) : List Table := current.tables.filter (isNew previous)

def IsAltered (previous : Plan) (t : Table) : Prop :=
  isNew previous t = false ∧ (createdIn previous t ≠ [] ∨ createdIndexes previous t ≠ [])

instance (previous : Plan) (t : Table) : Decidable (IsAltered previous t) := inferInstanceAs (Decidable (_ ∧ _))

def alterations (previous current : Plan) : List Table := current.tables.filter (IsAltered previous)

/-- The columns whose foreign keys are added in files of their own. -/
def separateKeys (d : Dialect) (t : Table) : List String := if d = .sqlite then [] else t.keyTexts

def tableSubjects (d : Dialect) (tables : List Table) : List Subject :=
  tables.map (.creation ·.name.text) ++ (tables.flatMap fun t => (separateKeys d t).map (.key t.name.text)) ++
    tables.flatMap fun t => t.indexTexts.map (.index t.name.text)

/-- What a migration has files about, in their order. -/
def subjects (previous current : Plan) : List Subject :=
  tableSubjects current.dialect (creations previous current) ++
    (alterations previous current).map (.alteration ·.name.text)

section
variable (d : Dialect)

theorem map_slug_createTableFiles (types : EnumTypes) (tables : List Table) :
    (createTableFiles d types tables).value.2.map (·.slug) = (tables.map (.creation ·.name.text)).map Subject.slug := by
  induction tables generalizing types with
  | nil => rfl
  | cons t rest ih =>
      rw [createTableFiles_cons, List.map_cons, List.map_cons, List.map_cons, ih]
      rfl

theorem map_slug_foreignKeyFiles (t : Table) :
    (foreignKeyFiles d t).value.map (·.slug) = ((separateKeys d t).map (.key t.name.text)).map Subject.slug := by
  simp only [foreignKeyFiles, Reported.value_bind, Reported.value_collect, Reported.value_pure, separateKeys,
    Table.keyTexts]
  induction t.columns with
  | nil => simp
  | cons c rest ih =>
      rw [List.map_cons, List.flatten_cons, List.map_append, ih, foreignKey_value]
      by_cases inline : d = .sqlite
      · simp [inline]
      · cases references : c.references <;> simp [inline, references]
        rfl

theorem map_slug_indexFiles (t : Table) :
    (indexFiles d t).value.map (·.slug) = (t.indexTexts.map (.index t.name.text)).map Subject.slug := by
  rw [indexFiles, Reported.value_collect, Table.indexTexts, List.map_map, List.map_map, List.map_map]
  rfl

theorem map_slug_tableFiles (types : EnumTypes) (tables : List Table) :
    (tableFiles d types tables).value.2.map (·.slug) = (tableSubjects d tables).map Subject.slug := by
  change List.map _ (_ ++ List.flatten _ ++ List.flatten _) = _
  simp only [Reported.value_collect, List.map_append, List.map_flatten, List.map_map, tableSubjects, List.map_flatMap]
  rw [map_slug_createTableFiles, List.map_map]
  simp only [Function.comp_def, map_slug_foreignKeyFiles, map_slug_indexFiles, List.flatMap_def, List.map_map]

theorem alterStatements_ne_nil_iff {previous : Plan} (types : EnumTypes) {before t : Table}
    (found : previous.table? t.name = some before) : alterStatements d types before t ≠ [] ↔ IsAltered previous t := by
  have stays : isNew previous t = false := by simp [isNew, found]
  rw [alterStatements_eq d types found, IsAltered, and_iff_right stays, Ne, List.append_eq_nil_iff, List.map_eq_nil_iff,
    not_and_or]
  apply or_congr_left
  cases createdIn previous t with
  | nil => exact iff_of_false (not_not.mpr rfl) (not_not.mpr rfl)
  | cons c rest =>
      rw [addColumns_cons _ _ _ _ _ _ rfl]
      simp

theorem map_slug_alterTableFiles (previous : Plan) (types : EnumTypes) (tables : List Table) :
    (alterTableFiles d previous types tables).value.map (·.slug) =
      ((tables.filter (IsAltered previous)).map (.alteration ·.name.text)).map Subject.slug := by
  induction tables generalizing types with
  | nil => rfl
  | cons t rest ih =>
      rw [alterTableFiles]
      cases found : previous.table? t.name with
      | none =>
          have new : ¬ IsAltered previous t := by simp [IsAltered, isNew, found]
          rw [List.filter_cons_of_neg (by simpa using new)]
          exact ih types
      | some before =>
          have something := alterStatements_ne_nil_iff d types found
          simp only [Reported.value_bind, Reported.value_pure, alterTableFile_value]
          by_cases empty : alterStatements d types before t = []
          · rw [empty, List.isEmpty_nil, if_pos rfl, ih, List.filter_cons_of_neg]
            simpa [empty] using something
          · rw [if_neg (by simpa using empty), List.map_cons, ih, List.filter_cons_of_pos]
            · rfl
            · simpa [empty] using something

end

/-- What stood before the migration: nothing, if there is no former plan. -/
def former (previous : Option Plan) (current : Plan) : Plan := previous.getD (.empty current.dialect)

theorem creations_empty (p : Plan) : creations (.empty p.dialect) p = p.tables :=
  List.filter_eq_self.mpr fun _ _ => rfl

theorem alterations_empty (p : Plan) : alterations (.empty p.dialect) p = [] :=
  List.filter_eq_nil_iff.mpr fun _ _ => by simp [IsAltered, isNew, Plan.table?, Plan.empty]

theorem map_slug_files {previous : Option Plan} {current : Plan} (same : ∀ p ∈ previous, p.dialect = current.dialect) :
    (files previous current).value.map (·.slug) = (subjects (former previous current) current).map Subject.slug := by
  cases previous with
  | none =>
      rw [former, Option.getD_none, subjects, creations_empty, alterations_empty, List.map_nil, List.append_nil]
      exact map_slug_tableFiles current.dialect {} current.tables
  | some p =>
      have incremental : isFullRebuild (some p) current = false := by simp [isFullRebuild, same p rfl]
      have made : files (some p) current = additions p current := by simp [files, incremental]
      have parts : (additions p current).value =
          (tableFiles current.dialect (knownTypes p).value (creations p current)).value.2 ++
            (alterTableFiles current.dialect p
              (tableFiles current.dialect (knownTypes p).value (creations p current)).value.1 current.tables).value :=
        rfl
      rw [made, parts, List.map_append, subjects, List.map_append, map_slug_tableFiles, map_slug_alterTableFiles]
      rfl

end Diff
end SchemaMigration
