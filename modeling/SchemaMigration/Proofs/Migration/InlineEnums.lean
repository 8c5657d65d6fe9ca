import SchemaMigration.Proofs.Migration.Told
import SchemaMigration.Proofs.Migration.TypeValues
import SchemaMigration.Proofs.Sql.Reading
/-!
Enum columns where types are written inside the columns. Every created column shows its own values there, whatever other
columns of its name have. The types are still kept account of by name, though, so that a column whose values another one
does not share is told to be given up, which it is not.
-/
namespace SchemaMigration

namespace Sql

theorem exists_intercalate_eq (between : String) (first : List String) (text : String) (rest : List String) :
    ∃ after, String.intercalate between (first ++ text :: rest) =
      String.join (first.map (· ++ between)) ++ text ++ after := by
  induction first with
  | nil =>
      cases rest with
      | nil => exact ⟨"", by simp⟩
      | cons next later => exact ⟨between ++ String.intercalate between (next :: later), by simp [String.append_assoc]⟩
  | cons one more ih =>
      rcases ih with ⟨after, whole⟩
      refine ⟨after, ?_⟩
      rw [List.cons_append, String.intercalate_cons_of_ne_nil (by simp), whole, List.map_cons, String.join_cons]
      simp only [String.append_assoc]

theorem exists_spaced_eq (first second : String) (rest : List String) :
    ∃ after, spaced (first :: second :: rest) = first ++ " " ++ second ++ after := by
  cases rest with
  | nil => exact ⟨"", by simp [spaced]⟩
  | cons third more =>
      exact ⟨" " ++ spaced (third :: more), by simp [spaced, String.intercalate_cons_cons, String.append_assoc]⟩

def enumOpening (d : Dialect) (c : Column) : String :=
  match d with
  | .sqlite => "TEXT CHECK (" ++ quoted d c.name ++ " IN ("
  | _ => "ENUM("

def enumClosing : Dialect → String
  | .sqlite => "))"
  | _ => ")"

section
variable {d : Dialect} {c : Column} (inline : d ≠ .postgres)

theorem endsList_enumClosing (d : Dialect) (after : String) : EndsList (enumClosing d ++ after) := by
  cases d <;> simp [EndsList, enumClosing]

include inline

theorem columnType_inline (enum : c.isEnum) :
    columnType d c = enumOpening d c ++ literals c.enumMembers ++ enumClosing d := by
  rw [columnType, if_pos enum]
  cases d with
  | postgres => exact absurd rfl inline
  | mysql => rfl
  | sqlite => simp [enumType, enumOpening, enumClosing, String.append_assoc]

theorem keyType_inline : keyType d c = columnType d c := by
  cases d with
  | postgres => exact absurd rfl inline
  | mysql | sqlite => rfl

theorem definitions_inline (c : Column) :
    (∃ after, definition d c = quoted d c.name ++ " " ++ columnType d c ++ after) ∧
      ∃ after, addedDefinition d c = quoted d c.name ++ " " ++ columnType d c ++ after := by
  constructor
  · rw [definition, keyType_inline inline, ite_self]
    exact exists_spaced_eq ..
  · exact exists_spaced_eq ..

end

end Sql

namespace Statement
open Sql

/-- The text of a statement in front of the definition of a column that comes behind these ones. -/
def upTo (d : Dialect) (s : Statement) (first : List Column) : String :=
  match s with
  | .createTable table _ =>
    "CREATE TABLE " ++ quoted d table ++ " (\n  " ++ String.join (first.map fun b => definition d b ++ ",\n  ")
  | .addColumn table _ => "ALTER TABLE " ++ quoted d table ++ " ADD COLUMN "
  | _ => ""

/--
Where the statement defines the enum column, behind other ones, the name is followed by a type with the values of the
column. They are read back from there if no backslash gets lost.
-/
def ShowsValues (d : Dialect) (s : Statement) (c : Column) : Prop :=
  ∀ first rest, s.defines = first ++ c :: rest → ∃ after,
    s.text d = s.upTo d first ++ (quoted d c.name ++ " " ++ enumOpening d c) ++
      (literals c.enumMembers ++ (enumClosing d ++ after)) ∧
    (readLiterals? d (literals c.enumMembers ++ (enumClosing d ++ after)) = some (c.enumMembers, enumClosing d ++ after) ↔
      ∀ v ∈ c.enumMembers, Survives d v)

theorem exists_text_eq {d : Dialect} (inline : d ≠ .postgres) {s : Statement} {c : Column} {first rest : List Column}
    (defined : s.defines = first ++ c :: rest) :
    ∃ after, s.text d = s.upTo d first ++ (quoted d c.name ++ " " ++ columnType d c) ++ after := by
  rcases definitions_inline inline c with ⟨⟨tail, created⟩, ⟨addedTail, added⟩⟩
  cases s with
  | createTable table columns =>
      obtain rfl : columns = first ++ c :: rest := defined
      rcases exists_intercalate_eq ",\n  " (first.map (definition d)) (definition d c) (rest.map (definition d)) with
        ⟨after, lines⟩
      have text : (Statement.createTable table (first ++ c :: rest)).text d =
        "CREATE TABLE " ++ quoted d table ++ " (\n  " ++ columnLines d (first ++ c :: rest) ++ "\n);" := rfl
      rw [text, columnLines, List.map_append, List.map_cons, lines, created, List.map_map]
      refine ⟨tail ++ after ++ "\n);", ?_⟩
      simp only [upTo, String.append_assoc]
      rfl
  | addColumn table b =>
      have inside : c ∈ (Statement.addColumn table b).defines := by
        rw [defined]
        exact List.mem_append_right _ List.mem_cons_self
      obtain rfl := List.mem_singleton.mp inside
      have text : (Statement.addColumn table c).text d =
        "ALTER TABLE " ++ quoted d table ++ " ADD COLUMN " ++ addedDefinition d c ++ ";" := rfl
      rw [text, added]
      exact ⟨addedTail ++ ";", by simp only [upTo, String.append_assoc]⟩
  | _ => exact absurd defined.symm (List.append_ne_nil_of_right_ne_nil _ (List.cons_ne_nil _ _))

theorem showsValues_of_isEnum {d : Dialect} (inline : d ≠ .postgres) (s : Statement) {c : Column} (enum : c.isEnum) :
    s.ShowsValues d c := by
  intro first rest defined
  rcases exists_text_eq inline defined with ⟨after, text⟩
  rw [columnType_inline inline enum] at text
  refine ⟨after, ?_, readLiterals?_eq_some_iff d c.enumMembers (endsList_enumClosing d after)⟩
  rw [text]
  simp only [String.append_assoc]

end Statement

namespace Diff
open Migration
variable {previous : Option Plan} {current : Plan}

/-- The columns that a migration creates: without a former plan, all of them. -/
def columnsBrought (previous : Option Plan) (current : Plan) : List Column :=
  createdColumns (previous.getD (.empty current.dialect)) current

/-- The columns would share a type that is new, but not the values of it. -/
@[mk_iff] structure Clash (previous : Option Plan) (b c : Column) : Prop where
  enum : b.isEnum
  alsoEnum : c.isEnum
  type : Sql.enumTypeName b = Sql.enumTypeName c
  new : ∀ p ∈ previous, Sql.enumTypeName c ∉ p.enumTypeNames
  values : b.enumMembers ≠ c.enumMembers

instance (previous : Option Plan) (b c : Column) : Decidable (Clash previous b c) :=
  decidable_of_iff' _ (clash_iff previous b c)

theorem mem_createdColumns_iff_defined (previous current : Plan) (c : Column) :
    c ∈ createdColumns previous current ↔
      ∃ s ∈ MigrationFile.flatten (additions previous current).value, c ∈ s.defines := by
  constructor
  · intro isCreated
    rcases (mem_createdColumns ..).mp isCreated with ⟨t, inPlan, inTable⟩
    have creates : ∃ s ∈ columnStatements previous t, c ∈ s.defines := by
      rw [columnStatements]
      by_cases new : isNew previous t
      · rw [if_pos new]
        exact ⟨_, List.mem_singleton_self _, by rwa [createdIn_of_isNew new] at inTable⟩
      · rw [if_neg new]
        exact ⟨_, List.mem_map_of_mem inTable, List.mem_singleton_self c⟩
    rcases creates with ⟨s, listed, defined⟩
    have inStatements : s ∈ tableStatements current.dialect previous t :=
      List.mem_append_left _ (List.mem_append_left _ listed)
    have member := List.mem_append_right
      ((knownTypes previous).value.declare current.dialect (createdColumns previous current)).value.2
      (List.mem_flatMap.mpr ⟨t, inPlan, inStatements⟩)
    exact ⟨s, (additions_perm previous current).mem_iff.mpr member, defined⟩
  · rintro ⟨s, member, defined⟩
    exact defines_subset_createdColumns member defined

theorem exists_of_firstValues? {columns : List Column} {name : String} {values : List String}
    (first : firstValues? columns name = some values) :
    ∃ b ∈ columns, b.isEnum ∧ Sql.enumTypeName b = name ∧ b.enumMembers = values := by
  rcases Option.map_eq_some_iff.mp first with ⟨b, found, members⟩
  have named := List.find?_some found
  rw [Bool.and_eq_true, beq_iff_eq] at named
  exact ⟨b, List.mem_of_find?_eq_some found, named.1, named.2, members⟩

theorem forall_former_iff_getD {d : Dialect} (name : String) :
    (∀ p ∈ previous, name ∉ p.enumTypeNames) ↔ name ∉ (previous.getD (.empty d)).enumTypeNames := by
  cases previous with
  | none => simp [Plan.enumTypeNames, enumColumns, Plan.empty]
  | some p => simp

section
variable {about : Notice → Prop} (news : IgnoresNews about) (skips : ∀ description, ¬ about (.changeSkipped description))
  (same : ∀ p ∈ previous, p.dialect = current.dialect)
include news skips same

theorem clash_of_tells (told : (statements previous current).Tells about) :
    ∃ b ∈ columnsBrought previous current, ∃ c ∈ columnsBrought previous current, Clash previous b c ∧
      about (.enumValuesIgnored (Sql.enumTypeName c) b.enumMembers c.enumMembers c.name) := by
  rw [tells_statements_iff_additions news skips same, tells_additions_iff news] at told
  rcases told with ⟨c, isBrought, enum, new, values, first, differ, about⟩
  rcases exists_of_firstValues? first with ⟨b, alsoBrought, alsoEnum, type, rfl⟩
  exact ⟨b, alsoBrought, c, isBrought, ⟨alsoEnum, enum, type, (forall_former_iff_getD _).mpr new, differ⟩, about⟩

theorem tells_of_clash (given : ∀ name kept ignored column, about (.enumValuesIgnored name kept ignored column))
    {b c : Column} (first : b ∈ columnsBrought previous current) (second : c ∈ columnsBrought previous current)
    (clash : Clash previous b c) : (statements previous current).Tells about := by
  rw [tells_statements_iff_additions news skips same, tells_additions_iff news]
  have new := (forall_former_iff_getD (d := current.dialect) _).mp clash.new
  have brought := (isSome_firstValues?_iff (columnsBrought previous current) _).mpr ⟨c, second, clash.alsoEnum, rfl⟩
  rcases Option.isSome_iff_exists.mp brought with ⟨values, found⟩
  by_cases own : values = c.enumMembers
  · have differ : values ≠ b.enumMembers := own ▸ clash.values.symm
    exact ⟨b, first, clash.enum, by rwa [clash.type], values, by rw [clash.type]; exact found, differ, given ..⟩
  · exact ⟨c, second, clash.alsoEnum, new, values, found, own, given ..⟩

end

/--
Where enum columns have no types of their own, a migration that is put together shows the values of every enum column that
it creates. It is told that values are given up exactly if two of these columns would clash as to a type, and what is told
names a column that shows the values all the same.
-/
theorem values_shown_and_told_iff (same : ∀ p ∈ previous, p.dialect = current.dialect)
    (inline : current.dialect ≠ .postgres) :
    (∀ n ∈ (statements previous current).notices, n.typeName? ≠ none →
      ∃ b ∈ columnsBrought previous current, ∃ c ∈ columnsBrought previous current, Clash previous b c ∧
        n = .enumValuesIgnored (Sql.enumTypeName c) b.enumMembers c.enumMembers c.name) ∧
    ∀ rendered, (statements previous current).outcome = .ok rendered →
      (∀ c, c ∈ columnsBrought previous current ↔ ∃ s ∈ rendered, c ∈ s.defines) ∧
      (∀ s ∈ rendered, ∀ c ∈ s.defines, c.isEnum → s.ShowsValues current.dialect c) ∧
      ((∀ n ∈ (statements previous current).notices, n.typeName? = none) ↔
        ∀ b ∈ columnsBrought previous current, ∀ c ∈ columnsBrought previous current, ¬ Clash previous b c) := by
  have clashes : ∀ n ∈ (statements previous current).notices, n.typeName? ≠ none →
      ∃ b ∈ columnsBrought previous current, ∃ c ∈ columnsBrought previous current, Clash previous b c ∧
        n = .enumValuesIgnored (Sql.enumTypeName c) b.enumMembers c.enumMembers c.name := by
    intro n member named
    have told : (statements previous current).Tells (n = ·) := ⟨n, Reported.mem_of_mem_noticesOf member, rfl⟩
    have unlike : ∀ m : Notice, m.typeName? = none → n ≠ m := fun m unnamed equal => named (equal ▸ unnamed)
    have news : IgnoresNews (n = ·) :=
      ⟨fun _ => unlike _ rfl, fun _ _ => unlike _ rfl, fun _ _ => unlike _ rfl⟩
    exact clash_of_tells news (fun _ => unlike _ rfl) same told
  refine ⟨clashes, ?_⟩
  intro rendered done
  rcases (Reported.outcome_eq_ok_iff ..).mp done with ⟨succeeds, rfl⟩
  refine ⟨?_, ?_, ?_⟩
  · intro c
    rw [statements_eq_additions same]
    exact mem_createdColumns_iff_defined ..
  · exact fun s _ c _ enum => s.showsValues_of_isEnum inline enum
  · constructor
    · intro silent b first c second clash
      have news : IgnoresNews (·.typeName? ≠ none) :=
        ⟨fun _ => not_not_intro rfl, fun _ _ => not_not_intro rfl, fun _ _ => not_not_intro rfl⟩
      have told := tells_of_clash news (fun _ => not_not_intro rfl) same (fun _ _ _ _ => nofun) first second clash
      rcases succeeds.tells_iff.mp told with ⟨n, member, named⟩
      exact named (silent n member)
    · intro apart n member
      by_contra named
      rcases clashes n member named with ⟨b, first, c, second, clash, -⟩
      exact apart b first c second clash

def plannedStates (d : Dialect) (models : List (String × List String)) : Plan :=
  let models := models.map fun entry => (entry.1, {
    name := entry.1
    attributes := [("id", {}), ("state", { enumValues := some entry.2 })] })
  .buildWith (.ofModels models) models d

def formerPosts : Plan := plannedStates .mysql [("Post", ["open", "closed"])]

def postsAndNotes : Plan := plannedStates .mysql [("Post", ["open", "closed"]), ("Note", ["closed", "open"])]

theorem note_states_shown :
    (∀ n ∈ (statements (some formerPosts) postsAndNotes).notices, n.typeName? = none) ∧
      ∀ s ∈ (statements (some formerPosts) postsAndNotes).value, ∀ c ∈ s.defines, c.isEnum → s.ShowsValues .mysql c := by
  have same : ∀ p ∈ some formerPosts, p.dialect = postsAndNotes.dialect := by decide
  rcases (values_shown_and_told_iff same (by decide)).2 _ rfl with ⟨-, values, told⟩
  exact ⟨told.mpr (by decide), values⟩

/-- The states of the notes are told to be given up for those of the posts. -/
theorem note_states_told : ¬ ∀ (d : Dialect) (previous : Option Plan) (current : Plan), d ≠ .postgres →
    (∀ p ∈ previous, p.Built d) → current.Built d →
      ∀ n ∈ (statements previous current).notices, n.typeName? = none := by
  intro claimed
  have built : postsAndNotes.Built .mysql := Plan.built_buildWith .mysql (by decide) (by decide)
  exact absurd (claimed .mysql none postsAndNotes (by decide) nofun built) (by decide)

end Diff
end SchemaMigration
