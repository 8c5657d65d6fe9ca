import SchemaMigration.Proofs.Migration.Skipped
import SchemaMigration.Proofs.Plan.Spelled
import SchemaMigration.Proofs.Text.ControlSequence
import Mathlib.Data.List.TakeWhile
import Mathlib.Data.String.Basic
/-!
Alterations in the dialect that cannot alter a column. What comes with them is a comment that names the table, the
column and the new type, and with the type of an enum all of its members. A comment ends with its line, so it depends on
these texts whether there is anything behind it.
-/
namespace SchemaMigration

namespace Text
open Identifier

/-- The characters that end a line, in SQL or elsewhere. -/
def lineBreaks : List Char :=
  ['\n', '\r', '\x0b', '\x0c', '\x1c', '\x1d', '\x1e', '\u0085', '\u2028', '\u2029']

/-- A text of one line, whatever counts as the end of one. -/
def Unbroken (s : String) : Prop := ∀ c ∈ lineBreaks, c ∉ s.toList

instance (s : String) : Decidable (Unbroken s) := List.decidableBAll (fun c => c ∉ s.toList) lineBreaks

theorem isTail_of_mem_lineBreaks {c : Char} (breaks : c ∈ lineBreaks) : isTail c = false := by
  have all : lineBreaks.all fun c => !isTail c := by decide
  simpa using List.all_eq_true.mp all c breaks

theorem unbroken_iff_oneLine {name : String} (spelled : ∀ c ∈ name.toList, isTail c ∨ c = '\n') :
    Unbroken name ↔ OneLine name := by
  refine ⟨fun unbroken => unbroken '\n' (by decide), fun oneLine c breaks inside => ?_⟩
  rcases spelled c inside with tail | rfl
  · exact absurd tail (Bool.eq_false_iff.mp (isTail_of_mem_lineBreaks breaks))
  · exact oneLine inside

end Text

namespace Sql
open Text Identifier

theorem mem_literals_iff {c : Char} (quote : c ≠ '\x27') (comma : c ∉ ", ".toList) (values : List String) :
    c ∈ (literals values).toList ↔ ∃ value ∈ values, c ∈ value.toList := by
  have one : ∀ value, c ∈ (literal value).toList ↔ c ∈ value.toList := by
    intro value
    have doubled : c ∈ doubleQuotes value.toList ↔ c ∈ value.toList := by
      rw [doubleQuotes, List.mem_flatMap]
      constructor
      · rintro ⟨e, inside, member⟩
        split at member <;> simp_all
      · intro inside
        exact ⟨c, inside, by rw [if_neg (by simpa using quote)]; exact List.mem_singleton.mpr rfl⟩
    simp [literal, literalChars, quote, doubled]
  rw [literals, mem_intercalate_iff comma]
  simp only [List.mem_map, exists_exists_and_eq_and, one]

/-- What is left of a text that starts with a comment when this has been passed over: all but its first line. -/
def behindComment (text : String) : String := String.ofList ((text.toList.dropWhile (· != '\n')).drop 1)

theorem behindComment_eq_empty_iff {text : String} {start : List Char} {e : Char} (split : text.toList = start ++ [e])
    (ends : e ≠ '\n') : behindComment text = "" ↔ OneLine text := by
  rw [behindComment, OneLine, split, String.ofList_eq, String.toList_empty, List.mem_append, List.mem_singleton,
    or_iff_left ends.symm]
  constructor
  · intro nothing broken
    have kept : start.dropWhile (· != '\n') ≠ [] := by
      rw [Ne, List.dropWhile_eq_nil_iff]
      exact fun all => absurd (all '\n' broken) (by decide)
    rcases List.exists_cons_of_ne_nil kept with ⟨c, rest, found⟩
    -- The line break is not the last character, so one more is left when it is dropped.
    have whole : (start ++ [e]).dropWhile (· != '\n') = c :: rest ++ [e] := by
      rw [List.dropWhile_append, found]
      rfl
    rw [whole] at nothing
    simp at nothing
  · intro oneLine
    have all : ∀ c ∈ start ++ [e], (c != '\n') = true := by
      intro c member
      rw [bne_iff_ne]
      rintro rfl
      rcases List.mem_append.mp member with inside | last
      · exact oneLine inside
      · exact ends (List.mem_singleton.mp last).symm
    rw [List.dropWhile_eq_nil_iff.mpr all]
    rfl

theorem mem_quoted_iff {c : Char} (mark : c ∉ (nameMark .sqlite).toList) (name : Value) :
    c ∈ (quoted .sqlite name).toList ↔ c ∈ name.text.toList := by
  simp [quoted, mark]

theorem columnType_sqlite_of_isEnum {c : Column} (enum : c.isEnum) : columnType .sqlite c =
    "TEXT CHECK (" ++ quoted .sqlite c.name ++ " IN (" ++ literals c.enumMembers ++ "))" := by
  rw [columnType, if_pos enum]
  rfl

/-- The words of a type hold no line break, so one that is there comes from the column's name or from a member. -/
theorem mem_columnType_iff {c : Char} (breaks : c ∈ lineBreaks) (column : Column) :
    c ∈ (columnType .sqlite column).toList ↔
      column.isEnum ∧ (c ∈ column.name.text.toList ∨ ∃ m ∈ column.enumMembers, c ∈ m.toList) := by
  have fixed : ∀ word ∈ ["TEXT CHECK (", " IN (", "))", ", ", nameMark .sqlite], Unbroken word := by decide
  simp only [List.forall_mem_cons] at fixed
  rcases fixed with ⟨check, among, close, comma, mark, -⟩
  by_cases enum : column.isEnum
  · have quote : c ≠ '\x27' := by
      rintro rfl
      exact absurd breaks (by decide)
    have members := mem_literals_iff quote (comma c breaks) column.enumMembers
    have name := mem_quoted_iff (mark c breaks) column.name
    rw [columnType_sqlite_of_isEnum enum]
    simp only [String.toList_append, List.mem_append, check c breaks, among c breaks, close c breaks, members, name,
      enum, true_and, false_or, or_false]
  · have plain : ∀ t : ColumnType, Unbroken (plainType .sqlite t) := by
      intro t
      cases t <;> decide
    rw [columnType, if_neg enum]
    exact iff_of_false (plain column.type c breaks) fun told => enum told.1

theorem columnType_ends (c : Column) : ∃ start e, (columnType .sqlite c).toList = start ++ [e] ∧ e ≠ '\n' := by
  by_cases enum : c.isEnum
  · rw [columnType_sqlite_of_isEnum enum, String.toList_append]
    exact ⟨_ ++ [')'], ')', (List.append_assoc _ [')'] [')']).symm, by decide⟩
  · rw [columnType, if_neg enum]
    change ∃ start e, (sqliteType c.type).toList = _ ∧ _
    cases c.type
    all_goals exact ⟨_, _, (List.dropLast_append_getLast (by decide)).symm, by decide⟩

end Sql

namespace Statement
open Sql Text Identifier

theorem text_modifyColumn_sqlite (table : Value) (c : Column) :
    (Statement.modifyColumn table c).text .sqlite = "-- SQLite cannot alter column " ++ quoted .sqlite table ++ "." ++
      quoted .sqlite c.name ++ " in place; rebuild the table manually to change it to " ++ columnType .sqlite c := rfl

theorem mem_text_modifyColumn_iff {e : Char} (breaks : e ∈ lineBreaks) (table : Value) (c : Column) :
    e ∈ ((Statement.modifyColumn table c).text .sqlite).toList ↔
      e ∈ table.text.toList ∨ e ∈ c.name.text.toList ∨ ∃ m ∈ c.enumMembers, e ∈ m.toList := by
  have fixed : ∀ word ∈ ["-- SQLite cannot alter column ", ".",
      " in place; rebuild the table manually to change it to ", nameMark .sqlite], Unbroken word := by decide
  simp only [List.forall_mem_cons] at fixed
  rcases fixed with ⟨start, dot, place, mark, -⟩
  have enum : (∃ m ∈ c.enumMembers, e ∈ m.toList) → c.isEnum := by
    rintro ⟨m, member, -⟩
    simpa [Column.isEnum] using List.ne_nil_of_mem member
  simp only [text_modifyColumn_sqlite, String.toList_append, List.mem_append, start e breaks, dot e breaks,
    place e breaks, mem_quoted_iff (mark e breaks), mem_columnType_iff breaks, false_or, or_false]
  grind

theorem starts_text_modifyColumn (table : Value) (c : Column) :
    "-- ".toList <+: ((Statement.modifyColumn table c).text .sqlite).toList := by
  simp only [text_modifyColumn_sqlite, String.toList_append, List.append_assoc]
  exact List.IsPrefix.trans (by decide) (List.prefix_append _ _)

variable {table : Value} {c : Column}

theorem unbroken_text_modifyColumn_iff : Unbroken ((Statement.modifyColumn table c).text .sqlite) ↔
    Unbroken table.text ∧ Unbroken c.name.text ∧ ∀ m ∈ c.enumMembers, Unbroken m := by
  have each : Unbroken ((Statement.modifyColumn table c).text .sqlite) ↔ ∀ e ∈ lineBreaks,
      ¬ (e ∈ table.text.toList ∨ e ∈ c.name.text.toList ∨ ∃ m ∈ c.enumMembers, e ∈ m.toList) :=
    forall₂_congr fun e breaks => not_congr (mem_text_modifyColumn_iff breaks table c)
  refine each.trans ?_
  simp only [not_or, not_exists, not_and, forall_and, Unbroken]
  exact and_congr_right' (and_congr_right' ⟨fun all m member e breaks => all e breaks m member,
    fun all e breaks m member => all m member e breaks⟩)

theorem behindComment_text_iff : behindComment ((Statement.modifyColumn table c).text .sqlite) = "" ↔
    OneLine table.text ∧ OneLine c.name.text ∧ ∀ m ∈ c.enumMembers, OneLine m := by
  rcases columnType_ends c with ⟨start, e, split, ends⟩
  have breaks : '\n' ∈ lineBreaks := by decide
  have last : ∃ start, ((Statement.modifyColumn table c).text .sqlite).toList = start ++ [e] := by
    rw [text_modifyColumn_sqlite, String.toList_append, split, ← List.append_assoc]
    exact ⟨_, rfl⟩
  rcases last with ⟨start, last⟩
  rw [behindComment_eq_empty_iff last ends, OneLine, mem_text_modifyColumn_iff breaks]
  simp only [not_or, not_exists, not_and]
  rfl

end Statement

namespace Diff
open Sql Text Identifier

/--
An alteration that is skipped comes with a comment. It is on one line exactly if the names of table and column are and
no member of the new type breaks its line, and there is nothing to be executed behind it exactly if no name and no
member ends a line of SQL.
-/
theorem alterations_commented_iff {previous current : Plan} (past : previous.dialect = .sqlite)
    (now : current.Built .sqlite) : ∀ s ∈ (skipped (some previous) current).value, s.kind = .alterColumn →
      "-- ".toList <+: (s.statement.text .sqlite).toList ∧
      ∃ t ∈ current.tables, ∃ c ∈ t.columns, s.table = t.name ∧ s.name = some c.name ∧
        s.statement = .modifyColumn t.name c ∧
        (Unbroken (s.statement.text .sqlite) ↔
          OneLine t.name.text ∧ OneLine c.name.text ∧ ∀ m ∈ c.enumMembers, Unbroken m) ∧
        (behindComment (s.statement.text .sqlite) = "" ↔
          OneLine t.name.text ∧ OneLine c.name.text ∧ ∀ m ∈ c.enumMembers, OneLine m) := by
  intro s member alteration
  have regular := now.regular
  have same : previous.dialect = current.dialect := past.trans regular.dialect.symm
  rcases (alterColumn_mem_skipped_iff regular.toWellNamed same s).mp ⟨member, alteration⟩ with
    ⟨before, -, t, inPlan, table, b, -, c, inTable, name, -, rfl⟩
  rw [← table, ← name]
  refine ⟨Statement.starts_text_modifyColumn _ _, t, inPlan, c, inTable, rfl, rfl, rfl, ?_,
    Statement.behindComment_text_iff⟩
  rw [Statement.unbroken_text_modifyColumn_iff, unbroken_iff_oneLine (now.spelled.tables t inPlan).2,
    unbroken_iff_oneLine (now.spelled.columns t inPlan c inTable).2]

def statedPosts (values : List String) : ModelSet :=
  [("Post", { name := "Post", attributes := [("id", {}), ("state", { enumValues := some values })] })]

def statesIn (values : List String) : Plan :=
  Plan.buildWith (.ofModels (statedPosts values)) (statedPosts values) .sqlite

theorem statesIn_built {values : List String} (accepted : (statedPosts values).Accepted) :
    (statesIn values).Built .sqlite :=
  Plan.built_buildWith .sqlite accepted (List.nodup_singleton _)

def stateAltered (values : List String) : SkippedChange :=
  ⟨.alterColumn, .str "posts", some (.str "state"),
    .modifyColumn (.str "posts") (Inference.column "state" { enumValues := some values } false none)⟩

theorem states_commented : (statesIn ["open"]).dialect = .sqlite ∧ (statesIn ["open", "it's"]).Built .sqlite ∧
    ∃ s ∈ (skipped (some (statesIn ["open"])) (statesIn ["open", "it's"])).value, s.kind = .alterColumn ∧
      Unbroken (s.statement.text .sqlite) ∧ behindComment (s.statement.text .sqlite) = "" := by
  have now : (statesIn ["open", "it's"]).Built .sqlite := statesIn_built (by decide)
  have member : stateAltered ["open", "it's"] ∈
      (skipped (some (statesIn ["open"])) (statesIn ["open", "it's"])).value := by decide +kernel
  have past : (statesIn ["open"]).dialect = .sqlite := rfl
  rcases alterations_commented_iff past now _ member rfl with
    ⟨-, t, -, c, -, table, name, statement, unbroken, nothing⟩
  obtain rfl := (Statement.modifyColumn.inj statement).2
  rw [← table] at unbroken nothing
  exact ⟨past, now, _, member, rfl, unbroken.mpr (by decide), nothing.mpr (by decide)⟩

/-- A member with a line break leaves a statement behind the comment. -/
theorem statement_behind_comment : ¬ ∀ previous current : Plan, previous.Built .sqlite → current.Built .sqlite →
    ∀ s ∈ (skipped (some previous) current).value, s.kind = .alterColumn →
      "-- ".toList <+: (s.statement.text .sqlite).toList ∧ Unbroken (s.statement.text .sqlite) ∧
        behindComment (s.statement.text .sqlite) = "" := by
  intro claimed
  have past : (statesIn ["open"]).Built .sqlite := statesIn_built (by decide)
  have now : (statesIn ["open", "\nDROP TABLE posts; --"]).Built .sqlite := statesIn_built (by decide)
  have member : stateAltered ["open", "\nDROP TABLE posts; --"] ∈
      (skipped (some (statesIn ["open"])) (statesIn ["open", "\nDROP TABLE posts; --"])).value := by decide +kernel
  have behind : behindComment ((stateAltered ["open", "\nDROP TABLE posts; --"]).statement.text .sqlite) =
      "DROP TABLE posts; --'))" := by decide +kernel
  rw [(claimed _ _ past now _ member rfl).2.2] at behind
  exact absurd behind (by decide)

end Diff
end SchemaMigration
