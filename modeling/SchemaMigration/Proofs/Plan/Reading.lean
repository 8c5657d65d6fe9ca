import SchemaMigration.Proofs.Plan.Document
import SchemaMigration.Proofs.Plan.Plain
/-!
What the document of a plan says. Entries may be missing, flags and sequences may be of any kind, and further entries
count for nothing, but a value still describes one plan or none. The document that a plan is written to describes that
plan, so reading it again changes nothing.
-/
namespace SchemaMigration

namespace Document
variable {α : Type}

/-- The entry under the key gives `a`. Where there is no entry, `otherwise` is given, if anything. -/
def Gives (key : String) (otherwise : Option α) (reads : Value → α → Prop) (v : Value) (a : α) : Prop :=
  match v with
  | .dict entries =>
    match entries.lookup key with
    | some w => reads w a
    | none => otherwise = some a
  | _ => False

/-- The members of the value, whatever kind of sequence it is, give the items one by one. -/
def Lists (reads : Value → α → Prop) (v : Value) (items : List α) : Prop :=
  ∃ members, v.members? = some members ∧ List.Forall₂ reads members items

/-- Any value is a flag, and it is set if the value holds. -/
def Flags (v : Value) (set : Bool) : Prop := v.holds = set

/-- Any value is a text unless it is too long to be written. -/
def Spells (v : Value) (s : String) : Prop := v.textFaults = [] ∧ v.text = s

end Document

open Document

structure Reference.DescribedBy (v : Value) (r : Reference) : Prop where
  table : Gives "table" none Eq v r.table
  column : Gives "column" none Eq v r.column

/-- A value that does not hold is no reference. -/
def Reference.MaybeDescribedBy (v : Value) (r : Option Reference) : Prop :=
  if v.holds then ∃ target, r = some target ∧ target.DescribedBy v else r = none

/-- Null stands for no values at all, which is not the same as an empty sequence. -/
def Column.ValuesDescribedBy (v : Value) (values : Option (List String)) : Prop :=
  if v = .null then values = none else ∃ texts, values = some texts ∧ Lists Spells v texts

structure Column.DescribedBy (v : Value) (c : Column) : Prop where
  name : Gives "name" none Eq v c.name
  type : Gives "type" none (fun w t => w = .str t.name) v c.type
  isPrimaryKey : Gives "isPrimaryKey" (some false) Flags v c.isPrimaryKey
  isUnique : Gives "isUnique" (some false) Flags v c.isUnique
  isNullable : Gives "isNullable" (some true) Flags v c.isNullable
  hasDefault : Gives "hasDefault" (some false) Flags v c.hasDefault
  defaultValue : Gives "defaultValue" (some .null) Eq v c.defaultValue
  references : Gives "references" (some none) Reference.MaybeDescribedBy v c.references
  enumValues : Gives "enumValues" (some none) Column.ValuesDescribedBy v c.enumValues

structure Index.DescribedBy (v : Value) (i : Index) : Prop where
  name : Gives "name" none Eq v i.name
  columns : Gives "columns" none (Lists Eq) v i.columns
  kind : Gives "type" (some .plain) (fun w k => w = .str k.name) v i.kind

structure Table.DescribedBy (v : Value) (t : Table) : Prop where
  name : Gives "table" none Eq v t.name
  columns : Gives "columns" (some []) (Lists Column.DescribedBy) v t.columns
  indexes : Gives "indexes" (some []) (Lists Index.DescribedBy) v t.indexes

structure Plan.DescribedBy (v : Value) (p : Plan) : Prop where
  dialect : Gives "dialect" none (fun w d => w = .str d.name) v p.dialect
  tables : Gives "tables" none (Lists Table.DescribedBy) v p.tables

namespace Document
variable {key : String} {v w : Value}

theorem gives_iff_field {reads : Value → α → Prop} {a : α} :
    Gives key none reads v a ↔ ∃ w, field key v = .ok w ∧ reads w a := by
  unfold field Gives
  cases v with
  | dict entries => cases found : entries.lookup key <;> simp [found]
  | _ => simp

theorem field_eq_ok_iff : field key v = .ok w ↔ Gives key none Eq v w := by
  rw [gives_iff_field]
  simp

theorem exists_dict_of_gives {otherwise : Option α} {reads : Value → α → Prop} {a : α}
    (given : Gives key otherwise reads v a) : ∃ entries, v = .dict entries := by
  cases v with
  | dict entries => exact ⟨entries, rfl⟩
  | _ => cases given

section
variable {entries : List (String × Value)} {otherwise : Option α} {reads : Value → α → Prop} {a : α}

theorem gives_iff_of_lookup (found : entries.lookup key = some w) :
    Gives key otherwise reads (.dict entries) a ↔ reads w a := by
  simp only [Gives, found]

theorem gives_iff_of_missing (missing : entries.lookup key = none) :
    Gives key otherwise reads (.dict entries) a ↔ otherwise = some a := by
  simp only [Gives, missing]

end

theorem flag_eq_iff {entries : List (String × Value)} {otherwise set : Bool} :
    flag entries key otherwise = set ↔ Gives key (some otherwise) Flags (.dict entries) set := by
  cases found : entries.lookup key with
  | none => rw [gives_iff_of_missing found, flag, found, Option.some_inj]
  | some w => rw [gives_iff_of_lookup found, flag, found, Flags]

theorem getD_lookup_eq_iff {entries : List (String × Value)} {otherwise : Value} :
    (entries.lookup key).getD otherwise = w ↔ Gives key (some otherwise) Eq (.dict entries) w := by
  cases found : entries.lookup key with
  | none => rw [gives_iff_of_missing found, Option.getD_none, Option.some_inj]
  | some v => rw [gives_iff_of_lookup found, Option.getD_some]

theorem textOf_eq_ok_iff {s : String} : textOf v = .ok s ↔ Spells v s := by
  unfold textOf Spells
  cases v.textFaults <;> simp

theorem each_eq_ok_iff {read : Value → Except Refusal α} {reads : Value → α → Prop}
    (one : ∀ v a, read v = .ok a ↔ reads v a) {members : List Value} {items : List α} :
    each read members = .ok items ↔ List.Forall₂ reads members items := by
  induction members generalizing items with
  | nil => simp [each, eq_comm]
  | cons v rest ih =>
      rw [List.forall₂_cons_left_iff]
      constructor
      · intro done
        rcases bind_eq_ok done with ⟨a, first, done⟩
        rcases bind_eq_ok done with ⟨others, later, ⟨⟩⟩
        exact ⟨a, others, (one v a).mp first, ih.mp later, rfl⟩
      · intro given
        rcases given with ⟨a, others, first, later, rfl⟩
        rw [each, (one v a).mpr first, ih.mpr later]
        rfl

theorem membersOf_eq_ok_iff {members : List Value} : membersOf v = .ok members ↔ v.members? = some members := by
  unfold membersOf
  cases v.members? <;> simp

theorem lists_iff {read : Value → Except Refusal α} {reads : Value → α → Prop}
    (one : ∀ v a, read v = .ok a ↔ reads v a) {items : List α} :
    (membersOf v >>= each read) = .ok items ↔ Lists reads v items := by
  constructor
  · intro done
    rcases bind_eq_ok done with ⟨members, listed, read⟩
    exact ⟨members, membersOf_eq_ok_iff.mp listed, (each_eq_ok_iff one).mp read⟩
  · intro given
    rcases given with ⟨members, listed, read⟩
    rw [membersOf_eq_ok_iff.mpr listed]
    exact (each_eq_ok_iff one).mpr read

/-- What is known by its name is read from the text of the name and from nothing else. -/
theorem orRefuse_named?_eq_ok_iff {refusal : Refusal} {all : List α} {name : α → String}
    (back : ∀ a, all.find? (fun b => name b == name a) = some a) {a : α} :
    orRefuse refusal (named? (fun s => all.find? fun b => name b == s) v) = .ok a ↔ v = .str (name a) := by
  cases v with
  | str s =>
      rw [named?, Value.str.injEq]
      constructor
      · intro read
        cases found : all.find? fun b => name b == s with
        | none =>
            rw [found] at read
            cases read
        | some b =>
            rw [found] at read
            cases read
            have same := List.find?_some found
            exact (beq_iff_eq.mp same).symm
      · intro same
        subst same
        rw [back]
        rfl
  | _ => simp [orRefuse, named?]

theorem dialectOf_eq_ok_iff {d : Dialect} : dialectOf v = .ok d ↔ v = .str d.name :=
  orRefuse_named?_eq_ok_iff fun d => by cases d <;> rfl

theorem columnTypeOf_eq_ok_iff {t : ColumnType} : columnTypeOf v = .ok t ↔ v = .str t.name :=
  orRefuse_named?_eq_ok_iff fun t => by cases t <;> rfl

theorem indexKindOf_eq_ok_iff {k : IndexKind} : indexKindOf v = .ok k ↔ v = .str k.name :=
  orRefuse_named?_eq_ok_iff fun k => by cases k <;> rfl

end Document

theorem Reference.ofValue_eq_ok_iff {v : Value} {r : Reference} : ofValue v = .ok r ↔ r.DescribedBy v := by
  constructor
  · intro done
    rcases bind_eq_ok done with ⟨table, first, done⟩
    rcases bind_eq_ok done with ⟨column, second, ⟨⟩⟩
    exact ⟨field_eq_ok_iff.mp first, field_eq_ok_iff.mp second⟩
  · intro described
    rw [ofValue, field_eq_ok_iff.mpr described.table, field_eq_ok_iff.mpr described.column]
    rfl

namespace Column
variable {entries : List (String × Value)}

theorem referencesOf_eq_ok_iff {references : Option Reference} :
    referencesOf entries = .ok references ↔
      Gives "references" (some none) Reference.MaybeDescribedBy (.dict entries) references := by
  cases found : entries.lookup "references" with
  | none => rw [gives_iff_of_missing found, referencesOf, found, Except.ok.injEq, Option.some_inj]
  | some v =>
      have read : referencesOf entries = if v.holds then (Reference.ofValue v).map some else .ok none := by
        rw [referencesOf, found]
      rw [gives_iff_of_lookup found, read, Reference.MaybeDescribedBy]
      split
      case isTrue =>
        simp only [← Reference.ofValue_eq_ok_iff]
        cases Reference.ofValue v <;> simp [Except.map, eq_comm]
      case isFalse => rw [Except.ok.injEq, eq_comm]

theorem enumValuesOf_eq_ok_iff {values : Option (List String)} :
    enumValuesOf entries = .ok values ↔ Gives "enumValues" (some none) ValuesDescribedBy (.dict entries) values := by
  cases found : entries.lookup "enumValues" with
  | none => rw [gives_iff_of_missing found, enumValuesOf, found, Except.ok.injEq, Option.some_inj]
  | some v =>
      rw [gives_iff_of_lookup found, ValuesDescribedBy]
      by_cases null : v = .null
      · rw [if_pos null, enumValuesOf, found, null, Except.ok.injEq, eq_comm]
      · have listed : enumValuesOf entries = membersOf v >>= fun vs => each textOf vs >>= fun texts => .ok (some texts) := by
          rw [enumValuesOf, found]
          cases v with
          | null => exact absurd rfl null
          | _ => rfl
        have read : enumValuesOf entries = (membersOf v >>= each textOf) >>= fun texts => .ok (some texts) := by
          rw [listed]
          cases membersOf v <;> rfl
        rw [if_neg null, read]
        simp only [← lists_iff fun _ _ => textOf_eq_ok_iff]
        cases membersOf v >>= each textOf <;> simp [bind, Except.bind, eq_comm]

theorem ofValue_eq_ok_iff {v : Value} {c : Column} : ofValue v = .ok c ↔ c.DescribedBy v := by
  constructor
  · intro done
    rcases bind_eq_ok done with ⟨entries, listed, done⟩
    rcases bind_eq_ok done with ⟨name, named, done⟩
    rcases bind_eq_ok done with ⟨typeName, typed, done⟩
    rcases bind_eq_ok done with ⟨type, known, done⟩
    rcases bind_eq_ok done with ⟨references, referring, done⟩
    rcases bind_eq_ok done with ⟨enumValues, valued, ⟨⟩⟩
    rcases eq_dict_of_entriesOf listed with rfl
    exact {
      name := field_eq_ok_iff.mp named
      type := gives_iff_field.mpr ⟨typeName, typed, columnTypeOf_eq_ok_iff.mp known⟩
      isPrimaryKey := flag_eq_iff.mp rfl
      isUnique := flag_eq_iff.mp rfl
      isNullable := flag_eq_iff.mp rfl
      hasDefault := flag_eq_iff.mp rfl
      defaultValue := getD_lookup_eq_iff.mp rfl
      references := referencesOf_eq_ok_iff.mp referring
      enumValues := enumValuesOf_eq_ok_iff.mp valued }
  · intro described
    rcases exists_dict_of_gives described.name with ⟨entries, rfl⟩
    rcases gives_iff_field.mp described.type with ⟨typeName, typed, known⟩
    have named := field_eq_ok_iff.mpr described.name
    have referring := referencesOf_eq_ok_iff.mpr described.references
    have valued := enumValuesOf_eq_ok_iff.mpr described.enumValues
    rw [ofValue]
    simp only [entriesOf, bind, Except.bind, named, typed, columnTypeOf_eq_ok_iff.mpr known, referring, valued,
      flag_eq_iff.mpr described.isPrimaryKey, flag_eq_iff.mpr described.isUnique, flag_eq_iff.mpr described.isNullable,
      flag_eq_iff.mpr described.hasDefault, getD_lookup_eq_iff.mpr described.defaultValue]
    rfl

end Column

theorem Document.lists_eq_iff {v : Value} {items : List Value} : Lists Eq v items ↔ v.members? = some items := by
  simp [Lists, List.forall₂_eq_eq_eq]

theorem Document.lists_entry_iff {α : Type} {key : String} {entries : List (String × Value)}
    {read : Value → Except Refusal α} {reads : Value → α → Prop} (one : ∀ v a, read v = .ok a ↔ reads v a)
    {items : List α} :
    (membersOf ((entries.lookup key).getD (.list [])) >>= each read) = .ok items ↔
      Gives key (some []) (Lists reads) (.dict entries) items := by
  cases found : entries.lookup key with
  | none =>
      rw [gives_iff_of_missing found]
      simp [membersOf, Value.members?, each, bind, Except.bind]
  | some v => rw [gives_iff_of_lookup found, Option.getD_some, lists_iff one]

theorem Index.ofValue_eq_ok_iff {v : Value} {i : Index} : ofValue v = .ok i ↔ i.DescribedBy v := by
  have kind : ∀ {entries : List (String × Value)} {k : IndexKind},
      indexKindOf ((entries.lookup "type").getD (.str "index")) = .ok k ↔
        Gives "type" (some .plain) (fun w k => w = .str k.name) (.dict entries) k := by
    intro entries k
    cases found : entries.lookup "type" with
    | none =>
        rw [gives_iff_of_missing found, Option.getD_none]
        cases k <;> simp [indexKindOf_eq_ok_iff, IndexKind.name]
    | some w => rw [gives_iff_of_lookup found, Option.getD_some, indexKindOf_eq_ok_iff]
  constructor
  · intro done
    rcases bind_eq_ok done with ⟨name, named, done⟩
    rcases bind_eq_ok done with ⟨stored, found, done⟩
    rcases bind_eq_ok done with ⟨columns, listed, done⟩
    rcases bind_eq_ok done with ⟨entries, isDict, done⟩
    rcases bind_eq_ok done with ⟨kindOf, known, ⟨⟩⟩
    rcases eq_dict_of_entriesOf isDict with rfl
    exact {
      name := field_eq_ok_iff.mp named
      columns := gives_iff_field.mpr ⟨stored, found, lists_eq_iff.mpr (membersOf_eq_ok_iff.mp listed)⟩
      kind := kind.mp known }
  · intro described
    rcases exists_dict_of_gives described.name with ⟨entries, rfl⟩
    rcases gives_iff_field.mp described.columns with ⟨stored, found, listed⟩
    have named := field_eq_ok_iff.mpr described.name
    have members := membersOf_eq_ok_iff.mpr (lists_eq_iff.mp listed)
    rw [ofValue]
    simp only [entriesOf, bind, Except.bind, named, found, members, kind.mpr described.kind]
    rfl

theorem Table.ofValue_eq_ok_iff {v : Value} {t : Table} : ofValue v = .ok t ↔ t.DescribedBy v := by
  constructor
  · intro done
    rcases bind_eq_ok done with ⟨name, named, done⟩
    rcases bind_eq_ok done with ⟨entries, isDict, done⟩
    rcases bind_eq_ok done with ⟨columnValues, columnsListed, done⟩
    rcases bind_eq_ok done with ⟨columns, columnsRead, done⟩
    rcases bind_eq_ok done with ⟨indexValues, indexesListed, done⟩
    rcases bind_eq_ok done with ⟨indexes, indexesRead, ⟨⟩⟩
    rcases eq_dict_of_entriesOf isDict with rfl
    have columnsGiven : (membersOf ((entries.lookup "columns").getD (.list [])) >>= each Column.ofValue) = .ok columns := by
      rw [columnsListed]
      exact columnsRead
    have indexesGiven : (membersOf ((entries.lookup "indexes").getD (.list [])) >>= each Index.ofValue) = .ok indexes := by
      rw [indexesListed]
      exact indexesRead
    exact {
      name := field_eq_ok_iff.mp named
      columns := (lists_entry_iff fun _ _ => Column.ofValue_eq_ok_iff).mp columnsGiven
      indexes := (lists_entry_iff fun _ _ => Index.ofValue_eq_ok_iff).mp indexesGiven }
  · intro described
    rcases exists_dict_of_gives described.name with ⟨entries, rfl⟩
    have named := field_eq_ok_iff.mpr described.name
    rcases bind_eq_ok ((lists_entry_iff fun _ _ => Column.ofValue_eq_ok_iff).mpr described.columns) with
      ⟨columnValues, columnsListed, columnsRead⟩
    rcases bind_eq_ok ((lists_entry_iff fun _ _ => Index.ofValue_eq_ok_iff).mpr described.indexes) with
      ⟨indexValues, indexesListed, indexesRead⟩
    rw [ofValue]
    simp only [entriesOf, bind, Except.bind, named, columnsListed, columnsRead, indexesListed, indexesRead]
    rfl

namespace Plan

theorem ofValue_eq_ok_iff {v : Value} {p : Plan} : ofValue v = .ok p ↔ p.DescribedBy v := by
  constructor
  · intro done
    rcases bind_eq_ok done with ⟨dialectName, dialectFound, done⟩
    rcases bind_eq_ok done with ⟨dialect, known, done⟩
    rcases bind_eq_ok done with ⟨stored, tablesFound, done⟩
    rcases bind_eq_ok done with ⟨members, listed, done⟩
    rcases bind_eq_ok done with ⟨tables, read, ⟨⟩⟩
    have tablesGiven : Lists Table.DescribedBy stored tables :=
      ⟨members, membersOf_eq_ok_iff.mp listed, (each_eq_ok_iff fun _ _ => Table.ofValue_eq_ok_iff).mp read⟩
    exact {
      dialect := gives_iff_field.mpr ⟨dialectName, dialectFound, dialectOf_eq_ok_iff.mp known⟩
      tables := gives_iff_field.mpr ⟨stored, tablesFound, tablesGiven⟩ }
  · intro described
    rcases gives_iff_field.mp described.dialect with ⟨dialectName, dialectFound, known⟩
    rcases gives_iff_field.mp described.tables with ⟨stored, tablesFound, members, listed, read⟩
    rw [ofValue]
    simp only [bind, Except.bind, dialectFound, dialectOf_eq_ok_iff.mpr known, tablesFound,
      membersOf_eq_ok_iff.mpr listed, (each_eq_ok_iff fun _ _ => Table.ofValue_eq_ok_iff).mpr read]
    rfl

/--
A value is read as a plan exactly if it is a document of the plan. Whatever is read is read again from the document
that is written for it, and so is every other plan: one reading settles all that a document left open.
-/
theorem document_settled_once :
    (∀ (v : Value) (p : Plan), ofValue v = .ok p ↔ p.DescribedBy v) ∧
    (∀ v : Value, (ofValue v >>= fun p => ofValue p.toValue) = ofValue v) ∧
    ∀ p : Plan, ofValue p.toValue = .ok p := by
  refine ⟨fun v p => ofValue_eq_ok_iff, fun v => ?_, ofValue_toValue⟩
  cases read : ofValue v with
  | error refusal => rfl
  | ok p => exact ofValue_toValue p

/-- A document with flags, sequences and defaults of several kinds, an entry too many and several missing. -/
def looseDocument : Value :=
  .dict [
    ("dialect", .str "sqlite"), ("version", .int 2),
    ("tables", .tuple [
      .dict [
        ("table", .str "posts"),
        ("columns", .list [
          .dict [("name", .str "state"), ("type", .str "enum"), ("isUnique", .str "no"), ("isNullable", .int 0),
            ("references", .dict []), ("enumValues", .str "ab")],
          .dict [("name", .str "score"), ("type", .str "float"), ("isPrimaryKey", .list []), ("hasDefault", .int 2),
            ("defaultValue", .float .nan)]]),
        ("indexes", .list [.dict [("name", .str "by_both"), ("columns", .dict [("state", .null), ("score", .null)])]])],
      .dict [("table", .int 7)]])]

example : ofValue looseDocument = .ok ⟨.sqlite, [
    { name := .str "posts"
      columns := [
        { name := .str "state", type := .enum, isUnique := true, isNullable := false, enumValues := some ["a", "b"] },
        { name := .str "score", type := .float, hasDefault := true, defaultValue := .float .nan }]
      indexes := [{ name := .str "by_both", columns := [.str "state", .str "score"] }] },
    { name := .int 7 }]⟩ := by
  rfl

end Plan
end SchemaMigration
