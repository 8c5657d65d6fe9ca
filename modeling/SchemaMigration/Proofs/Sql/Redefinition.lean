import SchemaMigration.Proofs.Sql.Definition
import SchemaMigration.Proofs.Sql.Reading
/-!
What a definition says of its column, where it is written out again to alter it. Type, nullability and default can be
read off its text: no type goes on from another one, the members of an enum end where they were to end, and the clauses
behind the type start with different words.
-/
namespace SchemaMigration.Sql

/-- Nothing, or something behind a space: what may follow the type of a column. -/
def GoesOn (tail : List Char) : Prop := ∀ c ∈ tail.head?, c = ' '

theorem eq_of_goesOn {first second tail rest : List Char} (apart : ¬ first ++ [' '] <+: second) (goes : GoesOn tail)
    {between : List Char} (longer : second = first ++ between) (split : tail = between ++ rest) : between = [] := by
  cases between with
  | nil => rfl
  | cons c more =>
      obtain rfl : c = ' ' := goes c (by rw [split]; rfl)
      exact absurd ⟨more, by rw [longer, List.append_assoc]; rfl⟩ apart

/-- No type of a column that is no enum goes on from another one behind a space. -/
theorem mysqlType_append_inj {a b : ColumnType} {s t : List Char} (first : GoesOn s) (second : GoesOn t)
    (same : (mysqlType a).toList ++ s = (mysqlType b).toList ++ t) : mysqlType a = mysqlType b ∧ s = t := by
  -- A point in time starts like a date, but there is no space behind that.
  have apart : ∀ a b : ColumnType, ¬ (mysqlType a).toList ++ [' '] <+: (mysqlType b).toList := by
    intro a b
    cases a <;> cases b <;> decide
  rcases List.append_eq_append_iff.mp same with ⟨between, longer, rest⟩ | ⟨between, longer, rest⟩
  · obtain rfl := eq_of_goesOn (apart a b) first longer rest
    exact ⟨String.toList_inj.mp (by simpa using longer.symm), rest⟩
  · obtain rfl := eq_of_goesOn (apart b a) second longer rest
    exact ⟨String.toList_inj.mp (by simpa using longer), rest.symm⟩

theorem literals_append_inj {values others : List String} {s t : List Char} (filled : values ≠ []) (filled' : others ≠ [])
    (same : (literals values).toList ++ ')' :: s = (literals others).toList ++ ')' :: t) : values = others ∧ s = t := by
  -- Where a backslash stands for itself, every list of literals is read back as it was written.
  have read : ∀ (values : List String) (rest : List Char), values ≠ [] →
      readSeveral .postgres ((literals values).toList ++ ')' :: rest) =
        .some (values.map String.toList, ')' :: rest) := by
    intro values rest nonempty
    rcases List.exists_cons_of_ne_nil nonempty with ⟨one, more, rfl⟩
    have ends : ¬ [',', ' '] <+: ')' :: rest := by simp
    exact (readSeveral_literals_iff (by simp) ends one more).mpr fun _ _ => nofun
  have both := (read values s filled).symm.trans ((congrArg (readSeveral .postgres) same).trans (read others t filled'))
  rcases Prod.mk.inj (Option.some.inj both) with ⟨texts, rest⟩
  exact ⟨List.map_injective_iff.mpr (fun _ _ => String.toList_inj.mp) texts, (List.cons.inj rest).2⟩

theorem columnType_plain {d : Dialect} {c : Column} (plain : c.isEnum = false) :
    columnType d c = plainType d c.type := by
  rw [columnType, plain, if_neg Bool.false_ne_true]

theorem columnType_enum {c : Column} (enum : c.isEnum) :
    (columnType .mysql c).toList = "ENUM(".toList ++ ((literals c.enumMembers).toList ++ [')']) := by
  rw [columnType, if_pos enum]
  simp [enumType]

theorem columnType_append_inj {b c : Column} {s t : List Char} (first : GoesOn s) (second : GoesOn t)
    (same : (columnType .mysql b).toList ++ s = (columnType .mysql c).toList ++ t) :
    columnType .mysql b = columnType .mysql c ∧ s = t := by
  have plainStart : ∀ (a : ColumnType) (s t : List Char), (mysqlType a).toList ++ s ≠ 'E' :: t := by
    intro a s t
    cases a <;> simp [mysqlType]
  cases isEnum : b.isEnum with
  | false =>
      rw [columnType_plain isEnum] at same ⊢
      cases isEnum' : c.isEnum with
      | false =>
          rw [columnType_plain isEnum'] at same ⊢
          exact mysqlType_append_inj first second same
      | true =>
          rw [columnType_enum isEnum'] at same
          exact absurd same (plainStart b.type s _)
  | true =>
      rw [columnType_enum isEnum] at same
      cases isEnum' : c.isEnum with
      | false =>
          rw [columnType_plain isEnum'] at same
          exact absurd same.symm (plainStart c.type t _)
      | true =>
          rw [columnType_enum isEnum'] at same
          simp only [List.append_assoc, List.append_cancel_left_eq] at same
          have nonempty : ∀ {e : Column}, e.isEnum → e.enumMembers ≠ [] := fun enum => by
            simpa [Column.isEnum] using enum
          rcases literals_append_inj (nonempty isEnum) (nonempty isEnum') same with ⟨members, rest⟩
          rw [columnType, columnType, if_pos isEnum, if_pos isEnum', enumType, enumType, members]
          exact ⟨rfl, rest⟩

def clauseChars (c : Column) : List Char :=
  ((notNull? c).toList ++ (defaultClause? .mysql c).toList).flatMap fun clause => ' ' :: clause.toList

theorem goesOn_clauseChars (c : Column) : GoesOn (clauseChars c) := by
  unfold clauseChars
  cases (notNull? c).toList ++ (defaultClause? .mysql c).toList with
  | nil => nofun
  | cons clause rest =>
      intro c first
      exact (Option.some.inj first).symm

theorem notNull?_cases (c : Column) : notNull? c = none ∨ notNull? c = some "not null" := by
  unfold notNull?
  split
  · exact .inr rfl
  · exact .inl rfl

theorem defaultClause?_cases (d : Dialect) (c : Column) :
    defaultClause? d c = none ∨ ∃ text, defaultClause? d c = some ("default " ++ text) := by
  unfold defaultClause?
  split
  · exact .inr ⟨_, rfl⟩
  · exact .inl rfl

theorem clauseChars_inj {b c : Column} (same : clauseChars b = clauseChars c) :
    notNull? b = notNull? c ∧ defaultClause? .mysql b = defaultClause? .mysql c := by
  unfold clauseChars at same
  rcases notNull?_cases b with first | first <;> rcases notNull?_cases c with second | second <;>
    rcases defaultClause?_cases .mysql b with third | ⟨x, third⟩ <;>
    rcases defaultClause?_cases .mysql c with fourth | ⟨y, fourth⟩ <;>
    simp_all [String.toList_inj]

theorem notNull?_eq_iff {b c : Column} (ordinary : b.isPrimaryKey = false) (ordinary' : c.isPrimaryKey = false) :
    notNull? b = notNull? c ↔ b.isNullable = c.isNullable := by
  cases first : b.isNullable <;> cases second : c.isNullable <;> simp [notNull?, ordinary, ordinary', first, second]

theorem toList_addedDefinition (c : Column) :
    (addedDefinition .mysql c).toList =
      (quoted .mysql c.name).toList ++ (' ' :: ((columnType .mysql c).toList ++ clauseChars c)) := by
  have inline : inlineReference? .mysql c = none := rfl
  rw [addedDefinition, toList_spaced_cons, List.flatMap_cons, constraints, inline, Option.toList_none, List.append_nil]
  rfl

theorem addedDefinition_eq_iff {b c : Column} (name : b.name = c.name) (ordinary : b.isPrimaryKey = false)
    (ordinary' : c.isPrimaryKey = false) :
    addedDefinition .mysql b = addedDefinition .mysql c ↔ columnType .mysql b = columnType .mysql c ∧
      b.isNullable = c.isNullable ∧ defaultClause? .mysql b = defaultClause? .mysql c := by
  rw [← notNull?_eq_iff ordinary ordinary']
  constructor
  · intro same
    have chars := congrArg String.toList same
    rw [toList_addedDefinition, toList_addedDefinition, name] at chars
    have behind := (List.cons.inj (List.append_cancel_left chars)).2
    rcases columnType_append_inj (goesOn_clauseChars b) (goesOn_clauseChars c) behind with ⟨type, clauses⟩
    exact ⟨type, clauseChars_inj clauses⟩
  · rintro ⟨type, nullable, default⟩
    have clauses : clauseChars b = clauseChars c := by rw [clauseChars, clauseChars, nullable, default]
    rw [← String.toList_inj, toList_addedDefinition, toList_addedDefinition, name, type, clauses]

end SchemaMigration.Sql
