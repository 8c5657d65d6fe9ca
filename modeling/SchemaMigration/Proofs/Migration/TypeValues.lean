import SchemaMigration.Proofs.Migration.Tells
import SchemaMigration.Proofs.Plan.Built
/-!
Whose values an enum column gets. Types are shared by name, so a column may find a type that another column has brought.
Where that was in the same migration, a difference is told; where the type comes from the former plan, it is not.
-/
namespace SchemaMigration

def Notice.typeName? : Notice → Option String
  | .enumValuesIgnored name .. => some name
  | _ => none

theorem Notice.level_of_typeName? {n : Notice} {name : String} (named : n.typeName? = some name) :
    n.level = .warning := by
  cases n with
  | enumValuesIgnored => rfl
  | _ => cases named

namespace Statement

def defines : Statement → List Column
  | .createTable _ columns => columns
  | .addColumn _ c => [c]
  | _ => []

def valuesOf? (name : String) : Statement → Option (List String)
  | .createType type values => if type = name then some values else none
  | _ => none

end Statement

def firstValues? (columns : List Column) (name : String) : Option (List String) :=
  (columns.find? fun c => c.isEnum && Sql.enumTypeName c == name).map (·.enumMembers)

/-- The values that a type has in a database made for the plan. -/
def Plan.typeValues? (p : Plan) (name : String) : Option (List String) := firstValues? (Diff.enumColumns p) name

/-- The values of a type after a migration: those it was created with just now, or else the former ones. -/
def Diff.typeValues? (previous : Option Plan) (statements : List Statement) (name : String) : Option (List String) :=
  (statements.findSome? (Statement.valuesOf? name)).or (previous.bind (·.typeValues? name))

theorem eq_toList_of_perm {α : Type} {items : List α} {only : Option α} (same : items.Perm only.toList) :
    items = only.toList := by
  cases only with
  | none => exact List.perm_nil.mp same
  | some a => exact List.perm_singleton.mp same

namespace EnumTypes
variable (d : Dialect) (types : EnumTypes) (name : String)

theorem lookup_put (other : String) (values : Option (List String)) :
    (types.put other values).seen.lookup name =
      (types.seen.lookup name).or (if other = name then some values else none) := by
  unfold put
  split
  case h_1 kept found =>
    by_cases same : other = name
    · rw [← same, found, Option.some_or]
    · rw [if_neg same, Option.or_none]
  case h_2 =>
    rw [List.lookup_append]
    by_cases same : other = name
    · simp [same]
    · have apart : (name == other) = false := by simpa using Ne.symm same
      simp [same, List.lookup_cons, apart]

theorem lookup_ofKnown (known : List String) :
    (types.ofKnown known).seen.lookup name =
      (types.seen.lookup name).or (if name ∈ known then some none else none) := by
  induction known generalizing types with
  | nil => simp [ofKnown]
  | cons first rest ih =>
      rw [ofKnown, ih, lookup_put, Option.or_assoc]
      by_cases same : first = name
      · simp [same]
      · simp [same, Ne.symm same]

theorem seen_declare (columns : List Column) :
    (types.declare d columns).value.1.seen =
      types.seen ++ (broughtBy types.names columns).map fun type => (type.1, some type.2) := by
  induction columns generalizing types with
  | nil => simp [declare, broughtBy]
  | cons c rest ih =>
      rw [declare_cons, ih, broughtBy]
      by_cases fresh : c.isEnum ∧ Sql.enumTypeName c ∉ types.names
      · have unknown := (lookup_eq_none_iff_not_mem types.seen _).mpr fresh.2
        rw [if_pos fresh, declareColumn_unsettled d types c fresh.1 fresh.2, names_put_unknown types _ fresh.2]
        simp [put, unknown]
      · have settled : c.isEnum → Sql.enumTypeName c ∈ types.names := by simpa using fresh
        rw [if_neg fresh, declareColumn_settled d types c settled]

theorem lookup_declare (columns : List Column) :
    (types.declare d columns).value.1.seen.lookup name =
      (types.seen.lookup name).or (((broughtBy types.names columns).lookup name).map some) := by
  rw [seen_declare, List.lookup_append, lookup_map_snd]

theorem declare_cons_types (c : Column) (rest : List Column) :
    (types.declare d (c :: rest)).value.1 = ((types.declareColumn d c).value.1.declare d rest).value.1 := rfl

/-- A type that an enum column finds or brings has some values after it, unless it was known without them. -/
theorem lookup_declare_cons {c : Column} (enum : c.isEnum) (rest : List Column) :
    (types.declare d (c :: rest)).value.1.seen.lookup (Sql.enumTypeName c) =
      (types.seen.lookup (Sql.enumTypeName c)).or (some (some c.enumMembers)) := by
  rw [lookup_declare, lookup_broughtBy]
  cases found : types.seen.lookup (Sql.enumTypeName c) with
  | some kept => rfl
  | none =>
      have unknown := (lookup_eq_none_iff_not_mem types.seen _).mp found
      simp [names, unknown, enum]

theorem exists_conflict_iff (about : Notice → Prop) (kept : Option (List String)) (c : Column) :
    (∃ n ∈ conflict? kept c, about n) ↔ ∃ values, kept = some values ∧ values ≠ c.enumMembers ∧
      about (.enumValuesIgnored (Sql.enumTypeName c) values c.enumMembers c.name) := by
  cases kept with
  | none => simp [conflict?]
  | some values => by_cases same : values = c.enumMembers <;> simp [conflict?, same]

/-- What a column tells of its type can be seen from the values that the type has after all columns. -/
theorem tells_declareColumn_iff (about : Notice → Prop) (c : Column) (rest : List Column) :
    (types.declareColumn d c).Tells about ↔ c.isEnum ∧
      ∃ values, (types.declare d (c :: rest)).value.1.seen.lookup (Sql.enumTypeName c) = some (some values) ∧
        values ≠ c.enumMembers ∧ about (.enumValuesIgnored (Sql.enumTypeName c) values c.enumMembers c.name) := by
  rw [tells_declareColumn]
  apply and_congr_right
  intro enum
  rw [lookup_declare_cons d types enum]
  simp only [exists_conflict_iff]
  cases known : types.seen.lookup (Sql.enumTypeName c) with
  | none =>
      -- The column has brought the type, so the values are its own.
      constructor
      · rintro ⟨kept, ⟨⟩, -⟩
      · rintro ⟨values, own, differ, -⟩
        exact absurd (Option.some.inj (Option.some.inj own)).symm differ
  | some kept => simp only [Option.some_or, Option.some.injEq, exists_eq_left']

theorem tells_declare_iff (about : Notice → Prop) (columns : List Column) :
    (types.declare d columns).Tells about ↔ ∃ c ∈ columns, c.isEnum ∧
      ∃ values, (types.declare d columns).value.1.seen.lookup (Sql.enumTypeName c) = some (some values) ∧
        values ≠ c.enumMembers ∧ about (.enumValuesIgnored (Sql.enumTypeName c) values c.enumMembers c.name) := by
  induction columns generalizing types with
  | nil => simp [declare]
  | cons c rest ih =>
      rw [tells_declare_cons, tells_declareColumn_iff d types about c rest, ih, ← declare_cons_types]
      simp only [List.mem_cons, or_and_right, exists_or, exists_eq_left]

theorem filterMap_valuesOf_createTypes {brought : List (String × List String)} (distinct : (brought.map (·.1)).Nodup) :
    (createTypes brought).filterMap (Statement.valuesOf? name) = (brought.lookup name).toList := by
  induction brought with
  | nil => rfl
  | cons type rest ih =>
      rcases List.nodup_cons.mp distinct with ⟨fresh, distinctRest⟩
      have others := ih distinctRest
      rw [createTypes, List.map_cons, ← createTypes, List.filterMap_cons, others, List.lookup_cons]
      by_cases same : type.1 = name
      · have absent := (lookup_eq_none_iff_not_mem rest name).mpr (same ▸ fresh)
        simp [Statement.valuesOf?, same, absent]
      · have apart : (name == type.1) = false := by simpa using Ne.symm same
        simp [Statement.valuesOf?, same, apart]

end EnumTypes

namespace Diff
open Migration
variable {previous current : Plan}

theorem lookup_knownTypes (p : Plan) (name : String) :
    (knownTypes p).value.seen.lookup name = if name ∈ p.enumTypeNames then some none else none := by
  change (EnumTypes.ofKnown {} _).seen.lookup name = _
  rw [EnumTypes.lookup_ofKnown]
  rfl

theorem isSome_firstValues?_iff (columns : List Column) (name : String) :
    (firstValues? columns name).isSome ↔ ∃ c ∈ columns, c.isEnum ∧ Sql.enumTypeName c = name := by
  simp only [firstValues?, Option.isSome_map, List.find?_isSome, Bool.and_eq_true, beq_iff_eq]

theorem isSome_typeValues?_iff (p : Plan) (name : String) : (p.typeValues? name).isSome ↔ name ∈ p.enumTypeNames := by
  rw [Plan.typeValues?, isSome_firstValues?_iff, p.mem_enumTypeNames]
  simp only [enumColumns, List.mem_flatMap, List.mem_filter]
  constructor
  · intro given
    rcases given with ⟨c, ⟨t, inPlan, inTable, -⟩, enum, named⟩
    exact ⟨t, inPlan, c, inTable, enum, named⟩
  · intro given
    rcases given with ⟨t, inPlan, c, inTable, enum, named⟩
    exact ⟨c, ⟨t, inPlan, inTable, enum⟩, enum, named⟩

theorem defines_subset_createdColumns {s : Statement}
    (member : s ∈ MigrationFile.flatten (additions previous current).value) :
    s.defines ⊆ createdColumns previous current := by
  intro c defined
  rw [mem_createdColumns]
  rcases additions_cases member with ⟨name, values, rfl⟩ | ⟨t, inPlan, inTable⟩
  · cases defined
  · rcases tableStatements_cases inTable with ⟨new, rfl⟩ | ⟨-, b, isCreated, rfl⟩ |
      ⟨-, b, -, target, -, rfl⟩ | ⟨i, -, rfl⟩
    · exact ⟨t, inPlan, by rwa [createdIn_of_isNew new]⟩
    · exact ⟨t, inPlan, by rwa [List.mem_singleton.mp defined]⟩
    · cases defined
    · cases defined

theorem findSome?_valuesOf_additions (postgres : current.dialect = .postgres) (name : String) :
    (MigrationFile.flatten (additions previous current).value).findSome? (Statement.valuesOf? name) =
      if name ∈ previous.enumTypeNames then none else firstValues? (createdColumns previous current) name := by
  have tables : (current.tables.flatMap (tableStatements current.dialect previous)).filterMap
      (Statement.valuesOf? name) = [] := by
    rw [List.filterMap_eq_nil_iff]
    intro s member
    rcases List.mem_flatMap.mp member with ⟨t, -, inTable⟩
    rcases tableStatements_cases inTable with ⟨-, rfl⟩ | ⟨-, c, -, rfl⟩ | ⟨-, c, -, target, -, rfl⟩ |
      ⟨i, -, rfl⟩ <;> rfl
  have types := (additions_perm previous current).filterMap (Statement.valuesOf? name)
  rw [List.filterMap_append, tables, List.append_nil, (EnumTypes.declare_eq_broughtBy ..).2, if_pos postgres,
    EnumTypes.filterMap_valuesOf_createTypes name (EnumTypes.nodup_broughtBy ..)] at types
  calc (MigrationFile.flatten (additions previous current).value).findSome? (Statement.valuesOf? name)
      = ((MigrationFile.flatten (additions previous current).value).filterMap (Statement.valuesOf? name)).head? :=
        List.head?_filterMap.symm
    _ = (EnumTypes.broughtBy (knownTypes previous).value.names (createdColumns previous current)).lookup name := by
        rw [eq_toList_of_perm types, Option.head?_toList]
    _ = if name ∈ previous.enumTypeNames then none else firstValues? (createdColumns previous current) name := by
        rw [EnumTypes.lookup_broughtBy]
        simp only [mem_names_knownTypes, firstValues?]

theorem tells_additions_iff {about : Notice → Prop} (ignores : IgnoresNews about) :
    (additions previous current).Tells about ↔ ∃ c ∈ createdColumns previous current, c.isEnum ∧
      Sql.enumTypeName c ∉ previous.enumTypeNames ∧
        ∃ values, firstValues? (createdColumns previous current) (Sql.enumTypeName c) = some values ∧
          values ≠ c.enumMembers ∧ about (.enumValuesIgnored (Sql.enumTypeName c) values c.enumMembers c.name) := by
  rw [tells_additions ignores, EnumTypes.tells_declare_iff]
  apply exists_congr
  intro c
  apply and_congr_right'
  apply and_congr_right'
  rw [EnumTypes.lookup_declare, EnumTypes.lookup_broughtBy, lookup_knownTypes]
  simp only [mem_names_knownTypes]
  by_cases known : Sql.enumTypeName c ∈ previous.enumTypeNames
  · simp [known]
  · simp [known, firstValues?]

theorem tells_type_additions_iff (name : String) :
    (additions previous current).Tells (·.typeName? = some name) ↔ name ∉ previous.enumTypeNames ∧
      ∃ values, firstValues? (createdColumns previous current) name = some values ∧
        ∃ c ∈ createdColumns previous current, c.isEnum ∧ Sql.enumTypeName c = name ∧ values ≠ c.enumMembers := by
  rw [tells_additions_iff ⟨nofun, nofun, nofun⟩]
  constructor
  · rintro ⟨c, isCreated, enum, new, values, first, differ, named⟩
    obtain rfl := Option.some.inj named
    exact ⟨new, values, first, c, isCreated, enum, rfl, differ⟩
  · rintro ⟨new, values, first, c, isCreated, enum, rfl, differ⟩
    exact ⟨c, isCreated, enum, new, values, first, differ, rfl⟩

/--
A created enum column finds a type. That has the column's values, or it is told that it does not, unless the type comes
from the former plan with other values.
-/
theorem additions_keep_or_tell_iff (postgres : current.dialect = .postgres) {c : Column}
    (isCreated : c ∈ createdColumns previous current) (enum : c.isEnum) :
    let values := typeValues? (some previous) (MigrationFile.flatten (additions previous current).value)
      (Sql.enumTypeName c)
    values.isSome ∧
      (values = some c.enumMembers ∨ (additions previous current).Tells (·.typeName? = some (Sql.enumTypeName c)) ↔
        ∀ former ∈ previous.typeValues? (Sql.enumTypeName c), former = c.enumMembers) := by
  intro values
  have whose : values = ((if Sql.enumTypeName c ∈ previous.enumTypeNames then none
      else firstValues? (createdColumns previous current) (Sql.enumTypeName c)).or
        (previous.typeValues? (Sql.enumTypeName c))) := by
    rw [← findSome?_valuesOf_additions postgres]
    rfl
  have old := isSome_typeValues?_iff previous (Sql.enumTypeName c)
  rw [tells_type_additions_iff]
  by_cases known : Sql.enumTypeName c ∈ previous.enumTypeNames
  · rcases Option.isSome_iff_exists.mp (old.mpr known) with ⟨former, found⟩
    rw [if_pos known, Option.none_or, found] at whose
    simp [whose, known, found]
  · have absent : previous.typeValues? (Sql.enumTypeName c) = none := by
      rw [← Option.not_isSome_iff_eq_none, old]
      exact known
    have brought := (isSome_firstValues?_iff (createdColumns previous current) _).mpr ⟨c, isCreated, enum, rfl⟩
    rcases Option.isSome_iff_exists.mp brought with ⟨first, found⟩
    rw [if_neg known, absent, Option.or_none, found] at whose
    have keptOrTold : first = c.enumMembers ∨ ∃ b ∈ createdColumns previous current, b.isEnum ∧
        Sql.enumTypeName b = Sql.enumTypeName c ∧ first ≠ b.enumMembers :=
      or_iff_not_imp_left.mpr fun differ => ⟨c, isCreated, enum, rfl, differ⟩
    simpa [whose, known, found, absent] using keptOrTold

/--
Every enum column that a migration creates finds a type. Either that has the values of the column, or a warning names
it, exactly if the type does not come from the former plan with other values.
-/
theorem enum_values_kept_or_told_iff {previous : Option Plan} {current : Plan} {rendered : List Statement}
    (former : ∀ p ∈ previous, p.dialect = .postgres) (postgres : current.dialect = .postgres)
    (done : (statements previous current).outcome = .ok rendered) :
    ∀ s ∈ rendered, ∀ c ∈ s.defines, c.isEnum →
      (typeValues? previous rendered (Sql.enumTypeName c)).isSome ∧
        ((typeValues? previous rendered (Sql.enumTypeName c) = some c.enumMembers ∨
            ∃ n ∈ (statements previous current).notices, n.level = .warning ∧ n.typeName? = some (Sql.enumTypeName c)) ↔
          ∀ values ∈ previous.bind (·.typeValues? (Sql.enumTypeName c)), values = c.enumMembers) := by
  rcases (Reported.outcome_eq_ok_iff ..).mp done with ⟨succeeds, rfl⟩
  have same : ∀ p ∈ previous, p.dialect = current.dialect := fun p given => (former p given).trans postgres.symm
  have types : ∀ name, previous.bind (·.typeValues? name) =
      (previous.getD (.empty current.dialect)).typeValues? name := by
    cases previous <;> exact fun _ => rfl
  have told : ∀ name, (∃ n ∈ (statements previous current).notices, n.level = .warning ∧ n.typeName? = some name) ↔
      (additions (previous.getD (.empty current.dialect)) current).Tells (·.typeName? = some name) := by
    intro name
    rw [← tells_statements_iff_additions ⟨nofun, nofun, nofun⟩ nofun same, succeeds.tells_iff]
    exact exists_congr fun n => and_congr_right' (and_iff_right_of_imp Notice.level_of_typeName?)
  intro s member c defined enum
  rw [statements_eq_additions same] at member
  have kept := additions_keep_or_tell_iff postgres (defines_subset_createdColumns member defined) enum
  rw [told, typeValues?, types, statements_eq_additions same]
  exact kept

def planWithEnums (models : List (String × String × List String)) : Plan :=
  Plan.postgresOf (models.map fun entry => (entry.1, {
    name := entry.1
    attributes := [("id", {}), (entry.2.1, { enumValues := some entry.2.2 })] }))

def ticketStates : String × String × List String := ("Ticket", "state", ["open", "closed"])

def formerTickets : Plan := planWithEnums [ticketStates]

/-- The notes share the states of the tickets, and the tasks find the type of another kind. -/
def statesAndKinds : Plan :=
  planWithEnums
    [ticketStates, ("Note", "state", ["open", "closed"]), ("Bug", "kind", ["low", "high"]), ("Task", "kind", ["new"])]

theorem task_kinds_told :
    (statements (some formerTickets) statesAndKinds).notices.filterMap Notice.typeName? = ["kind_type"] ∧
      ∀ s ∈ (statements (some formerTickets) statesAndKinds).value, ∀ c ∈ s.defines, c.isEnum →
        typeValues? (some formerTickets) (statements (some formerTickets) statesAndKinds).value (Sql.enumTypeName c) =
            some c.enumMembers ∨
          ∃ n ∈ (statements (some formerTickets) statesAndKinds).notices,
            n.level = .warning ∧ n.typeName? = some (Sql.enumTypeName c) := by
  have kept : ∀ s ∈ (statements (some formerTickets) statesAndKinds).value, ∀ c ∈ s.defines,
      ∀ values ∈ formerTickets.typeValues? (Sql.enumTypeName c), values = c.enumMembers := by decide
  refine ⟨by decide, ?_⟩
  intro s member c defined enum
  exact (enum_values_kept_or_told_iff (by decide) rfl rfl s member c defined enum).2.mpr (kept s member c defined)

/-- Tasks whose states are not those of the former tickets get no type of their own, and it is not told. -/
theorem task_states_not_told : ¬ ∀ (previous : Option Plan) (current : Plan) (rendered : List Statement),
    (∀ p ∈ previous, p.dialect = .postgres ∧ p.tableNames.Nodup) → current.dialect = .postgres →
      current.tableNames.Nodup → (statements previous current).outcome = .ok rendered →
        ∀ s ∈ rendered, ∀ c ∈ s.defines, c.isEnum →
          typeValues? previous rendered (Sql.enumTypeName c) = some c.enumMembers ∨
            ∃ n ∈ (statements previous current).notices,
              n.level = .warning ∧ n.typeName? = some (Sql.enumTypeName c) := by
  intro claimed
  have told := claimed (some formerTickets) (planWithEnums [ticketStates, ("Task", "state", ["new"])]) _ (by decide)
    rfl (by decide) rfl
  exact absurd told (by decide)

end Diff
end SchemaMigration
