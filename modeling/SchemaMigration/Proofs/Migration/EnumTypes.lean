import SchemaMigration.Migration.EnumTypes
import SchemaMigration.Proofs.Entries
import SchemaMigration.Proofs.Schema.Object

namespace SchemaMigration

namespace EnumTypes

def names (types : EnumTypes) : List String := types.seen.map (·.1)

theorem names_put_unknown (types : EnumTypes) {name : String} (values : Option (List String))
    (unknown : name ∉ types.names) : (types.put name values).names = types.names ++ [name] := by
  have found := (lookup_eq_none_iff_not_mem types.seen name).mpr unknown
  simp [put, names, found]

theorem mem_names_put (types : EnumTypes) (name other : String) (values : Option (List String)) :
    other ∈ (types.put name values).names ↔ other ∈ types.names ∨ other = name := by
  by_cases known : name ∈ types.names
  · have same : (types.put name values).names = types.names := by
      cases found : types.seen.lookup name with
      | none => exact absurd known ((lookup_eq_none_iff_not_mem types.seen name).mp found)
      | some kept => simp [put, found]
    rw [same]
    exact ⟨.inl, fun given => given.elim id (· ▸ known)⟩
  · rw [names_put_unknown types values known, List.mem_append, List.mem_singleton]

theorem mem_names_ofKnown (types : EnumTypes) (known : List String) (name : String) :
    name ∈ (types.ofKnown known).names ↔ name ∈ types.names ∨ name ∈ known := by
  induction known generalizing types with
  | nil => simp [ofKnown]
  | cons first rest ih => simp [ofKnown, ih, mem_names_put, or_assoc]

variable (d : Dialect) (types : EnumTypes)

theorem declareColumn_settled (c : Column) (settled : c.isEnum → Sql.enumTypeName c ∈ types.names) :
    (types.declareColumn d c).value = (types, []) := by
  unfold declareColumn
  cases enum : c.isEnum with
  | false => rfl
  | true =>
      cases found : types.seen.lookup (Sql.enumTypeName c) with
      | none => exact absurd (settled enum) ((lookup_eq_none_iff_not_mem types.seen _).mp found)
      | some kept =>
          simp only [Bool.not_true, Bool.false_eq_true, if_false, Reported.value_bind, found]
          cases conflict? kept c <;> rfl

theorem declareColumn_unsettled (c : Column) (enum : c.isEnum)
    (unknown : Sql.enumTypeName c ∉ types.names) :
    (types.declareColumn d c).value =
      (types.put (Sql.enumTypeName c) (some c.enumMembers),
        if d = .postgres then [.createType (Sql.enumTypeName c) c.enumMembers] else []) := by
  have found := (lookup_eq_none_iff_not_mem types.seen _).mpr unknown
  simp [declareColumn, enum, found, Statement.supported]

theorem declare_cons (c : Column) (rest : List Column) :
    (types.declare d (c :: rest)).value =
      (((types.declareColumn d c).value.1.declare d rest).value.1,
        (types.declareColumn d c).value.2 ++ ((types.declareColumn d c).value.1.declare d rest).value.2) := rfl

theorem declare_append (first second : List Column) :
    (types.declare d (first ++ second)).value =
      (((types.declare d first).value.1.declare d second).value.1,
        (types.declare d first).value.2 ++ ((types.declare d first).value.1.declare d second).value.2) := by
  induction first generalizing types with
  | nil => rfl
  | cons c rest ih => simp only [List.cons_append, declare_cons, ih, List.append_assoc]

/-- The types that columns bring beside the known ones, with the values of their first columns. -/
def broughtBy : List String → List Column → List (String × List String)
  | _, [] => []
  | known, c :: rest =>
    if c.isEnum ∧ Sql.enumTypeName c ∉ known then
      (Sql.enumTypeName c, c.enumMembers) :: broughtBy (known ++ [Sql.enumTypeName c]) rest
    else broughtBy known rest

theorem lookup_broughtBy (known : List String) (columns : List Column) (name : String) :
    (broughtBy known columns).lookup name =
      if name ∈ known then none
      else (columns.find? fun c => c.isEnum && Sql.enumTypeName c == name).map (·.enumMembers) := by
  induction columns generalizing known with
  | nil => simp [broughtBy]
  | cons c rest ih =>
      rw [broughtBy]
      by_cases fresh : c.isEnum ∧ Sql.enumTypeName c ∉ known
      · rw [if_pos fresh, List.lookup_cons, ih, List.find?_cons]
        by_cases same : name = Sql.enumTypeName c
        · subst same
          simp [fresh.1, fresh.2]
        · have apart : (name == Sql.enumTypeName c) = false := by simpa using same
          have asked : (Sql.enumTypeName c == name) = false := by simpa using Ne.symm same
          simp [same, apart, asked]
      · rw [if_neg fresh, ih, List.find?_cons]
        by_cases enum : c.isEnum
        · have old : Sql.enumTypeName c ∈ known := by simpa [enum] using fresh
          by_cases same : Sql.enumTypeName c = name
          · subst same
            simp [old]
          · have apart : (Sql.enumTypeName c == name) = false := by simpa using same
            simp [apart]
        · simp [enum]

theorem mem_names_broughtBy (known : List String) (columns : List Column) (name : String) :
    name ∈ (broughtBy known columns).map (·.1) ↔
      name ∉ known ∧ ∃ c ∈ columns, c.isEnum ∧ Sql.enumTypeName c = name := by
  have absent := lookup_eq_none_iff_not_mem (broughtBy known columns) name
  rw [lookup_broughtBy] at absent
  rw [← not_iff_not, ← absent]
  by_cases old : name ∈ known <;> simp [old]

theorem nodup_broughtBy (known : List String) (columns : List Column) :
    ((broughtBy known columns).map (·.1)).Nodup := by
  induction columns generalizing known with
  | nil => exact List.nodup_nil
  | cons c rest ih =>
      rw [broughtBy]
      split
      case isFalse => exact ih known
      case isTrue =>
        refine List.nodup_cons.mpr ⟨fun again => ?_, ih _⟩
        have unknown := ((mem_names_broughtBy ..).mp again).1
        simp at unknown

theorem column_of_mem_broughtBy {known : List String} {columns : List Column} {type : String × List String}
    (brought : type ∈ broughtBy known columns) :
    ∃ c ∈ columns, c.isEnum ∧ type = (Sql.enumTypeName c, c.enumMembers) := by
  have found := lookup_eq_some_of_mem (nodup_broughtBy known columns) brought
  rw [lookup_broughtBy] at found
  split at found
  case isTrue => cases found
  case isFalse =>
    rcases Option.map_eq_some_iff.mp found with ⟨c, first, members⟩
    have named := List.find?_some first
    rw [Bool.and_eq_true, beq_iff_eq] at named
    exact ⟨c, List.mem_of_find?_eq_some first, named.1, Prod.ext named.2.symm members.symm⟩

def createTypes (brought : List (String × List String)) : List Statement :=
  brought.map fun type => .createType type.1 type.2

/-- The brought types are known from then on, and created where types are created at all. -/
theorem declare_eq_broughtBy (columns : List Column) :
    (types.declare d columns).value.1.names = types.names ++ (broughtBy types.names columns).map (·.1) ∧
      (types.declare d columns).value.2 =
        if d = .postgres then createTypes (broughtBy types.names columns) else [] := by
  induction columns generalizing types with
  | nil => simp [declare, broughtBy, createTypes]
  | cons c rest ih =>
      rw [declare_cons, (ih _).1, (ih _).2, broughtBy]
      by_cases fresh : c.isEnum ∧ Sql.enumTypeName c ∉ types.names
      · rw [if_pos fresh, declareColumn_unsettled d types c fresh.1 fresh.2,
          names_put_unknown types _ fresh.2]
        by_cases postgres : d = .postgres <;> simp [postgres, createTypes]
      · have settled : c.isEnum → Sql.enumTypeName c ∈ types.names := by simpa using fresh
        rw [if_neg fresh, declareColumn_settled d types c settled, List.nil_append]
        exact ⟨rfl, rfl⟩

theorem mem_names_declare (columns : List Column) (name : String) :
    name ∈ (types.declare d columns).value.1.names ↔
      name ∈ types.names ∨ ∃ c ∈ columns, c.isEnum ∧ Sql.enumTypeName c = name := by
  rw [(declare_eq_broughtBy d types columns).1, List.mem_append, mem_names_broughtBy]
  by_cases known : name ∈ types.names <;> simp [known]

theorem created_createTypes (brought : List (String × List String)) :
    created d (createTypes brought) = (brought.map (·.1)).map .enumType := by
  induction brought with
  | nil => rfl
  | cons type rest ih => exact congrArg (SchemaObject.enumType type.1 :: ·) ih

theorem mem_created_declare (columns : List Column) (object : SchemaObject) :
    object ∈ created d (types.declare d columns).value.2 ↔
      d = .postgres ∧ ∃ c ∈ columns, c.isEnum ∧ Sql.enumTypeName c ∉ types.names ∧
        object = .enumType (Sql.enumTypeName c) := by
  rw [(declare_eq_broughtBy d types columns).2]
  split
  case isFalse elsewhere => simp [elsewhere]
  case isTrue postgres =>
    rw [created_createTypes, List.mem_map]
    simp only [mem_names_broughtBy, postgres, true_and]
    constructor
    · intro given
      rcases given with ⟨name, ⟨unknown, c, member, enum, rfl⟩, rfl⟩
      exact ⟨c, member, enum, unknown, rfl⟩
    · intro given
      rcases given with ⟨c, member, enum, unknown, rfl⟩
      exact ⟨_, ⟨unknown, c, member, enum, rfl⟩, rfl⟩

theorem nodup_created_declare (columns : List Column) :
    (created d (types.declare d columns).value.2).Nodup := by
  rw [(declare_eq_broughtBy d types columns).2]
  split
  case isFalse => exact List.nodup_nil
  case isTrue =>
    rw [created_createTypes]
    exact (nodup_broughtBy ..).map fun _ _ same => SchemaObject.enumType.inj same

theorem declare_only_types (columns : List Column) :
    ∀ s ∈ (types.declare d columns).value.2, ∃ name values, s = .createType name values := by
  intro s member
  rw [(declare_eq_broughtBy d types columns).2] at member
  split at member
  case isFalse => cases member
  case isTrue =>
    rcases List.mem_map.mp member with ⟨type, -, rfl⟩
    exact ⟨type.1, type.2, rfl⟩

end EnumTypes
end SchemaMigration
