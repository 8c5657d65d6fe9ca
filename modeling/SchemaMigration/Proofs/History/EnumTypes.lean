import SchemaMigration.Proofs.History.Recreation
import SchemaMigration.Proofs.Migration.TypeSupply
/-!
Enum types along a history. A migration takes the types of all enum columns of the previous plan for
created. That is right only while those columns were created as enum columns: a column that became
one later was never altered, and no migration has created its type.
-/
namespace SchemaMigration.History

/--
Whenever a migration creates an enum column whose type the previous plan has, an enum column of that
type was created before, be it one of `seen`.
-/
def TypesCarried (seen : List Column) : Plan → List Plan → Prop
  | _, [] => True
  | previous, current :: rest =>
    (∀ c ∈ Diff.createdColumns previous current, c.isEnum → Sql.enumTypeName c ∈ previous.enumTypeNames →
      ∃ earlier ∈ seen, earlier.isEnum ∧ Sql.enumTypeName earlier = Sql.enumTypeName c) ∧
    TypesCarried (seen ++ Diff.createdColumns previous current) current rest

instance decidableTypesCarried : ∀ seen previous plans, Decidable (TypesCarried seen previous plans)
  | _, _, [] => isTrue trivial
  | seen, previous, current :: rest =>
    @instDecidableAnd _ _ inferInstance
      (decidableTypesCarried (seen ++ Diff.createdColumns previous current) current rest)

theorem supplied_iff_carried {base : Plan} {plans : List Plan} {held : List SchemaObject} {seen : List Column}
    (start : base.dialect = .postgres) (postgres : ∀ p ∈ plans, p.dialect = .postgres)
    (types : ∀ name, .enumType name ∈ held ↔ ∃ c ∈ seen, c.isEnum ∧ Sql.enumTypeName c = name) :
    Supplied .postgres (Statement.typesUsed .postgres) held (migrations (some base) plans) ↔
      TypesCarried seen base plans := by
  induction plans generalizing base held seen with
  | nil => exact Iff.rfl
  | cons p rest ih =>
      have first := postgres p List.mem_cons_self
      have settles := Diff.settles_additions base first
      rw [migrations, supplied_append, Diff.statements_some base p (start.trans first.symm), settles.relies,
        TypesCarried]
      simp only [types, Diff.mem_names_knownTypes]
      apply and_congr_right
      intro carried
      apply ih first (fun q member => postgres q (List.mem_cons_of_mem p member))
      intro name
      rw [List.mem_append, types, settles.creates, Diff.mem_names_knownTypes]
      simp only [List.mem_append, or_and_right, exists_or]
      constructor
      · intro given
        rcases given with before | ⟨-, now⟩
        · exact .inl before
        · exact .inr now
      · intro given
        rcases given with before | ⟨c, member, enum, rfl⟩
        · exact .inl before
        · by_cases known : Sql.enumTypeName c ∈ base.enumTypeNames
          · exact .inl (carried c member enum known)
          · exact .inr ⟨known, c, member, enum, rfl⟩

/-- Every enum column finds its type created before it exactly if the types are carried. -/
theorem types_supplied_iff {plans : List Plan} (built : ∀ p ∈ plans, p.Built .postgres) :
    Supplied .postgres (Statement.typesUsed .postgres) [] (migrations none plans) ↔
      TypesCarried [] (.empty .postgres) plans := by
  have regular : ∀ p ∈ plans, p.Regular .postgres := fun p member => (built p member).regular
  rw [migrations_none regular]
  exact supplied_iff_carried rfl (fun p member => (regular p member).dialect) (by simp)

def ticketsWith (status : Attribute) : ModelSet :=
  [("Ticket", { name := "Ticket", attributes := [("id", {}), ("status", status)] })]

def openOrClosed : Attribute := { enumValues := some ["open", "closed"] }

def ticketsAndOrders : ModelSet :=
  ticketsWith openOrClosed ++
    [("Order", { name := "Order", attributes := [("id", {}), ("status", openOrClosed)] })]

def enumPlans : List Plan := plansOf .postgres [ticketsWith openOrClosed, ticketsAndOrders]

def retypedPlans : List Plan :=
  plansOf .postgres [ticketsWith { type := some .string }, ticketsWith openOrClosed, ticketsAndOrders]

theorem status_type_supplied :
    (∀ p ∈ enumPlans, p.Built .postgres) ∧
      Supplied .postgres (Statement.typesUsed .postgres) [] (migrations none enumPlans) := by
  have built : ∀ p ∈ enumPlans, p.Built .postgres := plansOf_built .postgres (by decide)
  exact ⟨built, (types_supplied_iff built).mpr (by decide)⟩

theorem status_type_missing :
    (∀ p ∈ retypedPlans, p.Built .postgres) ∧
      ¬ Supplied .postgres (Statement.typesUsed .postgres) [] (migrations none retypedPlans) :=
  ⟨plansOf_built .postgres (by decide), by decide⟩

end SchemaMigration.History
