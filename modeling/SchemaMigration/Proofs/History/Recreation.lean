import SchemaMigration.Proofs.Migration.Step
import SchemaMigration.Proofs.Plan.Built
/-!
Histories of plans. Each migration starts from the plan before it alone, while the database keeps
whatever any migration has created. Therefore an object is created again once it has left the plans
and come back to them, and in no other case.
-/
namespace SchemaMigration.History

/-- The statements of all migrations, from a previous plan through the given ones. -/
def migrations : Option Plan → List Plan → List Statement
  | _, [] => []
  | previous, p :: rest => (Diff.statements previous p).value ++ migrations (some p) rest

def plansOf (d : Dialect) (history : List ModelSet) : List Plan :=
  history.map fun models => Plan.buildWith (.ofModels models) models d

theorem plansOf_built (d : Dialect) {history : List ModelSet}
    (good : ∀ models ∈ history, models.Accepted ∧ models.tableNames.Nodup) :
    ∀ p ∈ plansOf d history, p.Built d := by
  intro p member
  rcases List.mem_map.mp member with ⟨models, listed, rfl⟩
  exact Plan.built_buildWith d (good models listed).1 (good models listed).2

/-- The object is in one plan, not in some later plan, and in a plan after that again. -/
def Returns (object : SchemaObject) (plans : List Plan) : Prop :=
  ∃ early gone late, [early, gone, late].Sublist plans ∧
    object ∈ early.inventory ∧ object ∉ gone.inventory ∧ object ∈ late.inventory

variable {d : Dialect} {object : SchemaObject}

theorem migrations_none {plans : List Plan} (regular : ∀ p ∈ plans, p.Regular d) :
    migrations none plans = migrations (some (.empty d)) plans := by
  cases plans with
  | nil => rfl
  | cons p rest =>
      obtain rfl := (regular p List.mem_cons_self).dialect
      rw [migrations, migrations, Diff.statements_none, Diff.statements_empty]

theorem appears_of_created {base : Plan} {plans : List Plan} (start : base.Regular d)
    (regular : ∀ p ∈ plans, p.Regular d) (named : object.isNamed)
    (isCreated : object ∈ created d (migrations (some base) plans)) :
    ∃ gone late, [gone, late].Sublist (base :: plans) ∧
      object ∉ gone.inventory ∧ object ∈ late.inventory := by
  induction plans generalizing base with
  | nil => cases isCreated
  | cons p rest ih =>
      have first := regular p List.mem_cons_self
      rw [migrations, created_append, List.mem_append] at isCreated
      rcases isCreated with now | later
      · have new := Diff.new_of_created start first named now
        exact ⟨base, p, by simp, new.2, new.1⟩
      · obtain ⟨gone, late, order, absent, present⟩ :=
          ih first (fun q member => regular q (List.mem_cons_of_mem p member)) later
        exact ⟨gone, late, order.cons base, absent, present⟩

theorem created_of_appears {base gone late : Plan} {plans : List Plan} (start : base.Regular d)
    (regular : ∀ p ∈ plans, p.Regular d) (place : object.isPlace)
    (order : [gone, late].Sublist (base :: plans)) (absent : object ∉ gone.inventory)
    (present : object ∈ late.inventory) : object ∈ created d (migrations (some base) plans) := by
  induction plans generalizing base gone with
  | nil =>
      have short := order.length_le
      simp at short
  | cons p rest ih =>
      have first := regular p List.mem_cons_self
      have later := fun q member => regular q (List.mem_cons_of_mem p member)
      rw [migrations, created_append, List.mem_append]
      cases order with
      | cons _ order => exact .inr (ih first later order absent)
      | cons_cons _ order =>
          by_cases now : object ∈ p.inventory
          · exact .inl (Diff.created_of_new start first place now absent)
          · cases order with
            | cons _ order => exact .inr (ih first later (order.cons_cons p) now)
            | cons_cons => exact absurd present now

theorem returns_of_createdAgain {base : Plan} {plans : List Plan} (start : base.Regular d)
    (regular : ∀ p ∈ plans, p.Regular d) (named : object.isNamed)
    (again : CreatedAgain d object (migrations (some base) plans)) : Returns object plans := by
  induction plans generalizing base with
  | nil =>
      rcases again with ⟨before, s, after, split, -⟩
      simp [migrations] at split
  | cons p rest ih =>
      have first := regular p List.mem_cons_self
      have later := fun q member => regular q (List.mem_cons_of_mem p member)
      rw [migrations, createdAgain_append] at again
      rcases again with within | within | ⟨now, afterwards⟩
      · exact absurd within
          (not_createdAgain_of_count_le_one (Diff.count_created_le_one start.dialect first named))
      · rcases ih first later within with ⟨early, gone, late, order, presence⟩
        exact ⟨early, gone, late, order.cons p, presence⟩
      · have inPlan := (Diff.new_of_created start first named now).1
        rcases appears_of_created first later named afterwards with ⟨gone, late, order, absent, present⟩
        refine ⟨p, gone, late, ?_, inPlan, absent, present⟩
        cases order with
        | cons _ order => exact order.cons_cons p
        | cons_cons => exact absurd inPlan absent

theorem createdAgain_of_returns {base : Plan} {plans : List Plan} (start : base.Regular d)
    (regular : ∀ p ∈ plans, p.Regular d) (place : object.isPlace) (unused : object ∉ base.inventory)
    (returns : Returns object plans) : CreatedAgain d object (migrations (some base) plans) := by
  induction plans generalizing base with
  | nil =>
      rcases returns with ⟨early, gone, late, order, -⟩
      cases order
  | cons p rest ih =>
      have first := regular p List.mem_cons_self
      have later := fun q member => regular q (List.mem_cons_of_mem p member)
      rcases returns with ⟨early, gone, late, order, presence, absent, present⟩
      rw [migrations, createdAgain_append]
      by_cases now : object ∈ p.inventory
      · have order : [gone, late].Sublist rest := order.tail
        exact .inr (.inr ⟨Diff.created_of_new start first place now unused,
          created_of_appears first later place (order.cons p) absent present⟩)
      · cases order with
        | cons _ order =>
            exact .inr (.inl (ih first later now ⟨early, gone, late, order, presence, absent, present⟩))
        | cons_cons => exact absurd presence now

/-- Tables and columns are created again exactly if they return. Enum types only if they return. -/
theorem created_again_iff_returns {plans : List Plan} (built : ∀ p ∈ plans, p.Built d) :
    (∀ table, CreatedAgain d (.table table) (migrations none plans) ↔ Returns (.table table) plans) ∧
    (∀ table column, CreatedAgain d (.column table column) (migrations none plans) ↔
      Returns (.column table column) plans) ∧
    ∀ type, CreatedAgain d (.enumType type) (migrations none plans) → Returns (.enumType type) plans := by
  have regular : ∀ p ∈ plans, p.Regular d := fun p member => (built p member).regular
  have start := Plan.regular_empty d
  rw [migrations_none regular]
  refine ⟨fun table => ⟨?_, ?_⟩, fun table column => ⟨?_, ?_⟩, fun type => ?_⟩
  · exact returns_of_createdAgain start regular rfl
  · exact createdAgain_of_returns start regular rfl (by simp [Plan.empty])
  · exact returns_of_createdAgain start regular rfl
  · exact createdAgain_of_returns start regular rfl (by simp [Plan.empty])
  · exact returns_of_createdAgain start regular rfl

def users : ModelSet := [("User", { name := "User", attributes := [("id", {})] })]

def usersAndPosts : ModelSet := users ++ [("Post", { name := "Post", attributes := [("id", {})] })]

def interruptedPlans : List Plan := plansOf .postgres [usersAndPosts, users, usersAndPosts]

theorem interruptedPlans_built : ∀ p ∈ interruptedPlans, p.Built .postgres :=
  plansOf_built .postgres (by decide)

theorem users_created_once :
    (∀ p ∈ interruptedPlans, p.Built .postgres) ∧
      ¬ CreatedAgain .postgres (.table (.str "users")) (migrations none interruptedPlans) := by
  refine ⟨interruptedPlans_built, ?_⟩
  rw [(created_again_iff_returns interruptedPlans_built).1]
  intro given
  rcases given with ⟨early, gone, late, order, -, absent, -⟩
  have kept : ∀ p ∈ interruptedPlans, .table (.str "users") ∈ p.inventory := by decide
  exact absent (kept gone (order.subset (by simp)))

def idColumn : Column := Inference.column "id" {} true none

theorem posts_created_again :
    (∀ p ∈ interruptedPlans, p.Built .postgres) ∧
      CreatedAgain .postgres (.table (.str "posts")) (migrations none interruptedPlans) := by
  refine ⟨interruptedPlans_built, ?_⟩
  exact ⟨[.createTable (.str "users") [idColumn], .createTable (.str "posts") [idColumn]],
    .createTable (.str "posts") [idColumn], [], by decide, by decide, by decide⟩

end SchemaMigration.History
