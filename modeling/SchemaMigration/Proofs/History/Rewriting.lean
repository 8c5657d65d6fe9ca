import SchemaMigration.Proofs.History.Recreation
import SchemaMigration.Proofs.Migration.Files
import SchemaMigration.Proofs.Scripts.Replacing

namespace SchemaMigration

/-- The files of a directory, in the order of their names, are those of migration files. -/
def Tree.Lists (d : Dialect) (t : Tree) (path : FilePath) (files : List MigrationFile) : Prop :=
  ∃ shelf : List Placed, shelf.map (·.file) = files ∧ t.names path = .ok (shelf.map (·.name)) ∧
    ∀ p ∈ shelf, t.read (path.child p.name) = .ok (p.text d).toUTF8

theorem Shelved.lists {d : Dialect} {path : FilePath} {place : List String} {t : Tree} {shelf : List Placed}
    (held : Shelved d path place t shelf) (order : Placed.InOrder shelf) : t.Lists d path (shelf.map (·.file)) :=
  ⟨shelf, rfl, held.names_eq order, held.texts⟩

theorem Shelved.of_empty (d : Dialect) {path : FilePath} {t : Tree} (there : t.isDirectory? path = .ok true)
    (empty : t.names path = .ok []) : ∃ place, Shelved d path place t [] := by
  rcases (Tree.names_eq_ok_iff there).mp empty with ⟨place, located, sorted⟩
  rcases Tree.find_eq_ok_iff.mp (Tree.isDirectory?_eq_true_iff.mp there) with ⟨other, leads, directory⟩
  obtain rfl := Except.ok.inj (located.symm.trans leads)
  have nothing : t.namesIn place = [] := by
    have permuted := Text.sortBy_perm id (t.namesIn place)
    rw [show Text.sortBy id (t.namesIn place) = [] from sorted.symm] at permuted
    exact permuted.symm.eq_nil
  exact ⟨place, located, directory, nothing, by simp⟩

namespace History
open Placed

/-- One run: the number that its files count from, and the plan that it migrates to. -/
structure Stage where
  base : Int
  plan : Plan

def plansIn (stages : List Stage) : List Plan := stages.map (·.plan)

def filesOf : Option Plan → List Plan → List MigrationFile
  | _, [] => []
  | previous, p :: rest => (Diff.files previous p).value ++ filesOf (some p) rest

/-- Every run writes the migration from the plan of the run before it. -/
def writeStages (path : FilePath) : Option Plan → List Stage → Work Site Unit
  | _, [] => pure ()
  | previous, s :: rest => do
    let files ← Site.report (Diff.files previous s.plan)
    let _ ← CommandLine.writeScripts (.replacing path) s.base (files.map (·.script s.plan.dialect))
    writeStages path (some s.plan) rest

/-- The files that are there after the runs, under their numbers. -/
def shelfAfter : Option Plan → List Stage → List Placed → List Placed
  | _, [], shelf => shelf
  | previous, s :: rest, shelf =>
    shelfAfter (some s.plan) rest (shelveAll s.base (Diff.files previous s.plan).value shelf)

/-- The bases have ten digits or more, and each lies beyond the numbers that were used before. -/
def InTurn : Option Plan → List Stage → List Placed → Prop
  | _, [], _ => True
  | previous, s :: rest, shelf =>
    (firstOfTenDigits ≤ s.base ∧ ∀ p ∈ shelf, p.number < s.base) ∧
      InTurn (some s.plan) rest (shelveAll s.base (Diff.files previous s.plan).value shelf)

instance decidableInTurn : ∀ previous stages shelf, Decidable (InTurn previous stages shelf)
  | _, [], _ => isTrue trivial
  | _, s :: rest, shelf =>
    @instDecidableAnd _ _ inferInstance
      (decidableInTurn (some s.plan) rest (shelveAll s.base (Diff.files _ s.plan).value shelf))

variable {d : Dialect} {path : FilePath}

theorem flatten_filesOf (previous : Option Plan) (plans : List Plan) :
    MigrationFile.flatten (filesOf previous plans) = migrations previous plans := by
  induction plans generalizing previous with
  | nil => rfl
  | cons p rest ih => rw [filesOf, migrations, MigrationFile.flatten_append, Diff.flatten_files, ih]

theorem proper_filesOf (previous : Option Plan) {plans : List Plan} (dialect : ∀ p ∈ plans, p.dialect = d) :
    ∀ f ∈ filesOf previous plans, f.Proper d := by
  induction plans generalizing previous with
  | nil => exact fun f member => by cases member
  | cons p rest ih =>
      rcases List.forall_mem_cons.mp dialect with ⟨rfl, others⟩
      rw [filesOf, List.forall_mem_append]
      exact ⟨Diff.proper_files previous p, ih (some p) others⟩

/-- What is there in the end does not depend on the numbers. -/
theorem map_file_shelfAfter (previous : Option Plan) (stages : List Stage) (shelf : List Placed) :
    (shelfAfter previous stages shelf).map (·.file) =
      MigrationFile.settleOn (shelf.map (·.file)) (filesOf previous (plansIn stages)) := by
  induction stages generalizing previous shelf with
  | nil => rfl
  | cons s rest ih =>
      have nonempty : (Diff.files previous s.plan).value.filter (fun f => !f.statements.isEmpty) =
          (Diff.files previous s.plan).value := by
        rw [List.filter_eq_self]
        intro f member
        simpa using (Diff.proper_files previous s.plan f member).nonempty
      rw [shelfAfter, ih, map_file_shelveAll, nonempty, ← MigrationFile.settleOn_append]
      rfl

theorem numbers_kept_shelfAfter (previous : Option Plan) (stages : List Stage) (shelf : List Placed) :
    shelf.map (·.number) <+: (shelfAfter previous stages shelf).map (·.number) := by
  induction stages generalizing previous shelf with
  | nil => exact List.prefix_refl _
  | cons s rest ih => exact (numbers_kept s.base _ shelf).trans (ih (some s.plan) _)

theorem report_eq_ok {α : Type} {r : Reported α} {a : α} {before after : Site}
    (done : Site.report r before = (.ok a, after)) : a = r.value ∧ after.tree = before.tree := by
  rcases Prod.mk.inj done with ⟨result, rfl⟩
  refine ⟨?_, rfl⟩
  unfold Reported.outcome at result
  cases fault : Reported.firstFault? r.events with
  | some f =>
      rw [fault] at result
      cases result
  | none =>
      rw [fault] at result
      exact (Except.ok.inj result).symm

theorem shelved_writeStages {place : List String} {previous : Option Plan} {stages : List Stage} {shelf : List Placed}
    {before after : Site} (dialect : ∀ s ∈ stages, s.plan.dialect = d) (held : Shelved d path place before.tree shelf)
    (order : InOrder shelf) (inTurn : InTurn previous stages shelf)
    (short : ∀ p ∈ shelfAfter previous stages shelf, p.number < firstOfElevenDigits)
    (done : writeStages path previous stages before = (.ok (), after)) :
    Shelved d path place after.tree (shelfAfter previous stages shelf) ∧ InOrder (shelfAfter previous stages shelf) := by
  induction stages generalizing previous shelf before with
  | nil =>
      cases done
      exact ⟨held, order⟩
  | cons s rest ih =>
      rcases List.forall_mem_cons.mp dialect with ⟨rfl, others⟩
      rcases inTurn with ⟨⟨long, beyond⟩, later⟩
      rcases Work.bind_eq_ok_iff.mp done with ⟨files, s₁, reported, further⟩
      rcases Work.bind_eq_ok_iff.mp further with ⟨paths, s₂, wrote, rests⟩
      rcases report_eq_ok reported with ⟨rfl, tree⟩
      rw [← tree] at held
      have shorter := below_of_kept (numbers_kept_shelfAfter (some s.plan) rest _) short
      rcases held.writeScripts order _ beyond long shorter wrote with ⟨next, ordered⟩
      exact ih others next ordered later short rests

theorem lists_writeStages {stages : List Stage} {before after : Site} (dialect : ∀ s ∈ stages, s.plan.dialect = d)
    (there : before.tree.isDirectory? path = .ok true) (empty : before.tree.names path = .ok [])
    (inTurn : InTurn none stages []) (short : ∀ p ∈ shelfAfter none stages [], p.number < firstOfElevenDigits)
    (done : writeStages path none stages before = (.ok (), after)) :
    after.tree.Lists d path (MigrationFile.settle (filesOf none (plansIn stages))) := by
  rcases Shelved.of_empty d there empty with ⟨place, held⟩
  have order : InOrder [] := ⟨.nil, by simp, by simp, .nil⟩
  rcases shelved_writeStages dialect held order inTurn short done with ⟨shelved, ordered⟩
  have lists := shelved.lists ordered
  rwa [map_file_shelfAfter] at lists

end History
end SchemaMigration
