import SchemaMigration.Proofs.CommandLine.Agreement
import SchemaMigration.Proofs.Plan.Typed
import SchemaMigration.Proofs.Scripts.OtherFiles
import SchemaMigration.Proofs.Snapshot.Replacing
/-!
Runs that generate a migration and the snapshot. Whatever makes a run fail, the snapshot is as it was before; only the
last step of a run that has gone well replaces it, by one of the plan that the run has worked on.
-/
namespace SchemaMigration.CommandLine
open Console

namespace Console
variable {α : Type} {place : List String}

theorem keepsFileAt_onSite {x : Work Site α} (keeps : x.KeepsFileAt Site.tree place) :
    (onSite x).KeepsFileAt Console.tree place := fun c => keeps ⟨c.tree, []⟩

theorem keepsFileAt_report (r : Reported α) : (onSite (Site.report r)).KeepsFileAt Console.tree place :=
  .of_sameTree fun _ => rfl

theorem keepsFileAt_print (line : String) : (print line).KeepsFileAt Console.tree place := .of_sameTree fun _ => rfl

theorem keepsFileAt_printAll (lines : List String) : (printAll lines).KeepsFileAt Console.tree place :=
  (Work.KeepsFileAt.each keepsFileAt_print lines).bind fun _ => .pure ()

theorem keepsFileAt_say (message : Message) : (say message).KeepsFileAt Console.tree place := .of_sameTree fun _ => rfl

end Console

theorem keepsFileAt_printMigration {place : List String} (previous : Option Plan) (current : Plan) :
    (printMigration previous current).KeepsFileAt Console.tree place :=
  (keepsFileAt_report _).bind fun _ => (keepsFileAt_print _).bind fun _ => .pure 0

section
variable [Device] {settings : Settings} {place : List String} {before after : Console}

theorem keepsFileAt_previousPlan (settings : Settings) (full : Bool) :
    (previousPlan settings full).KeepsFileAt Console.tree place := by
  unfold previousPlan
  split
  case isTrue => exact .pure none
  case isFalse =>
    exact (keepsFileAt_onSite (.of_sameTree (sameTree_load settings.snapshotPath))).bind fun _ => .pure _

/-- Writing a migration, also one that is not finished, changes migration files of its directory alone. -/
theorem keepsFileAt_writeMigration (outside : ScriptDirectory.IsOutside settings.scriptsDir place) (replacing : Bool)
    (now : Int) (previous : Option Plan) (current : Plan) :
    (writeMigration settings replacing now previous current).KeepsFileAt Console.tree place := by
  apply (keepsFileAt_report _).bind
  intro skipped
  apply (Work.KeepsFileAt.each (fun _ => keepsFileAt_say _) skipped).bind
  intro _
  apply (keepsFileAt_report _).bind
  intro files
  split
  case isTrue => exact (keepsFileAt_print _).bind fun _ => .pure 0
  case isFalse =>
    have writes : (writeScripts ⟨settings.scriptsDir, replacing⟩ now (files.map (·.script current.dialect))).KeepsFileAt
        Site.tree place :=
      fun site => @ScriptDirectory.keepsFileAt_writeAll ⟨settings.scriptsDir, replacing⟩ place _ outside _ ⟨site, now, [], []⟩
    apply Work.KeepsFileAt.bind (x := Work.attempt _) fun c => keepsFileAt_onSite writes c
    intro result
    split
    · exact ((keepsFileAt_print _).bind fun _ => keepsFileAt_printAll _).bind fun _ => .pure 0
    · exact .fail _
    · exact (keepsFileAt_say _).bind fun _ => .pure 1
    · exact .fail _

theorem saveSnapshot_eq_error {now : Int} {plan : Plan} {e : Failure}
    (failed : saveSnapshot settings now plan before = (.error e, after)) :
    before.tree.KeepsFileAt settings.snapshotPath.place after.tree := by
  unfold saveSnapshot at failed
  cases known : DateTime.ofUnixSeconds now with
  | error fault =>
      rw [known] at failed
      cases failed
      exact .refl _ _
  | ok time =>
      rw [known] at failed
      rcases Work.bind_eq_error failed with unsaved | ⟨saved, middle, -, ⟨⟩⟩
      cases saving : Snapshot.save settings.snapshotPath plan time ⟨before.tree, []⟩ with
      | mk result site =>
          rw [onSite_eq saving] at unsaved
          cases unsaved
          exact Snapshot.keepsFileAt_of_save saving

theorem holds_of_saveSnapshot {now : Int} {plan : Plan} (done : saveSnapshot settings now plan before = (.ok (), after)) :
    ∃ time, DateTime.ofUnixSeconds now = .ok time ∧ Snapshot.Holds settings.snapshotPath plan time after.tree := by
  unfold saveSnapshot at done
  cases known : DateTime.ofUnixSeconds now with
  | error fault =>
      rw [known] at done
      cases done
  | ok time =>
      rw [known] at done
      rcases Work.bind_eq_ok_iff.mp done with ⟨saved, middle, passed, ⟨⟩⟩
      rcases onSite_eq_ok_iff.mp passed with ⟨site, stored, rfl⟩
      have holds : Snapshot.Holds settings.snapshotPath plan time site.tree := Snapshot.holds_of_save stored
      exact ⟨time, rfl, holds⟩

section
variable {options : GenerateOptions} {now : Int}

def migrate (settings : Settings) (options : GenerateOptions) (now : Int) (previous : Option Plan) (current : Plan) :
    Work Console Nat :=
  if options.write then writeMigration settings options.replaceExisting now previous current
  else printMigration previous current

def endRun (settings : Settings) (options : GenerateOptions) (now : Int) (current : Plan) (status : Nat) :
    Work Console Nat := do
  if status == 0 && options.saveSnapshot then saveSnapshot settings now current
  return status

theorem runGenerate_eq (settings : Settings) (options : GenerateOptions) (now : Int) :
    runGenerate settings options now = withPlan settings fun current =>
      previousPlan settings options.full >>= fun previous =>
        migrate settings options now previous current >>= endRun settings options now current := by
  rcases options with ⟨full, write, saving, replacing⟩
  cases write <;> rfl

theorem keepsFileAt_migrate (outside : ScriptDirectory.IsOutside settings.scriptsDir place) (options : GenerateOptions)
    (now : Int) (previous : Option Plan) (current : Plan) :
    (migrate settings options now previous current).KeepsFileAt Console.tree place := by
  unfold migrate
  split
  case isTrue => exact keepsFileAt_writeMigration outside options.replaceExisting now previous current
  case isFalse => exact keepsFileAt_printMigration previous current

theorem endRun_eq_error {current : Plan} {status : Nat} {e : Failure}
    (failed : endRun settings options now current status before = (.error e, after)) :
    before.tree.KeepsFileAt settings.snapshotPath.place after.tree := by
  unfold endRun at failed
  split at failed
  · rcases Work.bind_eq_error failed with unsaved | ⟨⟨⟩, c, -, ⟨⟩⟩
    exact saveSnapshot_eq_error unsaved
  · cases failed

theorem endRun_eq_ok {current : Plan} {ended status : Nat}
    (done : endRun settings options now current ended before = (.ok status, after)) :
    (status ≠ 0 ∨ options.saveSnapshot = false → before.tree.KeepsFileAt settings.snapshotPath.place after.tree) ∧
      (status = 0 → options.saveSnapshot = true → ∃ time, DateTime.ofUnixSeconds now = .ok time ∧
        Snapshot.Holds settings.snapshotPath current time after.tree) := by
  unfold endRun at done
  split at done
  case isTrue saving =>
    rcases Bool.and_eq_true_iff.mp saving with ⟨zero, asked⟩
    rcases Work.bind_eq_ok_iff.mp done with ⟨⟨⟩, c, saved, ⟨⟩⟩
    refine ⟨?_, fun _ _ => holds_of_saveSnapshot saved⟩
    rintro (other | unasked)
    · exact absurd (beq_iff_eq.mp zero) other
    · rw [asked] at unasked
      cases unasked
  case isFalse unsaved =>
    cases done
    refine ⟨fun _ => .refl _ _, fun zero asked => ?_⟩
    rw [zero, asked] at unsaved
    exact absurd rfl unsaved

variable (outside : ScriptDirectory.IsOutside settings.scriptsDir settings.snapshotPath.place)
include outside

theorem runGenerate_eq_error {e : Failure} (failed : runGenerate settings options now before = (.error e, after)) :
    before.tree.KeepsFileAt settings.snapshotPath.place after.tree := by
  rw [runGenerate_eq, withPlan_eq] at failed
  cases loaded : planIn settings before.tree with
  | error other =>
      rw [loaded] at failed
      cases reported : other.isReported <;> simp only [reported] at failed <;> cases failed
      exact .refl _ _
  | ok current =>
      rw [loaded] at failed
      have reads := @keepsFileAt_previousPlan _ settings.snapshotPath.place settings options.full before
      rcases Work.bind_eq_error failed with unread | ⟨previous, c₁, found, failed⟩
      · rwa [unread] at reads
      rw [found] at reads
      have writes := keepsFileAt_migrate outside options now previous current c₁
      rcases Work.bind_eq_error failed with unwritten | ⟨status, c₂, wrote, failed⟩
      · rw [unwritten] at writes
        exact reads.trans writes
      rw [wrote] at writes
      exact (reads.trans writes).trans (endRun_eq_error failed)

/-- A run that ends keeps the snapshot, unless it has replaced it after everything else went well. -/
theorem runGenerate_eq_ok {status : Nat} (done : runGenerate settings options now before = (.ok status, after)) :
    (status ≠ 0 ∨ options.saveSnapshot = false → before.tree.KeepsFileAt settings.snapshotPath.place after.tree) ∧
      (status = 0 → options.saveSnapshot = true → ∃ current time, planIn settings before.tree = .ok current ∧
        DateTime.ofUnixSeconds now = .ok time ∧ Snapshot.Holds settings.snapshotPath current time after.tree) := by
  rw [runGenerate_eq, withPlan_eq] at done
  cases loaded : planIn settings before.tree with
  | error e =>
      rw [loaded] at done
      cases reported : e.isReported <;> simp only [reported] at done <;> cases done
      exact ⟨fun _ => .refl _ _, nofun⟩
  | ok current =>
      rw [loaded] at done
      have reads := @keepsFileAt_previousPlan _ settings.snapshotPath.place settings options.full before
      rcases Work.bind_eq_ok_iff.mp done with ⟨previous, c₁, found, done⟩
      rw [found] at reads
      have writes := keepsFileAt_migrate outside options now previous current c₁
      rcases Work.bind_eq_ok_iff.mp done with ⟨ended, c₂, wrote, done⟩
      rw [wrote] at writes
      rcases endRun_eq_ok done with ⟨kept, replaced⟩
      refine ⟨fun spared => (reads.trans writes).trans (kept spared), fun zero asked => ?_⟩
      rcases replaced zero asked with ⟨time, known, holds⟩
      exact ⟨current, time, rfl, known, holds⟩

end

/--
Whatever goes wrong with the files or with the device that holds them, saving a snapshot leaves the whole of the old one if
it fails and the whole of the new one otherwise. A run that generates a migration leaves the old one unless it has ended
well and was to save it; then the new one is that of the plan of the models, and it is loaded as such.
-/
theorem snapshot_kept_or_replaced :
    (∀ (path : FilePath) (p : Plan) (now : DateTime) (before after : Site),
      (∀ e, Snapshot.save path p now before = (.error e, after) → before.tree.KeepsFile path after.tree) ∧
        ∀ saved, Snapshot.save path p now before = (.ok saved, after) → Snapshot.Holds path p now after.tree) ∧
      ∀ (settings : Settings) (verbose : Bool) (options : GenerateOptions) (now : Int) (tree : Tree),
        ScriptDirectory.IsOutside settings.scriptsDir settings.snapshotPath.place →
          let ending := runWith settings verbose (.generate options) now tree
          (ending.status ≠ 0 ∨ options.saveSnapshot = false → tree.KeepsFile settings.snapshotPath ending.tree) ∧
            (ending.status = 0 → options.saveSnapshot = true → ∃ current digest time,
              planIn settings tree = .ok current ∧ current.fingerprint = .ok digest ∧
                DateTime.ofUnixSeconds now = .ok time ∧ Snapshot.Holds settings.snapshotPath current time ending.tree ∧
                storedIn settings ending.tree = some ⟨current.stored, .str digest, some time.asRead⟩) := by
  constructor
  · intro path p now before after
    exact ⟨fun e failed => (Snapshot.keepsFileAt_of_save failed).keepsFile, fun saved done => Snapshot.holds_of_save done⟩
  intro settings verbose options now tree outside
  cases ran : runGenerate settings options now { tree } with
  | mk result after =>
      have same : runCommand settings now (.generate options) { tree } = (result, after) := ran
      cases result with
      | error e =>
          have kept := runGenerate_eq_error outside ran
          rw [runWith, same]
          exact ⟨fun _ => kept.keepsFile, nofun⟩
      | ok status =>
          rcases runGenerate_eq_ok outside ran with ⟨kept, replaced⟩
          rw [runWith, same]
          refine ⟨fun spared => (kept spared).keepsFile, fun zero asked => ?_⟩
          rcases replaced zero asked with ⟨current, time, loaded, known, holds⟩
          rcases exists_build_of_planIn loaded with ⟨models, -, made⟩
          have holds : Snapshot.Holds settings.snapshotPath current time (⟨after.tree, []⟩ : Site).tree := holds
          rcases holds.load_eq (Plan.typed_of_build made) with ⟨digest, taken, loads⟩
          refine ⟨current, digest, time, loaded, taken, known, holds, ?_⟩
          rw [storedIn, loads]
          rfl

end

/-- A device that is full after ten bytes of a file with the name. -/
@[reducible] def fullAt (name : String) : Device :=
  { Device.sound with writing := fun _ _ p => if p.name = name then some (.brokenOff 10 .busy) else none }

@[reducible] def stuck : Device := { Device.sound with moving := fun _ _ _ => some .busy }

/--
The snapshot of the users is kept where their migration file is broken off, where the snapshot itself is, the beginning of
which stays beside it, and where it cannot be moved. Otherwise it is replaced.
-/
theorem users_kept_or_replaced :
    (∀ device ∈ [fullAt "7-create-users-table.sql", fullAt ".schemaplan.postgres.json.tmp", stuck],
      usersForTeams.KeepsFile inM.snapshotPath
        (@runWith device inM false (.generate { saveSnapshot := true }) 7 usersForTeams).tree) ∧
      (@runWith (fullAt "7-create-users-table.sql") inM false (.generate { saveSnapshot := true }) 7
        usersForTeams).tree.node? ["sql", "7-create-users-table.sql"] = some (.file "CREATE TAB".toUTF8) ∧
      (@runWith (fullAt ".schemaplan.postgres.json.tmp") inM false (.generate { saveSnapshot := true }) 7
        usersForTeams).tree.exists? ⟨"", ["m", ".schemaplan.postgres.json.tmp"]⟩ = .ok true ∧
      ∃ current time, planIn inM usersForTeams = .ok current ∧
        Snapshot.Holds inM.snapshotPath current time
          (runWith inM false (.generate { saveSnapshot := true }) 7 usersForTeams).tree := by
  have outside : ScriptDirectory.IsOutside inM.scriptsDir inM.snapshotPath.place := by
    have places : inM.scriptsDir.place = ["sql"] ∧ inM.snapshotPath.place = ["m", ".schemaplan.postgres.json"] := by decide
    intro name _ same
    rw [places.1, places.2] at same
    exact absurd (List.cons.inj same).1 (by decide)
  have kept : ∀ device : Device,
      (@runWith device inM false (.generate { saveSnapshot := true }) 7 usersForTeams).status ≠ 0 →
        usersForTeams.KeepsFile inM.snapshotPath
          (@runWith device inM false (.generate { saveSnapshot := true }) 7 usersForTeams).tree :=
    fun device fails => ((@snapshot_kept_or_replaced device).2 inM false { saveSnapshot := true } 7 usersForTeams outside).1
      (.inl fails)
  have ends : (runWith inM false (.generate { saveSnapshot := true }) 7 usersForTeams).status = 0 := by decide +kernel
  have replaced := (snapshot_kept_or_replaced.2 inM false { saveSnapshot := true } 7 usersForTeams outside).2
  refine ⟨?_, by decide +kernel, by decide +kernel, ?_⟩
  · simp only [List.forall_mem_cons]
    exact ⟨kept _ (by decide +kernel), kept _ (by decide +kernel), kept _ (by decide +kernel), List.forall_mem_nil _⟩
  · rcases replaced ends rfl with ⟨current, digest, time, loaded, -, -, holds, -⟩
    exact ⟨current, time, loaded, holds⟩

end SchemaMigration.CommandLine
