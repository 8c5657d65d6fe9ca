import SchemaMigration.Proofs.CommandLine.Console
import SchemaMigration.Proofs.Migration.Exactness
import SchemaMigration.Proofs.Migration.Files
import SchemaMigration.Proofs.Scripts.Batch
import SchemaMigration.Proofs.Text.ControlSequence

namespace SchemaMigration

namespace Diff
variable {previous : Option Plan} {current : Plan}

def texts (previous : Option Plan) (current : Plan) : List String :=
  (statements previous current).value.map (Statement.text current.dialect)

def linesOf (texts : List String) : List String := if texts.isEmpty then [noChanges] else texts

theorem statements_of_isFullRebuild (rebuild : isFullRebuild previous current) :
    (statements previous current).value = current.migration.value := by
  cases previous with
  | none => rfl
  | some p =>
      rw [statements, Reported.value_bind, if_pos rebuild, files, if_pos rebuild]
      rfl

theorem isAdditive_of_mem (previous : Option Plan) (current : Plan) :
    ∀ s ∈ (statements previous current).value, s.isAdditive := by
  cases rebuild : isFullRebuild previous current with
  | true =>
      rw [statements_of_isFullRebuild rebuild, ← statements_empty]
      exact isAdditive_of_mem_statements rfl
  | false =>
      cases previous with
      | none => cases rebuild
      | some p => exact isAdditive_of_mem_statements (by simpa [isFullRebuild] using rebuild)

theorem migration_ne_nil (filled : current.tables ≠ []) : current.migration.value ≠ [] := by
  rcases List.exists_cons_of_ne_nil filled with ⟨t, rest, tables⟩
  change MigrationFile.flatten (Migration.tableFiles current.dialect {} current.tables).value.2 ≠ []
  rw [flatten_tableFiles, tables, createTableFiles_cons, MigrationFile.flatten_cons]
  simp

theorem flatten_texts (previous : Option Plan) (current : Plan) :
    ((files previous current).value.map (·.texts current.dialect)).flatten = texts previous current := by
  rw [texts, ← flatten_files, MigrationFile.flatten, List.map_flatMap, List.flatMap_def]
  rfl

theorem value_script (filled : current.tables ≠ []) : (script previous current).value = linesOf (texts previous current) := by
  cases rebuild : isFullRebuild previous current with
  | true =>
      have filled : texts previous current ≠ [] := by
        rw [texts, statements_of_isFullRebuild rebuild]
        simpa using migration_ne_nil filled
      have lines : (script previous current).value = texts previous current := by
        simp [script, rebuild, texts]
      rw [lines, linesOf, if_neg (by simpa using filled)]
  | false =>
      rw [script, Reported.value_bind, rebuild]
      simp only [Bool.not_false, Bool.and_true]
      rfl

end Diff

namespace CommandLine
open Console
variable {settings : Settings} {before after : Console} {previous : Option Plan} {current : Plan}

theorem exists_build_of_planIn [Device] {t : Tree} (loaded : planIn settings t = .ok current) :
    ∃ models : ModelSet, models ≠ [] ∧ Plan.build models settings.dialect = .ok current := by
  have whole := loadPlan_eq settings t
  rw [loaded] at whole
  rcases Work.bind_eq_ok_iff.mp whole with ⟨models, site, -, built⟩
  cases empty : models.isEmpty with
  | true =>
      rw [empty] at built
      cases built
  | false =>
      rw [empty] at built
      have accepted := (Work.ofExcept_eq_ok_iff.mp built).1
      unfold Plan.buildFrom at accepted
      split at accepted
      case h_1 plan made =>
        cases accepted
        exact ⟨models, by simpa using empty, made⟩
      case h_2 => cases accepted

theorem tables_ne_nil_of_planIn {t : Tree} (loaded : planIn settings t = .ok current) : current.tables ≠ [] := by
  rcases exists_build_of_planIn loaded with ⟨models, filled, made⟩
  rw [(Plan.build_eq_ok_iff.mp made).2]
  simpa [Plan.buildWith] using filled

def fileText (group : List String) : String := String.intercalate "\n\n" group ++ "\n"

def writtenLines (directory : FilePath) : List String → List String
  | [] => ["No changes detected."]
  | name :: rest =>
    ("Wrote " ++ numberText (rest.length + 1) ++ " migration file(s) to " ++ directory.text ++ ":") ::
      (name :: rest).map ("  - " ++ ·)

/--
Each group of statements is in the file of its name, and no two files have one name. Nothing is said of files that
are not `spared` by what was written later.
-/
structure Holds (t : Tree) (spared : FilePath → Prop) (directory : FilePath) (names : List String)
    (groups : List (List String)) : Prop where
  distinct : names.Nodup
  texts : List.Forall₂ (fun name group => spared (directory.child name) →
    t.read (directory.child name) = .ok (fileText group).toUTF8) names groups

theorem printWritten_eq (directory : FilePath) {paths : List FilePath} (filled : paths ≠ []) (c : Console) :
    printWritten directory paths c = (.ok (), { c with
      shown := c.shown ++ (writtenLines directory (paths.map (·.name))).map Text.withoutControls }) := by
  rcases List.exists_cons_of_ne_nil filled with ⟨p, rest, rfl⟩
  have first : print ("Wrote " ++ numberText (p :: rest).length ++ " migration file(s) to " ++ directory.text ++ ":") c =
      (.ok (), _) := rfl
  rw [printWritten, Work.bind_of_ok first, printAll_eq]
  simp [writtenLines]

theorem texts_numbered (number : Int) {files : List ScriptFile} (filled : ∀ f ∈ files, f.statements ≠ []) :
    List.Forall₂ (fun (a : Script) (f : ScriptFile) => a.text = f.content ++ "\n")
      (ScriptDirectory.numbered number files) files := by
  induction files generalizing number with
  | nil => exact .nil
  | cons f rest ih =>
      rcases List.forall_mem_cons.mp filled with ⟨first, others⟩
      rw [ScriptDirectory.numbered, if_neg (by simpa using first)]
      exact .cons rfl (ih _ others)

theorem holds_of_writeScripts {path : FilePath} {now : Int} {d : Dialect} {files : List MigrationFile}
    (filled : ∀ f ∈ files, f.statements ≠ []) {here there : Site} {paths : List FilePath}
    (done : writeScripts (.plain path) now (files.map (·.script d)) here = (.ok paths, there)) :
    Holds there.tree (fun _ => True) path (paths.map (·.name)) (files.map (·.texts d)) := by
  have texts : ∀ f ∈ files.map (·.script d), f.statements ≠ [] := by
    intro f member
    rcases List.mem_map.mp member with ⟨file, listed, rfl⟩
    simpa [MigrationFile.script, MigrationFile.texts] using filled file listed
  rcases ScriptDirectory.writeScripts_anew done with ⟨rfl, held⟩
  have names : ((ScriptDirectory.numbered now (files.map (·.script d))).map fun a => path.child a.name).map (·.name) =
      (ScriptDirectory.numbered now (files.map (·.script d))).map Script.name := by
    simp [Run.name_child]
  rw [names]
  refine ⟨ScriptDirectory.nodup_names_numbered _ _, ?_⟩
  rw [List.forall₂_map_left_iff]
  have paired := texts_numbered now texts
  rw [List.forall₂_map_right_iff] at paired ⊢
  have both := (List.forall₂_and_left _ _).mpr ⟨held, paired⟩
  apply both.imp
  intro a file written _
  rw [written.1, written.2]
  rfl

/-- A run that does not replace files has found nothing to do, or has written everything. -/
theorem writeMigration_eq_ok {now : Int} (done : writeMigration settings false now previous current before = (.ok 0, after)) :
    ∃ names, Holds after.tree (fun _ => True) settings.scriptsDir names
        ((Diff.files previous current).value.map (·.texts current.dialect)) ∧
      after.shown = before.shown ++ (writtenLines settings.scriptsDir names).map Text.withoutControls ∧
      after.leftOut = before.leftOut ++ (Diff.skipped previous current).value := by
  rcases Work.bind_eq_ok_iff.mp done with ⟨changes, c₁, skipped, done⟩
  rcases report_eq_ok skipped with ⟨found, first⟩
  rcases Work.bind_eq_ok_iff.mp done with ⟨_, c₂, said, done⟩
  rcases each_sayLeftOut_eq current.dialect changes c₁ with ⟨results, all⟩
  rw [all] at said
  cases said
  rcases Work.bind_eq_ok_iff.mp done with ⟨files, c₃, listed, done⟩
  rcases report_eq_ok listed with ⟨made, second⟩
  obtain rfl := ((Reported.outcome_eq_ok_iff _ _).mp found).2
  obtain rfl := ((Reported.outcome_eq_ok_iff _ _).mp made).2
  have filled : ∀ f ∈ (Diff.files previous current).value, f.statements ≠ [] := fun f member =>
    (Diff.proper_files previous current f member).nonempty
  have shown : c₃.shown = before.shown := second.shown.trans first.shown
  have leftOut : c₃.leftOut = before.leftOut ++ (Diff.skipped previous current).value := by
    rw [second.leftOut, ← first.leftOut]
    exact leftOut_said c₁ current.dialect _
  by_cases empty : (Diff.files previous current).value = []
  case pos =>
    rw [empty] at done ⊢
    cases done
    refine ⟨[], ⟨.nil, .nil⟩, congrArg (· ++ _) shown, leftOut⟩
  case neg =>
    have wanted : ¬ (Diff.files previous current).value.all (·.statements.isEmpty) = true := by
      intro blank
      rcases List.exists_mem_of_ne_nil _ empty with ⟨f, member⟩
      exact filled f member (List.isEmpty_iff.mp (List.all_eq_true.mp blank f member))
    rw [if_neg wanted] at done
    rcases Work.bind_eq_ok_iff.mp done with ⟨result, c₄, attempted, done⟩
    have wrote := Work.attempt_eq_ok_iff.mp attempted
    cases result with
    | error e =>
        cases e with
        | file fault => cases fault <;> cases done
        | _ => cases done
    | ok paths =>
        rcases onSite_eq_ok_iff.mp wrote with ⟨site, written, rfl⟩
        have holds := holds_of_writeScripts filled written
        have listed : paths ≠ [] := by
          rintro rfl
          exact empty (List.map_eq_nil_iff.mp (List.forall₂_nil_left_iff.mp holds.texts))
        rcases Work.bind_eq_ok_iff.mp done with ⟨⟨⟩, c₅, printed, ⟨⟩⟩
        rw [printWritten_eq _ listed] at printed
        cases printed
        refine ⟨paths.map (·.name), holds, congrArg (· ++ _) shown, ?_⟩
        rw [← leftOut]
        exact leftOut_told c₃ site.told

theorem printMigration_eq_ok {status : Nat} (done : printMigration previous current before = (.ok status, after)) :
    (Diff.script previous current).Succeeds ∧ after.tree = before.tree ∧
      after.shown = before.shown ++
        [Text.withoutControls (String.intercalate "\n" (Diff.script previous current).value)] ∧
      after.skips = before.skips ++ (Diff.skipped previous current).value.map (·.description) := by
  rcases Work.bind_eq_ok_iff.mp done with ⟨lines, c₁, made, ⟨⟩⟩
  rcases report_eq_ok made with ⟨made, noted⟩
  rcases (Reported.outcome_eq_ok_iff _ _).mp made with ⟨succeeds, rfl⟩
  refine ⟨succeeds, noted.tree, congrArg (· ++ _) noted.shown, ?_⟩
  rw [← Diff.skips_script succeeds]
  exact noted.skips

def pendingLines (statements : Nat) (changes : List SkippedChange) : List String :=
  ("Status:   " ++ numberText statements ++ " pending statement(s), " ++ numberText changes.length ++
    " skipped change(s)") :: changes.map fun change => "  - skipped " ++ change.description

theorem printPending_eq_ok {former : Plan} (done : printPending former current before = (.ok (), after)) :
    after.shown = before.shown ++ (pendingLines (Diff.texts (some former) current).length
      (Diff.skipped (some former) current).value).map Text.withoutControls := by
  rcases Work.bind_eq_ok_iff.mp done with ⟨files, c₁, listed, done⟩
  rcases report_eq_ok listed with ⟨made, first⟩
  rcases Work.bind_eq_ok_iff.mp done with ⟨changes, c₂, skipped, done⟩
  rcases report_eq_ok skipped with ⟨found, second⟩
  obtain rfl := ((Reported.outcome_eq_ok_iff _ _).mp made).2
  obtain rfl := ((Reported.outcome_eq_ok_iff _ _).mp found).2
  rcases Work.bind_eq_ok_iff.mp done with ⟨⟨⟩, c₃, ⟨⟩, done⟩
  rw [printAll_eq] at done
  cases done
  have shown : c₂.shown = before.shown := second.shown.trans first.shown
  simp [shown, pendingLines, Diff.flatten_files, Diff.texts]

/-- How a status ends, with `pending` where the plan is not that of the snapshot. -/
inductive StatusLines (pending : List String) : List String → Prop where
  | unapplied : StatusLines pending ["Status:   no plan applied yet"]
  | upToDate : StatusLines pending ["Status:   up to date"]
  | pending : StatusLines pending pending

/-- What a status shows of a plan whose snapshot holds `former`, or of one without a snapshot. -/
def pendingAfter (former : Option Plan) (current : Plan) : List String :=
  (pendingLines (Diff.texts former current).length (Diff.skipped former current).value).map Text.withoutControls

theorem printComparison_eq_ok {snapshot : Snapshot} (done : printComparison snapshot current before = (.ok (), after)) :
    ∃ lines, after.shown = before.shown ++ lines ∧ StatusLines (pendingAfter (some snapshot.plan) current) lines := by
  rcases Work.bind_eq_ok_iff.mp done with ⟨stale, c₁, checked, done⟩
  rcases Work.ofFaults_eq_ok_iff.mp checked with ⟨-, rfl⟩
  have compares : ∀ c : Console, c.shown = c₁.shown →
      (do if ← Work.ofFaults (snapshot.isOf current) then print "Status:   up to date"
          else printPending snapshot.plan current) c = (.ok (), after) →
      ∃ lines, after.shown = c₁.shown ++ lines ∧ StatusLines (pendingAfter (some snapshot.plan) current) lines := by
    intro c shown done
    rcases Work.bind_eq_ok_iff.mp done with ⟨same, c₂, checked, done⟩
    rcases Work.ofFaults_eq_ok_iff.mp checked with ⟨-, rfl⟩
    cases same with
    | true =>
        cases done
        exact ⟨_, congrArg (· ++ _) shown, .upToDate⟩
    | false =>
        have pending := printPending_eq_ok done
        rw [shown] at pending
        exact ⟨_, pending, .pending⟩
  cases stale with
  | true => exact compares { c₁ with messages := c₁.messages ++ [.staleSnapshot] } rfl done
  | false => exact compares c₁ rfl done

def statusHeader (settings : Settings) (digest : String) (snapshot : Option Snapshot) : List String :=
  ["Dialect:  " ++ settings.dialect.name, "Current:  " ++ digest, describeSnapshot settings snapshot]

theorem runStatus_eq_ok (loaded : planIn settings before.tree = .ok current) {status : Nat}
    (done : runStatus settings before = (.ok status, after)) :
    ∃ digest lines, current.fingerprint = .ok digest ∧
      after.shown = before.shown ++
        (statusHeader settings digest (storedIn settings before.tree)).map Text.withoutControls ++ lines ∧
      StatusLines (pendingAfter (formerIn settings false before.tree) current) lines := by
  rw [runStatus, withPlan_eq, loaded] at done
  rcases Work.bind_eq_ok_iff.mp done with ⟨snapshot, c₁, read, done⟩
  rcases load_eq_ok read with ⟨rfl, noted⟩
  rcases Work.bind_eq_ok_iff.mp done with ⟨⟨⟩, c₂, ⟨⟩, done⟩
  rcases Work.bind_eq_ok_iff.mp done with ⟨digest, c₃, taken, done⟩
  rcases Work.ofFaults_eq_ok_iff.mp taken with ⟨fingerprint, rfl⟩
  rcases Work.bind_eq_ok_iff.mp done with ⟨⟨⟩, c₄, ⟨⟩, done⟩
  rcases Work.bind_eq_ok_iff.mp done with ⟨⟨⟩, c₅, ⟨⟩, done⟩
  have former : formerIn settings false before.tree = (storedIn settings before.tree).map (·.plan) := rfl
  rw [former]
  cases stored : storedIn settings before.tree with
  | none =>
      rw [stored] at done
      cases done
      exact ⟨digest, ["Status:   no plan applied yet"], fingerprint, by simp [noted.shown, statusHeader]; rfl, .unapplied⟩
  | some snapshot =>
      rw [stored] at done
      rcases Work.bind_eq_ok_iff.mp done with ⟨⟨⟩, c₆, compared, ⟨⟩⟩
      rcases printComparison_eq_ok compared with ⟨lines, shown, ends⟩
      exact ⟨digest, lines, fingerprint, by simp [shown, noted.shown, statusHeader], ends⟩

theorem exists_plan_of_withPlan {next : Plan → Work Console Nat} (done : withPlan settings next before = (.ok 0, after)) :
    ∃ current, planIn settings before.tree = .ok current := by
  rw [withPlan_eq] at done
  cases loaded : planIn settings before.tree with
  | ok current => exact ⟨current, rfl⟩
  | error e =>
      rw [loaded] at done
      cases reported : e.isReported <;> simp [reported] at done

def savedLines (settings : Settings) (keep : Bool) (digest : String) : List String :=
  if keep then [Text.withoutControls (savedLine settings digest)] else []

def digestOf (p : Plan) : String := p.fingerprint.toOption.getD ""

/-- What a run does after its migration: it saves a snapshot if it was asked to and all went well. -/
theorem finish_eq_ok {keep : Bool} {now : Int} {status : Nat}
    (done : (do
      if status == 0 && keep then saveSnapshot settings now current
      return status) before = (.ok 0, after)) :
    status = 0 ∧ after.shown = before.shown ++ savedLines settings keep (digestOf current) ∧
      after.leftOut = before.leftOut ∧ after.skips = before.skips ∧
      ∀ p content, (keep = true → Snapshot.Spares after.tree settings.snapshotPath p) →
        before.tree.read p = .ok content → after.tree.read p = .ok content := by
  cases saving : status == 0 && keep with
  | false =>
      rw [saving] at done
      cases done
      have unsaved : keep = false := by simpa using saving
      rw [unsaved]
      exact ⟨rfl, (List.append_nil _).symm, rfl, rfl, fun p content _ held => held⟩
  | true =>
      rw [saving] at done
      rcases Bool.and_eq_true_iff.mp saving with ⟨zero, kept⟩
      rcases Work.bind_eq_ok_iff.mp done with ⟨⟨⟩, c, saved, ⟨⟩⟩
      rcases saveSnapshot_eq_ok saved with ⟨⟨digest, taken, shown⟩, leftOut, skips, files⟩
      refine ⟨beq_iff_eq.mp zero, ?_, leftOut, skips, fun p content spared held => files p content (spared kept) held⟩
      have known : digestOf current = digest := by rw [digestOf, taken]; rfl
      rw [shown, kept, known]
      rfl

theorem runGenerate_writing {full keep : Bool} {now : Int} (loaded : planIn settings before.tree = .ok current)
    (done : runGenerate settings { full, saveSnapshot := keep } now before = (.ok 0, after)) :
    ∃ names, Holds after.tree (fun p => keep = true → Snapshot.Spares after.tree settings.snapshotPath p)
        settings.scriptsDir names
        ((Diff.files (formerIn settings full before.tree) current).value.map (·.texts current.dialect)) ∧
      after.shown = before.shown ++ (writtenLines settings.scriptsDir names).map Text.withoutControls ++
        savedLines settings keep (digestOf current) ∧
      after.leftOut = before.leftOut ++ (Diff.skipped (formerIn settings full before.tree) current).value := by
  rw [runGenerate, withPlan_eq, loaded] at done
  rcases Work.bind_eq_ok_iff.mp done with ⟨previous, c₁, found, done⟩
  rcases previousPlan_eq_ok found with ⟨rfl, noted⟩
  rcases Work.bind_eq_ok_iff.mp done with ⟨status, c₂, wrote, done⟩
  rcases finish_eq_ok done with ⟨rfl, shown, leftOut, -, kept⟩
  rcases writeMigration_eq_ok wrote with ⟨names, holds, lines, changes⟩
  refine ⟨names, ⟨holds.distinct, ?_⟩, ?_, ?_⟩
  · apply holds.texts.imp
    intro name group held spared
    exact kept _ _ spared (held trivial)
  · rw [shown, lines, noted.shown]
  · rw [leftOut, changes, noted.leftOut]

theorem runGenerate_printing {full keep replacing : Bool} {now : Int} (loaded : planIn settings before.tree = .ok current)
    (done : runGenerate settings ⟨full, false, keep, replacing⟩ now before = (.ok 0, after)) :
    after.shown = before.shown ++ [Text.withoutControls (String.intercalate "\n"
        (Diff.linesOf (Diff.texts (formerIn settings full before.tree) current)))] ++
          savedLines settings keep (digestOf current) ∧
      after.skips = before.skips ++
        (Diff.skipped (formerIn settings full before.tree) current).value.map (·.description) := by
  rw [runGenerate, withPlan_eq, loaded] at done
  rcases Work.bind_eq_ok_iff.mp done with ⟨previous, c₁, found, done⟩
  rcases previousPlan_eq_ok found with ⟨rfl, noted⟩
  rcases Work.bind_eq_ok_iff.mp done with ⟨status, c₂, printed, done⟩
  rcases finish_eq_ok done with ⟨rfl, shown, -, skips, -⟩
  rcases printMigration_eq_ok printed with ⟨-, -, lines, changes⟩
  rw [Diff.value_script (tables_ne_nil_of_planIn loaded)] at lines
  constructor
  · rw [shown, lines, noted.shown]
  · rw [skips, changes, noted.skips, List.append_nil]

end CommandLine
end SchemaMigration
