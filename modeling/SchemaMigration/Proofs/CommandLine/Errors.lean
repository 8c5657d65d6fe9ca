import SchemaMigration.Proofs.CommandLine.Console
import SchemaMigration.Proofs.Model.Containment
import SchemaMigration.Proofs.Text.ControlSequence

namespace SchemaMigration.CommandLine
open ModelDirectory

theorem text_error (wording : Wording) (e : Failure) :
    (Message.error e).text wording = "Error: " ++ Text.withoutControls (Message.errorText wording e) :=
  Text.withoutControls_append (by decide) _

theorem isReported_of_isDefinition {e : Failure} (definition : e.isDefinition) : e.isReported := by
  cases e <;> first | rfl | cases definition

theorem isReported_of_loadStops {site : Site} {directory : FilePath} {e : Failure} (stops : LoadStops site directory e) :
    e.isReported = false := by
  cases stops with
  | nameTooLong => rfl
  | unread _ _ _ stops => cases stops <;> rfl

variable {settings : Settings} {tree : Tree} {e : Failure}

/-- Where there is no plan, the error is reported unless loading the models was stopped. -/
theorem isReported_eq_false_iff (failed : planIn settings tree = .error e) :
    e.isReported = false ↔ LoadStops ⟨tree, []⟩ settings.modelsDir e := by
  refine ⟨fun unreported => ?_, isReported_of_loadStops⟩
  have other : e.isDefinition = false := by
    rw [← Bool.not_eq_true]
    intro definition
    rw [isReported_of_isDefinition definition] at unreported
    cases unreported
  have whole := loadPlan_eq settings tree
  rw [failed] at whole
  rcases Work.bind_eq_error whole with loading | ⟨models, site, -, building⟩
  · rw [← load_eq_error_iff _ _ other, loading]
  · exfalso
    split at building
    · cases building
      cases unreported
    · unfold Plan.buildFrom at building
      split at building
      · cases building
      · cases building
        cases other

theorem runWith_of_error {command : Command} (reads : command ≠ .bookkeeping) (failed : planIn settings tree = .error e)
    (verbose : Bool) (now : Int) :
    runWith settings verbose command now tree =
      if e.isReported then ⟨1, "", [.error e], none, tree⟩ else ⟨1, "", [], some e, tree⟩ := by
  have loads : ∃ next, runCommand settings now command = withPlan settings next := by
    cases command with
    | bookkeeping => exact absurd rfl reads
    | _ => exact ⟨_, rfl⟩
  rcases loads with ⟨next, loads⟩
  have ended : runCommand settings now command { tree } =
      if e.isReported then (.ok 1, { tree, messages := [.error e] }) else (.error e, { tree }) := by
    rw [loads, withPlan_eq, failed]
    rfl
  rw [runWith, ended]
  cases e.isReported <;> rfl

/-- The command that only shows how migrations are recorded does not look at the models. -/
theorem runWith_bookkeeping (settings : Settings) (verbose : Bool) (now : Int) :
    ∃ output, ∀ tree, runWith settings verbose .bookkeeping now tree = ⟨0, output, [], none, tree⟩ :=
  ⟨_, fun _ => rfl⟩

/--
Bad models are errors of the definitions, apart from those that loading stops at: a path that is too long, a file that
is not UTF-8 or in which a too long integer is met, and, where models are given as a value, a definition that does not
list entries. A command that needs the models ends with a status of one and the line for the error, unless it was
stopped there.
-/
theorem bad_models_contained_iff (directory : FilePath) (site : Site) (entries : List (String × Value))
    (settings : Settings) (verbose : Bool) (now : Int) :
    (∀ e : Failure, e.isDefinition = false →
      ((load directory site).1 = .error e ↔ LoadStops site directory e)) ∧
    ((∃ e, ModelSet.read (.dict entries) = .error e ∧ e.isDefinition = false) ↔
      ∃ before key definition after models, entries = before ++ (key, definition) :: after ∧
        ModelSet.read (.dict before) = .ok models ∧ ¬ definition.ListsEntries) ∧
    (∀ (command : Command) (tree : Tree) (e : Failure), command ≠ .bookkeeping → planIn settings tree = .error e →
      (LoadStops ⟨tree, []⟩ settings.modelsDir e →
        runWith settings verbose command now tree = ⟨1, "", [], some e, tree⟩) ∧
      (¬ LoadStops ⟨tree, []⟩ settings.modelsDir e →
        runWith settings verbose command now tree = ⟨1, "", [.error e], none, tree⟩ ∧ ∀ wording,
          (Message.error e).text wording = "Error: " ++ Text.withoutControls (Message.errorText wording e))) ∧
    ∃ output, ∀ tree, runWith settings verbose .bookkeeping now tree = ⟨0, output, [], none, tree⟩ := by
  refine ⟨fun e other => load_eq_error_iff directory site other, ModelSet.read_eq_error_iff entries, ?_,
    runWith_bookkeeping settings verbose now⟩
  intro command tree e reads failed
  have ending := runWith_of_error reads failed verbose now
  have stopped := isReported_eq_false_iff failed
  constructor
  · intro stops
    rwa [stopped.mpr stops] at ending
  · intro loaded
    rw [← stopped, Bool.not_eq_false] at loaded
    rw [loaded] at ending
    exact ⟨ending, fun wording => text_error wording e⟩

def oneModel (content : ByteArray) : Tree := ⟨[(["models"], .directory), (["models", "User.json"], .file content)]⟩

/-- A byte that no text in UTF-8 has. -/
def strayByte : ByteArray := ⟨#[0xff]⟩

theorem strayByte_stops : LoadStops ⟨oneModel strayByte, []⟩ ({} : Settings).modelsDir .notUtf8 := by
  have files : filesIn (oneModel strayByte) ({} : Settings).modelsDir = [] ++ ⟨"", ["models", "User.json"]⟩ :: [] := by
    decide +kernel
  have loaded : (loadFiles [] [] ⟨oneModel strayByte, []⟩).1 = .ok [] := rfl
  have read : (oneModel strayByte).read ⟨"", ["models", "User.json"]⟩ = .ok strayByte :=
    eq_ok_of_toOption (by decide +kernel)
  exact .unread (eq_ok_of_toOption (by decide +kernel)) files loaded (.notUtf8 read (by decide +kernel))

theorem planIn_strayByte : planIn {} (oneModel strayByte) = .error .notUtf8 := by
  have load := (load_eq_error_iff _ _ rfl).mpr strayByte_stops
  have failed : ModelDirectory.load ({} : Settings).modelsDir ⟨oneModel strayByte, []⟩ = (.error .notUtf8, _) :=
    Prod.ext load rfl
  rw [planIn, loadPlan, Work.bind_of_error failed]

/-- A model that is a list is reported, and one that is no text stops the command. -/
theorem listedModel_reported :
    (∃ e, planIn {} (oneModel "[]".toUTF8) = .error e ∧
      runWith {} false .plan 0 (oneModel "[]".toUTF8) = ⟨1, "", [.error e], none, oneModel "[]".toUTF8⟩) ∧
    (load ({} : Settings).modelsDir ⟨oneModel strayByte, []⟩).1 = .error .notUtf8 ∧
    runWith {} false .plan 0 (oneModel strayByte) = ⟨1, "", [], some .notUtf8, oneModel strayByte⟩ := by
  rcases bad_models_contained_iff ({} : Settings).modelsDir ⟨oneModel strayByte, []⟩ [] {} false 0 with
    ⟨loads, -, commands, -⟩
  refine ⟨?_, (loads _ rfl).mpr strayByte_stops, (commands .plan _ _ nofun planIn_strayByte).1 strayByte_stops⟩
  have unread : (planIn {} (oneModel "[]".toUTF8)).toOption.isNone := by decide +kernel
  have reported : (runWith {} false .plan 0 (oneModel "[]".toUTF8)).stoppedBy.isNone := by decide +kernel
  cases failed : planIn {} (oneModel "[]".toUTF8) with
  | ok plan =>
      rw [failed] at unread
      cases unread
  | error e =>
      have endings := commands .plan _ e nofun failed
      refine ⟨e, rfl, (endings.2 fun stops => ?_).1⟩
      rw [endings.1 stops] at reported
      cases reported

/-- A file that is no text, or a number for a definition, is no error of the definitions, and no error is reported. -/
theorem strayByte_not_contained :
    (¬ ∀ (directory : FilePath) (site : Site) (e : Failure), (load directory site).1 = .error e → e.isDefinition) ∧
    (¬ ∀ (entries : List (String × Value)) (e : Failure), ModelSet.read (.dict entries) = .error e → e.isDefinition) ∧
    ¬ ∀ (settings : Settings) (verbose : Bool) (command : Command) (now : Int) (tree : Tree) (e : Failure),
      command ≠ .bookkeeping → planIn settings tree = .error e →
        (runWith settings verbose command now tree).messages = [.error e] := by
  refine ⟨fun claimed => ?_, fun claimed => ?_, fun claimed => ?_⟩
  · cases claimed _ _ _ ((load_eq_error_iff _ _ rfl).mpr strayByte_stops)
  · cases claimed [("User", .int 1)] (.models .noEntries) rfl
  · have reads : Command.plan ≠ .bookkeeping := nofun
    have reported := claimed {} false .plan 0 _ _ reads planIn_strayByte
    rw [runWith_of_error reads planIn_strayByte] at reported
    cases reported

end SchemaMigration.CommandLine
