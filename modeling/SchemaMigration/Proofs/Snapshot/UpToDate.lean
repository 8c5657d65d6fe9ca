import SchemaMigration.Proofs.Migration.SilentDifference
import SchemaMigration.Proofs.Snapshot.Store

namespace SchemaMigration

namespace Value

/-- A number equals itself exactly if it has a value. -/
theorem compareNumbers_self_iff {v : Value} (quiet : v.isSignaling = false) :
    v.compareNumbers v = .equal ↔ v.numeric?.isSome := by
  rw [compareNumbers, quiet, Bool.or_false, Bool.and_false, if_neg Bool.false_ne_true]
  cases v.numeric? <;> simp

theorem numeric?_float_isSome_iff (x : Double) : (numeric? (.float x)).isSome ↔ x ≠ .nan := by
  cases x with
  | finite negative place =>
      rw [numeric?, Exact.ofDouble]
      split <;> simp
  | infinite | nan => simp [numeric?, Exact.ofDouble]

theorem IsScalar.equals_self_iff {v : Value} (scalar : v.IsScalar) : v.equals v = true ↔ v ≠ .float .nan := by
  have numbers := compareNumbers_self_iff scalar.isSignaling
  rw [equals, decide_eq_true_iff]
  cases v with
  | float x => simpa [compare, numeric?_float_isSome_iff] using numbers
  | bool | int => simpa [compare, numeric?] using numbers
  | null | str => simp [compare]
  | decimal | date | datetime | list | tuple | dict | foreign => cases scalar

end Value

namespace Column

theorem storedDefault_stored (c : Column) : c.stored.storedDefault = c.storedDefault := by
  simp only [stored, storedDefault]
  cases c.defaultValue <;> rfl

theorem differs_stored (b c : Column) : b.stored.differs c = b.differs c := by
  simp only [differs, compareDefinitions, storedDefault_stored]
  rfl

theorem Typed.differs_self_iff {c : Column} (typed : c.Typed) : c.differs c = true ↔ c.defaultValue = .float .nan := by
  have stored : c.storedDefault = .float .nan ↔ c.defaultValue = .float .nan := by
    rw [storedDefault]
    cases c.defaultValue <;> simp [Json.substitute?]
  rw [← Bool.not_eq_false, differs_eq_false_iff, alike_iff, typed.isScalar_storedDefault.equals_self_iff]
  simp [stored]

end Column

namespace Plan
variable {p : Plan}

/-- A plan that is built from accepted models, or loaded after one of these plans was saved. -/
inductive Kept : Plan → Prop where
  | built {d : Dialect} {p : Plan} : p.Built d → p.Kept
  | loaded {p : Plan} {path : FilePath} {now : DateTime} {before after later : Site} {saved loaded : Snapshot} :
      p.Kept → Snapshot.save path p now before = (.ok saved, after) →
      Snapshot.load path after = (.ok (some loaded), later) → loaded.plan.Kept

theorem Kept.regular (kept : p.Kept) : ∃ d, p.Regular d ∧ p.Typed := by
  induction kept with
  | built built => exact ⟨_, built.regular, built.typed⟩
  | loaded _ done loads ih =>
      rcases ih with ⟨d, regular, typed⟩
      rcases Snapshot.load_of_save typed done with ⟨digest, -, found⟩
      rw [found] at loads
      cases loads
      exact ⟨d, regular.stored, typed.stored⟩

/-- For each column whose default is not a number, the alteration to what it already is. -/
def nanAlterations (p : Plan) : List SkippedChange :=
  p.tables.flatMap fun t => t.columns.flatMap fun c =>
    if c.defaultValue = .float .nan then [⟨.alterColumn, t.name, some c.name, .modifyColumn t.name c⟩] else []

theorem nanAlterations_eq_nil_iff (p : Plan) :
    p.nanAlterations = [] ↔ ∀ t ∈ p.tables, ∀ c ∈ t.columns, c.defaultValue ≠ .float .nan := by
  simp [nanAlterations, List.flatMap_eq_nil_iff]

end Plan

theorem Snapshot.isStale_eq_false_iff (s : Snapshot) : s.isStale = .ok false ↔ s.isOf s.plan = .ok true := by
  simp only [isStale, bind, Except.bind]
  cases s.isOf s.plan with
  | error fault => simp
  | ok same => cases same <;> simp [pure, Except.pure]

namespace Diff
variable {d : Dialect} {p q : Plan}

theorem changedTable_stored (current : Plan) (t : Table) :
    (changedTable current t.stored).value = (changedTable current t).value := by
  have name : t.stored.name = t.name := rfl
  have indexes : t.stored.indexes = t.indexes := rfl
  have columns : ∀ after : Table, (t.stored.columns.flatMap fun b => (changedColumn current.dialect t.name after b).value) =
      t.columns.flatMap fun b => (changedColumn current.dialect t.name after b).value := by
    intro after
    rw [Table.stored, List.flatMap_map]
    apply List.flatMap_congr
    intro b _
    have column : b.stored.name = b.name := rfl
    simp only [changedColumn_value, Column.differs_stored, column]
  rw [changedTable_value, changedTable_value, name, indexes]
  simp only [columns]

theorem skippedFrom_stored (previous current : Plan) :
    (skippedFrom previous.stored current).value = (skippedFrom previous current).value := by
  rw [skippedFrom_value, skippedFrom_value, Plan.stored, List.flatMap_map]
  exact List.flatMap_congr fun t _ => changedTable_stored current t

theorem changedColumn_self (now : q.WellNamed) {t : Table} (inPlan : t ∈ q.tables) (typed : t.Typed) {c : Column}
    (inTable : c ∈ t.columns) :
    (changedColumn q.dialect t.name t c).value =
      if c.defaultValue = .float .nan then [⟨.alterColumn, t.name, some c.name, .modifyColumn t.name c⟩] else [] := by
  have column := typed.columns c inTable
  rw [changedColumn_value, (now.column?_eq_some_iff inPlan _ c).mpr ⟨inTable, rfl⟩]
  simp only [column.differs_self_iff]

/-- Nothing is skipped from a plan to itself but what does not equal itself. -/
theorem skippedFrom_self (now : q.WellNamed) (typed : q.Typed) : (skippedFrom q q).value = q.nanAlterations := by
  rw [skippedFrom_value, Plan.nanAlterations]
  apply List.flatMap_congr
  intro t inPlan
  have kept : ∀ i ∈ t.indexes, (droppedIndex q.dialect t.name t.indexes i).value = [] := by
    intro i listed
    rw [droppedIndex_value, if_pos ((Plan.hasIndex_iff ..).mpr ⟨i, listed, rfl⟩)]
  rw [changedTable_value, (now.lastTable?_eq_some_iff _ t).mpr ⟨inPlan, rfl⟩]
  simp only [List.flatMap_eq_nil_iff.mpr kept, List.nil_append]
  exact List.flatMap_congr fun c inTable => changedColumn_self now inPlan (typed.tables t inPlan) inTable

section
variable {α : Type} {stored : α → α} {name : α → Value} {former later : List α}
  (same : former.map stored = later.map stored)
include same

theorem exists_former {a : α} (member : a ∈ later) : ∃ b ∈ former, stored b = stored a := by
  have there : stored a ∈ former.map stored := by
    rw [same]
    exact List.mem_map_of_mem member
  exact List.mem_map.mp there

theorem stored_eq_of_name (kept : ∀ a, name (stored a) = name a) (distinct : (former.map name).Nodup) {a b : α}
    (inFormer : b ∈ former) (inLater : a ∈ later) (named : name a = name b) : stored b = stored a := by
  rcases exists_former same inLater with ⟨other, known, equal⟩
  have otherName : name other = name b := by rw [← kept other, equal, kept a, named]
  rwa [List.inj_on_of_nodup_map distinct inFormer known otherName.symm]

end

theorem had_of_stored (same : p.stored = q.stored) :
    ∀ t ∈ q.tables, ∃ before ∈ p.tables, before.name = t.name ∧ Had before t := by
  intro t inPlan
  rcases exists_former (congrArg Plan.tables same) inPlan with ⟨before, inPrevious, equal⟩
  have named : before.stored.name = t.stored.name := congrArg Table.name equal
  have indexes : before.stored.indexes = t.stored.indexes := congrArg Table.indexes equal
  refine ⟨before, inPrevious, named, ?_, fun i listed => ⟨i, indexes ▸ listed, rfl⟩⟩
  intro c inTable
  rcases exists_former (congrArg Table.columns equal) inTable with ⟨b, inBefore, equalColumn⟩
  have column : b.stored.name = c.stored.name := congrArg Column.name equalColumn
  exact ⟨b, inBefore, column⟩

theorem modifyColumn_faults (d : Dialect) {table : Value} (text : table.IsText) {c : Column} (typed : c.Typed)
    (undefined : c.defaultValue = .float .nan) : (Statement.modifyColumn table c).faults d = [] := by
  have name := typed.name.textFaults_eq_nil
  have default : Sql.defaultFaults c = [] := by
    rw [Sql.defaultFaults, undefined]
    split <;> rfl
  cases d <;>
    simp [Statement.faults, Statement.supported, Sql.definitionFaults, Sql.referenceFaults, name, default,
      text.textFaults_eq_nil]

theorem feasible_of_stored (past : p.WellNamed) (typed : p.Typed) (alsoTyped : q.Typed) (same : p.stored = q.stored) :
    Feasible p q := by
  apply feasible_of_had typed alsoTyped past (had_of_stored same)
  intro before inPrevious t inPlan name b inBefore c inTable sameName differs
  have column := (alsoTyped.tables t inPlan).columns c inTable
  have table := stored_eq_of_name (congrArg Plan.tables same) (fun _ => rfl) past.tablesDistinct inPrevious inPlan name
  have equal := stored_eq_of_name (congrArg Table.columns table) (fun _ => rfl) (past.columnsDistinct before inPrevious)
    inBefore inTable sameName
  rw [← Column.differs_stored, equal, Column.differs_stored, column.differs_self_iff] at differs
  exact modifyColumn_faults _ (past.tableTexts before inPrevious) column differs

section
variable (past : p.Regular d) (now : q.Regular d) (typed : p.Typed) (alsoTyped : q.Typed) (same : p.stored = q.stored)
include past now typed alsoTyped same

theorem script_of_stored : (script (some p) q).outcome = .ok [noChanges] := by
  have feasible := feasible_of_stored past.toWellNamed typed alsoTyped same
  rw [Reported.outcome_eq_ok_iff, script_eq_noChanges_iff (past.dialect.trans now.dialect.symm), nothing_to_do_iff past now]
  exact ⟨(succeeds_script_iff past now).mpr feasible, had_of_stored same⟩

theorem skipped_of_stored : (skipped (some p) q).outcome = .ok q.nanAlterations := by
  have feasible := feasible_of_stored past.toWellNamed typed alsoTyped same
  rw [Reported.outcome_eq_ok_iff]
  refine ⟨feasible.skipped_succeeds past now, ?_⟩
  rw [skipped_some (past.dialect.trans now.dialect.symm), ← skippedFrom_stored, same, skippedFrom_stored,
    skippedFrom_self now.toWellNamed alsoTyped]

end

/--
Between two plans with the same canonical text there is nothing to do, and a snapshot of the first that is not
stale is one of the second. What is skipped are columns whose default is not a number, and nothing if there
are none.
-/
theorem same_text_exact (past : p.Kept) (now : q.Kept) {text : String}
    (written : Fingerprint.canonicalText p.toValue = .ok text)
    (written' : Fingerprint.canonicalText q.toValue = .ok text) :
    (script (some p) q).outcome = .ok [noChanges] ∧ (skipped (some p) q).outcome = .ok q.nanAlterations ∧
      ((skipped (some p) q).outcome = .ok [] ↔ ∀ t ∈ q.tables, ∀ c ∈ t.columns, c.defaultValue ≠ .float .nan) ∧
      ∀ s : Snapshot, s.plan = p → s.isStale = .ok false → s.isOf q = .ok true := by
  rcases past.regular with ⟨d, regular, typed⟩
  rcases now.regular with ⟨d', alsoRegular, alsoTyped⟩
  have same := (Plan.canonicalText_eq_ok_iff typed alsoTyped written).mp written'
  have dialects : p.stored.dialect = q.stored.dialect := congrArg Plan.dialect same
  have sameDialect : d' = d := alsoRegular.dialect.symm.trans (dialects.symm.trans regular.dialect)
  subst sameDialect
  have listed := skipped_of_stored regular alsoRegular typed alsoTyped same
  refine ⟨script_of_stored regular alsoRegular typed alsoTyped same, listed, ?_, ?_⟩
  · rw [listed, Except.ok.injEq, q.nanAlterations_eq_nil_iff]
  · rintro s rfl fresh
    have digest : s.plan.fingerprint = q.fingerprint := by
      rw [Plan.fingerprint, Plan.fingerprint, Fingerprint.ofValue, Fingerprint.ofValue, written, written']
    rw [Snapshot.isStale_eq_false_iff] at fresh
    rwa [Snapshot.isOf, ← digest]

def pricedReports : ModelSet :=
  [("Report", {
      name := "Report"
      attributes := [
        ("id", {}), ("price", { default := .decimal (.finite false 150 (-2)), hasDefault := true }),
        ("due", { default := .date Snapshot.endOfJanuary, hasDefault := true })] })]

theorem pricedReports_built : (Plan.postgresOf pricedReports).Built .postgres :=
  Plan.postgresOf_built (by decide) (by decide)

/-- A plan against what was loaded after it was saved. -/
theorem reports_up_to_date : ∃ (saved loaded : Snapshot) (after : Site),
    Snapshot.save Snapshot.schemaFile (Plan.postgresOf pricedReports) (Snapshot.noon ⟨3600000000, by decide⟩) {} =
        (.ok saved, after) ∧
      Snapshot.load Snapshot.schemaFile after = (.ok (some loaded), after) ∧
      (script (some loaded.plan) (Plan.postgresOf pricedReports)).outcome = .ok [noChanges] ∧
      (skipped (some loaded.plan) (Plan.postgresOf pricedReports)).outcome = .ok [] := by
  have typed := pricedReports_built.typed
  have written : ∃ text, Fingerprint.canonicalText (Plan.postgresOf pricedReports).toValue = .ok text := ⟨_, rfl⟩
  rcases written with ⟨text, written⟩
  have taken : (Plan.postgresOf pricedReports).fingerprint = .ok (Sha256.ofText text) := by
    rw [Plan.fingerprint, Fingerprint.ofValue, written]
    rfl
  rcases Snapshot.save_schemaFile taken (Snapshot.noon ⟨3600000000, by decide⟩) with ⟨after, done⟩
  rcases Snapshot.load_of_save typed done with ⟨digest, -, loads⟩
  have still : Fingerprint.canonicalText (Plan.postgresOf pricedReports).stored.toValue = .ok text := by
    rw [← Plan.toValue_stored typed, Fingerprint.canonicalText_stored (Fingerprint.writable_of_canonicalText written),
      written]
  rcases same_text_exact (.loaded (.built pricedReports_built) done loads) (.built pricedReports_built) still written with
    ⟨silent, -, nothing, -⟩
  exact ⟨_, _, after, done, loads, silent, nothing.mpr (by decide)⟩

def unreadLevels : ModelSet :=
  [("Reading", { name := "Reading", attributes := [("id", {}), ("level", { default := .float .nan, hasDefault := true })] })]

/-- A column whose default is not a number is altered to what it is. -/
theorem level_altered : ¬ ∀ (p q : Plan) (text : String), p.Kept → q.Kept →
    Fingerprint.canonicalText p.toValue = .ok text → Fingerprint.canonicalText q.toValue = .ok text →
      (script (some p) q).outcome = .ok [noChanges] ∧ (skipped (some p) q).outcome = .ok [] := by
  intro claimed
  have built : (Plan.postgresOf unreadLevels).Built .postgres := Plan.postgresOf_built (by decide) (by decide)
  have written : ∃ text, Fingerprint.canonicalText (Plan.postgresOf unreadLevels).toValue = .ok text := ⟨_, rfl⟩
  rcases written with ⟨text, written⟩
  rcases claimed _ _ text (.built built) (.built built) written written with ⟨-, nothing⟩
  have altered : (skipped (some (Plan.postgresOf unreadLevels)) (Plan.postgresOf unreadLevels)).outcome =
      .ok (Plan.postgresOf unreadLevels).nanAlterations := rfl
  rw [altered, Except.ok.injEq, Plan.nanAlterations_eq_nil_iff] at nothing
  exact absurd nothing (by decide)

end Diff
end SchemaMigration
