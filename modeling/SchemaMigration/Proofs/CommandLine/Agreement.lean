import SchemaMigration.Proofs.CommandLine.Runs

namespace SchemaMigration.CommandLine

theorem head?_shown_ne_dash {s : Statement} (additive : s.isAdditive) (d : Dialect) (rest : List String) :
    (Text.withoutControls (String.intercalate "\n" (s.text d :: rest))).toList.head? ≠ some '-' := by
  intro dash
  cases first : (String.intercalate "\n" (s.text d :: rest)).toList.head? with
  | none =>
      rw [Text.withoutControls, List.head?_eq_none_iff.mp first] at dash
      cases dash
  | some c =>
      have known : c = '\n' ∨ c = 'A' ∨ c = 'C' := by
        rcases Text.head?_intercalate (s.text d) rest with same | same
        · have start := s.head?_text d additive
          rw [← same, first] at start
          exact .inr (by simpa using start)
        · rw [first] at same
          exact .inl (Option.some.inj same)
      have ordinary : c ≠ '\x1b' ∧ c ≠ '-' := by
        rcases known with rfl | rfl | rfl <;> decide
      rw [Text.head?_withoutControls first ordinary.1] at dash
      exact ordinary.2 (Option.some.inj dash)

theorem shown_eq_noChanges_iff (previous : Option Plan) (current : Plan) :
    Text.withoutControls (String.intercalate "\n" (Diff.linesOf (Diff.texts previous current))) = Diff.noChanges ↔
      Diff.texts previous current = [] := by
  cases texts : (Diff.statements previous current).value with
  | nil =>
      rw [Diff.texts, texts]
      have alone : Text.withoutControls (String.intercalate "\n" [Diff.noChanges]) = Diff.noChanges := by decide
      exact iff_of_true alone rfl
  | cons s rest =>
      have additive := Diff.isAdditive_of_mem previous current s (texts ▸ List.mem_cons_self)
      rw [Diff.texts, texts, List.map_cons, Diff.linesOf, if_neg (by simp)]
      refine iff_of_false (fun same => ?_) (List.cons_ne_nil _ _)
      apply head?_shown_ne_dash additive current.dialect (rest.map (Statement.text current.dialect))
      rw [same]
      rfl

theorem hasControls_linesOf_iff (texts : List String) :
    (∀ line ∈ Diff.linesOf texts, ¬ Text.HasControls line) ↔ ∀ text ∈ texts, ¬ Text.HasControls text := by
  cases texts with
  | nil =>
      have plain : ¬ Text.HasControls Diff.noChanges := (Text.withoutControls_eq_self_iff _).mp (by decide)
      exact iff_of_true (List.forall_mem_singleton.mpr plain) (List.forall_mem_nil _)
  | cons first rest => rfl

theorem head?_writtenLines_iff (directory : FilePath) (names saved : List String) :
    ((writtenLines directory names).map Text.withoutControls ++ saved).head? = some "No changes detected." ↔ names = [] := by
  cases names with
  | nil => exact iff_of_true rfl rfl
  | cons name rest =>
      refine iff_of_false (fun same => ?_) (List.cons_ne_nil name rest)
      have start : ("Wrote " ++ numberText (rest.length + 1) ++ " migration file(s) to " ++ directory.text ++
          ":").toList.head? = some 'W' := by simp
      have wrote := Text.head?_withoutControls start (by decide)
      rw [Option.some.inj same] at wrote
      exact absurd wrote (by decide)

/--
One run writes a migration without replacing files, another prints it, a third shows the status, all on the same files.
The written files, which have names of their own, hold the statements in groups, and these are the statements that are
printed, but for control sequences, which are not shown. Nothing is written exactly if there is nothing to print, both
runs tell of the same changes that they leave out, and a status that counts what is pending counts just these.
-/
theorem commands_agree (settings : Settings) (tree : Tree) (full keep keepToo replacing : Bool) {first second : Int}
    {written printed : Console}
    (writes : runCommand settings first (.generate { full, saveSnapshot := keep }) { tree } = (.ok 0, written))
    (prints : runCommand settings second (.generate ⟨full, false, keepToo, replacing⟩) { tree } = (.ok 0, printed)) :
    ∃ (groups : List (List String)) (names : List String) (changes : List SkippedChange) (digest : String),
      [] ∉ groups ∧
      Holds written.tree (fun p => keep = true → Snapshot.Spares written.tree settings.snapshotPath p)
        settings.scriptsDir names groups ∧
      written.shown = (writtenLines settings.scriptsDir names).map Text.withoutControls ++ savedLines settings keep digest ∧
      printed.shown = String.intercalate "\n" ((Diff.linesOf groups.flatten).map Text.withoutControls) ::
        savedLines settings keepToo digest ∧
      (printed.shown.head? = some (String.intercalate "\n" (Diff.linesOf groups.flatten)) ↔
        ∀ text ∈ groups.flatten, ¬ Text.HasControls text) ∧
      (written.shown.head? = some "No changes detected." ↔ printed.shown.head? = some Diff.noChanges) ∧
      written.leftOut = changes ∧ printed.skips = changes.map (·.description) ∧
      (full = false → ∀ third status, runCommand settings third .status { tree } = (.ok 0, status) →
        ∃ header lines, status.shown = header ++ lines ∧ header.length = 3 ∧
          StatusLines ((pendingLines groups.flatten.length changes).map Text.withoutControls) lines) := by
  rcases exists_plan_of_withPlan writes with ⟨current, loaded⟩
  rcases runGenerate_writing loaded writes with ⟨names, holds, lines, leftOut⟩
  rcases runGenerate_printing loaded prints with ⟨shown, skips⟩
  have flat := Diff.flatten_texts (formerIn settings full tree) current
  have filled : [] ∉ (Diff.files (formerIn settings full tree) current).value.map (·.texts current.dialect) := by
    intro member
    rcases List.mem_map.mp member with ⟨f, listed, empty⟩
    exact (Diff.proper_files _ _ f listed).nonempty (List.map_eq_nil_iff.mp empty)
  refine ⟨_, names, _, digestOf current, filled, holds, lines, ?_, ?_, ?_, leftOut, skips, ?_⟩
  · rw [shown, Text.withoutControls_intercalate, flat]
    rfl
  · rw [shown, flat, ← hasControls_linesOf_iff, ← Text.withoutControls_intercalate_eq_self_iff]
    exact Option.some_inj
  · have groups : names = [] ↔ Diff.texts (formerIn settings full tree) current = [] := by
      rw [← flat, List.flatten_eq_nil_iff]
      have lengths := holds.texts.length_eq
      constructor
      · intro unnamed group member
        rw [unnamed] at lengths
        rw [List.length_eq_zero_iff.mp lengths.symm] at member
        cases member
      · intro empty
        rw [List.eq_nil_iff_forall_not_mem.mpr fun group member => filled (empty group member ▸ member)] at lengths
        exact List.length_eq_zero_iff.mp lengths
    rw [lines, shown, List.nil_append, head?_writtenLines_iff, groups, ← shown_eq_noChanges_iff]
    exact Option.some_inj.symm
  · rintro rfl third status done
    rcases runStatus_eq_ok loaded done with ⟨digest, ending, -, all, ends⟩
    refine ⟨_, ending, all, rfl, ?_⟩
    rw [flat]
    exact ends

def inM : Settings := { modelsDir := ⟨"", ["m"]⟩ }

/-- Users, and a snapshot from before with teams only. -/
def usersForTeams : Tree :=
  ⟨[(["m"], .directory), (["m", "User.json"], .file "\x7b\"attributes\": \x7b\"id\": \x7b\x7d\x7d\x7d".toUTF8),
    (["m", ".schemaplan.postgres.json"], .file (
      "\x7b\"plan\": \x7b\"dialect\": \"postgres\", \"tables\": [" ++
      "\x7b\"table\": \"teams\", \"columns\": []\x7d]\x7d, \"hash\": \"0\"\x7d").toUTF8)]⟩

/-- Users are created, and teams are left to the user. -/
theorem usersForTeams_agreed : ∃ written printed groups names,
    runCommand inM 7 (.generate {}) { tree := usersForTeams } = (.ok 0, written) ∧
      runCommand inM 8 (.generate { write := false }) { tree := usersForTeams } = (.ok 0, printed) ∧
      Holds written.tree (fun _ => True) (.ofString "sql") names groups ∧
      printed.shown = [String.intercalate "\n" ((Diff.linesOf groups.flatten).map Text.withoutControls)] ∧
      written.leftOut.map (·.description) = ["drop table teams"] := by
  have writes := Work.eq_ok_of_toOption (x := runCommand inM 7 (.generate {})) (s := { tree := usersForTeams }) (a := 0)
    (by decide +kernel)
  have printing : (runCommand inM 8 (.generate { write := false }) { tree := usersForTeams }).1.toOption = some 0 ∧
      (runCommand inM 8 (.generate { write := false }) { tree := usersForTeams }).2.skips = ["drop table teams"] := by
    decide +kernel
  have prints := Work.eq_ok_of_toOption (x := runCommand inM 8 (.generate { write := false })) printing.1
  rcases commands_agree inM usersForTeams false false false false writes prints with
    ⟨groups, names, changes, digest, -, holds, -, shown, -, -, leftOut, skips, -⟩
  refine ⟨_, _, groups, names, writes, prints, ⟨holds.distinct, ?_⟩, shown, ?_⟩
  · exact holds.texts.imp fun name group held _ => held nofun
  · rw [leftOut, ← skips]
    exact printing.2

/-- Users with a note that is red by default. -/
def redNotes : Tree :=
  ⟨[(["m"], .directory), (["m", "User.json"], .file
    "\x7b\"attributes\": \x7b\"id\": \x7b\x7d, \"note\": \x7b\"default\": \"\\u001b[31mred\"\x7d\x7d\x7d".toUTF8)]⟩

/-- The text of the file is not what is printed. -/
theorem red_not_printed : ¬ ∀ (settings : Settings) (tree : Tree) (first second : Int) (written printed : Console),
    runCommand settings first (.generate {}) { tree } = (.ok 0, written) →
    runCommand settings second (.generate { write := false }) { tree } = (.ok 0, printed) →
    ∃ names groups, written.shown = writtenLines settings.scriptsDir names ∧
      Holds written.tree (fun _ => True) settings.scriptsDir names groups ∧
      printed.shown = [String.intercalate "\n" (Diff.linesOf groups.flatten)] := by
  intro claimed
  have writing : (runCommand inM 7 (.generate {}) { tree := redNotes }).1.toOption = some 0 ∧
      (runCommand inM 7 (.generate {}) { tree := redNotes }).2.shown =
        ["Wrote 1 migration file(s) to sql:", "  - 7-create-users-table.sql"] ∧
      ((((runCommand inM 7 (.generate {}) { tree := redNotes }).2.tree.read
        (inM.scriptsDir.child "7-create-users-table.sql")).toOption.bind String.fromUTF8?).any
          (·.toList.contains '\x1b')) = true := by
    decide +kernel
  have printing : (runCommand inM 8 (.generate { write := false }) { tree := redNotes }).1.toOption = some 0 ∧
      ∀ line ∈ (runCommand inM 8 (.generate { write := false }) { tree := redNotes }).2.shown, '\x1b' ∉ line.toList := by
    decide +kernel
  have writes := Work.eq_ok_of_toOption (x := runCommand inM 7 (.generate {})) writing.1
  have prints := Work.eq_ok_of_toOption (x := runCommand inM 8 (.generate { write := false })) printing.1
  rcases claimed _ _ _ _ _ _ writes prints with ⟨names, groups, listed, holds, shown⟩
  have name : names = ["7-create-users-table.sql"] := by
    rw [writing.2.1] at listed
    cases names with
    | nil => exact absurd (List.cons.inj listed).2 (List.cons_ne_nil _ _)
    | cons n rest =>
        rcases List.cons.inj (List.cons.inj listed).2 with ⟨first, others⟩
        have joined : "  - 7-create-users-table.sql" = "  - " ++ "7-create-users-table.sql" := by decide
        rw [List.map_eq_nil_iff.mp others.symm, ← (String.append_right_inj "  - ").mp (joined.symm.trans first)]
  rcases name with rfl
  rcases List.forall₂_cons_left_iff.mp holds.texts with ⟨group, others, held, only, rfl⟩
  rcases List.forall₂_nil_left_iff.mp only with rfl
  have colored : '\x1b' ∈ (fileText group).toList := by
    have content := writing.2.2
    have text : (Except.ok (fileText group).toUTF8 : Except FileFault ByteArray).toOption.bind String.fromUTF8? =
        some (fileText group) := Snapshot.fromUTF8?_toUTF8 _
    rw [held trivial, text] at content
    simpa using content
  have line : ∃ text ∈ group, '\x1b' ∈ text.toList := by
    rw [fileText, String.toList_append, List.mem_append] at colored
    exact (Text.mem_intercalate_iff (by decide) group).mp (colored.resolve_right (by decide))
  have filled : Diff.linesOf group = group := if_neg fun empty => by
    rcases line with ⟨text, member, -⟩
    rw [List.isEmpty_iff.mp empty] at member
    cases member
  refine printing.2 _ (shown ▸ List.mem_cons_self) ?_
  rw [List.flatten_singleton, filled]
  exact (Text.mem_intercalate_iff (by decide) group).mpr line

end SchemaMigration.CommandLine
