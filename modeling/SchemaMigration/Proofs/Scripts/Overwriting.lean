import SchemaMigration.Proofs.Scripts.Runs
/-!
When runs that do not replace files change a file all the same. Every run counts from its own base without looking at
the directory, so a name may be there already: from an earlier run that counted past the base, or from the start.
-/
namespace SchemaMigration

/-- No run changes a file that was there when the run came to write. -/
def NothingOverwritten (path : FilePath) : List Run → Site → Prop
  | [], _ => True
  | r :: rest, before =>
    (ScriptDirectory.plain path).WritesKeepFiles r.files (r.start before) ∧
      NothingOverwritten path rest (r.siteAfter path before)

/--
Scripts that are still to be written agree with each other and with the files that are there, wherever their names
are the same. Where a script stands is read off the tree at the end.
-/
structure Agreeing (path : FilePath) (last t : Tree) (scripts : List Script) : Prop where
  files : ∀ a ∈ scripts, ∀ place content, last.locate (path.child a.name) = .ok place →
    t.node? place = some (.file content) → content = a.text.toUTF8
  names : scripts.Pairwise fun a b => a.name = b.name → a.text = b.text

namespace Agreeing
variable {path : FilePath} {last t u : Tree} {scripts : List Script}

theorem congr (makes : t.OnlyMakes u) : Agreeing path last u scripts ↔ Agreeing path last t scripts := by
  constructor
  · rintro ⟨files, names⟩
    exact ⟨fun a member place content located held => files a member place content located ((makes.files ..).mpr held), names⟩
  · rintro ⟨files, names⟩
    exact ⟨fun a member place content located held => files a member place content located ((makes.files ..).mp held), names⟩

theorem cons_iff {a : Script} (written : t.write (path.child a.name) a.text.toUTF8 = .ok u)
    (kept : u.KeepsDirectories last) :
    Agreeing path last t (a :: scripts) ↔ t.KeepsFiles u ∧ Agreeing path last u scripts := by
  rcases Tree.write_eq_ok_iff.mp written with ⟨place, leads, free, rfl⟩
  have there : last.locate (path.child a.name) = .ok place :=
    Tree.locate_keeps ((Tree.keepsDirectories_put _ free).trans kept) leads
  have given : Tree.isGiven place = false := Tree.isGiven_eq_false free
  have same : ∀ b : Script, ∀ q, last.locate (path.child b.name) = .ok q → (place = q ↔ a.name = b.name) := fun b q =>
    Tree.place_eq_iff a.name_ne_dots b.name_ne_dots there
  rw [Tree.keepsFiles_put_iff free]
  constructor
  · rintro ⟨files, names⟩
    rcases List.pairwise_cons.mp names with ⟨first, others⟩
    refine ⟨fun old held => files a List.mem_cons_self place old there held, ?_, others⟩
    intro b member q content located held
    by_cases here : place = q
    · subst here
      rw [Tree.node?_put_same given] at held
      cases held
      rw [first b member ((same b place located).mp rfl)]
    · rw [Tree.node?_put_other _ (Ne.symm here)] at held
      exact files b (List.mem_cons_of_mem a member) q content located held
  · rintro ⟨unchanged, files, names⟩
    have agree : ∀ b ∈ scripts, a.name = b.name → a.text = b.text := by
      intro b member name
      have located : last.locate (path.child b.name) = .ok place := by rwa [← name]
      exact String.toByteArray_inj.mp (files b member place _ located (Tree.node?_put_same given _))
    refine ⟨?_, List.pairwise_cons.mpr ⟨agree, names⟩⟩
    intro b member q content located held
    rcases List.mem_cons.mp member with rfl | inRest
    · rw [there] at located
      cases located
      exact unchanged content held
    · by_cases here : place = q
      · subst here
        rw [unchanged content held, agree b inRest ((same b place located).mp rfl)]
      · exact files b inRest q content located (by rwa [Tree.node?_put_other _ (Ne.symm here)])

end Agreeing

namespace ScriptDirectory
variable {directory : ScriptDirectory} (anew : directory.replaceExisting = false) {last : Tree}
include anew

theorem writesKeepFiles_iff (files : List ScriptFile) (s : Progress) (later : List Script)
    (kept : (Work.each directory.write files s).2.site.tree.KeepsDirectories last) :
    directory.WritesKeepFiles files s ∧
        Agreeing directory.path last (Work.each directory.write files s).2.site.tree later ↔
      Agreeing directory.path last s.site.tree (directory.performed files s ++ later) := by
  induction files generalizing s with
  | nil => exact and_iff_right trivial
  | cons f rest ih =>
      rw [each_state] at kept ⊢
      rw [WritesKeepFiles, performed]
      cases outcome anew f s with
      | nothing empty done =>
          simp only [done, Except.ok.injEq, forall_eq'] at kept ⊢
          rw [← ih s kept]
          exact and_congr_left fun _ => and_iff_right fun _ _ held => held
      | failed e next done makes created =>
          simp only [done, reduceCtorEq, false_imp_iff, implies_true, and_true, List.nil_append] at kept ⊢
          rw [Agreeing.congr makes]
          exact and_iff_right makes.keepsFiles
      | wrote nonempty next made done makes written number created =>
          simp only [done, Except.ok.injEq, forall_eq', List.cons_append] at kept ⊢
          have further := (each_keepsDirectories anew rest next).trans kept
          have same : s.site.tree.KeepsFiles next.site.tree ↔ made.KeepsFiles next.site.tree :=
            forall₂_congr fun place content => by rw [makes.files]
          rw [and_assoc, ih next kept, same, ← Agreeing.cons_iff written further, Agreeing.congr makes]

end ScriptDirectory

theorem nothingOverwritten_iff_agreeing (path : FilePath) (runs : List Run) (before : Site) :
    NothingOverwritten path runs before ↔
      Agreeing path (siteAfter path runs before).tree before.tree (written path runs before).flatten := by
  induction runs generalizing before with
  | nil => exact iff_of_true trivial ⟨by simp [written], by simp [written]⟩
  | cons r rest ih =>
      have kept := keepsDirectories_siteAfter path rest (r.siteAfter path before)
      rw [NothingOverwritten, ih, written, siteAfter, List.flatten_cons]
      rw [r.tree_siteAfter] at kept ⊢
      exact ScriptDirectory.writesKeepFiles_iff rfl r.files (r.start before) _ kept

/--
Runs without replacing change no file exactly if any two scripts that they write under one number and slug have the
same text, and every file that was there under the name of such a script has the script's text.
-/
theorem nothing_overwritten_iff (path : FilePath) (runs : List Run) (before : Site) :
    NothingOverwritten path runs before ↔
      ((written path runs before).flatten.Pairwise fun a b => a.number = b.number → a.slug = b.slug → a.text = b.text) ∧
        ∀ a ∈ (written path runs before).flatten, ∀ place content,
          (siteAfter path runs before).tree.locate (path.child a.name) = .ok place →
          before.tree.node? place = some (.file content) → content = a.text.toUTF8 := by
  rw [nothingOverwritten_iff_agreeing]
  constructor
  · rintro ⟨files, names⟩
    exact ⟨names.imp fun agree number slug => agree (Script.name_inj.mpr ⟨number, slug⟩), files⟩
  · rintro ⟨names, files⟩
    exact ⟨files, names.imp fun agree name => agree (Script.name_inj.mp name).1 (Script.name_inj.mp name).2⟩

def consecutiveRuns : List Run :=
  [⟨100, [⟨"create-posts-table", ["A;"]⟩, ⟨"alter-users-table", ["B;"]⟩]⟩, ⟨101, [⟨"alter-users-table", ["C;"]⟩]⟩]

theorem users_overwritten : ¬ ∀ (path : FilePath) (runs : List Run) (before : Site),
    (runs.Pairwise fun r later => r.base ≤ later.base) → NothingOverwritten path runs before := by
  intro claimed
  have kept := (claimed (.ofString "sql") consecutiveRuns {} (by decide)).2.1.1 ["sql", "101-alter-users-table.sql"]
    "B;\n".toUTF8
  exact absurd (kept (by decide +kernel)) (by decide +kernel)

end SchemaMigration
