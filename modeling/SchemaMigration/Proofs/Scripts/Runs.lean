import SchemaMigration.Proofs.Scripts.Writing
/-!
Runs that write one directory after each other without replacing files. Each counts from its own base. A run writes the
scripts of its files in order, up to the first that fails.
-/
namespace SchemaMigration

structure Run where
  base : Int
  files : List ScriptFile

namespace ScriptDirectory

def numbered : Int → List ScriptFile → List Script
  | _, [] => []
  | number, f :: rest =>
    if f.statements.isEmpty then numbered number rest else .ofFile number f :: numbered (number + 1) rest

/-- The scripts of new files that are written, up to the first failure. -/
def performed (directory : ScriptDirectory) : List ScriptFile → Progress → List Script
  | [], _ => []
  | f :: rest, s =>
    match directory.write f s with
    | (.ok (some _), next) => .ofFile s.number f :: directory.performed rest next
    | (.ok none, next) => directory.performed rest next
    | (.error _, _) => []

/-- No file that was there before it is changed by a write. -/
def WritesKeepFiles (directory : ScriptDirectory) : List ScriptFile → Progress → Prop
  | [], _ => True
  | f :: rest, s =>
    s.site.tree.KeepsFiles (directory.write f s).2.site.tree ∧
      ∀ written, (directory.write f s).1 = .ok written → directory.WritesKeepFiles rest (directory.write f s).2

variable {directory : ScriptDirectory} {f : ScriptFile} {rest : List ScriptFile} {s : Progress}

/-- What one write comes to where files are not replaced. -/
inductive Outcome (directory : ScriptDirectory) (f : ScriptFile) (s : Progress) : Prop where
  | nothing (empty : f.statements = []) (done : directory.write f s = (.ok none, s))
  | failed (e : Failure) (next : Progress) (done : directory.write f s = (.error e, next))
      (makes : s.site.tree.OnlyMakes next.site.tree) (created : next.created = s.created)
  | wrote (nonempty : f.statements ≠ []) (next : Progress) (made : Tree)
      (done : directory.write f s = (.ok (some (directory.path.child (Script.ofFile s.number f).name)), next))
      (makes : s.site.tree.OnlyMakes made)
      (written : made.write (directory.path.child (Script.ofFile s.number f).name)
        (Script.ofFile s.number f).text.toUTF8 = .ok next.site.tree)
      (number : next.number = s.number + 1)
      (created : next.created = s.created ++ [directory.path.child (Script.ofFile s.number f).name])

theorem outcome (anew : directory.replaceExisting = false) (f : ScriptFile) (s : Progress) : directory.Outcome f s := by
  by_cases empty : f.statements = []
  · exact .nothing empty (directory.write_nothing empty s)
  cases done : directory.write f s with
  | mk result next =>
      cases result with
      | error e =>
          rcases write_eq_error anew done with ⟨makes, created⟩
          exact .failed e next done makes created
      | ok written =>
          rcases write_eq_ok empty done with ⟨made, p, found, makes, -, rfl, -, wrote, chosen, target⟩
          rw [replaced?, anew] at chosen
          cases chosen
          rcases target with ⟨rfl, number, created⟩
          exact .wrote empty next made.tree done makes wrote number created

theorem each_state (directory : ScriptDirectory) (f : ScriptFile) (rest : List ScriptFile) (s : Progress) :
    (Work.each directory.write (f :: rest) s).2 =
      match directory.write f s with
      | (.ok _, next) => (Work.each directory.write rest next).2
      | (.error _, next) => next := by
  change (Work.bind _ _ s).2 = _
  unfold Work.bind
  cases directory.write f s with
  | mk result next =>
      cases result with
      | error e => rfl
      | ok written =>
          change (Work.bind _ _ next).2 = (Work.each directory.write rest next).2
          unfold Work.bind
          cases Work.each directory.write rest next with
          | mk others last => cases others <;> rfl

section
variable [Device]

theorem writeAll_state (directory : ScriptDirectory) (files : List ScriptFile) (s : Progress) :
    (directory.writeAll files s).2.site.tree = (Work.each directory.write files s).2.site.tree ∧
      (directory.writeAll files s).2.created = (Work.each directory.write files s).2.created := by
  cases done : Work.each directory.write files s with
  | mk result next =>
      cases result with
      | error e =>
          rw [writeAll, Work.bind_of_error done]
          exact ⟨rfl, rfl⟩
      | ok paths =>
          rw [writeAll, Work.bind_of_ok done]
          exact ⟨rfl, rfl⟩

theorem writeScripts_eq_ok {now : Int} {files : List ScriptFile} {before after : Site} {paths : List FilePath}
    (done : CommandLine.writeScripts directory now files before = (.ok paths, after)) :
    ∃ written last, Work.each directory.write files ⟨before, now, [], []⟩ = (.ok written, last) ∧
      after.tree = last.site.tree := by
  have tree := (directory.writeAll_state files ⟨before, now, [], []⟩).1
  have result : (directory.writeAll files ⟨before, now, [], []⟩).1 = .ok paths := congrArg Prod.fst done
  have site : (directory.writeAll files ⟨before, now, [], []⟩).2.site = after := congrArg Prod.snd done
  rcases Work.bind_eq_ok_iff.mp (Prod.ext result rfl) with ⟨written, last, all, -⟩
  rw [site, all] at tree
  exact ⟨written, last, all, tree⟩

end

section
variable (anew : directory.replaceExisting = false)
include anew

theorem each_keepsDirectories (files : List ScriptFile) (s : Progress) :
    s.site.tree.KeepsDirectories (Work.each directory.write files s).2.site.tree := by
  induction files generalizing s with
  | nil => exact fun _ held => held
  | cons f rest ih =>
      rw [each_state]
      cases outcome anew f s with
      | nothing empty done =>
          rw [done]
          exact ih s
      | failed e next done makes created =>
          rw [done]
          exact makes.directories
      | wrote nonempty next made done makes written number created =>
          rw [done]
          rcases Tree.write_eq_ok_iff.mp written with ⟨place, -, free, put⟩
          have kept : made.KeepsDirectories next.site.tree := by
            rw [put]
            exact Tree.keepsDirectories_put _ free
          exact (makes.directories.trans kept).trans (ih next)

theorem each_created (files : List ScriptFile) (s : Progress) :
    (Work.each directory.write files s).2.created =
      s.created ++ (directory.performed files s).map fun a => directory.path.child a.name := by
  induction files generalizing s with
  | nil => exact (List.append_nil _).symm
  | cons f rest ih =>
      rw [each_state, performed]
      cases outcome anew f s with
      | nothing empty done => simp only [done, ih]
      | failed e next done makes created => simp only [done, created, List.map_nil, List.append_nil]
      | wrote nonempty next made done makes written number created =>
          simp only [done, ih, created, List.append_assoc, List.map_cons, List.singleton_append]

/-- What is written is the first part of what a run has to write, under the numbers that follow each other. -/
theorem performed_numbered (files : List ScriptFile) (s : Progress) :
    directory.performed files s <+: numbered s.number files := by
  induction files generalizing s with
  | nil => exact List.prefix_refl _
  | cons f rest ih =>
      rw [performed, numbered]
      cases outcome anew f s with
      | nothing empty done => simpa only [done, empty, List.isEmpty_nil, if_true] using ih s
      | failed e next done makes created =>
          simp only [done]
          exact List.nil_prefix
      | wrote nonempty next made done makes written number created =>
          have later := ih next
          rw [number] at later
          simpa only [done, List.isEmpty_iff, nonempty, if_false, List.cons_prefix_cons, true_and] using later

end

end ScriptDirectory

open ScriptDirectory

def ScriptDirectory.plain (path : FilePath) : ScriptDirectory := { path }

namespace Run

def start (r : Run) (before : Site) : Progress := ⟨before, r.base, [], []⟩

def createdNames (path : FilePath) (r : Run) (before : Site) : List String :=
  ((ScriptDirectory.plain path).writeAll r.files (r.start before)).2.created.map (·.name)

def performed (path : FilePath) (r : Run) (before : Site) : List Script :=
  (ScriptDirectory.plain path).performed r.files (r.start before)

def siteAfter (path : FilePath) (r : Run) (before : Site) : Site :=
  (CommandLine.writeScripts (.plain path) r.base r.files before).2

theorem name_child (path : FilePath) (name : String) : (path.child name).name = name := by
  simp [FilePath.child, FilePath.name]

theorem createdNames_eq (path : FilePath) (r : Run) (before : Site) :
    r.createdNames path before = (r.performed path before).map (·.name) := by
  rw [createdNames, (writeAll_state ..).2, each_created rfl]
  simp [start, performed, name_child, Function.comp_def]

theorem performed_numbered (path : FilePath) (r : Run) (before : Site) :
    r.performed path before <+: numbered r.base r.files :=
  ScriptDirectory.performed_numbered rfl r.files (r.start before)

theorem tree_siteAfter (path : FilePath) (r : Run) (before : Site) :
    (r.siteAfter path before).tree =
      (Work.each (ScriptDirectory.plain path).write r.files (r.start before)).2.site.tree :=
  (writeAll_state ..).1

end Run

/-- What the runs have written, run by run. -/
def written (path : FilePath) : List Run → Site → List (List Script)
  | [], _ => []
  | r :: rest, before => r.performed path before :: written path rest (r.siteAfter path before)

def createdNames (path : FilePath) : List Run → Site → List String
  | [], _ => []
  | r :: rest, before => r.createdNames path before ++ createdNames path rest (r.siteAfter path before)

def siteAfter (path : FilePath) : List Run → Site → Site
  | [], before => before
  | r :: rest, before => siteAfter path rest (r.siteAfter path before)

theorem createdNames_eq (path : FilePath) (runs : List Run) (before : Site) :
    createdNames path runs before = (written path runs before).flatten.map (·.name) := by
  induction runs generalizing before with
  | nil => rfl
  | cons r rest ih => rw [createdNames, written, ih, Run.createdNames_eq, List.flatten_cons, List.map_append]

theorem keepsDirectories_siteAfter (path : FilePath) (runs : List Run) (before : Site) :
    before.tree.KeepsDirectories (siteAfter path runs before).tree := by
  induction runs generalizing before with
  | nil => exact fun _ held => held
  | cons r rest ih =>
      refine .trans ?_ (ih (r.siteAfter path before))
      rw [Run.tree_siteAfter]
      exact each_keepsDirectories rfl r.files (r.start before)

end SchemaMigration
