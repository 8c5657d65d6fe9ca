import SchemaMigration.CommandLine.Run
import SchemaMigration.Proofs.Files.Place
import SchemaMigration.Proofs.Scripts.FileName
import SchemaMigration.Proofs.Work

namespace SchemaMigration

structure Script where
  number : Int
  slug : String
  text : String
  deriving DecidableEq

namespace Script

def name (s : Script) : String := ScriptDirectory.fileName s.number s.slug

def ofFile (number : Int) (f : ScriptFile) : Script := ⟨number, Slug.ofText f.slug, f.content ++ "\n"⟩

theorem name_inj {a b : Script} : a.name = b.name ↔ a.number = b.number ∧ a.slug = b.slug :=
  ⟨ScriptDirectory.fileName_injective, fun same => by rw [name, name, same.1, same.2]⟩

theorem name_ne_dots (s : Script) : s.name ≠ ".." := by
  intro same
  have ends := ScriptDirectory.isScriptFile_fileName s.number s.slug
  rw [show ScriptDirectory.fileName s.number s.slug = ".." from same] at ends
  exact absurd ends (by decide)

end Script

namespace ScriptDirectory
open Progress

variable {directory : ScriptDirectory} {f : ScriptFile} {s s' : Progress}

theorem onSite_eq_ok_iff {α : Type} {x : Work Site α} {a : α} :
    onSite x s = (.ok a, s') ↔ ∃ site, x s.site = (.ok a, site) ∧ s' = { s with site } := by
  change ((x s.site).1, { s with site := (x s.site).2 }) = (.ok a, s') ↔ _
  rw [Prod.mk.injEq]
  constructor
  · rintro ⟨done, rfl⟩
    exact ⟨_, Prod.ext done rfl, rfl⟩
  · rintro ⟨site, done, rfl⟩
    rw [done]
    exact ⟨rfl, rfl⟩

theorem onSite_eq_error {α : Type} {x : Work Site α} {e : Failure} (failed : onSite x s = (.error e, s')) :
    ∃ site, x s.site = (.error e, site) ∧ s' = { s with site } := by
  rcases Prod.mk.inj failed with ⟨error, rfl⟩
  exact ⟨_, Prod.ext error rfl, rfl⟩

theorem checkedName_eq_ok_iff {number : Int} {slug name : String} :
    checkedName number slug = .ok name ↔ number.natAbs < Value.integerLimit ∧ name = fileName number slug := by
  unfold checkedName
  split
  case isTrue short =>
    rw [Except.ok.injEq, and_iff_right short]
    exact eq_comm
  case isFalse long => exact iff_of_false nofun fun given => long given.1

theorem checkedName_eq_error {number : Int} {slug : String} {fault : Fault} (failed : checkedName number slug = .error fault) :
    Value.integerLimit ≤ number.natAbs ∧ fault = .integerTooLong := by
  unfold checkedName at failed
  split at failed
  case isTrue => cases failed
  case isFalse long => exact ⟨Nat.le_of_not_lt long, (Except.error.inj failed).symm⟩

def named? (directory : ScriptDirectory) (names : List String) (slug : String) : Option FilePath :=
  ((names.filter isScriptFile).find? fun name => slugOf? name == some slug).map directory.path.child

def replaced? (directory : ScriptDirectory) (t : Tree) (slug : String) : Except FileFault (Option FilePath) :=
  if directory.replaceExisting then (directory.named? · slug) <$> t.names directory.path else .ok none

theorem findExisting_eq_ok_iff {slug : String} {before after : Site} {found : Option FilePath} :
    directory.findExisting slug before = (.ok found, after) ↔
      (directory.named? · slug) <$> before.tree.names directory.path = .ok found ∧ after = before := by
  rw [findExisting, Work.bind_eq_ok_iff]
  constructor
  · rintro ⟨names, middle, asked, ⟨⟩⟩
    rcases Site.ask_eq_ok_iff.mp asked with ⟨answer, rfl⟩
    rw [answer]
    exact ⟨rfl, rfl⟩
  · rintro ⟨answer, rfl⟩
    cases listed : after.tree.names directory.path with
    | error fault =>
        rw [listed] at answer
        cases answer
    | ok names =>
        rw [listed] at answer
        cases answer
        exact ⟨names, after, Site.ask_eq_ok_iff.mpr ⟨listed, rfl⟩, rfl⟩

section
variable [Device]

theorem keeps_ensure (directory : ScriptDirectory) :
    directory.ensure.Keeps fun before after => before.tree.OnlyMakes after.tree := by
  refine Work.Keeps.bind .trans (fun site => ?_) (fun there => ?_)
  · have same := Site.ask_state (·.exists? directory.path) site
    rw [same]
    exact .refl _
  · split
    · exact fun site => .refl _
    · exact Work.Keeps.bind .trans (Site.onlyMakes_ensureDirectories directory.path) fun _ site => .refl _

theorem ensure_there {site : Site} (there : site.tree.exists? directory.path = .ok true) :
    directory.ensure site = (.ok (), site) := by
  rw [ensure, Work.bind_of_ok (Site.ask_eq_ok _ there)]
  rfl

theorem create_eq_ok {slug text : String} {p : FilePath} (done : directory.create slug text s = (.ok p, s')) :
    p = directory.path.child (fileName s.number slug) ∧ Device.writing s.site.told.length s.site.tree p = none ∧
      s.site.tree.write p text.toUTF8 = .ok s'.site.tree ∧ s'.number = s.number + 1 ∧ s'.created = s.created ++ [p] := by
  rcases Work.bind_eq_ok_iff.mp done with ⟨number, s₁, ⟨⟩, done⟩
  rcases Work.bind_eq_ok_iff.mp done with ⟨name, s₂, checked, done⟩
  rcases Work.ofFaults_eq_ok_iff.mp checked with ⟨named, rfl⟩
  rcases checkedName_eq_ok_iff.mp named with ⟨-, rfl⟩
  rcases Work.bind_eq_ok_iff.mp done with ⟨⟨⟩, s₃, wrote, done⟩
  rcases Work.bind_eq_ok_iff.mp done with ⟨⟨⟩, s₄, told, done⟩
  rcases Work.bind_eq_ok_iff.mp done with ⟨⟨⟩, s₅, ⟨⟩, ⟨⟩⟩
  rcases onSite_eq_ok_iff.mp wrote with ⟨site, altered, rfl⟩
  rcases onSite_eq_ok_iff.mp told with ⟨told, ⟨⟩, rfl⟩
  rcases Site.writeText_eq_ok_iff.mp altered with ⟨fine, tree, written, rfl⟩
  exact ⟨rfl, fine, written, rfl, rfl⟩

/-- The number is spent: it is too long, or the file under the next name cannot be written. -/
theorem create_eq_error {slug text : String} {e : Failure} (failed : directory.create slug text s = (.error e, s')) :
    s'.created = s.created ∧ s'.number = s.number + 1 ∧
      (e = .fault .integerTooLong ∧ Value.integerLimit ≤ s.number.natAbs ∧ s'.site.tree = s.site.tree ∨
        ∃ fault, e = .file fault ∧
          Site.WriteFails (directory.path.child (fileName s.number slug)) text s.site fault s'.site.tree) := by
  rcases Work.bind_eq_error failed with ⟨⟨⟩⟩ | ⟨number, s₁, ⟨⟩, failed⟩
  rcases Work.bind_eq_error failed with unnamed | ⟨name, s₂, checked, failed⟩
  · cases named : checkedName s.number slug with
    | ok name =>
        rw [named] at unnamed
        cases unnamed
    | error fault =>
        rw [named] at unnamed
        rcases checkedName_eq_error named with ⟨long, rfl⟩
        cases unnamed
        exact ⟨rfl, rfl, .inl ⟨rfl, long, rfl⟩⟩
  rcases Work.ofFaults_eq_ok_iff.mp checked with ⟨named, rfl⟩
  rcases checkedName_eq_ok_iff.mp named with ⟨-, rfl⟩
  rcases Work.bind_eq_error failed with unwritten | ⟨⟨⟩, s₃, -, failed⟩
  · rcases onSite_eq_error unwritten with ⟨site, stopped, rfl⟩
    rcases Site.writeText_eq_error stopped with ⟨fault, rfl, -, fails⟩
    exact ⟨rfl, rfl, .inr ⟨fault, rfl, fails⟩⟩
  rcases Work.bind_eq_error failed with ⟨⟨⟩⟩ | ⟨⟨⟩, s₄, -, failed⟩
  rcases Work.bind_eq_error failed with ⟨⟨⟩⟩ | ⟨⟨⟩, s₅, -, ⟨⟩⟩

theorem overwrite_eq_ok {p q : FilePath} {text : String} (done : overwrite p text s = (.ok q, s')) :
    q = p ∧ Device.writing s.site.told.length s.site.tree p = none ∧ s.site.tree.write p text.toUTF8 = .ok s'.site.tree ∧
      s'.number = s.number ∧ s'.created = s.created := by
  rcases Work.bind_eq_ok_iff.mp done with ⟨⟨⟩, s₁, wrote, done⟩
  rcases Work.bind_eq_ok_iff.mp done with ⟨⟨⟩, s₂, told, done⟩
  rcases Work.bind_eq_ok_iff.mp done with ⟨⟨⟩, s₃, ⟨⟩, ⟨⟩⟩
  rcases onSite_eq_ok_iff.mp wrote with ⟨site, altered, rfl⟩
  rcases onSite_eq_ok_iff.mp told with ⟨told, ⟨⟩, rfl⟩
  rcases Site.writeText_eq_ok_iff.mp altered with ⟨fine, tree, written, rfl⟩
  exact ⟨rfl, fine, written, rfl, rfl⟩

theorem overwrite_eq_error {p : FilePath} {text : String} {e : Failure} (failed : overwrite p text s = (.error e, s')) :
    s'.created = s.created ∧ s'.number = s.number ∧
      ∃ fault, e = .file fault ∧ Site.WriteFails p text s.site fault s'.site.tree := by
  rcases Work.bind_eq_error failed with unwritten | ⟨⟨⟩, s₁, -, failed⟩
  · rcases onSite_eq_error unwritten with ⟨site, stopped, rfl⟩
    rcases Site.writeText_eq_error stopped with ⟨fault, rfl, -, fails⟩
    exact ⟨rfl, rfl, fault, rfl, fails⟩
  rcases Work.bind_eq_error failed with ⟨⟨⟩⟩ | ⟨⟨⟩, s₂, -, failed⟩
  rcases Work.bind_eq_error failed with ⟨⟨⟩⟩ | ⟨⟨⟩, s₃, -, ⟨⟩⟩

theorem write_nothing (directory : ScriptDirectory) (nothing : f.statements = []) (s : Progress) :
    directory.write f s = (.ok none, s) := by
  rw [write, nothing]
  rfl

/-- A file that was written: in the place of one with its slug, or under the next number. -/
theorem write_eq_ok {r : Option FilePath} (nonempty : f.statements ≠ [])
    (done : directory.write f s = (.ok r, s')) :
    ∃ (made : Site) (p : FilePath) (found : Option FilePath), s.site.tree.OnlyMakes made.tree ∧
      (s.site.tree.exists? directory.path = .ok true → made = s.site) ∧ r = some p ∧
      Device.writing made.told.length made.tree p = none ∧
      made.tree.write p (Script.ofFile s.number f).text.toUTF8 = .ok s'.site.tree ∧
      directory.replaced? made.tree (Slug.ofText f.slug) = .ok found ∧
      match found with
      | some q => p = q ∧ s'.number = s.number ∧ s'.created = s.created
      | none => p = directory.path.child (Script.ofFile s.number f).name ∧ s'.number = s.number + 1 ∧
          s'.created = s.created ++ [p] := by
  rw [write, if_neg (by simpa using nonempty)] at done
  rcases Work.bind_eq_ok_iff.mp done with ⟨⟨⟩, s₁, ensured, done⟩
  rcases onSite_eq_ok_iff.mp ensured with ⟨site, made, rfl⟩
  have makes := keeps_ensure directory s.site
  rw [made] at makes
  have still : s.site.tree.exists? directory.path = .ok true → site = s.site := by
    intro there
    rw [ensure_there there] at made
    cases made
    rfl
  have chosen : ∃ found, directory.replaced? site.tree (Slug.ofText f.slug) = .ok found ∧
      (match found with
        | some p => some <$> overwrite p (f.content ++ "\n")
        | none => some <$> directory.create (Slug.ofText f.slug) (f.content ++ "\n")) { s with site } = (.ok r, s') := by
    unfold replaced?
    split at done
    case isTrue replace =>
      rw [if_pos replace]
      rcases Work.bind_eq_ok_iff.mp done with ⟨found, s₂, asked, done⟩
      rcases onSite_eq_ok_iff.mp asked with ⟨same, listed, rfl⟩
      rcases findExisting_eq_ok_iff.mp listed with ⟨answer, rfl⟩
      exact ⟨found, answer, done⟩
    case isFalse anew =>
      rw [if_neg anew]
      rcases Work.bind_eq_ok_iff.mp done with ⟨found, s₂, ⟨⟩, done⟩
      exact ⟨none, rfl, done⟩
  rcases chosen with ⟨found, chosen, done⟩
  cases found with
  | some q =>
      rcases Work.bind_eq_ok_iff.mp done with ⟨p, s₃, wrote, ⟨⟩⟩
      rcases overwrite_eq_ok wrote with ⟨rfl, fine, written, number, created⟩
      exact ⟨site, p, some p, makes, still, rfl, fine, written, chosen, rfl, number, created⟩
  | none =>
      rcases Work.bind_eq_ok_iff.mp done with ⟨p, s₃, new, ⟨⟩⟩
      rcases create_eq_ok new with ⟨rfl, fine, written, number, created⟩
      exact ⟨site, _, none, makes, still, rfl, fine, written, chosen, rfl, number, created⟩

end

theorem write_eq_error {e : Failure} (anew : directory.replaceExisting = false)
    (failed : directory.write f s = (.error e, s')) :
    s.site.tree.OnlyMakes s'.site.tree ∧ s'.created = s.created := by
  unfold write at failed
  split at failed
  case isTrue => cases failed
  have makes := keeps_ensure directory s.site
  rcases Work.bind_eq_error failed with unmade | ⟨⟨⟩, s₁, ensured, failed⟩
  · rcases onSite_eq_error unmade with ⟨site, made, rfl⟩
    rw [made] at makes
    exact ⟨makes, rfl⟩
  rcases onSite_eq_ok_iff.mp ensured with ⟨site, made, rfl⟩
  rw [made] at makes
  rw [anew] at failed
  rcases Work.bind_eq_error failed with ⟨⟨⟩⟩ | ⟨found, s₂, ⟨⟩, failed⟩
  rcases Work.bind_eq_error failed with unwritten | ⟨p, s₃, -, ⟨⟩⟩
  rcases create_eq_error unwritten with ⟨created, -, ⟨-, -, tree⟩ | ⟨fault, -, fails⟩⟩
  · rw [tree]
    exact ⟨makes, created⟩
  · rw [fails.of_sound.2]
    exact ⟨makes, created⟩

end ScriptDirectory
end SchemaMigration
