import SchemaMigration.Proofs.Files.Place
import SchemaMigration.Proofs.Scripts.Writing

namespace SchemaMigration

namespace ScriptDirectory
open Progress

variable {directory : ScriptDirectory} {place : List String}

def IsOutside (directory : FilePath) (place : List String) : Prop :=
  ∀ name, isScriptFile name → place ≠ directory.place ++ [name]

theorem IsOutside.place_ne {path : FilePath} (outside : IsOutside path place) {name : String} (script : isScriptFile name) :
    place ≠ (path.child name).place := by
  have ordinary : name ≠ ".." := by
    rintro rfl
    exact absurd script (by decide)
  rw [FilePath.place_child path ordinary]
  exact outside name script

def Progress.tree (s : Progress) : Tree := s.site.tree

variable {α : Type}

theorem keepsFileAt_onSite {x : Work Site α} (keeps : x.KeepsFileAt Site.tree place) :
    (onSite x).KeepsFileAt Progress.tree place := fun s => keeps s.site

theorem keepsFileAt_written [Device] {p : FilePath} {text : String} (elsewhere : place ≠ p.place) {n : Notice}
    {note : Progress → Progress} (same : ∀ s, (note s).tree = s.tree) :
    (do
      onSite (Site.writeText p text)
      onSite (Site.tell n)
      Work.change note
      return p : Work Progress FilePath).KeepsFileAt Progress.tree place := by
  apply (keepsFileAt_onSite (Site.keepsFileAt_writeText text elsewhere)).bind
  intro _
  apply (keepsFileAt_onSite (.of_sameTree fun _ => rfl)).bind
  intro _
  apply (@Work.KeepsFileAt.of_sameTree _ _ _ _ (Work.change note) same).bind
  exact fun _ => .pure p

theorem keepsFileAt_create [Device] (outside : IsOutside directory.path place) (slug text : String) :
    (directory.create slug text).KeepsFileAt Progress.tree place := by
  apply Work.KeepsFileAt.bind (.of_sameTree fun _ => rfl)
  intro number
  have checked : (Work.ofFaults (checkedName number slug) : Work Progress String).KeepsFileAt Progress.tree place := by
    apply Work.KeepsFileAt.of_sameTree
    intro s
    cases checkedName number slug <;> rfl
  apply checked.bind_of_ok
  intro name _ _ named
  have script : isScriptFile name := by
    have spelled := (Work.ofFaults_eq_ok_iff.mp named).1
    unfold checkedName at spelled
    split at spelled
    · rw [← Except.ok.inj spelled]
      exact isScriptFile_fileName number slug
    · cases spelled
  exact keepsFileAt_written (outside.place_ne script) fun _ => rfl

theorem keepsFileAt_overwrite [Device] (outside : IsOutside directory.path place) {name : String} (script : isScriptFile name)
    (text : String) : (overwrite (directory.path.child name) text).KeepsFileAt Progress.tree place :=
  keepsFileAt_written (outside.place_ne script) fun _ => rfl

theorem exists_of_findExisting {slug : String} {p : FilePath} {before after : Site}
    (done : directory.findExisting slug before = (.ok (some p), after)) :
    ∃ name, isScriptFile name ∧ p = directory.path.child name := by
  rcases findExisting_eq_ok_iff.mp done with ⟨found, -⟩
  cases listed : before.tree.names directory.path with
  | error fault =>
      rw [listed] at found
      cases found
  | ok names =>
      rw [listed] at found
      have named : directory.named? names slug = some p := Except.ok.inj found
      rw [named?, Option.map_eq_some_iff] at named
      rcases named with ⟨name, first, rfl⟩
      exact ⟨name, (List.mem_filter.mp (List.mem_of_find?_eq_some first)).2, rfl⟩

theorem keepsFileAt_findExisting (directory : ScriptDirectory) (slug : String) :
    (directory.findExisting slug).KeepsFileAt Site.tree place :=
  .of_onlyLooks (Work.OnlyLooks.bind (Site.ask_state _) fun _ => .pure _)

theorem keepsFileAt_write [Device] (outside : IsOutside directory.path place) (f : ScriptFile) :
    (directory.write f).KeepsFileAt Progress.tree place := by
  unfold write
  split
  case isTrue => exact .pure none
  apply (keepsFileAt_onSite fun site => .of_onlyMakes (keeps_ensure directory site)).bind
  intro _
  have wrapped : ∀ {x : Work Progress FilePath}, x.KeepsFileAt Progress.tree place →
      (some <$> x).KeepsFileAt Progress.tree place := fun keeps => keeps.bind fun _ => .pure _
  have created := wrapped (keepsFileAt_create outside (Slug.ofText f.slug) (f.content ++ "\n"))
  dsimp only
  split
  case isTrue =>
    apply (keepsFileAt_onSite (keepsFileAt_findExisting directory _)).bind_of_ok
    intro found _ _ asked
    cases found with
    | none => exact created
    | some p =>
        rcases onSite_eq_ok_iff.mp asked with ⟨_, listed, -⟩
        rcases exists_of_findExisting listed with ⟨name, script, rfl⟩
        exact wrapped (keepsFileAt_overwrite outside script _)
  case isFalse =>
    apply (Work.KeepsFileAt.pure none).bind_of_ok
    intro found _ _ chosen
    cases chosen
    exact created

theorem keepsFileAt_writeAll [Device] (outside : IsOutside directory.path place) (files : List ScriptFile) :
    (directory.writeAll files).KeepsFileAt Progress.tree place := by
  apply (Work.KeepsFileAt.each (keepsFileAt_write outside) files).bind
  intro _
  apply Work.KeepsFileAt.bind (.of_sameTree fun _ => rfl)
  intro s
  apply (keepsFileAt_onSite (.of_sameTree fun _ => rfl)).bind
  exact fun _ => .pure _

end ScriptDirectory

end SchemaMigration
