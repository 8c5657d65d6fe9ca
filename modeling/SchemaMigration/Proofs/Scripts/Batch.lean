import SchemaMigration.Proofs.Scripts.Order

namespace SchemaMigration

namespace ScriptDirectory

theorem nodup_names_numbered (number : Int) (files : List ScriptFile) : ((numbered number files).map Script.name).Nodup := by
  induction files generalizing number with
  | nil => exact .nil
  | cons f rest ih =>
      rw [numbered]
      split
      case isTrue => exact ih number
      case isFalse =>
        refine List.nodup_cons.mpr ⟨fun repeated => ?_, ih (number + 1)⟩
        rcases List.mem_map.mp repeated with ⟨a, member, same⟩
        have later := le_number_of_mem_numbered member
        have number : a.number = number := (Script.name_inj.mp same).1
        omega

variable {directory : ScriptDirectory} {files : List ScriptFile} {s last : Progress} {written : List (Option FilePath)}

theorem read_of_each_other (anew : directory.replaceExisting = false)
    (done : Work.each directory.write files s = (.ok written, last)) {name : String} {content : ByteArray}
    (ordinary : name ≠ "..") (other : ∀ a ∈ numbered s.number files, a.name ≠ name)
    (held : s.site.tree.read (directory.path.child name) = .ok content) :
    last.site.tree.read (directory.path.child name) = .ok content := by
  induction files generalizing s written with
  | nil =>
      cases done
      exact held
  | cons f rest ih =>
      rcases Work.bind_eq_ok_iff.mp done with ⟨result, next, first, done⟩
      rcases Work.bind_eq_ok_iff.mp done with ⟨results, after, others, ⟨⟩⟩
      rw [numbered] at other
      cases outcome anew f s with
      | nothing empty none =>
          rw [none] at first
          cases first
          rw [if_pos (by simpa using empty)] at other
          exact ih others other held
      | failed e next failed =>
          rw [failed] at first
          cases first
      | wrote nonempty next made wrote makes file number =>
          rw [wrote] at first
          cases first
          rw [if_neg (by simpa using nonempty), List.forall_mem_cons, ← number] at other
          have still := Tree.read_of_write_other (Script.name_ne_dots _) ordinary file (makes.read held) other.1.symm
          exact ih others other.2 still

theorem each_anew (anew : directory.replaceExisting = false)
    (done : Work.each directory.write files s = (.ok written, last)) :
    written.filterMap id = (numbered s.number files).map (fun a => directory.path.child a.name) ∧
      ∀ a ∈ numbered s.number files, last.site.tree.read (directory.path.child a.name) = .ok a.text.toUTF8 := by
  induction files generalizing s written with
  | nil =>
      cases done
      exact ⟨rfl, fun a member => by cases member⟩
  | cons f rest ih =>
      have distinct := nodup_names_numbered s.number (f :: rest)
      rcases Work.bind_eq_ok_iff.mp done with ⟨result, next, first, done⟩
      rcases Work.bind_eq_ok_iff.mp done with ⟨results, after, others, ⟨⟩⟩
      rw [numbered] at distinct ⊢
      cases outcome anew f s with
      | nothing empty none =>
          rw [none] at first
          cases first
          rw [if_pos (by simpa using empty)]
          have later := ih others
          exact later
      | failed e next failed =>
          rw [failed] at first
          cases first
      | wrote nonempty next made wrote makes file number =>
          rw [wrote] at first
          cases first
          rw [if_neg (by simpa using nonempty)] at distinct ⊢
          rw [← number] at distinct ⊢
          rcases ih others with ⟨paths, texts⟩
          refine ⟨congrArg (_ :: ·) paths, List.forall_mem_cons.mpr ⟨?_, texts⟩⟩
          -- no later file has the name of the first, which therefore still holds its text
          have absent := (List.nodup_cons.mp distinct).1
          exact read_of_each_other anew others (Script.name_ne_dots _)
            (fun a member same => absent (List.mem_map.mpr ⟨a, member, same⟩)) (Tree.read_of_write file)

theorem writeScripts_anew {path : FilePath} {now : Int} {before after : Site} {paths : List FilePath}
    (done : CommandLine.writeScripts (.plain path) now files before = (.ok paths, after)) :
    paths = (numbered now files).map (fun a => path.child a.name) ∧
      ∀ a ∈ numbered now files, after.tree.read (path.child a.name) = .ok a.text.toUTF8 := by
  have tree := (writeAll_state (.plain path) files ⟨before, now, [], []⟩).1
  have result : ((ScriptDirectory.plain path).writeAll files ⟨before, now, [], []⟩).1 = .ok paths := congrArg Prod.fst done
  have site : ((ScriptDirectory.plain path).writeAll files ⟨before, now, [], []⟩).2.site = after := congrArg Prod.snd done
  rcases Work.bind_eq_ok_iff.mp (Prod.ext result rfl) with ⟨written, last, all, listed⟩
  rcases Work.bind_eq_ok_iff.mp listed with ⟨state, _, ⟨⟩, told⟩
  rcases Work.bind_eq_ok_iff.mp told with ⟨⟨⟩, final, -, ⟨⟩⟩
  rw [site, all] at tree
  rw [tree]
  exact each_anew rfl all

end ScriptDirectory
end SchemaMigration
