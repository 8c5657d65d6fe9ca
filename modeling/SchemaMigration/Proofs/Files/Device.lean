import SchemaMigration.Proofs.Files.Directory
import SchemaMigration.Proofs.Work
/-!
What comes of a write and of a move on a device that may fail. A write that fails may have emptied the file and begun to
fill it again; a move that fails has changed nothing.
-/
namespace SchemaMigration.Site
variable {p source target : FilePath} {text : String} {before after : Site} {e : Failure}

section
variable [Device]

/-- Why a write fails, and the tree that it leaves. -/
inductive WriteFails (p : FilePath) (text : String) (s : Site) : FileFault → Tree → Prop where
  | unwritable {fault : FileFault} (reason : s.tree.write p text.toUTF8 = .error fault) : WriteFails p text s fault s.tree
  | refused {fault : FileFault} (trouble : Device.writing s.told.length s.tree p = some (.refused fault)) :
      WriteFails p text s fault s.tree
  | brokenOff {count : Nat} {fault : FileFault} {tree : Tree}
      (trouble : Device.writing s.told.length s.tree p = some (.brokenOff count fault))
      (written : s.tree.write p (text.toUTF8.extract 0 count) = .ok tree) : WriteFails p text s fault tree

theorem writeText_eq_ok_iff : writeText p text before = (.ok (), after) ↔
    Device.writing before.told.length before.tree p = none ∧
      ∃ tree, before.tree.write p text.toUTF8 = .ok tree ∧ after = { before with tree } := by
  unfold writeText
  cases trouble : Device.writing before.told.length before.tree p with
  | none => exact alter_eq_ok_iff.trans (and_iff_right rfl).symm
  | some kind =>
      refine iff_of_false ?_ nofun
      cases kind with
      | refused fault =>
          intro done
          rcases alter_eq_ok_iff.mp done with ⟨tree, granted, -⟩
          cases (Device.grant_eq_ok_iff.mp granted).1
      | brokenOff count fault =>
          intro done
          rcases Work.bind_eq_ok_iff.mp done with ⟨⟨⟩, middle, -, ⟨⟩⟩

theorem writeText_eq_error (failed : writeText p text before = (.error e, after)) :
    ∃ fault, e = .file fault ∧ after.told = before.told ∧ WriteFails p text before fault after.tree := by
  unfold writeText at failed
  cases trouble : Device.writing before.told.length before.tree p with
  | none =>
      rw [trouble] at failed
      rcases alter_eq_error failed with ⟨rfl, fault, reason, rfl⟩
      exact ⟨fault, rfl, rfl, .unwritable reason⟩
  | some kind =>
      rw [trouble] at failed
      cases kind with
      | refused fault =>
          rcases alter_eq_error failed with ⟨rfl, reported, reason, rfl⟩
          rcases SchemaMigration.bind_eq_error_iff.mp reason with unwritable | ⟨tree, -, ⟨⟩⟩
          · exact ⟨reported, rfl, rfl, .unwritable unwritable⟩
          · exact ⟨fault, rfl, rfl, .refused trouble⟩
      | brokenOff count fault =>
          rcases Work.bind_eq_error failed with unopened | ⟨⟨⟩, middle, begun, ⟨⟩⟩
          · rcases alter_eq_error unopened with ⟨rfl, own, reason, rfl⟩
            exact ⟨own, rfl, rfl, .unwritable (Tree.write_eq_error_congr reason)⟩
          · rcases alter_eq_ok_iff.mp begun with ⟨tree, written, rfl⟩
            exact ⟨fault, rfl, rfl, .brokenOff trouble written⟩

theorem WriteFails.tree {fault : FileFault} {s : Site} {tree : Tree} (fails : WriteFails p text s fault tree) :
    tree = s.tree ∨ ∃ content, s.tree.write p content = .ok tree := by
  cases fails with
  | unwritable => exact .inl rfl
  | refused => exact .inl rfl
  | brokenOff _ written => exact .inr ⟨_, written⟩

/-- However a write ends, the tree is the one before it or has some content at the path. -/
theorem tree_writeText (p : FilePath) (text : String) (s : Site) :
    (writeText p text s).2.tree = s.tree ∨ ∃ content, s.tree.write p content = .ok (writeText p text s).2.tree := by
  cases done : writeText p text s with
  | mk result next =>
      cases result with
      | ok =>
          rcases writeText_eq_ok_iff.mp done with ⟨-, tree, written, rfl⟩
          exact .inr ⟨_, written⟩
      | error e =>
          rcases writeText_eq_error done with ⟨fault, -, -, fails⟩
          exact fails.tree

theorem move_eq_ok_iff : move source target before = (.ok (), after) ↔
    Device.moving before.tree source target = none ∧
      ∃ tree, before.tree.move source target = .ok tree ∧ after = { before with tree } := by
  rw [move, alter_eq_ok_iff, ← exists_and_left]
  exact exists_congr fun tree => by rw [Device.grant_eq_ok_iff, and_assoc]

theorem move_eq_error (failed : move source target before = (.error e, after)) : after = before :=
  (alter_eq_error failed).1

end

theorem WriteFails.of_sound {fault : FileFault} {s : Site} {tree : Tree} (fails : WriteFails p text s fault tree) :
    s.tree.write p text.toUTF8 = .error fault ∧ tree = s.tree := by
  cases fails with
  | unwritable reason => exact ⟨reason, rfl⟩
  | refused trouble => cases trouble
  | brokenOff trouble => cases trouble

end SchemaMigration.Site
