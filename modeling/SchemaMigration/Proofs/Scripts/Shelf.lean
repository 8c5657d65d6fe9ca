import SchemaMigration.ScriptDirectory
import Mathlib.Data.List.Basic
import Mathlib.Data.List.Nodup

namespace SchemaMigration

namespace MigrationFile

def key (f : MigrationFile) : String := Slug.ofText f.slug

/-- Puts a file in the place of the one with its key, or at the end. -/
def putInto (f : MigrationFile) : List MigrationFile → List MigrationFile
  | [] => [f]
  | g :: rest => if g.key = f.key then f :: rest else g :: putInto f rest

def settleOn (kept : List MigrationFile) (files : List MigrationFile) : List MigrationFile :=
  files.foldl (fun kept f => f.putInto kept) kept

def settle (files : List MigrationFile) : List MigrationFile := settleOn [] files

def Rewritten (files : List MigrationFile) (key : String) : Prop := 1 < files.countP fun f => f.key == key

instance (files : List MigrationFile) (key : String) : Decidable (Rewritten files key) :=
  inferInstanceAs (Decidable (_ < _))

variable {f g : MigrationFile} {kept files : List MigrationFile}

theorem map_key_putInto (f : MigrationFile) (kept : List MigrationFile) :
    (f.putInto kept).map key = if f.key ∈ kept.map key then kept.map key else kept.map key ++ [f.key] := by
  induction kept with
  | nil => rfl
  | cons g rest ih =>
      rw [putInto]
      by_cases same : g.key = f.key
      · simp [same]
      · rw [if_neg same, List.map_cons, List.map_cons, ih]
        by_cases later : f.key ∈ rest.map key
        · rw [if_pos later, if_pos (List.mem_cons_of_mem _ later)]
        · rw [if_neg later, if_neg (by simpa [Ne.symm same] using later), List.cons_append]

theorem mem_of_mem_putInto (member : g ∈ f.putInto kept) : g = f ∨ g ∈ kept := by
  induction kept with
  | nil => exact .inl (List.mem_singleton.mp member)
  | cons h rest ih =>
      rw [putInto] at member
      split at member
      · exact (List.mem_cons.mp member).imp_right (List.mem_cons_of_mem h)
      · rcases List.mem_cons.mp member with rfl | inRest
        · exact .inr List.mem_cons_self
        · exact (ih inRest).imp_right (List.mem_cons_of_mem h)

theorem putInto_split (f g : MigrationFile) (other : g.key ≠ f.key) (before after : List MigrationFile) :
    ∃ before' after', f.putInto (before ++ g :: after) = before' ++ g :: after' ∧
      (before'.map key = before.map key) := by
  induction before with
  | nil => exact ⟨[], f.putInto after, by rw [List.nil_append, putInto, if_neg other, List.nil_append], rfl⟩
  | cons h rest ih =>
      rw [List.cons_append, putInto]
      split
      case isTrue same => exact ⟨f :: rest, after, rfl, by rw [List.map_cons, List.map_cons, same]⟩
      case isFalse =>
        rcases ih with ⟨before', after', put, keys⟩
        exact ⟨h :: before', after', by rw [put, List.cons_append], by rw [List.map_cons, List.map_cons, keys]⟩

theorem settleOn_cons (kept : List MigrationFile) (f : MigrationFile) (files : List MigrationFile) :
    settleOn kept (f :: files) = settleOn (f.putInto kept) files := rfl

theorem settleOn_append (kept first second : List MigrationFile) :
    settleOn kept (first ++ second) = settleOn (settleOn kept first) second := List.foldl_append

theorem mem_map_key_settleOn (kept files : List MigrationFile) (k : String) :
    k ∈ (settleOn kept files).map key ↔ k ∈ kept.map key ∨ k ∈ files.map key := by
  induction files generalizing kept with
  | nil => simp [settleOn]
  | cons f rest ih =>
      rw [settleOn_cons, ih, map_key_putInto, List.map_cons, List.mem_cons]
      split
      case isTrue there =>
        have : k = f.key → k ∈ kept.map key := fun same => same ▸ there
        tauto
      case isFalse =>
        rw [List.mem_append, List.mem_singleton]
        tauto

theorem nodup_settleOn (distinct : (kept.map key).Nodup) (files : List MigrationFile) :
    ((settleOn kept files).map key).Nodup := by
  induction files generalizing kept with
  | nil => exact distinct
  | cons f rest ih =>
      rw [settleOn_cons]
      apply ih
      rw [map_key_putInto]
      split
      case isTrue => exact distinct
      case isFalse absent => exact List.nodup_append.mpr ⟨distinct, List.nodup_singleton _, by
        rintro a inKept b only rfl
        exact absent (List.mem_singleton.mp only ▸ inKept)⟩

theorem mem_of_mem_settleOn (member : g ∈ settleOn kept files) : g ∈ kept ∨ g ∈ files := by
  induction files generalizing kept with
  | nil => exact .inl member
  | cons f rest ih =>
      rcases ih member with put | inRest
      · rcases mem_of_mem_putInto put with rfl | old
        · exact .inr List.mem_cons_self
        · exact .inl old
      · exact .inr (List.mem_cons_of_mem f inRest)

theorem settleOn_split (before after : List MigrationFile) (others : g.key ∉ files.map key) :
    ∃ before' after', settleOn (before ++ g :: after) files = before' ++ g :: after' ∧
      before'.map key = before.map key := by
  induction files generalizing before after with
  | nil => exact ⟨before, after, rfl, rfl⟩
  | cons f rest ih =>
      rw [List.map_cons, List.mem_cons, not_or] at others
      rcases putInto_split f g others.1 before after with ⟨before', after', put, keys⟩
      rcases ih before' after' others.2 with ⟨last, behind, settled, same⟩
      exact ⟨last, behind, by rw [settleOn_cons, put, settled], same.trans keys⟩

theorem putInto_of_not_mem (absent : f.key ∉ kept.map key) : f.putInto kept = kept ++ [f] := by
  induction kept with
  | nil => rfl
  | cons g rest ih =>
      rw [List.map_cons, List.mem_cons, not_or] at absent
      rw [putInto, if_neg (Ne.symm absent.1), ih absent.2, List.cons_append]

theorem not_mem_of_not_rewritten {before after : List MigrationFile}
    (once : ¬ Rewritten (before ++ g :: after) g.key) : g.key ∉ before.map key ∧ g.key ∉ after.map key := by
  rw [Rewritten, List.countP_append, List.countP_cons_of_pos (by simp)] at once
  constructor <;> intro member <;> rcases List.mem_map.mp member with ⟨h, inside, same⟩
  · have counted : 0 < before.countP fun f => f.key == g.key := List.countP_pos_iff.mpr ⟨h, inside, by simpa using same⟩
    omega
  · have counted : 0 < after.countP fun f => f.key == g.key := List.countP_pos_iff.mpr ⟨h, inside, by simpa using same⟩
    omega

/-- The only file with its key comes behind what the files before it have left. -/
theorem settle_split {before after : List MigrationFile} (once : ¬ Rewritten (before ++ g :: after) g.key) :
    ∃ first last, settle (before ++ g :: after) = first ++ g :: last ∧
      ∀ k, k ∈ first.map key ↔ k ∈ before.map key := by
  rcases not_mem_of_not_rewritten once with ⟨new, gone⟩
  have fresh : g.key ∉ (settle before).map key := by
    rw [settle, mem_map_key_settleOn]
    simpa using new
  rcases settleOn_split (settle before) [] gone with ⟨first, last, settled, keys⟩
  refine ⟨first, last, ?_, fun k => ?_⟩
  · rw [settle, settleOn_append, settleOn_cons, ← settle, putInto_of_not_mem fresh, settled]
  · rw [keys, settle, mem_map_key_settleOn]
    simp

end MigrationFile
structure Placed where
  number : Int
  file : MigrationFile
  deriving DecidableEq

namespace Placed
open MigrationFile

def name (p : Placed) : String := ScriptDirectory.fileName p.number p.file.key

def text (d : Dialect) (p : Placed) : String := (p.file.script d).content ++ "\n"

/-- Puts a file in the place of the one with its key, whose number it keeps, or at the end under a new number. -/
def shelve (number : Int) (f : MigrationFile) : List Placed → List Placed
  | [] => [⟨number, f⟩]
  | p :: rest => if p.file.key = f.key then ⟨p.number, f⟩ :: rest else p :: shelve number f rest

/-- A run of files from a number on: a number is only spent on a new key, and an empty file is passed over. -/
def shelveAll : Int → List MigrationFile → List Placed → List Placed
  | _, [], shelf => shelf
  | number, f :: rest, shelf =>
    if f.statements.isEmpty then shelveAll number rest shelf
    else shelveAll (if f.key ∈ shelf.map (·.file.key) then number else number + 1) rest (shelve number f shelf)

variable {number : Int} {f : MigrationFile} {shelf : List Placed}

theorem map_file_shelve (number : Int) (f : MigrationFile) (shelf : List Placed) :
    (shelve number f shelf).map (·.file) = f.putInto (shelf.map (·.file)) := by
  induction shelf with
  | nil => rfl
  | cons p rest ih =>
      rw [shelve, List.map_cons, putInto]
      split
      · rfl
      · rw [List.map_cons, ih]

theorem map_file_shelveAll (number : Int) (files : List MigrationFile) (shelf : List Placed) :
    (shelveAll number files shelf).map (·.file) =
      settleOn (shelf.map (·.file)) (files.filter fun f => !f.statements.isEmpty) := by
  induction files generalizing number shelf with
  | nil => rfl
  | cons f rest ih =>
      rw [shelveAll]
      cases empty : f.statements.isEmpty with
      | true => rw [if_pos rfl, ih, List.filter_cons_of_neg (by simp [empty])]
      | false =>
          rw [if_neg Bool.false_ne_true, ih, List.filter_cons_of_pos (by simp [empty]), settleOn_cons, map_file_shelve]

/-- Either the key is new, or one file gives way, and no file before it has the key. -/
theorem shelve_cases (number : Int) (f : MigrationFile) (shelf : List Placed) :
    (f.key ∉ shelf.map (·.file.key) ∧ shelve number f shelf = shelf ++ [⟨number, f⟩]) ∨
      ∃ before p after, shelf = before ++ p :: after ∧ p.file.key = f.key ∧ f.key ∉ before.map (·.file.key) ∧
        shelve number f shelf = before ++ ⟨p.number, f⟩ :: after := by
  induction shelf with
  | nil => exact .inl ⟨List.not_mem_nil, rfl⟩
  | cons p rest ih =>
      rw [shelve]
      by_cases same : p.file.key = f.key
      · exact .inr ⟨[], p, rest, rfl, same, List.not_mem_nil, by rw [if_pos same]; rfl⟩
      · rw [if_neg same]
        rcases ih with ⟨new, put⟩ | ⟨before, q, after, rfl, key, first, put⟩
        · exact .inl ⟨by simpa [Ne.symm same] using new, by rw [put, List.cons_append]⟩
        · exact .inr ⟨p :: before, q, after, rfl, key, by simpa [Ne.symm same] using first, by rw [put, List.cons_append]⟩

theorem map_number_shelve (number : Int) (f : MigrationFile) (shelf : List Placed) :
    (shelve number f shelf).map (·.number) =
      if f.key ∈ shelf.map (·.file.key) then shelf.map (·.number) else shelf.map (·.number) ++ [number] := by
  rcases shelve_cases number f shelf with ⟨new, put⟩ | ⟨before, p, after, rfl, key, first, put⟩
  · rw [if_neg new, put, List.map_append, List.map_singleton]
  · rw [if_pos (by simp [key]), put]
    simp

theorem shelve_beyond (beyond : ∀ p ∈ shelf, p.number < number) :
    ∀ p ∈ shelve number f shelf, p.number < if f.key ∈ shelf.map (·.file.key) then number else number + 1 := by
  have numbers : ∀ n ∈ shelf.map (·.number), n < number := List.forall_mem_map.mpr beyond
  intro p member
  have inside : p.number ∈ (shelve number f shelf).map (·.number) := List.mem_map_of_mem member
  rw [map_number_shelve] at inside
  split at inside <;> rename_i known
  · rw [if_pos known]
    exact numbers _ inside
  · rw [if_neg known]
    rcases List.mem_append.mp inside with old | new
    · exact Int.lt_trans (numbers _ old) (Int.lt_succ number)
    · rw [List.mem_singleton.mp new]
      exact Int.lt_succ number

theorem numbers_kept (number : Int) (files : List MigrationFile) (shelf : List Placed) :
    shelf.map (·.number) <+: (shelveAll number files shelf).map (·.number) := by
  induction files generalizing number shelf with
  | nil => exact List.prefix_refl _
  | cons f rest ih =>
      rw [shelveAll]
      split
      · exact ih number shelf
      · refine List.IsPrefix.trans ?_ (ih _ _)
        rw [map_number_shelve]
        split
        · exact List.prefix_refl _
        · exact List.prefix_append _ _

theorem below_of_kept {later : List Placed} {limit : Int} (numbers : shelf.map (·.number) <+: later.map (·.number))
    (short : ∀ p ∈ later, p.number < limit) : ∀ p ∈ shelf, p.number < limit := by
  intro p member
  rcases List.mem_map.mp (numbers.subset (List.mem_map_of_mem member)) with ⟨q, inside, same⟩
  rw [← same]
  exact short q inside

end Placed
end SchemaMigration
