import SchemaMigration.Proofs.Scripts.Runs
import SchemaMigration.Proofs.Text.Order

namespace SchemaMigration

namespace Numeral

theorem length_digits_mono {m n : Nat} (less : m ≤ n) : (digits m).length ≤ (digits n).length :=
  (length_digits_le_iff (length_digits_pos n)).mpr (Nat.lt_of_le_of_lt less (lt_pow_length_digits n))

theorem precedes_next_iff (m : Nat) : Precedes m (m + 1) ↔ (digits m).length = (digits (m + 1)).length := by
  have mono := length_digits_mono (Nat.le_add_right m 1)
  constructor
  · intro precedes
    by_contra different
    exact not_precedes_next (by omega) precedes
  · intro same
    exact (precedes_iff_lt same).mpr (Nat.lt_add_one m)

end Numeral

namespace Script
open Numeral

def digitCount (s : Script) : Nat := (digits s.number.toNat).length

/-- In the order of names, for numbers that are not negative. -/
def Before (a b : Script) : Prop :=
  Precedes a.number.toNat b.number.toNat ∨ a.number = b.number ∧ a.slug ++ ".sql" ≤ b.slug ++ ".sql"

instance (a b : Script) : Decidable (a.Before b) := inferInstanceAs (Decidable (_ ∨ _))

variable {a b : Script}

theorem name_le_iff (positive : 0 ≤ a.number) (positive' : 0 ≤ b.number) : a.name ≤ b.name ↔ a.Before b := by
  have first := Int.toNat_of_nonneg positive
  have second := Int.toNat_of_nonneg positive'
  have names := ScriptDirectory.fileName_le_iff a.number.toNat b.number.toNat a.slug b.slug
  have numbers : a.number.toNat = b.number.toNat ↔ a.number = b.number := by omega
  rw [first, second, numbers] at names
  exact names

theorem name_lt_of_number_lt (positive : 0 ≤ a.number) (same : a.digitCount = b.digitCount) (less : a.number < b.number) :
    a.name < b.name := by
  have first := Int.toNat_of_nonneg positive
  have second := Int.toNat_of_nonneg (positive.trans less.le)
  have names := ScriptDirectory.fileName_lt_iff a.number.toNat b.number.toNat a.slug b.slug
  rw [first, second] at names
  exact names.mpr (.inl ((precedes_iff_lt same).mpr (by omega)))

theorem name_le_next_iff (positive : 0 ≤ a.number) (next : b.number = a.number + 1) :
    a.name ≤ b.name ↔ a.digitCount = b.digitCount := by
  have successor : b.number.toNat = a.number.toNat + 1 := by omega
  rw [name_le_iff positive (by omega), Before, digitCount, digitCount, successor, ← precedes_next_iff]
  exact or_iff_left (by omega)

end Script

def Counting (scripts : List Script) : Prop := scripts.IsChain fun a b => b.number = a.number + 1

theorem Counting.number_lt {a b : Script} {rest : List Script} (counting : Counting (a :: rest)) (member : b ∈ rest) :
    a.number < b.number := by
  induction rest generalizing a with
  | nil => cases member
  | cons c rest ih =>
      rcases List.isChain_cons_cons.mp counting with ⟨next, others⟩
      rcases List.mem_cons.mp member with rfl | inRest
      · omega
      · have := ih others inRest
        omega

theorem Counting.digitCount_eq {a b : Script} {rest : List Script} (counting : Counting (a :: rest))
    (positive : ∀ c ∈ a :: rest, 0 ≤ c.number) (ordered : (a :: rest).Pairwise fun b c => b.name ≤ c.name)
    (member : b ∈ rest) : a.digitCount = b.digitCount := by
  induction rest generalizing a with
  | nil => cases member
  | cons c rest ih =>
      rcases List.isChain_cons_cons.mp counting with ⟨next, others⟩
      rcases List.pairwise_cons.mp ordered with ⟨first, later⟩
      rcases List.forall_mem_cons.mp positive with ⟨start, further⟩
      have step : a.digitCount = c.digitCount := (Script.name_le_next_iff start next).mp (first c List.mem_cons_self)
      rcases List.mem_cons.mp member with rfl | inRest
      · exact step
      · exact step.trans (ih others further later inRest)

/-- A counting row of scripts is in the order of names exactly if all its numbers have the same length. -/
theorem Counting.ordered_iff {scripts : List Script} (counting : Counting scripts)
    (positive : ∀ a ∈ scripts, 0 ≤ a.number) :
    (scripts.Pairwise fun a b => a.name ≤ b.name) ↔
      ∀ a ∈ scripts, ∀ b ∈ scripts, a.digitCount = b.digitCount := by
  constructor
  · intro ordered
    cases scripts with
    | nil => simp
    | cons first rest =>
        have same : ∀ a ∈ first :: rest, first.digitCount = a.digitCount := by
          intro a member
          rcases List.mem_cons.mp member with rfl | inRest
          · rfl
          · exact counting.digitCount_eq positive ordered inRest
        exact fun a member b member' => (same a member).symm.trans (same b member')
  · intro same
    induction scripts with
    | nil => exact .nil
    | cons a rest ih =>
        have others := ih counting.tail (fun b member => positive b (List.mem_cons_of_mem a member))
          fun b member c member' => same b (List.mem_cons_of_mem a member) c (List.mem_cons_of_mem a member')
        refine List.pairwise_cons.mpr ⟨fun b member => ?_, others⟩
        exact String.not_lt.mp (String.lt_asymm (Script.name_lt_of_number_lt (positive a List.mem_cons_self)
          (same a List.mem_cons_self b (List.mem_cons_of_mem a member)) (counting.number_lt member)))

namespace ScriptDirectory

theorem counting_numbered (number : Int) (files : List ScriptFile) :
    Counting (numbered number files) ∧ ∀ a ∈ (numbered number files).head?, a.number = number := by
  induction files generalizing number with
  | nil => exact ⟨.nil, by simp [numbered]⟩
  | cons f rest ih =>
      rw [numbered]
      split
      · exact ih number
      · rcases ih (number + 1) with ⟨others, first⟩
        exact ⟨List.isChain_cons.mpr ⟨first, others⟩, by simp [Script.ofFile]⟩

theorem le_number_of_mem_numbered {number : Int} {files : List ScriptFile} {a : Script} (member : a ∈ numbered number files) :
    number ≤ a.number := by
  rcases counting_numbered number files with ⟨counting, first⟩
  cases scripts : numbered number files with
  | nil =>
      rw [scripts] at member
      cases member
  | cons b rest =>
      rw [scripts] at member counting first
      have start : b.number = number := first b rfl
      rcases List.mem_cons.mp member with rfl | inRest
      · omega
      · have := counting.number_lt inRest
        omega

end ScriptDirectory

theorem Run.counting_performed (path : FilePath) (r : Run) (before : Site) : Counting (r.performed path before) := by
  have whole := (ScriptDirectory.counting_numbered r.base r.files).1
  rcases r.performed_numbered path before with ⟨rest, same⟩
  rw [← same] at whole
  exact whole.left_of_append

theorem Run.base_le_of_mem_performed {path : FilePath} {r : Run} {before : Site} {a : Script}
    (member : a ∈ r.performed path before) : r.base ≤ a.number :=
  ScriptDirectory.le_number_of_mem_numbered
    ((r.performed_numbered path before).subset member)

theorem written_spec (path : FilePath) {runs : List Run} (before : Site) (positive : ∀ r ∈ runs, 0 ≤ r.base) :
    ∀ scripts ∈ written path runs before, Counting scripts ∧ ∀ a ∈ scripts, 0 ≤ a.number := by
  induction runs generalizing before with
  | nil => simp [written]
  | cons r rest ih =>
      rw [written, List.forall_mem_cons]
      refine ⟨⟨r.counting_performed path before, fun a member => ?_⟩,
        ih (r.siteAfter path before) fun other later => positive other (List.mem_cons_of_mem r later)⟩
      exact (positive r List.mem_cons_self).trans (Run.base_le_of_mem_performed member)

/--
The names of the files that runs create, in the order of writing, are in the order of texts exactly if the numbers of
each run all have the same length and every script of a run comes before every script of a later one: it has the
smaller number, both read as decimal fractions, or the same number and no greater slug.
-/
theorem creation_order_sorted_iff (path : FilePath) (runs : List Run) (before : Site) (positive : ∀ r ∈ runs, 0 ≤ r.base) :
    Text.sort (createdNames path runs before) = createdNames path runs before ↔
      (∀ scripts ∈ written path runs before, ∀ a ∈ scripts, ∀ b ∈ scripts, a.digitCount = b.digitCount) ∧
        (written path runs before).Pairwise fun earlier later => ∀ a ∈ earlier, ∀ b ∈ later, a.Before b := by
  have spec := written_spec path before positive
  rw [Text.sort_eq_self_iff, createdNames_eq, List.pairwise_map, List.pairwise_flatten]
  apply and_congr
  · exact forall₂_congr fun scripts member => (spec scripts member).1.ordered_iff (spec scripts member).2
  · apply List.Pairwise.iff_of_mem
    intro earlier later first second
    apply forall₄_congr
    intro a inEarlier b inLater
    exact Script.name_le_iff ((spec earlier first).2 a inEarlier) ((spec later second).2 b inLater)

def distantRuns : List Run :=
  [⟨100, [⟨"create-users-table", ["A;"]⟩, ⟨"create-posts-table", ["B;"]⟩]⟩, ⟨160, [⟨"alter-users-table", ["C;"]⟩]⟩]

theorem distantRuns_in_order : (∀ r ∈ distantRuns, 0 ≤ r.base) ∧
    Text.sort (createdNames (.ofString "sql") distantRuns {}) = createdNames (.ofString "sql") distantRuns {} ∧
    createdNames (.ofString "sql") distantRuns {} =
      ["100-create-users-table.sql", "101-create-posts-table.sql", "160-alter-users-table.sql"] := by
  have positive : ∀ r ∈ distantRuns, 0 ≤ r.base := by decide
  exact ⟨positive, (creation_order_sorted_iff (.ofString "sql") distantRuns {} positive).mpr (by decide +kernel),
    by decide +kernel⟩

def overlappingRuns : List Run :=
  [⟨100, [⟨"create-users-table", ["A;"]⟩, ⟨"create-posts-table", ["B;"]⟩, ⟨"alter-posts-user_id", ["C;"]⟩]⟩,
    ⟨101, [⟨"alter-users-table", ["D;"]⟩]⟩]

theorem users_altered_too_early : ¬ ∀ (path : FilePath) (runs : List Run) (before : Site),
    (∀ r ∈ runs, 0 ≤ r.base) → (runs.Pairwise fun r later => r.base < later.base) →
      Text.sort (createdNames path runs before) = createdNames path runs before := by
  intro claimed
  have sorted := claimed (.ofString "sql") overlappingRuns {} (by decide) (by decide)
  exact absurd sorted (by decide +kernel)

end SchemaMigration
