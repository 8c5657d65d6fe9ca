import SchemaMigration.Text.Identifier
import Mathlib.Data.List.Basic
/-!
Names that consist of ASCII letters, digits and underscores alone. The check lets one line break after
such a name pass, and nothing else; names that are put together from safe ones are safe.
-/
namespace SchemaMigration.Identifier

def IsSafe (name : String) : Prop := wellFormed name.toList

instance (name : String) : Decidable (IsSafe name) := inferInstanceAs (Decidable (_ = true))

def OneLine (name : String) : Prop := '\n' ∉ name.toList

instance (name : String) : Decidable (OneLine name) := inferInstanceAs (Decidable (¬ _))

theorem isTail_of_isHead {c : Char} (head : isHead c) : isTail c := by
  simp only [isHead, isTail, Char.isAlphanum, Bool.or_eq_true] at head ⊢
  rcases head with letter | underscore
  · exact .inl (.inl letter)
  · exact .inr underscore

theorem wellFormed_iff (s : List Char) : wellFormed s ↔ (∃ c ∈ s.head?, isHead c) ∧ ∀ c ∈ s, isTail c := by
  cases s with
  | nil => simp [wellFormed]
  | cons c rest =>
      simp only [wellFormed, Bool.and_eq_true, List.all_eq_true, List.head?_cons, Option.mem_some_iff,
        exists_eq_left', List.forall_mem_cons]
      exact ⟨fun good => ⟨good.1, isTail_of_isHead good.1, good.2⟩, fun good => ⟨good.1, good.2.2⟩⟩

theorem wellFormed_append {first second : List Char} (good : wellFormed first) :
    wellFormed (first ++ second) ↔ ∀ c ∈ second, isTail c := by
  rw [wellFormed_iff] at good ⊢
  rcases good with ⟨⟨c, first, head⟩, tail⟩
  rw [List.head?_append, Option.mem_def.mp first]
  simp only [Option.some_or, Option.mem_some_iff, exists_eq_left', head, true_and, List.forall_mem_append]
  exact and_iff_right tail

theorem IsSafe.all_isTail {name : String} (safe : IsSafe name) : ∀ c ∈ name.toList, isTail c :=
  ((wellFormed_iff _).mp safe).2

theorem IsSafe.oneLine {name : String} (safe : IsSafe name) : OneLine name := by
  intro broken
  exact absurd (safe.all_isTail '\n' broken) (by decide)

theorem isSafe_append_iff {first : String} (safe : IsSafe first) (second : String) :
    IsSafe (first ++ second) ↔ ∀ c ∈ second.toList, isTail c := by
  rw [IsSafe, String.toList_append]
  exact wellFormed_append safe

theorem IsSafe.append {first second : String} (safe : IsSafe first) (tail : ∀ c ∈ second.toList, isTail c) :
    IsSafe (first ++ second) :=
  (isSafe_append_iff safe second).mpr tail

theorem IsSafe.append_ending {name ending : String} (safe : IsSafe name) (tail : ending.toList.all isTail) :
    IsSafe (name ++ ending) :=
  safe.append (List.all_eq_true.mp tail)

/-- The check lets through safe names and, at the end of one, a line break. -/
theorem accepts_iff {name : String} (oneLine : OneLine name) : accepts name ↔ IsSafe name := by
  have last : name.toList.getLast? ≠ some '\n' := fun broken => oneLine (List.mem_of_getLast? broken)
  rw [accepts, dropFinalNewline, if_neg (by simpa using last), IsSafe]

theorem isTail_or_newline_of_accepts {name : String} (accepted : accepts name) :
    ∀ c ∈ name.toList, isTail c ∨ c = '\n' := by
  intro c member
  rw [accepts, dropFinalNewline] at accepted
  split at accepted
  case isTrue broken =>
    have split := List.dropLast_append_getLast? '\n' (by simpa using broken)
    rw [← split, List.mem_append, List.mem_singleton] at member
    exact member.imp_left (((wellFormed_iff _).mp accepted).2 c)
  case isFalse => exact .inl (((wellFormed_iff _).mp accepted).2 c member)

theorem notMem_of_accepts {name : String} (accepted : accepts name) {c : Char} (strange : isTail c = false)
    (inLine : c ≠ '\n') : c ∉ name.toList := by
  intro inside
  rcases isTail_or_newline_of_accepts accepted c inside with tail | newline
  · rw [strange] at tail
    cases tail
  · exact inLine newline

theorem all_isTail_iff_oneLine {name : String} (accepted : accepts name) :
    (∀ c ∈ name.toList, isTail c) ↔ OneLine name := by
  constructor
  · intro tail broken
    exact absurd (tail '\n' broken) (by decide)
  · intro oneLine c member
    rcases isTail_or_newline_of_accepts accepted c member with tail | rfl
    · exact tail
    · exact absurd member oneLine

theorem isSafe_iff_oneLine {name : String} (accepted : accepts name) : IsSafe name ↔ OneLine name :=
  ⟨IsSafe.oneLine, fun oneLine => (accepts_iff oneLine).mp accepted⟩

theorem isUpper_iff (c : Char) : c.isUpper ↔ c.val ≥ 'A'.val ∧ c.val ≤ 'Z'.val := decide_eq_true_iff

theorem isLower_iff (c : Char) : c.isLower ↔ c.val ≥ 'a'.val ∧ c.val ≤ 'z'.val := by
  change (decide (c.val ≥ 'a'.val) && decide (c.val ≤ 'z'.val)) = true ↔ _
  rw [Bool.and_eq_true, decide_eq_true_eq, decide_eq_true_eq]

theorem isLower_toLower {c : Char} (capital : c.isUpper) : c.toLower.isLower := by
  have bounds := (isUpper_iff c).mp capital
  have small : c.toLower.val = c.val + 32 := by
    unfold Char.toLower
    rw [dif_pos bounds]
    rfl
  rw [isLower_iff, small, ge_iff_le, UInt32.le_iff_toNat_le, UInt32.le_iff_toNat_le, UInt32.toNat_add]
  rw [ge_iff_le, UInt32.le_iff_toNat_le, UInt32.le_iff_toNat_le] at bounds
  change 97 ≤ (c.val.toNat + 32) % 2 ^ 32 ∧ (c.val.toNat + 32) % 2 ^ 32 ≤ 122
  change 65 ≤ c.val.toNat ∧ c.val.toNat ≤ 90 at bounds
  omega

theorem toLower_eq_or_isLower (c : Char) : c.toLower = c ∨ c.toLower.isLower := by
  by_cases capital : c.isUpper
  · exact .inr (isLower_toLower capital)
  · left
    unfold Char.toLower
    exact dif_neg fun bounds => capital ((isUpper_iff c).mpr bounds)

theorem isHead_of_isLower {c : Char} (small : c.isLower) : isHead c := by
  change (c.isUpper || c.isLower || c == '_') = true
  rw [small, Bool.or_true, Bool.true_or]

theorem isHead_toLower {c : Char} (head : isHead c) : isHead c.toLower := by
  rcases toLower_eq_or_isLower c with same | small
  · rwa [same]
  · exact isHead_of_isLower small

theorem isTail_toLower {c : Char} (tail : isTail c) : isTail c.toLower := by
  rcases toLower_eq_or_isLower c with same | small
  · rwa [same]
  · exact isTail_of_isHead (isHead_of_isLower small)

theorem wellFormed_map_toLower {s : List Char} (good : wellFormed s) : wellFormed (s.map Char.toLower) := by
  rw [wellFormed_iff] at good ⊢
  rcases good with ⟨⟨c, first, head⟩, tail⟩
  constructor
  · exact ⟨c.toLower, by rw [List.head?_map, Option.mem_def.mp first]; rfl, isHead_toLower head⟩
  · rw [List.forall_mem_map]
    exact fun d member => isTail_toLower (tail d member)

/-- Letters, digits and underscores, at least one of them, and maybe line breaks. -/
def IsSpelled (name : String) : Prop := (∃ c ∈ name.toList, isTail c) ∧ ∀ c ∈ name.toList, isTail c ∨ c = '\n'

theorem isSpelled_of_accepts {name : String} (accepted : accepts name) : IsSpelled name := by
  refine ⟨?_, isTail_or_newline_of_accepts accepted⟩
  rw [accepts, wellFormed_iff] at accepted
  rcases accepted.1 with ⟨c, first, head⟩
  have inside := List.mem_of_mem_head? first
  refine ⟨c, ?_, isTail_of_isHead head⟩
  unfold dropFinalNewline at inside
  split at inside
  · exact List.dropLast_subset _ inside
  · exact inside

theorem IsSpelled.append_ending {name ending : String} (spelled : IsSpelled name) (tail : ending.toList.all isTail) :
    IsSpelled (name ++ ending) := by
  rw [IsSpelled, String.toList_append]
  rcases spelled with ⟨⟨c, inside, good⟩, all⟩
  refine ⟨⟨c, List.mem_append_left _ inside, good⟩, ?_⟩
  rw [List.forall_mem_append]
  exact ⟨all, fun c member => .inl (List.all_eq_true.mp tail c member)⟩

theorem IsSpelled.lower {name : String} (spelled : IsSpelled name) :
    IsSpelled (String.ofList (name.toList.map Char.toLower)) := by
  rcases spelled with ⟨⟨c, inside, good⟩, all⟩
  rw [IsSpelled, String.toList_ofList, List.forall_mem_map]
  refine ⟨⟨c.toLower, List.mem_map_of_mem inside, isTail_toLower good⟩, fun c member => ?_⟩
  rcases all c member with tail | rfl
  · exact .inl (isTail_toLower tail)
  · exact .inr rfl

end SchemaMigration.Identifier
