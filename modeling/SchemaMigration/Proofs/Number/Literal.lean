import SchemaMigration.Number.Decimal
import SchemaMigration.Proofs.Json.Number

namespace SchemaMigration

namespace Numeral

def IsRun (ds : List Char) : Prop := ds ≠ [] ∧ ∀ c ∈ ds, c.isDigit

/-- Digits with an optional fraction. -/
inductive IsDecimal : List Char → Prop
  | whole {ds : List Char} (run : IsRun ds) : IsDecimal ds
  | fraction {ds fs : List Char} (whole : IsRun ds) (fraction : IsRun fs) : IsDecimal (ds ++ '.' :: fs)

def signs : List (List Char) := [[], ['-'], ['+']]

/-- An optional sign, digits with an optional fraction, and an optional exponent. -/
inductive IsLiteral : List Char → Prop
  | positional {sign s : List Char} (signed : sign ∈ signs) (decimal : IsDecimal s) : IsLiteral (sign ++ s)
  | scientific {sign s below ds : List Char} {e : Char} (signed : sign ∈ signs) (decimal : IsDecimal s)
      (mark : e ∈ ['e', 'E']) (scaled : below ∈ signs) (exponent : IsRun ds) :
      IsLiteral (sign ++ s ++ e :: (below ++ ds))

section
variable {ds s sign : List Char} {c : Char} {n : Nat}

theorem isRun_digits (n : Nat) : IsRun (digits n) := ⟨digits_ne_nil n, fun _ => isDigit_of_mem_digits⟩

theorem isRun_padded (width n : Nat) : IsRun (padded width n) :=
  ⟨by simp [padded, digits_ne_nil], fun _ => isDigit_of_mem_padded⟩

theorem isRun_zero : IsRun ['0'] := ⟨List.cons_ne_nil _ _, by simp⟩

theorem IsRun.append_zeros (run : IsRun ds) (count : Nat) : IsRun (ds ++ List.replicate count '0') := by
  refine ⟨by simp [run.1], List.forall_mem_append.mpr ⟨run.2, fun c member => ?_⟩⟩
  exact Json.isDigit_of_mem_zeros member

theorem IsRun.zeros_append (run : IsRun ds) (count : Nat) : IsRun (List.replicate count '0' ++ ds) := by
  refine ⟨by simp [run.1], List.forall_mem_append.mpr ⟨fun c member => ?_, run.2⟩⟩
  exact Json.isDigit_of_mem_zeros member

theorem IsRun.take (run : IsRun ds) (positive : 0 < n) : IsRun (ds.take n) :=
  ⟨by simp [run.1, positive.ne'], fun c member => run.2 c (List.mem_of_mem_take member)⟩

theorem IsRun.drop (run : IsRun ds) (short : n < ds.length) : IsRun (ds.drop n) :=
  ⟨by simp [short], fun c member => run.2 c (List.mem_of_mem_drop member)⟩

theorem IsRun.pointed (run : IsRun ds) (pointAfter : Int) : IsDecimal (Decimal.pointed ds pointAfter) := by
  unfold Decimal.pointed
  simp only
  split
  · exact .fraction isRun_zero (run.zeros_append _)
  · split
    · exact .whole (run.append_zeros _)
    · exact .fraction (run.take (by omega)) (run.drop (by omega))

theorem IsRun.leading (run : IsRun ds) : IsDecimal (ds.take 1 ++ if ds.length ≤ 1 then [] else '.' :: ds.drop 1) := by
  split
  · rw [List.append_nil]
    exact .whole (run.take Nat.one_pos)
  · exact .fraction (run.take Nat.one_pos) (run.drop (by omega))

theorem IsDecimal.head (decimal : IsDecimal s) : ∃ c rest, s = c :: rest ∧ c.isDigit := by
  have first : ∀ {ds : List Char} (rest : List Char), IsRun ds → ∃ c rest', ds ++ rest = c :: rest' ∧ c.isDigit := by
    intro ds rest run
    rcases List.exists_cons_of_ne_nil run.1 with ⟨c, more, rfl⟩
    exact ⟨c, more ++ rest, rfl, run.2 c List.mem_cons_self⟩
  cases decimal with
  | whole run => simpa using first [] run
  | fraction run => exact first _ run

theorem IsLiteral.head (number : IsLiteral s) : ∃ sign ∈ signs, ∃ c rest, s = sign ++ c :: rest ∧ c.isDigit := by
  cases number with
  | positional signed decimal =>
      rcases decimal.head with ⟨c, rest, rfl, digit⟩
      exact ⟨_, signed, c, rest, rfl, digit⟩
  | scientific signed decimal =>
      rcases decimal.head with ⟨c, rest, rfl, digit⟩
      exact ⟨_, signed, c, _, by rw [List.append_assoc, List.cons_append], digit⟩

theorem not_isLiteral (letter : c.isDigit = false ∧ c ≠ '-' ∧ c ≠ '+') (negative : Bool) (rest : List Char) :
    ¬ IsLiteral (Decimal.signText negative ++ c :: rest) := by
  intro number
  rcases number.head with ⟨sign, signed, first, others, same, digit⟩
  have unsigned : first ≠ '-' := by
    intro minus
    subst minus
    exact absurd digit (by decide)
  simp only [signs, List.mem_cons, List.not_mem_nil, or_false] at signed
  rcases signed with rfl | rfl | rfl <;> cases negative <;> simp [Decimal.signText] at same <;> grind

end

theorem isLiteral_ofInt (n : Int) : IsLiteral (ofInt n) := by
  have signed : ∀ sign ∈ signs, ∀ n : Nat, IsLiteral (sign ++ digits n) :=
    fun sign signed n => .positional signed (.whole (isRun_digits n))
  cases n with
  | ofNat n => exact signed [] (by decide) n
  | negSucc n => exact signed ['-'] (by decide) (n + 1)

theorem mem_signs_below (e : Int) : [if e < 0 then '-' else '+'] ∈ signs := by
  split <;> decide

theorem mem_signs_signText (negative : Bool) : Decimal.signText negative ∈ signs := by
  cases negative <;> decide

end Numeral

namespace Double
open Numeral

theorem isLiteral_layout {ds sign : List Char} (signed : sign ∈ signs) (run : IsRun ds) (pointAfter : Int) :
    IsLiteral (sign ++ layout ds pointAfter) := by
  unfold layout
  simp only
  split
  · refine .positional signed ?_
    split
    · exact .fraction isRun_zero (run.zeros_append _)
    · split
      · exact .fraction (run.append_zeros _) isRun_zero
      · exact .fraction (run.take (by omega)) (run.drop (by omega))
  · rw [← List.append_assoc]
    exact .scientific signed run.leading (by decide) (mem_signs_below _) (isRun_padded 2 _)

theorem isLiteral_magnitudeText {sign : List Char} (signed : sign ∈ signs) (place : Nat) :
    IsLiteral (sign ++ magnitudeText place) := by
  unfold magnitudeText
  split
  · exact .positional signed (.fraction isRun_zero isRun_zero)
  · rename_i other
    have positive : 0 < place := by
      rw [beq_iff_eq] at other
      omega
    rcases Json.significant_dropZeros (shortest_pos positive) with ⟨zeros, digits⟩
    exact isLiteral_layout signed ⟨digits.nonempty, digits.numeral⟩ _

theorem isLiteral_text_iff (x : Double) : IsLiteral x.text ↔ ∃ negative place, x = .finite negative place := by
  cases x with
  | finite negative place =>
      exact iff_of_true (isLiteral_magnitudeText (mem_signs_signText negative) place) ⟨negative, place, rfl⟩
  | infinite negative =>
      refine iff_of_false ?_ (by simp)
      have named := not_isLiteral (c := 'i') (by decide) negative ['n', 'f']
      cases negative <;> exact named
  | nan => exact iff_of_false (not_isLiteral (c := 'n') (by decide) false ['a', 'n']) (by simp)

end Double

namespace Decimal
open Numeral

theorem isLiteral_finite (negative : Bool) (coefficient : Nat) (exponent : Int) :
    IsLiteral (Decimal.finite negative coefficient exponent).text := by
  unfold text
  simp only
  split
  · exact .positional (mem_signs_signText negative) ((isRun_digits coefficient).pointed _)
  · split
    · exact .positional (mem_signs_signText negative) (by simpa using (isRun_digits coefficient).pointed _)
    · rw [← List.append_assoc]
      exact .scientific (mem_signs_signText negative) ((isRun_digits coefficient).pointed _) (by decide)
        (mem_signs_below _) (isRun_digits _)

theorem isLiteral_text_iff (x : Decimal) :
    IsLiteral x.text ↔ ∃ negative coefficient exponent, x = .finite negative coefficient exponent := by
  cases x with
  | finite negative coefficient exponent =>
      exact iff_of_true (isLiteral_finite negative coefficient exponent) ⟨_, _, _, rfl⟩
  | infinite negative => exact iff_of_false (not_isLiteral (c := 'I') (by decide) negative _) (by simp)
  | nan negative signaling payload =>
      refine iff_of_false ?_ (by simp)
      rw [text, List.append_assoc, List.append_assoc]
      cases signaling with
      | false => exact not_isLiteral (c := 'N') (by decide) negative _
      | true => exact not_isLiteral (c := 's') (by decide) negative _

end Decimal
end SchemaMigration
