import SchemaMigration.Proofs.Number.Rounding

namespace SchemaMigration.Double

variable {place : Nat}

theorem ratio_snd_pos (place : Nat) : 0 < (ratio place).2 := by
  simp only [ratio, twoTo_eq]
  split
  · exact Nat.two_pow_pos _
  · exact Nat.one_pos

theorem ratio_fst_pos (positive : 0 < place) : 0 < (ratio place).1 := by
  have := mantissa_pos positive
  simp only [ratio, twoTo_eq]
  split
  · exact this
  · exact Nat.mul_pos this (Nat.two_pow_pos _)

theorem ratio_eq (place : Nat) : ((ratio place).1 / (ratio place).2 : ℚ) = value place := by
  unfold value
  simp only [ratio, twoTo_eq]
  split
  · rename_i negative
    rw [zpow_of_neg negative]
    push_cast
    rfl
  · rename_i nonnegative
    rw [zpow_of_nonneg nonnegative]
    push_cast
    exact div_one _

theorem leadingExponent_le {num den : Nat} (nonzero : 0 < num) (positive : 0 < den) :
    (10 : ℚ) ^ leadingExponent num den ≤ num / den := by
  have unit : ∀ e : Int, (0 : ℚ) < 10 ^ e := fun e => by positivity
  have parts : (0 : ℚ) < den := by exact_mod_cast positive
  unfold leadingExponent
  simp only [beq_iff_eq, decimalFloor_eq, Nat.floor_eq_zero]
  split
  · have least : (10 : ℚ) ^ ((Numeral.digits num).length - 1) ≤ num := by
      exact_mod_cast Numeral.pow_length_digits_le nonzero
    have most : (den : ℚ) < 10 ^ (Numeral.digits den).length := by
      exact_mod_cast Numeral.lt_pow_length_digits den
    have long := Numeral.length_digits_pos num
    calc
      (10 : ℚ) ^ (((Numeral.digits num).length : Int) - (Numeral.digits den).length - 1) =
          10 ^ ((Numeral.digits num).length - 1) / 10 ^ (Numeral.digits den).length := by
        rw [sub_right_comm, zpow_sub₀ (by norm_num), ← Nat.cast_pred long, zpow_natCast, zpow_natCast]
      _ ≤ num / den := div_le_div₀ (Nat.cast_nonneg num) least parts most.le
  · rename_i whole
    exact (one_le_div (unit _)).mp (not_lt.mp whole)

theorem decimalFloor_bounds (num den : Nat) (f : Int) :
    (decimalFloor num den f * 10 ^ f : ℚ) ≤ num / den ∧
      (num / den : ℚ) < ((decimalFloor num den f + 1 : Nat) : ℚ) * 10 ^ f := by
  have unit : (0 : ℚ) < 10 ^ f := by positivity
  rw [decimalFloor_eq, ← le_div_iff₀ unit, ← div_lt_iff₀ unit]
  push_cast
  exact ⟨Nat.floor_le (by positivity), Nat.lt_floor_add_one _⟩

theorem readsBack_of_neighbour? {num den units : Nat} {f : Int} (found : neighbour? place num den f = some units) :
    readsBack place units f = true := by
  unfold neighbour? at found
  grind

/-- Between the midpoints around a number lies a multiple of any smaller power of ten. -/
theorem neighbour?_isSome (positive : 0 < place) {num den : Nat} {f : Int} (same : (num / den : ℚ) = value place)
    (fine : (10 : ℚ) ^ f < upper place - lower place) : (neighbour? place num den f).isSome := by
  have unit : (0 : ℚ) < 2 ^ exponent place := by positivity
  have inside : lower place < value place ∧ value place < upper place := by
    unfold lower upper value
    constructor
    · split <;> nlinarith
    · nlinarith
  have found : readsBack place (decimalFloor num den f) f = true ∨
      readsBack place (decimalFloor num den f + 1) f = true := by
    rcases decimalFloor_bounds num den f with ⟨least, most⟩
    rw [readsBack_iff positive, readsBack_iff positive]
    rw [same] at least most
    rcases lt_or_ge (lower place) (decimalFloor num den f * 10 ^ f) with above | below
    · exact .inl ⟨.inl above, .inl (least.trans_lt inside.2)⟩
    · refine .inr ⟨.inl (inside.1.trans most), .inl ?_⟩
      push_cast
      linarith
  unfold neighbour?
  grind

theorem fine_enough {f : Int} (sixteen : (10 : ℚ) ^ 16 * 10 ^ f ≤ value place) :
    (10 : ℚ) ^ f < upper place - lower place := by
  have unit : (0 : ℚ) < 2 ^ exponent place := by positivity
  unfold upper lower value at *
  cases boundary : isBoundary place with
  | true =>
      have power : (mantissa place : ℚ) = 2 ^ 52 := by exact_mod_cast (isBoundary_eq_true boundary).1
      rw [power] at sixteen ⊢
      rw [if_pos rfl]
      linarith
  | false =>
      have most : (mantissa place : ℚ) < 2 ^ 53 := by exact_mod_cast mantissa_lt place
      have := mul_lt_mul_of_pos_right most unit
      rw [if_neg Bool.false_ne_true]
      linarith

theorem shortestFrom_reads {num den : Nat} {top : Int} (finest : (neighbour? place num den (top - 16)).isSome) :
    ∀ (more count : Nat), more + count = 17 → 0 < more →
      readsBack place (shortestFrom place num den top more count).1 (shortestFrom place num den top more count).2 = true
  | 0, _, _, further => absurd further (Nat.lt_irrefl 0)
  | more + 1, count, grids, _ => by
      unfold shortestFrom
      cases found : neighbour? place num den (top - count) with
      | some units => exact readsBack_of_neighbour? found
      | none =>
          have further : 0 < more := by
            rcases Nat.eq_zero_or_pos more with rfl | further
            · have last : count = 16 := by omega
              rw [last] at found
              exact absurd finest (Option.not_isSome_iff_eq_none.mpr found)
            · exact further
          exact shortestFrom_reads finest more (count + 1) (by omega) further

theorem shortest_roundsTo (positive : 0 < place) :
    RoundsTo ((shortest place).1 * 10 ^ (shortest place).2) place := by
  have leading := leadingExponent_le (ratio_fst_pos positive) (ratio_snd_pos place)
  rw [ratio_eq] at leading
  have sixteen : (10 : ℚ) ^ 16 * 10 ^ (leadingExponent (ratio place).1 (ratio place).2 - 16) ≤ value place := by
    refine le_of_eq_of_le ?_ leading
    rw [zpow_sub₀ (by norm_num)]
    field_simp
  rw [← readsBack_iff positive]
  exact shortestFrom_reads (neighbour?_isSome positive (ratio_eq place) (fine_enough sixteen)) 17 0 rfl (by decide)

theorem shortest_pos (positive : 0 < place) : 0 < (shortest place).1 := by
  have least := (two_pow_le_lower positive).trans (shortest_roundsTo positive).lower_le
  have unit : (0 : ℚ) < 2 ^ (-1075 : Int) := by positivity
  by_contra none
  rw [Nat.eq_zero_of_not_pos none, Nat.cast_zero, zero_mul] at least
  exact absurd unit (not_lt.mpr least)

end SchemaMigration.Double
