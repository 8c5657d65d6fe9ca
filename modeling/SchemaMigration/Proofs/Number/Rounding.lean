import SchemaMigration.Proofs.Text.Numeral
import SchemaMigration.Number.Double
import Mathlib.Data.Rat.Floor
import Mathlib.Algebra.Order.Field.Power
import Mathlib.Algebra.Order.Floor.Semifield
import Mathlib.Tactic.FieldSimp
import Mathlib.Tactic.Linarith
import Mathlib.Tactic.NormNum
import Mathlib.Tactic.Positivity
import Mathlib.Tactic.Ring
/-!
Decimals read as floating point numbers: what lies between the midpoints around a number is rounded to it, and
a midpoint goes to the neighbour with an even place.
-/
namespace SchemaMigration

theorem twoTo_eq (n : Nat) : twoTo n = 2 ^ n := rfl

theorem tenTo_eq (n : Nat) : tenTo n = 10 ^ n := rfl

namespace Double

def value (place : Nat) : ℚ := mantissa place * 2 ^ exponent place

section
variable {e : Int}

theorem zpow_of_neg (negative : e < 0) (b : ℚ) : b ^ e = (b ^ e.natAbs)⁻¹ := by
  have same : e = -(e.natAbs : Int) := by omega
  conv_lhs => rw [same]
  rw [zpow_neg, zpow_natCast]

theorem zpow_of_nonneg (nonnegative : ¬ e < 0) (b : ℚ) : b ^ e = b ^ e.natAbs := by
  have same : e = (e.natAbs : Int) := by omega
  conv_lhs => rw [same]
  rw [zpow_natCast]

end

theorem zpow_mul_scale (e : Int) {b : ℚ} (positive : 0 < b) :
    b ^ e * (if e < 0 then b ^ e.natAbs else 1) = if e < 0 then 1 else b ^ e.natAbs := by
  split
  · rename_i negative
    rw [zpow_of_neg negative, inv_mul_cancel₀ (by positivity)]
  · rename_i nonnegative
    rw [zpow_of_nonneg nonnegative, mul_one]

theorem compareScaled_eq (left : Nat) (e : Int) (right : Nat) (f : Int) :
    ∃ (scale : ℚ) (l r : Nat), 0 < scale ∧ compareScaled left e right f = compare l r ∧
      l = left * 2 ^ e * scale ∧ r = right * 10 ^ f * scale := by
  have two := zpow_mul_scale e (b := 2) (by norm_num)
  have ten := zpow_mul_scale f (b := 10) (by norm_num)
  refine ⟨(if f < 0 then 10 ^ f.natAbs else 1) * (if e < 0 then 2 ^ e.natAbs else 1), _, _, ?_, rfl, ?_, ?_⟩
  · positivity
  · push_cast [twoTo_eq, tenTo_eq]
    rw [← two]
    ring
  · push_cast [twoTo_eq, tenTo_eq]
    rw [← ten]
    ring

theorem compareScaled_eq_lt_iff (left : Nat) (e : Int) (right : Nat) (f : Int) :
    compareScaled left e right f = .lt ↔ (left * 2 ^ e : ℚ) < right * 10 ^ f := by
  rcases compareScaled_eq left e right f with ⟨scale, l, r, positive, same, first, second⟩
  rw [same, Nat.compare_eq_lt, ← Nat.cast_lt (α := ℚ), first, second, mul_lt_mul_iff_left₀ positive]

theorem compareScaled_eq_eq_iff (left : Nat) (e : Int) (right : Nat) (f : Int) :
    compareScaled left e right f = .eq ↔ (left * 2 ^ e : ℚ) = right * 10 ^ f := by
  rcases compareScaled_eq left e right f with ⟨scale, l, r, positive, same, first, second⟩
  rw [same, Nat.compare_eq_eq, ← Nat.cast_inj (R := ℚ), first, second, mul_left_inj' positive.ne']

theorem compareScaled_eq_gt_iff (left : Nat) (e : Int) (right : Nat) (f : Int) :
    compareScaled left e right f = .gt ↔ (right * 10 ^ f : ℚ) < left * 2 ^ e := by
  rcases compareScaled_eq left e right f with ⟨scale, l, r, positive, same, first, second⟩
  rw [same, Nat.compare_eq_gt, ← Nat.cast_lt (α := ℚ), first, second, mul_lt_mul_iff_left₀ positive]

theorem mantissa_pos {place : Nat} (positive : 0 < place) : 0 < mantissa place := by
  unfold mantissa
  split
  · exact positive
  · exact Nat.add_pos_right _ (by decide)

theorem mantissa_lt (place : Nat) : mantissa place < 2 ^ 53 := by
  have := Nat.mod_lt place (y := 2 ^ 52) (by decide)
  unfold mantissa
  rw [twoTo_eq]
  split <;> omega

theorem exponent_ge (place : Nat) : -1074 ≤ exponent place := by
  unfold exponent
  rw [twoTo_eq]
  split <;> omega

theorem normal_or_lowest (place : Nat) : 2 ^ 52 ≤ mantissa place ∨ exponent place = -1074 := by
  unfold mantissa exponent
  rw [twoTo_eq]
  split
  · exact .inr rfl
  · left
    omega

theorem place_eq (place : Nat) : (exponent place + 1074).toNat * 2 ^ 52 + mantissa place = place := by
  unfold mantissa exponent
  rw [twoTo_eq]
  split <;> omega

theorem even_mantissa_iff (place : Nat) : mantissa place % 2 = place % 2 := by
  have := place_eq place
  omega

/-- The number just below is half as far away as the one above. -/
def isBoundary (place : Nat) : Bool := mantissa place == twoTo 52 && place ≥ twoTo 53

def lower (place : Nat) : ℚ := (mantissa place - if isBoundary place then 1 / 4 else 1 / 2) * 2 ^ exponent place
def upper (place : Nat) : ℚ := (mantissa place + 1 / 2) * 2 ^ exponent place

/-- The numbers that are rounded to the one at a place; midpoints belong to even places. -/
structure RoundsTo (x : ℚ) (place : Nat) : Prop where
  above : lower place < x ∨ place % 2 = 0 ∧ lower place = x
  below : x < upper place ∨ place % 2 = 0 ∧ x = upper place

theorem quarter (place : Nat) : (2 : ℚ) ^ (exponent place - 2) = 2 ^ exponent place / 4 := by
  rw [zpow_sub₀ (by norm_num)]
  norm_num

theorem readsBack_iff {place : Nat} (positive : 0 < place) (candidate : Nat) (f : Int) :
    readsBack place candidate f = true ↔ RoundsTo (candidate * 10 ^ f) place := by
  have m := mantissa_pos positive
  have low : ((if isBoundary place then 4 * mantissa place - 1 else 4 * mantissa place - 2 : Nat) : ℚ) *
      2 ^ (exponent place - 2) = lower place := by
    rw [lower, quarter]
    cases isBoundary place with
    | true =>
        simp only [↓reduceIte]
        push_cast [show 1 ≤ 4 * mantissa place by omega]
        ring
    | false =>
        simp only [Bool.false_eq_true, ↓reduceIte]
        push_cast [show 2 ≤ 4 * mantissa place by omega]
        ring
  have high : ((4 * mantissa place + 2 : Nat) : ℚ) * 2 ^ (exponent place - 2) = upper place := by
    rw [upper, quarter]
    push_cast
    ring
  have opened : readsBack place candidate f =
      ((compareScaled (if isBoundary place then 4 * mantissa place - 1 else 4 * mantissa place - 2)
          (exponent place - 2) candidate f == .lt ||
        (place % 2 == 0 && compareScaled (if isBoundary place then 4 * mantissa place - 1 else 4 * mantissa place - 2)
          (exponent place - 2) candidate f == .eq)) &&
      (compareScaled (4 * mantissa place + 2) (exponent place - 2) candidate f == .gt ||
        (place % 2 == 0 && compareScaled (4 * mantissa place + 2) (exponent place - 2) candidate f == .eq))) := rfl
  simp only [opened, Bool.and_eq_true, Bool.or_eq_true, beq_iff_eq, compareScaled_eq_lt_iff,
    compareScaled_eq_eq_iff, compareScaled_eq_gt_iff, low, high]
  constructor
  · intro given
    exact ⟨given.1, given.2.imp_right fun tie => ⟨tie.1, tie.2.symm⟩⟩
  · intro rounds
    exact ⟨rounds.above, rounds.below.imp_right fun tie => ⟨tie.1, tie.2.symm⟩⟩

theorem roundHalfEven_eq {num den m : Nat} (positive : 0 < den) (above : 2 * (m * den) ≤ 2 * num + den)
    (below : 2 * num ≤ 2 * (m * den) + den)
    (tie : 2 * (m * den) = 2 * num + den ∨ 2 * num = 2 * (m * den) + den → m % 2 = 0) :
    roundHalfEven num den = m := by
  have whole : num / den * den + num % den = num := Nat.div_add_mod' num den
  have rest := Nat.mod_lt num positive
  unfold roundHalfEven
  generalize num / den = low at *
  generalize num % den = r at *
  have least : low ≤ m := by
    by_contra more
    have : (m + 1) * den ≤ low * den := Nat.mul_le_mul_right den (by omega)
    rw [Nat.add_mul, Nat.one_mul] at this
    omega
  have most : m ≤ low + 1 := by
    by_contra more
    have : (low + 2) * den ≤ m * den := Nat.mul_le_mul_right den (by omega)
    rw [Nat.add_mul] at this
    omega
  rcases (by omega : m = low ∨ m = low + 1) with rfl | rfl
  · rw [if_neg]
    simp only [Bool.or_eq_true, Bool.and_eq_true, decide_eq_true_eq, beq_iff_eq]
    omega
  · rw [Nat.add_mul, Nat.one_mul] at above below tie
    rw [if_pos]
    simp only [Bool.or_eq_true, Bool.and_eq_true, decide_eq_true_eq, beq_iff_eq]
    omega

theorem div_div_zpow (num den base : Nat) (e : Int) :
    (num / den / (base : ℚ) ^ e : ℚ) =
      ((if e < 0 then num * base ^ e.natAbs else num : Nat) : ℚ) /
        (if e < 0 then den else den * base ^ e.natAbs : Nat) := by
  split
  · rename_i negative
    rw [zpow_of_neg negative, div_inv_eq_mul]
    push_cast
    ring
  · rename_i nonnegative
    rw [zpow_of_nonneg nonnegative, div_div]
    push_cast
    rfl

theorem floor_div_zpow (num den base : Nat) (e : Int) :
    (if e < 0 then num * base ^ e.natAbs / den else num / (den * base ^ e.natAbs)) =
      ⌊(num / den / (base : ℚ) ^ e : ℚ)⌋₊ := by
  rw [div_div_zpow, Nat.floor_div_eq_div]
  split <;> rfl

theorem decimalFloor_eq (num den : Nat) (e : Int) :
    decimalFloor num den e = ⌊(num / den / 10 ^ e : ℚ)⌋₊ := by
  exact_mod_cast floor_div_zpow num den 10 e

/-- A fraction lies within a factor of two of the quotient of the powers below its parts. -/
theorem ratio_bounds {num den : Nat} (nonzero : 0 < num) (positive : 0 < den) :
    (2 : ℚ) ^ ((num.log2 : Int) - den.log2 - 1) ≤ num / den ∧
      (num / den : ℚ) < 2 ^ ((num.log2 : Int) - den.log2 + 1) := by
  have parts : (0 : ℚ) < den := by exact_mod_cast positive
  have numLeast : (2 : ℚ) ^ num.log2 ≤ num := by exact_mod_cast Nat.log2_self_le (by omega)
  have numMost : (num : ℚ) < 2 ^ (num.log2 + 1) := by exact_mod_cast Nat.lt_log2_self
  have denLeast : (2 : ℚ) ^ den.log2 ≤ den := by exact_mod_cast Nat.log2_self_le (by omega)
  have denMost : (den : ℚ) < 2 ^ (den.log2 + 1) := by exact_mod_cast Nat.lt_log2_self
  constructor
  · calc
      (2 : ℚ) ^ ((num.log2 : Int) - den.log2 - 1) = 2 ^ num.log2 / 2 ^ (den.log2 + 1) := by
        rw [sub_sub, zpow_sub₀ (by norm_num), zpow_natCast, ← Nat.cast_succ, zpow_natCast]
      _ ≤ num / den := div_le_div₀ (by positivity) numLeast parts denMost.le
  · calc
      (num / den : ℚ) < 2 ^ (num.log2 + 1) / 2 ^ den.log2 := div_lt_div₀ numMost denLeast (by positivity) (by positivity)
      _ = 2 ^ ((num.log2 : Int) - den.log2 + 1) := by
        rw [sub_add_eq_add_sub, zpow_sub₀ (by norm_num), zpow_natCast, ← Nat.cast_succ, zpow_natCast]

theorem gridExponent_spec {num den : Nat} (nonzero : 0 < num) (positive : 0 < den) :
    -1074 ≤ gridExponent num den ∧ (num / den : ℚ) < 2 ^ 53 * 2 ^ gridExponent num den ∧
      (gridExponent num den = -1074 ∨ 2 ^ 52 * 2 ^ gridExponent num den ≤ (num / den : ℚ)) := by
  rcases ratio_bounds nonzero positive with ⟨least, most⟩
  generalize guessed : (num.log2 : Int) - den.log2 - 53 = guess
  rw [show (num.log2 : Int) - den.log2 - 1 = 52 + guess by omega] at least
  rw [show (num.log2 : Int) - den.log2 + 1 = 53 + (guess + 1) by omega] at most
  rw [zpow_add₀ (by norm_num)] at least most
  have grid : gridExponent num den =
      max (-1074) (if (num / den : ℚ) < 2 ^ 53 * 2 ^ guess then guess else guess + 1) := by
    have fits : (num / den : ℚ) < 2 ^ 53 * 2 ^ guess ↔ ⌊(num / den / (2 : Nat) ^ guess : ℚ)⌋₊ < 2 ^ 53 := by
      rw [Nat.floor_lt (by positivity)]
      push_cast
      exact (div_lt_iff₀ (by positivity)).symm
    rw [gridExponent, guessed]
    simp only [twoTo_eq, floor_div_zpow, fits]
  have normalized : ∃ g, gridExponent num den = max (-1074) g ∧ (num / den : ℚ) < 2 ^ 53 * 2 ^ g ∧
      2 ^ 52 * 2 ^ g ≤ (num / den : ℚ) := by
    split at grid
    · exact ⟨guess, grid, ‹_›, least⟩
    · refine ⟨guess + 1, grid, most, ?_⟩
      rw [zpow_add_one₀ (by norm_num)]
      linarith
  rcases normalized with ⟨g, same, below, above⟩
  rcases le_or_gt (-1074) g with fits | low
  · rw [same, max_eq_right fits]
    exact ⟨fits, below, .inr above⟩
  · rw [same, max_eq_left low.le]
    refine ⟨le_rfl, below.trans ?_, .inl rfl⟩
    exact mul_lt_mul_of_pos_left (zpow_lt_zpow_right₀ (by norm_num) low) (by norm_num)

theorem exponent_unique {x : ℚ} {e f : Int} (floor : -1074 ≤ e) (otherFloor : -1074 ≤ f)
    (below : x < 2 ^ 53 * 2 ^ e) (otherBelow : x < 2 ^ 53 * 2 ^ f)
    (above : e = -1074 ∨ 2 ^ 52 * 2 ^ e ≤ x) (otherAbove : f = -1074 ∨ 2 ^ 52 * 2 ^ f ≤ x) : e = f := by
  have ordered : ∀ {e f : Int}, -1074 ≤ e → x < 2 ^ 53 * 2 ^ e → f = -1074 ∨ 2 ^ 52 * 2 ^ f ≤ x → f ≤ e := by
    intro e f floor below above
    rcases above with lowest | above
    · exact lowest.trans_le floor
    · have powers : (2 : ℚ) ^ f < 2 ^ (e + 1) := by
        rw [zpow_add_one₀ (by norm_num)]
        linarith
      have := (zpow_lt_zpow_iff_right₀ (by norm_num)).mp powers
      omega
  exact le_antisymm (ordered otherFloor otherBelow above) (ordered floor below otherAbove)

theorem roundHalfEven_eq_of_near {num den m : Nat} (positive : 0 < den) (above : (m - 1 / 2 : ℚ) ≤ num / den)
    (below : (num / den : ℚ) ≤ m + 1 / 2)
    (tie : (num / den : ℚ) = m - 1 / 2 ∨ (num / den : ℚ) = m + 1 / 2 → m % 2 = 0) : roundHalfEven num den = m := by
  have parts : (0 : ℚ) < den := by exact_mod_cast positive
  rw [le_div_iff₀ parts] at above
  rw [div_le_iff₀ parts] at below
  rw [div_eq_iff parts.ne', div_eq_iff parts.ne'] at tie
  apply roundHalfEven_eq positive
  · have : (2 * (m * den) : ℚ) ≤ 2 * num + den := by linarith
    exact_mod_cast this
  · have : (2 * num : ℚ) ≤ 2 * (m * den) + den := by linarith
    exact_mod_cast this
  · rintro (low | high)
    · have : (2 * (m * den) : ℚ) = 2 * num + den := by exact_mod_cast low
      exact tie (.inl (by linarith))
    · have : (2 * num : ℚ) = 2 * (m * den) + den := by exact_mod_cast high
      exact tie (.inr (by linarith))

/-- A number in units of `2 ^ e`, of which `m` are nearest, that make the number at a place. -/
structure Counts (x : ℚ) (e : Int) (m place : Nat) : Prop where
  floor : -1074 ≤ e
  place : (e + 1074).toNat * 2 ^ 52 + m = place
  below : x < 2 ^ 53 * 2 ^ e
  above : e = -1074 ∨ 2 ^ 52 * 2 ^ e ≤ x
  nearAbove : (m - 1 / 2) * 2 ^ e ≤ x
  nearBelow : x ≤ (m + 1 / 2) * 2 ^ e
  tie : x = (m - 1 / 2) * 2 ^ e ∨ x = (m + 1 / 2) * 2 ^ e → m % 2 = 0

theorem isBoundary_eq_true {place : Nat} (boundary : isBoundary place = true) :
    mantissa place = 2 ^ 52 ∧ 2 ^ 53 ≤ place := by
  simpa [isBoundary, twoTo_eq] using boundary

theorem lowest_of_not_isBoundary {place : Nat} (inner : isBoundary place = false) (power : mantissa place = 2 ^ 52) :
    exponent place = -1074 := by
  have below : place < 2 ^ 53 := by
    simpa [isBoundary, twoTo_eq, power] using inner
  have := exponent_ge place
  have := place_eq place
  omega

variable {x : ℚ} {place : Nat}

theorem RoundsTo.lower_le (rounds : RoundsTo x place) : lower place ≤ x := by
  rcases rounds.above with less | ⟨-, same⟩
  · exact less.le
  · exact same.le

theorem RoundsTo.le_upper (rounds : RoundsTo x place) : x ≤ upper place := by
  rcases rounds.below with less | ⟨-, same⟩
  · exact less.le
  · exact same.le

theorem counts_at (rounds : RoundsTo x place) (within : (mantissa place - 1 / 2) * 2 ^ exponent place ≤ x)
    (above : exponent place = -1074 ∨ 2 ^ 52 * 2 ^ exponent place ≤ x)
    (tie : x = (mantissa place - 1 / 2) * 2 ^ exponent place → place % 2 = 0) :
    Counts x (exponent place) (mantissa place) place where
  floor := exponent_ge place
  place := place_eq place
  below := by
    have most : (mantissa place : ℚ) + 1 ≤ 2 ^ 53 := by exact_mod_cast mantissa_lt place
    have unit : (0 : ℚ) < 2 ^ exponent place := by positivity
    have := rounds.le_upper
    rw [upper] at this
    nlinarith
  above := above
  nearAbove := within
  nearBelow := rounds.le_upper
  tie := by
    rw [even_mantissa_iff]
    rintro (low | high)
    · exact tie low
    · rcases rounds.below with less | ⟨even, -⟩
      · exact absurd high less.ne
      · exact even

/-- Just below a power of two, the number is counted in units of half the size. -/
theorem counts_below (rounds : RoundsTo x place) (boundary : isBoundary place = true)
    (less : x < mantissa place * 2 ^ exponent place) : Counts x (exponent place - 1) (2 ^ 53) place := by
  rcases isBoundary_eq_true boundary with ⟨power, far⟩
  have whole := place_eq place
  have half : (2 : ℚ) ^ exponent place = 2 * 2 ^ (exponent place - 1) := by
    rw [zpow_sub_one₀ (by norm_num)]
    ring
  have unit : (0 : ℚ) < 2 ^ (exponent place - 1) := by positivity
  have least : ((2 ^ 53 - 1 / 2) * 2 ^ (exponent place - 1) : ℚ) = lower place := by
    rw [lower, boundary, if_pos rfl, power, half]
    push_cast
    ring
  have above := least.trans_le rounds.lower_le
  rw [power, half] at less
  push_cast at less
  have lowest := exponent_ge place
  have steps : (exponent place + 1074).toNat = (exponent place - 1 + 1074).toNat + 1 := by omega
  rw [steps, power] at whole
  refine ⟨by omega, ?_, by linarith, .inr (by nlinarith), ?_, ?_, ?_⟩
  · refine Eq.trans ?_ whole
    ring
  · push_cast
    exact above
  · push_cast
    nlinarith
  · intro _
    norm_num

theorem RoundsTo.counts (rounds : RoundsTo x place) : ∃ e m, Counts x e m place := by
  have unit : (0 : ℚ) < 2 ^ exponent place := by positivity
  cases boundary : isBoundary place with
  | false =>
      have least : lower place = (mantissa place - 1 / 2) * 2 ^ exponent place := by
        rw [lower, boundary, if_neg Bool.false_ne_true]
      refine ⟨_, _, counts_at rounds (least.symm.trans_le rounds.lower_le) ?_ ?_⟩
      · rcases normal_or_lowest place with normal | lowest
        · rcases normal.eq_or_lt with power | more
          · exact .inl (lowest_of_not_isBoundary boundary power.symm)
          · have : (2 ^ 52 + 1 : ℚ) ≤ mantissa place := by exact_mod_cast more
            have := rounds.lower_le
            rw [least] at this
            exact .inr (by nlinarith)
        · exact .inl lowest
      · intro low
        rcases rounds.above with less | ⟨even, -⟩
        · exact absurd (least.trans low.symm) less.ne
        · exact even
  | true =>
      rcases lt_or_ge x (mantissa place * 2 ^ exponent place) with less | more
      · exact ⟨_, _, counts_below rounds boundary less⟩
      · have power : (mantissa place : ℚ) = 2 ^ 52 := by exact_mod_cast (isBoundary_eq_true boundary).1
        refine ⟨_, _, counts_at rounds (by nlinarith) (.inr ?_) ?_⟩
        · rwa [← power]
        · intro low
          nlinarith

theorem ofRatio_eq {num den : Nat} (nonzero : 0 < num) (positive : 0 < den) (rounds : RoundsTo (num / den) place)
    (negative : Bool) : ofRatio negative num den = ofPlace negative place := by
  rcases rounds.counts with ⟨e, m, counts⟩
  rcases gridExponent_spec nonzero positive with ⟨floor, below, above⟩
  have grid : gridExponent num den = e :=
    exponent_unique floor counts.floor below counts.below above counts.above
  have units : (if e < 0 then roundHalfEven (num * 2 ^ e.natAbs) den else roundHalfEven num (den * 2 ^ e.natAbs)) =
      m := by
    have power := div_div_zpow num den 2 e
    have unit : (0 : ℚ) < 2 ^ e := by positivity
    have near : roundHalfEven (if e < 0 then num * 2 ^ e.natAbs else num)
        (if e < 0 then den else den * 2 ^ e.natAbs) = m := by
      apply roundHalfEven_eq_of_near
      · split <;> positivity
      · rw [← power, Nat.cast_ofNat, le_div_iff₀ unit]
        exact counts.nearAbove
      · rw [← power, Nat.cast_ofNat, div_le_iff₀ unit]
        exact counts.nearBelow
      · rw [← power, Nat.cast_ofNat, div_eq_iff unit.ne', div_eq_iff unit.ne']
        exact counts.tie
    split at near
    · rwa [if_pos ‹_›]
    · rwa [if_neg ‹_›]
  have notZero : (num == 0) = false := beq_eq_false_iff_ne.mpr nonzero.ne'
  rw [ofRatio, notZero, if_neg Bool.false_ne_true]
  simp only [grid, twoTo_eq, units, counts.place]

theorem two_pow_le_lower (positive : 0 < place) : (2 : ℚ) ^ (-1075 : Int) ≤ lower place := by
  have unit : (2 : ℚ) ^ (-1074 : Int) ≤ 2 ^ exponent place :=
    zpow_le_zpow_right₀ (by norm_num) (exponent_ge place)
  have nonzero : (1 : ℚ) ≤ mantissa place := by exact_mod_cast mantissa_pos positive
  have gap : (1 / 2 : ℚ) ≤ mantissa place - if isBoundary place then 1 / 4 else 1 / 2 := by
    split <;> linarith
  calc
    (2 : ℚ) ^ (-1075 : Int) = 1 / 2 * 2 ^ (-1074 : Int) := by
      rw [show (-1075 : Int) = -1074 - 1 from rfl, zpow_sub_one₀ two_ne_zero, mul_comm, one_div]
    _ ≤ _ := mul_le_mul gap unit (by positivity) (by linarith)

theorem upper_lt_two_pow (fits : place < finiteCount) : upper place < (2 : ℚ) ^ (1024 : Int) := by
  have top : exponent place ≤ 971 := by
    unfold exponent
    rw [finiteCount] at fits
    rw [twoTo_eq] at *
    split <;> omega
  have unit : (2 : ℚ) ^ exponent place ≤ 2 ^ (971 : Int) := zpow_le_zpow_right₀ (by norm_num) top
  have most : (mantissa place : ℚ) + 1 ≤ 2 ^ 53 := by exact_mod_cast mantissa_lt place
  calc
    upper place ≤ (2 ^ 53 - 1 / 2) * 2 ^ (971 : Int) := mul_le_mul (by linarith) unit (by positivity) (by norm_num)
    _ < 2 ^ (53 : Int) * 2 ^ (971 : Int) := mul_lt_mul_of_pos_right (by norm_num) (by positivity)
    _ = 2 ^ (1024 : Int) := (zpow_add₀ two_ne_zero 53 971).symm

theorem decimal_bounds (coefficient : Nat) (exponent : Int) :
    (coefficient * 10 ^ exponent : ℚ) < 10 ^ (exponent + (Numeral.digits coefficient).length) ∧
      (0 < coefficient → (10 : ℚ) ^ (exponent + (Numeral.digits coefficient).length - 1) ≤ coefficient * 10 ^ exponent) := by
  have unit : (0 : ℚ) < 10 ^ exponent := by positivity
  constructor
  · have : (coefficient : ℚ) < 10 ^ (Numeral.digits coefficient).length := by
      exact_mod_cast Numeral.lt_pow_length_digits coefficient
    rw [zpow_add₀ (by norm_num), zpow_natCast, mul_comm]
    exact mul_lt_mul_of_pos_left this unit
  · intro nonzero
    have : (10 : ℚ) ^ ((Numeral.digits coefficient).length - 1) ≤ coefficient := by
      exact_mod_cast Numeral.pow_length_digits_le nonzero
    have long := Numeral.length_digits_pos coefficient
    rw [add_sub_assoc, zpow_add₀ (by norm_num), ← Nat.cast_pred long, zpow_natCast, mul_comm]
    exact mul_le_mul_of_nonneg_right this unit.le

theorem ten_zpow_lt_two_zpow : (10 : ℚ) ^ (-330 : Int) < 2 ^ (-1075 : Int) := by
  have less : 2 ^ 1075 < 10 ^ 330 := by decide +kernel
  rw [zpow_neg, zpow_neg]
  exact inv_strictAnti₀ (by positivity) (by exact_mod_cast less)

theorem two_zpow_lt_ten_zpow : (2 : ℚ) ^ (1024 : Int) < 10 ^ (310 : Int) := by
  have less : 2 ^ 1024 < 10 ^ 310 := by decide +kernel
  exact_mod_cast less

theorem RoundsTo.size_bounds {coefficient : Nat} {exponent : Int} (rounds : RoundsTo (coefficient * 10 ^ exponent) place)
    (positive : 0 < place) (fits : place < finiteCount) :
    0 < coefficient ∧ ¬ exponent + (Numeral.digits coefficient).length < -330 ∧
      ¬ exponent + (Numeral.digits coefficient).length > 310 := by
  have least := (two_pow_le_lower positive).trans rounds.lower_le
  have most := rounds.le_upper.trans_lt (upper_lt_two_pow fits)
  rcases decimal_bounds coefficient exponent with ⟨below, above⟩
  have nonzero : 0 < coefficient := by
    rcases Nat.eq_zero_or_pos coefficient with rfl | nonzero
    · have unit : (0 : ℚ) < 2 ^ (-1075 : Int) := by positivity
      rw [Nat.cast_zero, zero_mul] at least
      exact absurd unit (not_lt.mpr least)
    · exact nonzero
  refine ⟨nonzero, ?_, ?_⟩
  · intro tiny
    have : (10 : ℚ) ^ (exponent + (Numeral.digits coefficient).length) ≤ 10 ^ (-330 : Int) :=
      zpow_le_zpow_right₀ (by norm_num) tiny.le
    exact lt_irrefl _ (ten_zpow_lt_two_zpow.trans (least.trans_lt (below.trans_le this)))
  · intro huge
    have : (10 : ℚ) ^ (310 : Int) ≤ 10 ^ (exponent + (Numeral.digits coefficient).length - 1) :=
      zpow_le_zpow_right₀ (by norm_num) (by omega)
    exact lt_irrefl _ (((this.trans (above nonzero)).trans_lt most).trans two_zpow_lt_ten_zpow)

theorem ofDecimal_eq {coefficient : Nat} {exponent : Int} (positive : 0 < place) (fits : place < finiteCount)
    (rounds : RoundsTo (coefficient * 10 ^ exponent) place) (negative : Bool) :
    ofDecimal negative coefficient exponent = .finite negative ⟨place, fits⟩ := by
  rcases rounds.size_bounds positive fits with ⟨nonzero, notTiny, notHuge⟩
  have place : ofPlace negative place = .finite negative ⟨place, fits⟩ := dif_pos fits
  have notZero : (coefficient == 0) = false := beq_eq_false_iff_ne.mpr nonzero.ne'
  rw [ofDecimal]
  simp only [notZero, notTiny, notHuge, decide_false, Bool.or_self, Bool.false_eq_true, ↓reduceIte, tenTo_eq]
  rw [← place]
  split
  · rename_i negativeExponent
    apply ofRatio_eq nonzero (by positivity)
    convert rounds using 1
    rw [zpow_of_neg negativeExponent]
    push_cast
    rfl
  · rename_i nonnegative
    apply ofRatio_eq (by positivity) Nat.one_pos
    convert rounds using 1
    rw [zpow_of_nonneg nonnegative]
    push_cast
    exact div_one _

end Double
end SchemaMigration
