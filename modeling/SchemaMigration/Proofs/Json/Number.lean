import SchemaMigration.Json.Token
import SchemaMigration.Json.Writer
import SchemaMigration.Proofs.Number.Shortest
/-!
The numbers that are written read back: integers digit by digit, floating point numbers since their
digits lie between the midpoints to the neighbours.
-/
namespace SchemaMigration.Json

/-- What may follow a number: nothing that reads as more of it. -/
def EndsNumber (rest : List Char) : Prop :=
  ∀ c ∈ rest.head?, c.isDigit = false ∧ c ≠ '.' ∧ c ≠ 'e' ∧ c ≠ 'E'

structure IsWhole (ds : List Char) : Prop where
  numeral : ∀ c ∈ ds, c.isDigit
  nonempty : ds ≠ []
  leads : ds = ['0'] ∨ ds.head? ≠ some '0'

theorem isWhole_digits (n : Nat) : IsWhole (Numeral.digits n) where
  numeral _ := Numeral.isDigit_of_mem_digits
  nonempty := Numeral.digits_ne_nil n
  leads := by
    rcases Nat.eq_zero_or_pos n with rfl | positive
    · exact .inl rfl
    · exact .inr (Numeral.head_digits_ne_zero positive)

theorem isDigit_of_mem_zeros {count : Nat} {c : Char} (member : c ∈ List.replicate count '0') : c.isDigit := by
  rw [List.eq_of_mem_replicate member]
  rfl

section
variable {whole fraction ds rest : List Char}

theorem integerPart_append (isWhole : IsWhole whole) (ends : ∀ c ∈ rest.head?, c.isDigit = false) :
    integerPart (whole ++ rest) = (whole, rest) := by
  rcases isWhole.leads with rfl | notZero
  · rfl
  · have spanned := Numeral.span_append isWhole.numeral ends
    cases whole with
    | nil => exact absurd rfl isWhole.nonempty
    | cons d tail =>
        have : d ≠ '0' := fun same => notZero (congrArg some same)
        unfold integerPart
        grind

theorem fractionPart_append (numeral : ∀ c ∈ fraction, c.isDigit) (nonempty : fraction ≠ [])
    (ends : ∀ c ∈ rest.head?, c.isDigit = false) : fractionPart ('.' :: (fraction ++ rest)) = (fraction, rest) := by
  unfold fractionPart
  simp only [Numeral.span_append numeral ends]
  grind

theorem fractionPart_of_ends (ends : ∀ c ∈ rest.head?, c ≠ '.') : fractionPart rest = ([], rest) := by
  unfold fractionPart
  grind

theorem exponentPart?_append (negative : Bool) (numeral : ∀ c ∈ ds, c.isDigit) (nonempty : ds ≠ [])
    (ends : ∀ c ∈ rest.head?, c.isDigit = false) :
    exponentPart? ('e' :: (if negative then '-' else '+') :: (ds ++ rest)) =
      some (if negative then -(Numeral.value ds : Int) else Numeral.value ds, rest) := by
  have spanned := Numeral.span_append numeral ends
  cases negative <;> simp [exponentPart?, spanned]

theorem exponentPart?_of_ends (ends : EndsNumber rest) : exponentPart? rest = none := by
  unfold EndsNumber at ends
  unfold exponentPart?
  grind

theorem number?_int (isWhole : IsWhole whole) (short : whole.length ≤ digitLimit) (ends : EndsNumber rest)
    (negative : Bool) :
    number? negative (whole ++ rest) =
      some (.leaf (.int (if negative then -(Numeral.value whole : Int) else Numeral.value whole)), rest) := by
  have first := integerPart_append isWhole fun c member => (ends c member).1
  have second := fractionPart_of_ends fun c member => (ends c member).2.1
  have third := exponentPart?_of_ends ends
  have nonempty := isWhole.nonempty
  unfold number?
  simp only [first]
  grind

theorem number?_fraction (isWhole : IsWhole whole) (numeral : ∀ c ∈ fraction, c.isDigit)
    (nonempty : fraction ≠ []) (ends : EndsNumber rest) (negative : Bool) :
    number? negative (whole ++ '.' :: (fraction ++ rest)) =
      some (.leaf (.float (.ofDecimal negative (Numeral.value (whole ++ fraction)) (-fraction.length))), rest) := by
  have first : integerPart (whole ++ '.' :: (fraction ++ rest)) = (whole, '.' :: (fraction ++ rest)) :=
    integerPart_append isWhole (by simp)
  have second := fractionPart_append numeral nonempty fun c member => (ends c member).1
  have third := exponentPart?_of_ends ends
  have notNone := isWhole.nonempty
  unfold number?
  simp only [first, second, third]
  grind

theorem number?_exponent (isWhole : IsWhole whole) (numeral : ∀ c ∈ fraction, c.isDigit) (power : ∀ c ∈ ds, c.isDigit)
    (nonempty : ds ≠ []) (ends : EndsNumber rest) (negative below : Bool) :
    number? negative (whole ++ ((if fraction.isEmpty then [] else '.' :: fraction) ++
        'e' :: (if below then '-' else '+') :: (ds ++ rest))) =
      some (.leaf (.float (.ofDecimal negative (Numeral.value (whole ++ fraction))
        ((if below then -(Numeral.value ds : Int) else Numeral.value ds) - fraction.length))), rest) := by
  have third := exponentPart?_append below power nonempty fun c member => (ends c member).1
  have notNone := isWhole.nonempty
  generalize tail : 'e' :: (if below then '-' else '+') :: (ds ++ rest) = exponent at third
  have head : exponent.head? = some 'e' := by rw [← tail]; rfl
  have first : integerPart (whole ++ ((if fraction.isEmpty then [] else '.' :: fraction) ++ exponent)) =
      (whole, (if fraction.isEmpty then [] else '.' :: fraction) ++ exponent) := by
    apply integerPart_append isWhole
    cases fraction <;> simp [head]
  have second : fractionPart ((if fraction.isEmpty then [] else '.' :: fraction) ++ exponent) = (fraction, exponent) := by
    cases fraction with
    | nil => exact fractionPart_of_ends (by simp [head])
    | cons c more => exact fractionPart_append numeral (List.cons_ne_nil c more) (by simp [head])
  unfold number?
  simp only [first, second, third]
  grind

end

/-- Digits read as a number of the given magnitude, whatever the layout makes of them. -/
def ReadsAs (text rest : List Char) (x : ℚ) : Prop :=
  ∀ negative : Bool, ∃ (coefficient : Nat) (exponent : Int), (coefficient * 10 ^ exponent : ℚ) = x ∧
    number? negative (text ++ rest) = some (.leaf (.float (.ofDecimal negative coefficient exponent)), rest)

section
variable {ds rest : List Char} (numeral : ∀ c ∈ ds, c.isDigit) (nonempty : ds ≠ []) (notZero : ds.head? ≠ some '0')
  (ends : EndsNumber rest)
include numeral nonempty ends

theorem leadingZeros_reads (zeros : Nat) :
    ReadsAs ('0' :: '.' :: (List.replicate zeros '0' ++ ds)) rest
      (Numeral.value ds * 10 ^ (-(zeros : Int) - ds.length)) := by
  intro negative
  have digits : ∀ c ∈ List.replicate zeros '0' ++ ds, c.isDigit := by
    intro c member
    rcases List.mem_append.mp member with zero | digit
    · exact isDigit_of_mem_zeros zero
    · exact numeral c digit
  refine ⟨Numeral.value (['0'] ++ (List.replicate zeros '0' ++ ds)),
    -((List.replicate zeros '0' ++ ds).length : Int), ?_, ?_⟩
  · rw [Numeral.value_append, Numeral.value_zeros_append, List.length_append, List.length_replicate]
    push_cast [show Numeral.value ['0'] = 0 from rfl]
    rw [zero_mul, zero_add, neg_add, sub_eq_add_neg]
  · rw [List.cons_append, List.cons_append]
    exact number?_fraction (isWhole_digits 0) digits (by simp [nonempty]) ends negative

include notZero

theorem trailingZeros_reads (zeros : Nat) :
    ReadsAs (ds ++ List.replicate zeros '0' ++ ['.', '0']) rest (Numeral.value ds * 10 ^ (zeros : Int)) := by
  intro negative
  have isWhole : IsWhole (ds ++ List.replicate zeros '0') := by
    refine ⟨?_, by simp [nonempty], .inr ?_⟩
    · intro c member
      rcases List.mem_append.mp member with digit | zero
      · exact numeral c digit
      · exact isDigit_of_mem_zeros zero
    · rwa [List.head?_append_of_ne_nil _ nonempty]
  refine ⟨Numeral.value (ds ++ List.replicate zeros '0' ++ ['0']), -(['0'].length : Int), ?_, ?_⟩
  · rw [Numeral.value_append, Numeral.value_append, Numeral.value_replicate_zero, List.length_replicate, zpow_natCast]
    push_cast [show Numeral.value ['0'] = 0 from rfl, List.length_singleton]
    rw [add_zero, add_zero, zpow_neg_one, mul_inv_cancel_right₀ (by norm_num)]
  · rw [List.append_assoc]
    exact number?_fraction isWhole (show ∀ c ∈ ['0'], c.isDigit from List.forall_mem_singleton.mpr rfl) (by simp) ends negative

theorem insidePoint_reads (before : Nat) (positive : 0 < before) (short : before < ds.length) :
    ReadsAs (ds.take before ++ '.' :: ds.drop before) rest (Numeral.value ds * 10 ^ ((before : Int) - ds.length)) := by
  intro negative
  have isWhole : IsWhole (ds.take before) := by
    refine ⟨fun c member => numeral c (List.mem_of_mem_take member), ?_, .inr ?_⟩
    · simp only [ne_eq, List.take_eq_nil_iff, nonempty, positive.ne', or_self, not_false_eq_true]
    · rwa [List.head?_take, if_neg positive.ne']
  refine ⟨Numeral.value (ds.take before ++ ds.drop before), -((ds.drop before).length : Int), ?_, ?_⟩
  · rw [List.take_append_drop, List.length_drop, Nat.cast_sub short.le, neg_sub]
  · rw [List.append_assoc]
    exact number?_fraction isWhole (fun c member => numeral c (List.mem_of_mem_drop member))
      (by simp [short]) ends negative

theorem scientific_reads (power : Int) :
    ReadsAs (ds.take 1 ++ (if ds.length ≤ 1 then [] else '.' :: ds.drop 1) ++
        'e' :: (if power < 0 then '-' else '+') :: Numeral.padded 2 power.natAbs) rest
      (Numeral.value ds * 10 ^ (power + 1 - ds.length)) := by
  intro negative
  have isWhole : IsWhole (ds.take 1) := by
    refine ⟨fun c member => numeral c (List.mem_of_mem_take member), ?_, .inr ?_⟩
    · simp [nonempty]
    · rwa [List.head?_take, if_neg one_ne_zero]
  have read := number?_exponent isWhole
    (show ∀ c ∈ ds.drop 1, c.isDigit from fun c member => numeral c (List.mem_of_mem_drop member))
    (show ∀ c ∈ Numeral.padded 2 power.natAbs, c.isDigit from fun c => Numeral.isDigit_of_mem_padded)
    (by simp [Numeral.padded, Numeral.digits_ne_nil]) ends negative (decide (power < 0))
  have single : (ds.drop 1).isEmpty = decide (ds.length ≤ 1) := by
    rw [Bool.eq_iff_iff, List.isEmpty_iff, List.drop_eq_nil_iff, decide_eq_true_eq]
  have signed : (if power < 0 then -(power.natAbs : Int) else power.natAbs) = power := by
    split <;> omega
  have long := List.length_pos_of_ne_nil nonempty
  rw [single, List.take_append_drop, Numeral.value_padded] at read
  simp only [decide_eq_true_eq, signed] at read
  refine ⟨Numeral.value ds, power - (ds.drop 1).length, ?_, ?_⟩
  · rw [List.length_drop, Nat.cast_sub long, Nat.cast_one, sub_sub_eq_add_sub]
  · rw [List.append_assoc, List.append_assoc]
    exact read

theorem layout_reads (pointAfter : Int) :
    ReadsAs (Double.layout ds pointAfter) rest (Numeral.value ds * 10 ^ (pointAfter - ds.length)) := by
  unfold Double.layout
  simp only [Bool.and_eq_true, decide_eq_true_eq]
  split
  · split
    · rename_i small
      have read := leadingZeros_reads numeral nonempty ends pointAfter.natAbs
      rwa [show -(pointAfter.natAbs : Int) = pointAfter by omega] at read
    · rename_i positive
      split
      · rename_i long
        have read := trailingZeros_reads numeral nonempty notZero ends (pointAfter - ds.length).toNat
        rwa [show ((pointAfter - ds.length).toNat : Int) = pointAfter - ds.length by omega] at read
      · rename_i short
        have read := insidePoint_reads numeral nonempty notZero ends pointAfter.toNat (by omega) (by omega)
        rwa [show (pointAfter.toNat : Int) = pointAfter by omega] at read
  · have read := scientific_reads numeral nonempty notZero ends (pointAfter - 1)
    rwa [sub_add_cancel] at read

end

theorem dropZeros_append (ds : List Char) : ∃ zeros, ds = Double.dropZeros ds ++ List.replicate zeros '0' := by
  induction ds with
  | nil => exact ⟨0, rfl⟩
  | cons c rest ih =>
      rcases ih with ⟨zeros, same⟩
      cases kept : Double.dropZeros rest with
      | cons d tail =>
          rw [kept] at same
          exact ⟨zeros, by simp [Double.dropZeros, kept, ← same]⟩
      | nil =>
          rw [kept, List.nil_append] at same
          by_cases zero : c = '0'
          · refine ⟨zeros + 1, ?_⟩
            rw [List.replicate_succ, ← same, zero]
            simp [Double.dropZeros, kept]
          · exact ⟨zeros, by simp [Double.dropZeros, kept, zero, ← same]⟩

/-- What is left of the digits of a number without the zeros at the end. -/
structure Significant (units : Nat) (ds : List Char) (zeros : Nat) : Prop where
  numeral : ∀ c ∈ ds, c.isDigit
  nonempty : ds ≠ []
  leads : ds.head? ≠ some '0'
  value : Numeral.value ds * 10 ^ zeros = units
  length : ds.length + zeros = (Numeral.digits units).length

theorem significant_dropZeros {units : Nat} (positive : 0 < units) :
    ∃ zeros, Significant units (Double.dropZeros (Numeral.digits units)) zeros := by
  rcases dropZeros_append (Numeral.digits units) with ⟨zeros, same⟩
  have value := congrArg Numeral.value same
  have long := congrArg List.length same
  have leads := Numeral.head_digits_ne_zero positive
  have numeral := fun c => Numeral.isDigit_of_mem_digits (n := units) (c := c)
  generalize Double.dropZeros (Numeral.digits units) = ds at *
  rw [Numeral.value_digits, Numeral.value_append, Numeral.value_replicate_zero, List.length_replicate, Nat.add_zero] at value
  rw [List.length_append, List.length_replicate] at long
  have nonempty : ds ≠ [] := by
    rintro rfl
    rw [Numeral.value, Nat.ofDigitChars_nil, Nat.zero_mul] at value
    exact positive.ne' value
  rw [same] at leads numeral
  rw [List.head?_append_of_ne_nil _ nonempty] at leads
  exact ⟨zeros, fun c member => numeral c (List.mem_append_left _ member), nonempty, leads, value.symm, long.symm⟩

theorem number?_magnitudeText {place : Nat} (fits : place < finiteCount) {rest : List Char} (ends : EndsNumber rest)
    (negative : Bool) :
    number? negative (Double.magnitudeText place ++ rest) =
      some (.leaf (.float (.finite negative ⟨place, fits⟩)), rest) := by
  rcases Nat.eq_zero_or_pos place with rfl | positive
  · have read := number?_fraction (isWhole_digits 0) (show ∀ c ∈ ['0'], c.isDigit from List.forall_mem_singleton.mpr rfl)
      (by simp) ends negative
    have zero : Double.ofDecimal negative 0 (-1) = .finite negative ⟨0, fits⟩ := by
      simp [Double.ofDecimal, Double.ofPlace, fits]
    exact read.trans (by rw [← zero]; rfl)
  · have rounds := Double.shortest_roundsTo positive
    have nonzero := Double.shortest_pos positive
    generalize shortest : Double.shortest place = written at rounds nonzero
    rcases written with ⟨units, f⟩
    rcases significant_dropZeros nonzero with ⟨zeros, digits⟩
    have text : Double.magnitudeText place =
        Double.layout (Double.dropZeros (Numeral.digits units)) ((Numeral.digits units).length + f) := by
      rw [Double.magnitudeText, shortest, if_neg (by simp [positive.ne'])]
    generalize Double.dropZeros (Numeral.digits units) = ds at digits text
    rcases layout_reads digits.numeral digits.nonempty digits.leads ends ((Numeral.digits units).length + f) negative with
      ⟨coefficient, exponent, magnitude, read⟩
    rw [text, read, Double.ofDecimal_eq positive fits]
    convert rounds using 1
    rw [magnitude, ← digits.length, ← digits.value]
    push_cast
    rw [mul_assoc, ← zpow_natCast, ← zpow_add₀ (by norm_num)]
    congr 2
    ring

end SchemaMigration.Json
