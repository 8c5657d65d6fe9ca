import SchemaMigration.Text.Numeral
import Mathlib.Algebra.Order.Ring.Nat
import Mathlib.Tactic.IntervalCases

namespace SchemaMigration.Numeral

@[simp] theorem value_digits (n : Nat) : value (digits n) = n := Nat.ofDigitChars_ten_toDigits

theorem value_append (first second : List Char) :
    value (first ++ second) = value first * 10 ^ second.length + value second := by
  rw [value, Nat.ofDigitChars_append, Nat.ofDigitChars_eq_ofDigitChars_zero, value, value, Nat.mul_comm]

@[simp] theorem value_replicate_zero (count : Nat) : value (List.replicate count '0') = 0 := by
  rw [value, Nat.ofDigitChars_replicate_zero, Nat.mul_zero]

theorem value_zeros_append (count : Nat) (ds : List Char) : value (List.replicate count '0' ++ ds) = value ds := by
  rw [value_append, value_replicate_zero, Nat.zero_mul, Nat.zero_add]

theorem isDigit_of_mem_digits {n : Nat} {c : Char} (member : c ∈ digits n) : c.isDigit :=
  Nat.isDigit_of_mem_toDigits (by decide) (by decide) member

theorem digits_ne_nil (n : Nat) : digits n ≠ [] := Nat.toDigits_ne_nil

theorem length_digits_pos (n : Nat) : 0 < (digits n).length := Nat.length_toDigits_pos

theorem length_digits_le_iff {n count : Nat} (positive : 0 < count) : (digits n).length ≤ count ↔ n < 10 ^ count :=
  Nat.length_toDigits_le_iff (by decide) positive

theorem lt_pow_length_digits (n : Nat) : n < 10 ^ (digits n).length :=
  (length_digits_le_iff (length_digits_pos n)).mp le_rfl

theorem pow_length_digits_le {n : Nat} (positive : 0 < n) : 10 ^ ((digits n).length - 1) ≤ n := by
  by_contra small
  rw [Nat.not_le] at small
  rcases Nat.eq_zero_or_pos ((digits n).length - 1) with one | more
  · rw [one, Nat.pow_zero] at small
    omega
  · have short := (length_digits_le_iff more).mpr small
    omega

theorem head_digits_ne_zero {n : Nat} (positive : 0 < n) : (digits n).head? ≠ some '0' := by
  induction n using Nat.strongRecOn with
  | ind n ih =>
      rcases Nat.lt_or_ge n 10 with single | several
      · rw [digits, Nat.toDigits_of_lt_base single]
        interval_cases n <;> decide
      · have shorter := ih (n / 10) (by omega) (by omega)
        rw [digits, Nat.toDigits_of_base_le (by decide) several]
        cases first : digits (n / 10) with
        | nil => exact absurd first (digits_ne_nil _)
        | cons d tail =>
            rw [first] at shorter
            rw [← digits, first]
            exact shorter

section
variable {ds rest : List Char}

theorem span_append (numeral : ∀ c ∈ ds, c.isDigit) (ends : ∀ c ∈ rest.head?, c.isDigit = false) :
    span (ds ++ rest) = (ds, rest) := by
  induction ds with
  | nil =>
      cases rest with
      | nil => rfl
      | cons c tail => simp [span, ends c rfl]
  | cons d tail ih =>
      rcases List.forall_mem_cons.mp numeral with ⟨digit, digits⟩
      simp [span, digit, ih digits]

end

theorem isDigit_of_mem_span (s : List Char) {c : Char} (member : c ∈ (span s).1) : c.isDigit := by
  induction s with
  | nil => cases member
  | cons d tail ih =>
      rw [span] at member
      split at member
      · rcases List.mem_cons.mp member with rfl | later
        · assumption
        · exact ih later
      · cases member

theorem value_cons (c : Char) (rest : List Char) : value (c :: rest) = value [c] * 10 ^ rest.length + value rest :=
  value_append [c] rest

theorem value_singleton (c : Char) : value [c] = c.toNat - '0'.toNat := by
  simp [value, Nat.ofDigitChars]

theorem digit_bounds {c : Char} (digit : c.isDigit) : 48 ≤ c.toNat ∧ c.toNat ≤ 57 := by
  simpa [Char.isDigit, UInt32.le_iff_toNat_le] using digit

theorem value_lt_pow {ds : List Char} (numeral : ∀ c ∈ ds, c.isDigit) : value ds < 10 ^ ds.length := by
  induction ds with
  | nil => decide
  | cons c rest ih =>
      rcases List.forall_mem_cons.mp numeral with ⟨digit, others⟩
      have small := ih others
      have bound : value [c] ≤ 9 := by
        rw [value_singleton]
        exact Nat.sub_le_of_le_add (digit_bounds digit).2
      have scaled := Nat.mul_le_mul_right (10 ^ rest.length) bound
      rw [value_cons, List.length_cons, Nat.pow_succ]
      omega

@[simp] theorem length_padded (width : Nat) {n : Nat} (positive : 0 < width) (fits : n < 10 ^ width) :
    (padded width n).length = width := by
  have short := (length_digits_le_iff positive).mpr fits
  rw [padded, List.length_append, List.length_replicate]
  omega

@[simp] theorem value_padded (width n : Nat) : value (padded width n) = n := by
  rw [padded, value_zeros_append, value_digits]

theorem isDigit_of_mem_padded {width n : Nat} {c : Char} (member : c ∈ padded width n) : c.isDigit := by
  rcases List.mem_append.mp member with zero | digit
  · rw [List.eq_of_mem_replicate zero]
    rfl
  · exact isDigit_of_mem_digits digit

theorem take?_padded (width : Nat) {n : Nat} (positive : 0 < width) (fits : n < 10 ^ width) (rest : List Char) :
    take? width (padded width n ++ rest) = some (n, rest) := by
  have long := length_padded width positive fits
  have field : (padded width n ++ rest).take width = padded width n := List.take_left' long
  have after : (padded width n ++ rest).drop width = rest := List.drop_left' long
  have numeral : (padded width n).all Char.isDigit = true :=
    List.all_eq_true.mpr fun c member => isDigit_of_mem_padded member
  simp [take?, field, after, numeral, long]

theorem digit_lt_digit_iff {c e : Char} (digit : c.isDigit) (digit' : e.isDigit) :
    c < e ↔ value [c] < value [e] := by
  have first := digit_bounds digit
  have second := digit_bounds digit'
  rw [Char.lt_def, UInt32.lt_iff_toNat_lt, value_singleton, value_singleton]
  change c.toNat < e.toNat ↔ c.toNat - 48 < e.toNat - 48
  omega

theorem digit_eq_digit_iff {c e : Char} (digit : c.isDigit) (digit' : e.isDigit) :
    c = e ↔ value [c] = value [e] := by
  rw [← Char.toNat_inj]
  have first := digit_bounds digit
  have second := digit_bounds digit'
  rw [value_singleton, value_singleton]
  change c.toNat = e.toNat ↔ c.toNat - 48 = e.toNat - 48
  omega

/-- Where the leading parts come from a row of digits of their own, these decide first. -/
theorem scaled_lt_scaled_iff {a b u v scale : Nat} (small : u < scale) (small' : v < scale) :
    a * scale + u < b * scale + v ↔ a < b ∨ a = b ∧ u < v := by
  rcases Nat.lt_trichotomy a b with less | rfl | more
  · have room := Nat.mul_le_mul_right scale less
    rw [Nat.succ_mul] at room
    exact iff_of_true (by omega) (.inl less)
  · omega
  · have room := Nat.mul_le_mul_right scale more
    rw [Nat.succ_mul] at room
    exact iff_of_false (by omega) (by omega)

theorem append_lt_append_iff {ds es : List Char} (numeral : ∀ c ∈ ds, c.isDigit) (numeral' : ∀ c ∈ es, c.isDigit)
    (long : ds.length = es.length) (first second : List Char) :
    ds ++ first < es ++ second ↔ value ds < value es ∨ value ds = value es ∧ first < second := by
  induction ds generalizing es with
  | nil =>
      obtain rfl : es = [] := List.length_eq_zero_iff.mp long.symm
      simp
  | cons c ds ih =>
      cases es with
      | nil => cases long
      | cons e es =>
          rcases List.forall_mem_cons.mp numeral with ⟨digit, digits⟩
          rcases List.forall_mem_cons.mp numeral' with ⟨digit', digits'⟩
          have shorter : ds.length = es.length := Nat.succ.inj long
          have scale := value_lt_pow digits'
          rw [← shorter] at scale
          have less := scaled_lt_scaled_iff (a := value [c]) (b := value [e]) (value_lt_pow digits) scale
          have more := scaled_lt_scaled_iff (a := value [e]) (b := value [c]) scale (value_lt_pow digits)
          have same : value [c] * 10 ^ ds.length + value ds = value [e] * 10 ^ ds.length + value es ↔
              value [c] = value [e] ∧ value ds = value es := by omega
          rw [List.cons_append, List.cons_append, List.cons_lt_cons_iff, digit_lt_digit_iff digit digit',
            digit_eq_digit_iff digit digit', ih digits digits' shorter, value_cons c ds, value_cons e es, ← shorter, less, same,
            and_or_left, or_assoc, and_assoc]

theorem padded_append_lt_iff (width : Nat) {m n : Nat} (positive : 0 < width) (fits : m < 10 ^ width)
    (fits' : n < 10 ^ width) (first second : List Char) :
    padded width m ++ first < padded width n ++ second ↔ m < n ∨ m = n ∧ first < second := by
  have long := (length_padded width positive fits).trans (length_padded width positive fits').symm
  rw [append_lt_append_iff (fun _ => isDigit_of_mem_padded) (fun _ => isDigit_of_mem_padded) long, value_padded,
    value_padded]

end SchemaMigration.Numeral
