import SchemaMigration.Proofs.Plan.DefaultConflicts
import Mathlib.Algebra.Order.Field.Power
import Mathlib.Tactic.Linarith
import Mathlib.Tactic.NormNum
/-!
Types that are inferred from defaults, and whether a column of the type holds its default, by what the two systems say of
their types. The type follows integers and texts as they grow, up to the largest there is, and is the same for all
decimals and for all binary fractions.
-/
namespace SchemaMigration

namespace Decimal

def rational? : Decimal → Option ℚ
  | .finite negative coefficient exponent => some ((if negative then -1 else 1) * coefficient * 10 ^ exponent)
  | .infinite _ | .nan .. => none

/-- The number has so many digits at most before the point, and behind it. -/
def FitsDigits (whole places : Nat) (x : Decimal) : Prop :=
  ∃ units : Int, units.natAbs < 10 ^ (whole + places) ∧ x.rational? = some ((units : ℚ) / 10 ^ places)

end Decimal

namespace Double

/-- A number of 32 bits, or infinite, or none. -/
def IsSingle : Double → Prop
  | .finite _ place => ∃ (m : Nat) (e : Int), m < 2 ^ 24 ∧ -149 ≤ e ∧ e ≤ 104 ∧
      (mantissa place : ℚ) * 2 ^ exponent place = m * 2 ^ e
  | .infinite _ | .nan => True

def IsFinite (x : Double) : Prop := ∃ negative place, x = .finite negative place

end Double

namespace Sql

def InBits (bits : Nat) (n : Int) : Prop := -2 ^ (bits - 1) ≤ n ∧ n < 2 ^ (bits - 1)

instance (bits : Nat) (n : Int) : Decidable (InBits bits n) := inferInstanceAs (Decidable (_ ∧ _))

/-- The most bytes of a text without a limit of its own on MySQL. -/
def mysqlTextLimit : Nat := 65535

/-- The first year that MySQL supports. -/
def mysqlFirstYear : Nat := 1000

/-- Times on MySQL are kept to the second, and none knows of an offset from UTC. -/
def HoldsTime (d : Dialect) (t : DateTime) : Prop :=
  t.offset = none ∧ (d = .mysql → mysqlFirstYear ≤ t.date.year ∧ t.clock.val % Calendar.microsPerSecond = 0)

/--
A column of a type is sure to hold a value of the kind that it is for, exactly as it is. On Postgres `real` has 32 bits and
on MySQL 64, where there are only finite numbers. Postgres has texts without the character zero, and one number that is none.
Texts of MySQL are in a character set of all of Unicode.
-/
def Holds : Dialect → String → Value → Prop
  | .postgres, type, .str s => '\x00' ∉ s.toList ∧ (type = "text" ∨ type = "varchar(255)" ∧ s.length ≤ 255)
  | .mysql, type, .str s => type = "text" ∧ s.utf8ByteSize ≤ mysqlTextLimit ∨ type = "varchar(255)" ∧ s.length ≤ 255
  | .postgres, type, .bool _ => type = "boolean"
  | .mysql, type, .bool _ => type = "tinyint(1)"
  | .postgres, type, .int n => type ∈ ["integer", "SERIAL"] ∧ InBits 32 n ∨ type ∈ ["bigint", "BIGSERIAL"] ∧ InBits 64 n
  | .mysql, type, .int n => type = "integer" ∧ InBits 32 n ∨ type = "bigint" ∧ InBits 64 n
  | .postgres, type, .float x => type = "real" ∧ x.IsSingle ∨ type = "double precision"
  | .mysql, type, .float x => type ∈ ["real", "double precision"] ∧ x.IsFinite
  | .postgres, type, .decimal x => type = "decimal(10,2)" ∧ (x.FitsDigits 8 2 ∨ x = .nan false false 0)
  | .mysql, type, .decimal x => type = "decimal(10,2)" ∧ x.FitsDigits 8 2
  | .postgres, type, .date _ => type = "date"
  | .mysql, type, .date day => type = "date" ∧ mysqlFirstYear ≤ day.year
  | .postgres, type, .datetime t => type = "timestamp" ∧ HoldsTime .postgres t
  | .mysql, type, .datetime t => type = "datetime" ∧ HoldsTime .mysql t
  | _, _, _ => False

/-- The default is one for which the types that defaults can get have room. -/
def HasRoom : Dialect → Value → Prop
  | _, .int n => InBits 64 n
  | .postgres, .str s => '\x00' ∉ s.toList
  | .mysql, .str s => s.utf8ByteSize ≤ mysqlTextLimit
  | .postgres, .float x => x.IsSingle
  | .mysql, .float x => x.IsFinite
  | .postgres, .decimal x => x.FitsDigits 8 2 ∨ x = .nan false false 0
  | .mysql, .decimal x => x.FitsDigits 8 2
  | .mysql, .date day => mysqlFirstYear ≤ day.year
  | d, .datetime t => HoldsTime d t
  | _, _ => True

end Sql

structure Attribute.DefaultDecides (name : String) (a : Attribute) : Prop where
  leavesType : a.LeavesType name
  undeclared : a.type = none
  typed : (Inference.typeOfDefault? a.default).isSome

namespace Inference
variable {v : Value}

theorem primitiveDefault_of_typed (typed : (typeOfDefault? v).isSome) : primitiveDefault v = v := by
  cases v with
  | null | list | tuple | dict | foreign => cases typed
  | bool | int | float | str | decimal | date | datetime => rfl

theorem ne_enum_of_default {t : ColumnType} (typed : typeOfDefault? v = some t) : t ≠ .enum := by
  rintro rfl
  cases v with
  | null | list | tuple | dict | foreign => cases typed
  | bool | float | decimal | date | datetime => cases typed
  | str | int =>
      simp only [typeOfDefault?] at typed
      split at typed <;> cases typed

theorem column_of_defaultDecides {name : String} {a : Attribute} (decided : a.DefaultDecides name) (key : Bool)
    (outline : Option Outline) :
    typeOfDefault? a.default = some (column name a key outline).type ∧
      (column name a key outline).defaultValue = a.default := by
  have kept := primitiveDefault_of_typed decided.typed
  rcases Option.isSome_iff_exists.mp decided.typed with ⟨t, typed⟩
  have type : (column name a key outline).type = t := by
    change columnType name a key = t
    rw [columnType_of_leavesType decided.leavesType, decided.undeclared, kept, typed]
    rfl
  exact ⟨typed.trans (congrArg some type.symm), kept⟩

end Inference

namespace Sql
variable {d : Dialect} {c : Column} {v : Value}

/-- The types that a dialect has for an inferred one; a key that counts by itself has another one. -/
def typesFor (d : Dialect) (t : ColumnType) : List String :=
  plainType d t :: match d, t with
    | .postgres, .integer => ["SERIAL"]
    | .postgres, .bigint => ["BIGSERIAL"]
    | _, _ => []

theorem typesFor_of_clauses (other : c.type ≠ .enum) :
    (clauses d c).type ∈ typesFor d c.type ∧ (addedClauses d c).type = plainType d c.type := by
  have plain : columnType d c = plainType d c.type := if_neg fun enum => other (Column.type_of_isEnum enum)
  refine ⟨?_, plain⟩
  simp only [clauses]
  split
  · unfold keyType
    split
    case h_1 type => simp [typesFor, type]
    case h_2 type => simp [typesFor, type]
    case h_3 => simp [typesFor, plain]
  · simp [typesFor, plain]

theorem inBits_32_iff {n : Int} : InBits 32 n ↔ (decide (-2147483648 ≤ n) && decide (n ≤ 2147483647)) = true := by
  have power : (2 : Int) ^ (32 - 1) = 2147483648 := rfl
  rw [InBits, power, Bool.and_eq_true, decide_eq_true_iff, decide_eq_true_iff]
  omega

theorem InBits.widen {n : Int} (narrow : InBits 32 n) : InBits 64 n := by
  have first : (2 : Int) ^ (32 - 1) = 2147483648 := rfl
  have second : (2 : Int) ^ (64 - 1) = 9223372036854775808 := rfl
  rw [InBits, first] at narrow
  rw [InBits, second]
  omega

theorem utf8ByteSize_le_of_short {s : String} (short : s.length ≤ 255) : s.utf8ByteSize ≤ mysqlTextLimit := by
  have bytes : ∀ chars : List Char, (String.ofList chars).utf8ByteSize ≤ 4 * chars.length := by
    intro chars
    induction chars with
    | nil => simp
    | cons c rest ih =>
        rw [String.ofList_cons, String.utf8ByteSize_append, String.utf8ByteSize_singleton, List.length_cons]
        have one := Char.utf8Size_le_four c
        omega
  have all := bytes s.toList
  rw [String.ofList_toList, String.length_toList] at all
  unfold mysqlTextLimit
  omega

theorem holds_typesFor_iff (sized : d ≠ .sqlite) {t : ColumnType} (inferred : Inference.typeOfDefault? v = some t) :
    ∀ type ∈ typesFor d t, Holds d type v ↔ HasRoom d v := by
  cases v with
  | null | list | tuple | dict | foreign => cases inferred
  | bool | float | decimal | date | datetime =>
      obtain rfl := Option.some.inj inferred
      cases d <;> simp [typesFor, plainType, postgresType, mysqlType, Holds, HasRoom] at sized ⊢
  | str s =>
      obtain rfl := Option.some.inj inferred
      by_cases long : Inference.maxStringLength < s.length
      · cases d <;> simp [long, typesFor, plainType, postgresType, mysqlType, Holds, HasRoom] at sized ⊢
      · have short : s.length ≤ 255 := Nat.not_lt.mp long
        have small := utf8ByteSize_le_of_short short
        cases d <;> simp [long, short, small, typesFor, plainType, postgresType, mysqlType, Holds, HasRoom] at sized ⊢
  | int n =>
      obtain rfl := Option.some.inj inferred
      by_cases narrow : InBits 32 n
      · have wide := narrow.widen
        have bounds := inBits_32_iff.mp narrow
        cases d <;> simp [bounds, narrow, wide, typesFor, plainType, postgresType, mysqlType, Holds, HasRoom] at sized ⊢
      · have bounds := Bool.eq_false_iff.mpr (mt inBits_32_iff.mpr narrow)
        cases d <;> simp [bounds, narrow, typesFor, plainType, postgresType, mysqlType, Holds, HasRoom] at sized ⊢

/--
A column whose type is inferred from its default has a type that holds the default, in the statement that creates it
with its table and in the one that adds it, exactly if there is room for the default. An integer needs 64 bits at most, a
decimal eight digits before the point and two behind it. Further, on Postgres a fraction needs 32 bits and a text does not
hold the character zero; on MySQL a fraction is finite, a text has no more than 65535 bytes, a day is not before the year
1000 and a time has whole seconds. No time has an offset from UTC.
-/
theorem inferred_types_hold_iff (sized : d ≠ .sqlite) {name : String} {a : Attribute} (decided : a.DefaultDecides name)
    (key : Bool) (outline : Option Outline) :
    let c := Inference.column name a key outline
    c.defaultValue = a.default ∧ (Holds d (clauses d c).type c.defaultValue ↔ HasRoom d a.default) ∧
      (Holds d (addedClauses d c).type c.defaultValue ↔ HasRoom d a.default) := by
  intro c
  rcases Inference.column_of_defaultDecides decided key outline with ⟨typed, kept⟩
  rcases typesFor_of_clauses (d := d) (c := c) (Inference.ne_enum_of_default typed) with ⟨type, added⟩
  have room := holds_typesFor_iff sized typed
  rw [show c.defaultValue = a.default from kept, added]
  exact ⟨rfl, room _ type, room _ List.mem_cons_self⟩

/-- A price with two decimal places, of the largest size. -/
def pricedAttribute : Attribute := { default := .decimal (.finite true 9999999999 (-2)), hasDefault := true }

def countedAttribute : Attribute := { default := .int 9223372036854775807, hasDefault := true }

def sharedAttribute : Attribute :=
  { default := .float (.finite false ⟨1022 * 2 ^ 52, by decide +kernel⟩), hasDefault := true }

theorem prices_keys_and_halves_hold :
    pricedAttribute.DefaultDecides "price" ∧ countedAttribute.DefaultDecides "number" ∧
      sharedAttribute.DefaultDecides "share" ∧
      Holds .mysql (clauses .mysql (Inference.column "price" pricedAttribute false none)).type
        (.decimal (.finite true 9999999999 (-2))) ∧
      Holds .postgres (clauses .postgres (Inference.column "number" countedAttribute true none)).type
        (.int 9223372036854775807) ∧
      (clauses .postgres (Inference.column "number" countedAttribute true none)).type = "BIGSERIAL" ∧
      Holds .postgres (clauses .postgres (Inference.column "share" sharedAttribute false none)).type
        sharedAttribute.default ∧
      sharedAttribute.default.text = "0.5" := by
  have priced : pricedAttribute.DefaultDecides "price" := ⟨by decide, rfl, rfl⟩
  have counted : countedAttribute.DefaultDecides "number" := ⟨by decide, rfl, rfl⟩
  have shared : sharedAttribute.DefaultDecides "share" := ⟨by decide, rfl, rfl⟩
  have fits : Decimal.FitsDigits 8 2 (.finite true 9999999999 (-2)) :=
    ⟨-9999999999, by decide, by norm_num [Decimal.rational?]⟩
  have half : HasRoom .postgres sharedAttribute.default := by
    have parts : Double.mantissa (1022 * 2 ^ 52) = 2 ^ 52 ∧ Double.exponent (1022 * 2 ^ 52) = -53 := by decide +kernel
    refine ⟨1, -1, by norm_num, by norm_num, by norm_num, ?_⟩
    rw [parts.1, parts.2]
    norm_num
  have price := (inferred_types_hold_iff (d := .mysql) (by decide) priced false none).2.1.mpr fits
  have number := (inferred_types_hold_iff (d := .postgres) (by decide) counted true none).2.1.mpr (by decide : InBits 64 _)
  have share := (inferred_types_hold_iff (d := .postgres) (by decide) shared false none).2.1.mpr half
  exact ⟨priced, counted, shared, price, number, rfl, share, by decide +kernel⟩

/-- The number next to one tenth. -/
def tenth : Double := .finite false ⟨4591870180066957722, by decide +kernel⟩

theorem tenth_not_single : ¬ tenth.IsSingle := by
  rintro ⟨m, e, small, least, -, value⟩
  have parts : Double.mantissa 4591870180066957722 = 2 * 3602879701896397 ∧
      Double.exponent 4591870180066957722 = -56 := by decide +kernel
  rw [parts.1, parts.2] at value
  -- In units of the last place that 32 bits have, the number is an odd one, too large for 24 bits, times a power of two.
  obtain ⟨k, rfl⟩ : ∃ k : Nat, e = k - 149 := ⟨(e + 149).toNat, by omega⟩
  have whole : 3602879701896397 * 2 ^ 94 = m * 2 ^ k := by
    have scaled : (m : ℚ) * 2 ^ k = 3602879701896397 * 2 ^ 94 := by
      rw [zpow_sub₀ two_ne_zero, zpow_natCast] at value
      field_simp at value
      push_cast at value
      rw [← value]
      norm_num
    exact_mod_cast scaled.symm
  rcases Nat.lt_or_ge 94 k with high | low
  · obtain ⟨j, rest⟩ := Nat.exists_eq_add_of_lt high
    have even : 2 ^ 95 ∣ 3602879701896397 * 2 ^ 94 := by
      rw [whole, show k = 95 + j by omega, Nat.pow_add]
      exact Dvd.dvd.mul_left (Nat.dvd_mul_right _ _) m
    exact absurd even (by decide)
  · obtain ⟨j, rest⟩ := Nat.exists_eq_add_of_le low
    rw [rest, Nat.pow_add, ← mul_assoc, mul_right_comm] at whole
    have same : 3602879701896397 * 2 ^ j = m := Nat.eq_of_mul_eq_mul_right (Nat.two_pow_pos k) whole
    have positive := Nat.one_le_two_pow (n := j)
    omega

/-- A thousandth is behind the second place, one more than the largest integer of 64 bits has no type, and a tenth needs 64. -/
theorem thousandth_large_integer_and_tenth_not_held :
    (¬ ∀ (d : Dialect) (name : String) (a : Attribute), d ≠ .sqlite → a.DefaultDecides name →
      ∀ x, a.default = .decimal x → Holds d (clauses d (Inference.column name a false none)).type a.default) ∧
    (¬ ∀ (d : Dialect) (name : String) (a : Attribute), d ≠ .sqlite → a.DefaultDecides name →
      ∀ n, a.default = .int n → Holds d (clauses d (Inference.column name a false none)).type a.default) ∧
    (¬ ∀ (d : Dialect) (name : String) (a : Attribute), d ≠ .sqlite → a.DefaultDecides name →
      ∀ x, a.default = .float x → Holds d (clauses d (Inference.column name a false none)).type a.default) ∧
    tenth.text = "0.1".toList := by
  refine ⟨fun claimed => ?_, fun claimed => ?_, fun claimed => ?_, by decide +kernel⟩
  · have held := claimed .postgres "price" { default := .decimal (.finite false 1 (-3)), hasDefault := true } (by decide)
      ⟨by decide, rfl, rfl⟩ _ rfl
    rcases held with ⟨-, ⟨units, -, number⟩ | ⟨⟨⟩⟩⟩
    have thousandth := Option.some.inj number
    have scaled : (10 * units : ℚ) = 1 := by
      norm_num at thousandth
      linarith
    have tenfold : 10 * units = 1 := by exact_mod_cast scaled
    omega
  · have held := claimed .postgres "number" { default := .int 9223372036854775808, hasDefault := true } (by decide)
      ⟨by decide, rfl, rfl⟩ _ rfl
    rcases held with ⟨-, narrow⟩ | ⟨-, wide⟩
    · exact absurd narrow (by decide)
    · exact absurd wide (by decide)
  · have held := claimed .postgres "rate" { default := .float tenth, hasDefault := true } (by decide)
      ⟨by decide, rfl, rfl⟩ _ rfl
    rcases held with ⟨-, single⟩ | type
    · exact absurd single tenth_not_single
    · exact absurd type (by decide)

end Sql
end SchemaMigration
