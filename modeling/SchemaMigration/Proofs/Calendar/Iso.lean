import SchemaMigration.Calendar.Iso
import SchemaMigration.Value.Comparison
import SchemaMigration.Proofs.Text.Numeral
import Mathlib.Data.List.Basic

namespace SchemaMigration

namespace Iso
open Calendar

theorem take?_two {n : Nat} (fits : n < 100) (rest : List Char) :
    Numeral.take? 2 (Numeral.padded 2 n ++ rest) = some (n, rest) :=
  Numeral.take?_padded 2 (by decide) fits rest

theorem padded_two (n : Nat) (fits : n < 100) : ∃ c d, Numeral.padded 2 n = [c, d] ∧ c.isDigit ∧ d.isDigit := by
  have long := Numeral.length_padded 2 (by decide) fits
  have digits : ∀ c ∈ Numeral.padded 2 n, c.isDigit := fun c => Numeral.isDigit_of_mem_padded
  rcases List.length_eq_two.mp long with ⟨c, d, same⟩
  rw [same] at digits
  exact ⟨c, d, same, digits c (by simp), digits d (by simp)⟩

theorem continuation_colon {n : Nat} (fits : n < 100) (rest : List Char) :
    continuation true (':' :: (Numeral.padded 2 n ++ rest)) = .field (Numeral.padded 2 n ++ rest) := by
  rcases padded_two n fits with ⟨c, d, same, -, -⟩
  rw [same]
  rfl

theorem continuation_point {micros : Nat} (fits : micros < 1000000) :
    continuation true ('.' :: Numeral.padded 6 micros) = .fraction (Numeral.padded 6 micros) := by
  have long := Numeral.length_padded 6 (by decide) fits
  cases digits : Numeral.padded 6 micros with
  | nil =>
      rw [digits] at long
      cases long
  | cons c rest => rfl

theorem fraction?_padded {micros : Nat} (fits : micros < 1000000) :
    fraction? (Numeral.padded 6 micros) = some (micros, false) := by
  have long := Numeral.length_padded 6 (by decide) fits
  have field : (Numeral.padded 6 micros).take 6 = Numeral.padded 6 micros := List.take_of_length_le long.le
  have filled : (Numeral.padded 6 micros ++ List.replicate 6 '0').take 6 = Numeral.padded 6 micros :=
    List.take_left' long
  have ended : (Numeral.padded 6 micros).drop 6 = [] := List.drop_of_length_le long.le
  have numeral : (Numeral.padded 6 micros).all Char.isDigit = true :=
    List.all_eq_true.mpr fun c member => Numeral.isDigit_of_mem_padded member
  rw [fraction?, field, filled, ended, numeral, Numeral.value_padded]
  rfl

section
variable {hour minute second micros : Nat} (hours : hour < 100) (minutes : minute < 100)
include hours minutes

theorem clockFields?_minutes :
    clockFields? (Numeral.padded 2 hour ++ ':' :: Numeral.padded 2 minute) = some ({ hour, minute }, false) := by
  have last := take?_two minutes []
  have colon := continuation_colon minutes []
  rw [List.append_nil] at last colon
  have ended : continuation true [] = .done false := rfl
  simp only [clockFields?, take?_two hours, colon, last, ended, Option.bind_eq_bind, Option.bind_some, List.head?_cons,
    beq_self_eq_true]

theorem clockFields?_seconds (seconds : second < 100) (fits : micros < 1000000) :
    clockFields? (Numeral.padded 2 hour ++ ':' :: (Numeral.padded 2 minute ++ ':' :: (Numeral.padded 2 second ++
      if micros == 0 then [] else '.' :: Numeral.padded 6 micros))) = some (⟨hour, minute, second, micros⟩, false) := by
  have ended : continuation true [] = .done false := rfl
  simp only [clockFields?, take?_two hours, take?_two minutes, take?_two seconds, continuation_colon minutes,
    continuation_colon seconds, Option.bind_eq_bind, Option.bind_some, List.head?_cons, beq_self_eq_true]
  split_ifs with whole
  · rw [beq_iff_eq.mp whole, ended]
  · rw [continuation_point fits]
    simp only [fraction?_padded fits, Option.map_some]

end

def fieldsOf (clock : Nat) : ClockFields := ⟨hour clock, minute clock, second clock, clock % microsPerSecond⟩

theorem total_fieldsOf (clock : Nat) : (fieldsOf clock).total = clock := by
  simp only [fieldsOf, ClockFields.total, hour, minute, second, microsPerSecond]
  omega

section
variable {clock : Nat} (inDay : clock < microsPerDay)
include inDay

theorem fields_fit : hour clock < 24 ∧ minute clock < 60 ∧ second clock < 60 ∧ clock % microsPerSecond < 1000000 := by
  simp only [hour, minute, second, microsPerSecond, microsPerDay] at inDay ⊢
  omega

theorem clockOf?_fieldsOf :
    clockOf? (hour clock) (minute clock) (second clock) (clock % microsPerSecond) = some ⟨clock, inDay⟩ := by
  rcases fields_fit inDay with ⟨hours, minutes, seconds, micros⟩
  have total := total_fieldsOf clock
  simp only [fieldsOf, ClockFields.total] at total
  simp only [clockOf?, total]
  rw [dif_pos ⟨by omega, by omega, by omega, by omega⟩]

theorem clockFields?_clockText :
    clockFields? (clockText clock ++ fractionText clock) = some (fieldsOf clock, false) := by
  rcases fields_fit inDay with ⟨hours, minutes, seconds, micros⟩
  have read := clockFields?_seconds (hours.trans (by decide)) (minutes.trans (by decide)) (seconds.trans (by decide)) micros
  simp only [clockText, fractionText, List.append_assoc, List.cons_append]
  exact read

/-- The distance from UTC is written without seconds where it has none. -/
def distanceText (clock : Nat) : List Char :=
  Numeral.padded 2 (hour clock) ++ ':' :: Numeral.padded 2 (minute clock) ++
    (if second clock == 0 && clock % microsPerSecond == 0 then []
      else ':' :: Numeral.padded 2 (second clock) ++ fractionText clock)

theorem clockFields?_distanceText :
    ∃ f : ClockFields, f.total = clock ∧ clockFields? (distanceText clock) = some (f, false) := by
  rcases fields_fit inDay with ⟨hours, minutes, -, -⟩
  unfold distanceText
  split
  · rename_i whole
    simp only [Bool.and_eq_true, beq_iff_eq] at whole
    have total := total_fieldsOf clock
    rw [fieldsOf, whole.1, whole.2] at total
    rw [List.append_nil]
    exact ⟨_, total, clockFields?_minutes (hours.trans (by decide)) (minutes.trans (by decide))⟩
  · have read := clockFields?_clockText inDay
    rw [clockText, List.append_assoc] at read
    exact ⟨_, total_fieldsOf clock, read⟩

end

theorem isZoneMark_eq_false {c : Char} (shown : c.isDigit ∨ c = ':' ∨ c = '.') : isZoneMark c = false := by
  rcases shown with digit | rfl | rfl
  · simp only [isZoneMark, Bool.or_eq_false_iff, beq_eq_false_iff_ne, ne_eq]
    refine ⟨⟨?_, ?_⟩, ?_⟩ <;>
      · rintro rfl
        cases digit
  · rfl
  · rfl

theorem isZoneMark_of_mem_clock {clock : Nat} {c : Char} (member : c ∈ clockText clock ++ fractionText clock) :
    isZoneMark c = false := by
  apply isZoneMark_eq_false
  simp only [clockText, fractionText, List.mem_append, List.mem_cons] at member
  rcases member with ((digit | rfl | digit) | rfl | digit) | fraction
  · exact .inl (Numeral.isDigit_of_mem_padded digit)
  · exact .inr (.inl rfl)
  · exact .inl (Numeral.isDigit_of_mem_padded digit)
  · exact .inr (.inl rfl)
  · exact .inl (Numeral.isDigit_of_mem_padded digit)
  · split at fraction
    · cases fraction
    · rcases List.mem_cons.mp fraction with rfl | digit
      · exact .inr (.inr rfl)
      · exact .inl (Numeral.isDigit_of_mem_padded digit)

/-- What is read of an offset: less than a second counts as none. -/
def distanceRead (o : UtcOffset) : Int := if o.micros.natAbs < microsPerSecond then 0 else o.micros

theorem zone_apart {face : List Char} (inner : ∀ c ∈ face, isZoneMark c = false) (zone : List Char)
    (starts : ∀ c ∈ zone.head?, isZoneMark c) :
    (face ++ zone).takeWhile (fun c => !isZoneMark c) = face ∧ (face ++ zone).dropWhile (fun c => !isZoneMark c) = zone := by
  have plain : ∀ c ∈ face, (!isZoneMark c) = true := by
    intro c member
    rw [inner c member]
    rfl
  rw [List.takeWhile_append_of_pos plain, List.dropWhile_append_of_pos plain]
  cases zone with
  | nil => exact ⟨List.append_nil face, rfl⟩
  | cons c rest =>
      have mark : (!isZoneMark c) = false := by rw [starts c rfl]; rfl
      simp [mark]

theorem timeFields?_naive {clock : Nat} (inDay : clock < microsPerDay) :
    timeFields? (clockText clock ++ fractionText clock) = some (fieldsOf clock, none) := by
  rcases zone_apart (fun c member => isZoneMark_of_mem_clock member) [] (fun c head => by cases head) with
    ⟨face, ended⟩
  rw [List.append_nil] at face ended
  rw [timeFields?, face, ended, clockFields?_clockText inDay]
  rfl

theorem offsetOf_eq {f : ClockFields} {o : UtcOffset} (total : f.total = o.micros.natAbs) :
    offsetOf ((if o.micros < 0 then '-' else '+') == '+') f = distanceRead o := by
  have minus : ('-' == '+') = false := rfl
  rw [offsetOf, distanceRead, total]
  by_cases behind : o.micros < 0
  · rw [if_pos behind, minus, if_neg Bool.false_ne_true]
    split <;> omega
  · rw [if_neg behind, beq_self_eq_true, if_pos rfl]
    split <;> omega

theorem timeFields?_aware {clock : Nat} (inDay : clock < microsPerDay) (o : UtcOffset) :
    timeFields? (clockText clock ++ fractionText clock ++ o.text) = some (fieldsOf clock, some (distanceRead o)) := by
  rcases clockFields?_distanceText o.inDay with ⟨f, total, distance⟩
  have signed := offsetOf_eq total
  have mark : isZoneMark (if o.micros < 0 then '-' else '+') = true := by
    split <;> rfl
  have noZ : (if o.micros < 0 then '-' else '+') ≠ 'Z' := by
    split <;> decide
  have text : o.text = (if o.micros < 0 then '-' else '+') :: distanceText o.micros.natAbs := rfl
  generalize (if o.micros < 0 then '-' else '+') = sign at *
  rcases zone_apart (fun c member => isZoneMark_of_mem_clock member) o.text (by
    rw [text]
    rintro c ⟨⟩
    exact mark) with ⟨face, rest⟩
  rw [timeFields?, face, rest, clockFields?_clockText inDay, text]
  simp [distance, signed]

theorem dateFields?_text (d : Date) : dateFields? d.text = some (d.year, d.month, d.day) := by
  rcases d.inCalendar with ⟨-, year, -, month, -, day⟩
  have short : d.day < 100 := by
    have : monthLength d.year d.month ≤ 31 := by
      unfold monthLength
      split <;> (try split) <;> omega
    omega
  have first := Numeral.take?_padded 4 (n := d.year) (by decide) (by omega)
    ('-' :: (Numeral.padded 2 d.month ++ '-' :: Numeral.padded 2 d.day))
  have second := take?_two (n := d.month) (by omega) ('-' :: Numeral.padded 2 d.day)
  have third := take?_two short []
  rw [List.append_nil] at third
  rcases padded_two d.month (by omega) with ⟨c, e, digits, digit, -⟩
  have noWeek : (Numeral.padded 2 d.month).head?.getD '-' ≠ 'W' := by
    rw [digits]
    rintro rfl
    cases digit
  simp [dateFields?, Date.text, first, second, third, noWeek]

theorem dateText_eq (d : Date) : ∃ y₁ y₂ y₃ y₄ m₁ m₂ d₁ d₂, d.text = [y₁, y₂, y₃, y₄, '-', m₁, m₂, '-', d₁, d₂] ∧
    m₁.isDigit := by
  rcases d.inCalendar with ⟨-, year, -, month, -, day⟩
  have short : d.day < 100 := by
    have : monthLength d.year d.month ≤ 31 := by
      unfold monthLength
      split <;> (try split) <;> omega
    omega
  have long := Numeral.length_padded 4 (n := d.year) (by decide) (by omega)
  rcases List.length_eq_four.mp long with ⟨y₁, y₂, y₃, y₄, years⟩
  rcases padded_two d.month (by omega) with ⟨m₁, m₂, months, digit, -⟩
  rcases padded_two d.day short with ⟨d₁, d₂, days, -, -⟩
  exact ⟨y₁, y₂, y₃, y₄, m₁, m₂, d₁, d₂, by rw [Date.text, years, months, days]; rfl, digit⟩

theorem dateLength_text (d : Date) (time : List Char) : dateLength (d.text ++ 'T' :: time) = some 10 := by
  rcases dateText_eq d with ⟨y₁, y₂, y₃, y₄, m₁, m₂, d₁, d₂, text, digit⟩
  have noWeek : m₁ ≠ 'W' := by
    rintro rfl
    cases digit
  rw [text]
  simp [dateLength, noWeek]

theorem length_dateText (d : Date) : d.text.length = 10 := by
  rcases dateText_eq d with ⟨y₁, y₂, y₃, y₄, m₁, m₂, d₁, d₂, text, -⟩
  rw [text]
  rfl

theorem read_of_fields {d : Date} {time : List Char} {clock : Fin microsPerDay} (zone : Option UtcOffset)
    (fields : timeFields? time = some (fieldsOf clock, zone.map (·.micros))) :
    read (d.text ++ 'T' :: time) = .ok ⟨d, clock, zone⟩ := by
  have long := length_dateText d
  have date := dateFields?_text d
  have start : (d.text ++ 'T' :: time).take 10 = d.text := List.take_left' long
  have after : (d.text ++ 'T' :: time).drop 11 = time := by
    rw [List.drop_append, long, List.drop_of_length_le (by omega)]
    rfl
  have day : Date.ofFields? d.year d.month d.day = some d := dif_pos d.inCalendar
  have face := clockOf?_fieldsOf clock.isLt
  have more : ¬ (d.text ++ 'T' :: time).length ≤ 10 := by
    simp [long]
  have enough : ¬ (d.text ++ 'T' :: time).length < 7 := by
    omega
  rw [read, if_neg enough, dateLength_text]
  simp only [malformedUnless, bind, Except.bind, start, date, if_neg more, after, fields, day, rangedUnless, fieldsOf, face]
  cases zone with
  | none => rfl
  | some o =>
      have distance : UtcOffset.ofMicros? o.micros = some o := dif_pos o.inDay
      simp only [Option.map_some, distance, Except.map]
      rfl

end Iso

/-- The offset that its text says: less than a second is not read. -/
def UtcOffset.asRead (o : UtcOffset) : UtcOffset :=
  if o.micros.natAbs < Calendar.microsPerSecond then DateTime.utc else o

namespace DateTime

def asRead (t : DateTime) : DateTime := { t with offset := t.offset.map UtcOffset.asRead }

theorem read_isoText (t : DateTime) : Iso.read t.isoText = .ok t.asRead := by
  rcases t with ⟨date, clock, _ | o⟩
  · simp only [isoText, textWith, List.append_nil, List.append_assoc, List.cons_append]
    exact Iso.read_of_fields none (Iso.timeFields?_naive clock.isLt)
  · have read := Iso.timeFields?_aware clock.isLt o
    have same : Iso.distanceRead o = o.asRead.micros := by
      rw [Iso.distanceRead, UtcOffset.asRead]
      split <;> rfl
    rw [same, List.append_assoc] at read
    simp only [isoText, textWith, List.append_assoc, List.cons_append]
    exact Iso.read_of_fields (some o.asRead) read

/-- It is the same instant unless the offset is one that is not read. -/
theorem timeEquals_asRead_iff (t : DateTime) :
    Value.timeEquals t.asRead t = true ↔ ∀ o ∈ t.offset, o.micros.natAbs < Calendar.microsPerSecond → o.micros = 0 := by
  rcases t with ⟨date, clock, _ | o⟩
  · simp [Value.timeEquals, instant?, asRead]
  · have face : localMicros (asRead ⟨date, clock, some o⟩) = localMicros ⟨date, clock, some o⟩ := rfl
    have same : Value.timeEquals (asRead ⟨date, clock, some o⟩) ⟨date, clock, some o⟩ = true ↔
        o.asRead.micros = o.micros := by
      simp only [Value.timeEquals, instant?, face]
      simp only [asRead, Option.map_some, beq_iff_eq]
      omega
    rw [same, UtcOffset.asRead]
    simp only [Option.mem_some_iff, forall_eq']
    split
    · rename_i small
      have universal : utc.micros = 0 := rfl
      rw [universal]
      exact ⟨fun zero _ => zero.symm, fun zero => (zero small).symm⟩
    · rename_i whole
      exact ⟨fun _ small => absurd small whole, fun _ => rfl⟩

end DateTime
end SchemaMigration
