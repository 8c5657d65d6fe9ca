import SchemaMigration.Proofs.Calendar.DayNumber
import SchemaMigration.Proofs.Calendar.Iso

namespace SchemaMigration

namespace Calendar

/-- The time of day without what is less than a millisecond. -/
def wholeMillis (clock : Fin microsPerDay) : Fin microsPerDay :=
  ⟨clock / 1000 * 1000, Nat.lt_of_le_of_lt (Nat.div_mul_le_self _ _) clock.isLt⟩

end Calendar

namespace Iso
open Calendar

theorem fraction?_millis {millis : Nat} (fits : millis < 1000) :
    fraction? (Numeral.padded 3 millis) = some (millis * 1000, false) := by
  have long := Numeral.length_padded 3 (by decide) fits
  have field : (Numeral.padded 3 millis).take 6 = Numeral.padded 3 millis := List.take_of_length_le (by omega)
  have ended : (Numeral.padded 3 millis).drop 6 = [] := List.drop_of_length_le (by omega)
  have filled : (Numeral.padded 3 millis ++ List.replicate 6 '0').take 6 =
      Numeral.padded 3 millis ++ List.replicate 3 '0' := by
    rw [List.take_append, long, List.take_of_length_le (by omega)]
    rfl
  have numeral : (Numeral.padded 3 millis).all Char.isDigit = true :=
    List.all_eq_true.mpr fun c member => Numeral.isDigit_of_mem_padded member
  rw [fraction?, field, filled, ended, numeral, Numeral.value_append, Numeral.value_padded, Numeral.value_replicate_zero]
  simp [isOver]

theorem fieldsOf_wholeMillis (clock : Fin microsPerDay) : fieldsOf (wholeMillis clock) =
    ⟨hour clock, minute clock, second clock, clock % microsPerSecond / 1000 * 1000⟩ := by
  simp only [fieldsOf, wholeMillis, hour, minute, second, microsPerSecond, ClockFields.mk.injEq]
  omega

theorem clockFields?_millis (clock : Fin microsPerDay) :
    clockFields? (clockText clock ++ millisText clock) = some (fieldsOf (wholeMillis clock), false) := by
  rcases fields_fit clock.isLt with ⟨hours, minutes, seconds, micros⟩
  have millis : clock % microsPerSecond / 1000 < 1000 := by omega
  have long := Numeral.length_padded 3 (by decide) millis
  have point : continuation true ('.' :: Numeral.padded 3 (clock % microsPerSecond / 1000)) =
      .fraction (Numeral.padded 3 (clock % microsPerSecond / 1000)) := by
    rcases List.exists_cons_of_length_pos (by rw [long]; decide) with ⟨c, rest, digits⟩
    rw [digits]
    rfl
  have parts : clockText clock ++ millisText clock = Numeral.padded 2 (hour clock) ++ ':' ::
      (Numeral.padded 2 (minute clock) ++ ':' :: (Numeral.padded 2 (second clock) ++
        '.' :: Numeral.padded 3 (clock % microsPerSecond / 1000))) := by
    simp only [clockText, millisText, List.append_assoc, List.cons_append]
  rw [parts, fieldsOf_wholeMillis]
  simp only [clockFields?, take?_two (hours.trans (by decide)), take?_two (minutes.trans (by decide)),
    take?_two (seconds.trans (by decide)), continuation_colon (minutes.trans (by decide)),
    continuation_colon (seconds.trans (by decide)), point, fraction?_millis millis, Option.bind_eq_bind, Option.bind_some,
    Option.map_some, List.head?_cons, beq_self_eq_true]

theorem isZoneMark_of_mem_millis {clock : Nat} {c : Char} (member : c ∈ clockText clock ++ millisText clock) :
    isZoneMark c = false := by
  rcases List.mem_append.mp member with face | fraction
  · exact isZoneMark_of_mem_clock (List.mem_append_left _ face)
  · apply isZoneMark_eq_false
    rcases List.mem_cons.mp fraction with rfl | digit
    · exact .inr (.inr rfl)
    · exact .inl (Numeral.isDigit_of_mem_padded digit)

theorem read_millis (t : DateTime) :
    read (t.toMillis ++ ['Z']) = .ok ⟨t.date, wholeMillis t.clock, some DateTime.utc⟩ := by
  have unmarked : ∀ c ∈ clockText t.clock ++ millisText t.clock, isZoneMark c = false :=
    fun c member => isZoneMark_of_mem_millis member
  rcases zone_apart unmarked ['Z'] (by rintro c ⟨⟩; rfl) with ⟨face, zone⟩
  have time : timeFields? (clockText t.clock ++ millisText t.clock ++ ['Z']) =
      some (fieldsOf (wholeMillis t.clock), (some DateTime.utc).map (·.micros)) := by
    rw [timeFields?, face, zone, clockFields?_millis]
    rfl
  have text : t.toMillis ++ ['Z'] = t.date.text ++ 'T' :: (clockText t.clock ++ millisText t.clock ++ ['Z']) := by
    simp only [DateTime.toMillis, List.append_assoc, List.cons_append]
  rw [text]
  exact read_of_fields _ time

end Iso

namespace DateTime
open Calendar

theorem clockFields_lt_iff (c e : Fin microsPerDay) :
    (hour c < hour e ∨ hour c = hour e ∧ (minute c < minute e ∨ minute c = minute e ∧ (second c < second e ∨
      second c = second e ∧ c % microsPerSecond / 1000 < e % microsPerSecond / 1000))) ↔ c.val / 1000 < e.val / 1000 := by
  simp only [hour, minute, second, microsPerSecond]
  omega

theorem toMillis_append_lt_iff (t u : DateTime) (rest : List Char) :
    t.toMillis ++ rest < u.toMillis ++ rest ↔ t.localMicros / 1000 < u.localMicros / 1000 := by
  have fields : ∀ w : DateTime, w.toMillis ++ rest = Numeral.padded 4 w.date.year ++ '-' ::
      (Numeral.padded 2 w.date.month ++ '-' :: (Numeral.padded 2 w.date.day ++ 'T' ::
        (Numeral.padded 2 (hour w.clock) ++ ':' :: (Numeral.padded 2 (minute w.clock) ++ ':' ::
          (Numeral.padded 2 (second w.clock) ++ '.' :: (Numeral.padded 3 (w.clock % microsPerSecond / 1000) ++ rest)))))) := by
    intro w
    simp only [toMillis, Date.text, clockText, millisText, List.append_assoc, List.cons_append]
  have fit : ∀ w : DateTime, w.date.year < 10 ^ 4 ∧ w.date.month < 10 ^ 2 ∧ w.date.day < 10 ^ 2 ∧ hour w.clock < 10 ^ 2 ∧
      minute w.clock < 10 ^ 2 ∧ second w.clock < 10 ^ 2 ∧ w.clock % microsPerSecond / 1000 < 10 ^ 3 := by
    intro w
    rcases w.date.inCalendar with ⟨-, year, -, month, -, day⟩
    rcases Iso.fields_fit w.clock.isLt with ⟨hours, minutes, seconds, micros⟩
    have short : monthLength w.date.year w.date.month ≤ 31 := by
      unfold monthLength
      split <;> (try split) <;> omega
    omega
  rcases fit t with ⟨year, month, day, hours, minutes, seconds, millis⟩
  rcases fit u with ⟨year', month', day', hours', minutes', seconds', millis'⟩
  have earlier := Date.number_lt_iff t.date u.date
  have later := Date.number_lt_iff u.date t.date
  have first := (Date.number_bounds t.date).1
  have second := (Date.number_bounds u.date).1
  have within := t.clock.isLt
  have within' := u.clock.isLt
  rw [fields, fields, Numeral.padded_append_lt_iff 4 (by decide) year year', List.cons_lt_cons_self,
    Numeral.padded_append_lt_iff 2 (by decide) month month', List.cons_lt_cons_self,
    Numeral.padded_append_lt_iff 2 (by decide) day day', List.cons_lt_cons_self,
    Numeral.padded_append_lt_iff 2 (by decide) hours hours', List.cons_lt_cons_self,
    Numeral.padded_append_lt_iff 2 (by decide) minutes minutes', List.cons_lt_cons_self,
    Numeral.padded_append_lt_iff 2 (by decide) seconds seconds', List.cons_lt_cons_self,
    Numeral.padded_append_lt_iff 3 (by decide) millis millis']
  simp only [List.lt_irrefl, and_false, or_false, clockFields_lt_iff, localMicros]
  simp only [microsPerDay] at *
  omega

theorem ofList_toMillis_append_le_iff (t u : DateTime) (rest : List Char) :
    String.ofList (t.toMillis ++ rest) ≤ String.ofList (u.toMillis ++ rest) ↔
      t.localMicros / 1000 ≤ u.localMicros / 1000 := by
  rw [← String.not_lt, String.lt_iff, String.toList_ofList, String.toList_ofList, toMillis_append_lt_iff, Nat.not_lt]

theorem localMicros_of_ofLocalMicros? {micros : Int} {t : DateTime} (found : ofLocalMicros? micros = some t) :
    (t.localMicros : Int) = micros := by
  unfold ofLocalMicros? at found
  split at found
  case isTrue => cases found
  case isFalse positive =>
    rcases Option.map_eq_some_iff.mp found with ⟨date, day, rfl⟩
    have number := Date.number_of_ofNumber? day
    simp only [localMicros, number, microsPerDay]
    omega

theorem sqlText?_of_instant {t : DateTime} {instant : Int} (known : t.instant? = some instant) (inside : t.InUtcCalendar) :
    ∃ u : DateTime, (u.localMicros : Int) = instant ∧ t.sqlText? = some (u.toMillis ++ ['Z']) := by
  rcases Option.isSome_iff_exists.mp ((sqlText?_isSome_iff t).mpr inside) with ⟨text, shown⟩
  unfold sqlText? at shown
  cases offset : t.offset with
  | none => simp [instant?, offset] at known
  | some o =>
      rw [offset] at shown
      rcases Option.map_eq_some_iff.mp shown with ⟨u, inUtc, rfl⟩
      have found : ofLocalMicros? instant = some u := by rwa [inUtc?, known] at inUtc
      exact ⟨u, localMicros_of_ofLocalMicros? found, by simp only [sqlText?, offset, inUtc, Option.map_some]⟩

theorem instant?_read (u : DateTime) :
    instant? ⟨u.date, wholeMillis u.clock, some utc⟩ = some ((u.localMicros : Int) / 1000 * 1000) := by
  simp only [instant?, localMicros, wholeMillis, utc, Option.map_some, microsPerDay, Option.some.injEq]
  omega

/--
Aware points in time whose instants lie in the years 1 to 9999 of UTC have a text. Read as a time in UTC, it is the
instant rounded down to the millisecond. Points in time with the same instant have the same text, whatever their
offsets, and the text of an earlier one never comes after that of a later one.
-/
theorem utc_texts_exact {a b : DateTime} {m n : Int} (first : a.instant? = some m) (second : b.instant? = some n)
    (inside : a.InUtcCalendar) (inside' : b.InUtcCalendar) :
    ∃ s t read, a.sqlText? = some s ∧ b.sqlText? = some t ∧
      Iso.read s = .ok read ∧ read.offset = some utc ∧ read.instant? = some (m / 1000 * 1000) ∧
      (m = n → s = t) ∧ (m ≤ n → String.ofList s ≤ String.ofList t) := by
  rcases sqlText?_of_instant first inside with ⟨u, micros, text⟩
  rcases sqlText?_of_instant second inside' with ⟨v, others, other⟩
  have order := ofList_toMillis_append_le_iff u v ['Z']
  refine ⟨_, _, _, text, other, Iso.read_millis u, rfl, by rw [instant?_read, micros], ?_, ?_⟩
  · intro same
    have equal : u.localMicros = v.localMicros := by omega
    have below := order.mpr (by rw [equal])
    have above := (ofList_toMillis_append_le_iff v u ['Z']).mpr (by rw [equal])
    exact String.ofList_injective (String.le_antisymm below above)
  · intro earlier
    exact order.mpr (Nat.div_le_div_right (by omega))

/-- Shortly after midnight on the first of March 800, on a clock that is five and a half hours ahead. -/
def marchInAdvance : DateTime :=
  ⟨⟨800, 3, 1, by decide⟩, ⟨999, by decide⟩, some ⟨19800000000, by decide⟩⟩

/-- Shortly after the end of 2023, on a clock that is an hour and a half, fifteen seconds and half a second behind. -/
def newYear : DateTime :=
  ⟨⟨2023, 12, 31, by decide⟩, ⟨81000123456, by decide⟩, some ⟨-5415500000, by decide⟩⟩

theorem leapDay_before_newYear :
    marchInAdvance.instant? = some 25219103400000999 ∧ newYear.instant? = some 63839664015623456 ∧
      marchInAdvance.InUtcCalendar ∧ newYear.InUtcCalendar ∧
      marchInAdvance.sqlText? = some "0800-02-29T18:30:00.000Z".toList ∧
      newYear.sqlText? = some "2024-01-01T00:00:15.623Z".toList ∧
      ∃ read, Iso.read "0800-02-29T18:30:00.000Z".toList = .ok read ∧ read.offset = some utc ∧ read.instant? = some 25219103400000000 ∧
        "0800-02-29T18:30:00.000Z" ≤ "2024-01-01T00:00:15.623Z" := by
  have instant : marchInAdvance.instant? = some 25219103400000999 := by decide +kernel
  have later : newYear.instant? = some 63839664015623456 := by decide +kernel
  have inside : marchInAdvance.InUtcCalendar := by decide +kernel
  have inside' : newYear.InUtcCalendar := by decide +kernel
  have first : marchInAdvance.sqlText? = some "0800-02-29T18:30:00.000Z".toList := by decide +kernel
  have second : newYear.sqlText? = some "2024-01-01T00:00:15.623Z".toList := by decide +kernel
  refine ⟨instant, later, inside, inside', first, second, ?_⟩
  rcases utc_texts_exact instant later inside inside' with ⟨s, t, read, shown, other, reads, inUtc, rounded, -, ordered⟩
  rw [first] at shown
  rw [second] at other
  cases shown
  cases other
  have earlier := ordered (by decide)
  rw [String.ofList_toList, String.ofList_toList] at earlier
  exact ⟨read, reads, inUtc, rounded, earlier⟩

end DateTime
end SchemaMigration
