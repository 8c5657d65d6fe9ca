import SchemaMigration.Calendar.Date
/-!
Points in time: a day, a time of day in microseconds and, for an aware one, the distance of its
clock from UTC. Aware ones are written for a database in UTC, to the millisecond.
-/
namespace SchemaMigration

namespace Calendar

def microsPerSecond : Nat := 1000000
def microsPerDay : Nat := 86400000000

end Calendar

/-- How far a clock is ahead of UTC: less than a day, in microseconds. -/
structure UtcOffset where
  micros : Int
  inDay : micros.natAbs < Calendar.microsPerDay
  deriving DecidableEq

structure DateTime where
  date : Date
  clock : Fin Calendar.microsPerDay
  offset : Option UtcOffset
  deriving DecidableEq

/-- Why a number of seconds since the start of 1970 is no point in time. -/
inductive ClockFault where
  | yearOutOfRange
  /-- The year counted from 1900 does not fit into 32 bits. -/
  | yearTooLarge
  | secondsTooLarge
  deriving DecidableEq

/-- The first and the last second of the years that fit into 32 bits when counted from 1900. -/
def ClockFault.firstSecond : Int := -67768040609740800
def ClockFault.lastSecond : Int := 67768036191676799

def ClockFault.ofSeconds (seconds : Int) : ClockFault :=
  if firstSecond ≤ seconds && seconds ≤ lastSecond then .yearOutOfRange
  else if -9223372036854775808 ≤ seconds && seconds ≤ 9223372036854775807 then .yearTooLarge
  else .secondsTooLarge

namespace Calendar

def second (clock : Nat) : Nat := clock / microsPerSecond % 60
def minute (clock : Nat) : Nat := clock / (60 * microsPerSecond) % 60
def hour (clock : Nat) : Nat := clock / (3600 * microsPerSecond)

/-- The time of day as `HH:MM:SS`. -/
def clockText (clock : Nat) : List Char :=
  Numeral.padded 2 (hour clock) ++ ':' :: Numeral.padded 2 (minute clock) ++
    ':' :: Numeral.padded 2 (second clock)

/-- A point and six digits; nothing for a whole second. -/
def fractionText (clock : Nat) : List Char :=
  let micros := clock % microsPerSecond
  if micros == 0 then [] else '.' :: Numeral.padded 6 micros

/-- A point and three digits, the rest of the second cut off. -/
def millisText (clock : Nat) : List Char :=
  '.' :: Numeral.padded 3 (clock % microsPerSecond / 1000)

def clockOf? (hour minute second micros : Nat) : Option (Fin microsPerDay) :=
  let clock := ((hour * 60 + minute) * 60 + second) * microsPerSecond + micros
  if h : hour ≤ 23 ∧ minute ≤ 59 ∧ second ≤ 59 ∧ micros ≤ 999999 then
    some ⟨clock, by simp only [clock, microsPerDay, microsPerSecond]; omega⟩
  else none

end Calendar

namespace UtcOffset
open Calendar

def ofMicros? (micros : Int) : Option UtcOffset :=
  if h : micros.natAbs < microsPerDay then some ⟨micros, h⟩ else none

/-- `+HH:MM`, followed by seconds and a fraction where they are not zero. -/
def text (o : UtcOffset) : List Char :=
  let distance := o.micros.natAbs
  let seconds :=
    if second distance == 0 && distance % microsPerSecond == 0 then []
    else ':' :: Numeral.padded 2 (second distance) ++ fractionText distance
  (if o.micros < 0 then '-' else '+') :: Numeral.padded 2 (hour distance) ++
    ':' :: Numeral.padded 2 (minute distance) ++ seconds

end UtcOffset

namespace DateTime
open Calendar

def textWith (separator : Char) (t : DateTime) : List Char :=
  t.date.text ++ separator :: clockText t.clock ++ fractionText t.clock ++
    (match t.offset with
      | none => []
      | some o => o.text)

def isoText (t : DateTime) : List Char := t.textWith 'T'

/-- Microseconds from the start of the calendar on the clock's own face. -/
def localMicros (t : DateTime) : Nat :=
  (t.date.number - 1) * microsPerDay + t.clock

def instant? (t : DateTime) : Option Int :=
  t.offset.map fun o => t.localMicros - o.micros

/-- The point in time without an offset; the years 1 to 9999 bound it. -/
def ofLocalMicros? (micros : Int) : Option DateTime :=
  if micros < 0 then none
  else (Date.ofNumber? (micros.toNat / microsPerDay + 1)).map fun date =>
    ⟨date, ⟨micros.toNat % microsPerDay, Nat.mod_lt _ (by decide)⟩, none⟩

def inUtc? (t : DateTime) : Option DateTime :=
  t.instant?.bind ofLocalMicros?

def utc : UtcOffset := ⟨0, by decide⟩

def ofUnixSeconds (seconds : Int) : Except ClockFault DateTime :=
  match ofLocalMicros? ((seconds + 62135596800) * microsPerSecond) with
  | some t => .ok { t with offset := some utc }
  | none => .error (ClockFault.ofSeconds seconds)

def toMillis (t : DateTime) : List Char :=
  t.date.text ++ 'T' :: clockText t.clock ++ millisText t.clock

/--
The text of a default: aware ones in UTC with a `Z`. There is none when the instant lies outside
the calendar.
-/
def sqlText? (t : DateTime) : Option (List Char) :=
  match t.offset with
  | none => some t.toMillis
  | some _ => t.inUtc?.map fun u => u.toMillis ++ ['Z']

end DateTime
end SchemaMigration
