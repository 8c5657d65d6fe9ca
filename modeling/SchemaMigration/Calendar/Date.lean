import SchemaMigration.Text.Numeral

namespace SchemaMigration

namespace Calendar

def isLeap (year : Nat) : Bool :=
  year % 4 == 0 && (year % 100 != 0 || year % 400 == 0)

def monthLength (year : Nat) : Nat → Nat
  | 2 => if isLeap year then 29 else 28
  | 4 | 6 | 9 | 11 => 30
  | _ => 31

def daysBeforeYear (year : Nat) : Nat :=
  let past := year - 1
  past * 365 + past / 4 - past / 100 + past / 400

def daysBeforeMonth (year : Nat) : Nat → Nat
  | 0 => 0
  | 1 => 0
  | month + 1 => daysBeforeMonth year month + monthLength year month

end Calendar

structure Date where
  year : Nat
  month : Nat
  day : Nat
  inCalendar : 1 ≤ year ∧ year ≤ 9999 ∧ 1 ≤ month ∧ month ≤ 12 ∧ 1 ≤ day ∧
    day ≤ Calendar.monthLength year month
  deriving DecidableEq

namespace Date
open Calendar

def ofFields? (year month day : Nat) : Option Date :=
  if h : 1 ≤ year ∧ year ≤ 9999 ∧ 1 ≤ month ∧ month ≤ 12 ∧ 1 ≤ day ∧ day ≤ monthLength year month then
    some ⟨year, month, day, h⟩
  else none

/-- The number of the day; the first day of year 1 has number one. -/
def number (d : Date) : Nat :=
  daysBeforeYear d.year + daysBeforeMonth d.year d.month + d.day

/-- The year that holds the day `past` days after the first day of year 1. -/
def yearOf (past : Nat) : Nat :=
  let guess := past * 400 / 146097 + 1
  if past < daysBeforeYear guess then guess - 1
  else if daysBeforeYear (guess + 1) ≤ past then guess + 1
  else guess

/-- The month and the day of the month, searched from `month` on, `past` days after its first. -/
def monthFrom (year month past : Nat) : Nat → Nat × Nat
  | 0 => (month, past + 1)
  | more + 1 =>
    if past < monthLength year month then (month, past + 1)
    else monthFrom year (month + 1) (past - monthLength year month) more

def ofNumber? : Nat → Option Date
  | 0 => none
  | past + 1 =>
    let year := yearOf past
    let (month, day) := monthFrom year 1 (past - daysBeforeYear year) 11
    ofFields? year month day

/-- The weekday, Monday being zero. -/
def weekday (d : Date) : Nat := (d.number + 6) % 7

def text (d : Date) : List Char :=
  Numeral.padded 4 d.year ++ '-' :: Numeral.padded 2 d.month ++ '-' :: Numeral.padded 2 d.day

end Date
end SchemaMigration
