import SchemaMigration.Calendar.DateTime
/-!
Reading points in time in the forms of ISO 8601: extended and basic dates, week dates, one
character of any kind before the time, fractions after a point or a comma, offsets and `Z`.
-/
namespace SchemaMigration.Iso
open Calendar

inductive Refusal where
  | malformed
  | outOfRange
  deriving DecidableEq

def malformedUnless {α : Type} : Option α → Except Refusal α
  | some a => .ok a
  | none => .error .malformed

def rangedUnless {α : Type} : Option α → Except Refusal α
  | some a => .ok a
  | none => .error .outOfRange

def digitAt (s : List Char) (i : Nat) : Bool :=
  match s[i]? with
  | some c => c.isDigit
  | none => false

/--
Where the date ends. A week date may lack its weekday; with dashes a two-digit group after it is
then taken for the hour, and without dashes the parity of the digit run tells.
-/
def dateLength (s : List Char) : Option Nat :=
  if s.length == 7 then some 7
  else if s[4]? == some '-' then
    if s[5]? == some 'W' then
      if s.length < 8 then none
      else if s[8]? == some '-' then
        if s.length == 9 then none
        else if digitAt s 10 then some 8
        else some 10
      else some 8
    else some 10
  else if s[4]? == some 'W' then
    let run := ((s.drop 7).takeWhile Char.isDigit).length
    if run < 2 then some (7 + run)
    else if run % 2 == 1 then some 7
    else some 8
  else some 8

/-- The Monday of the first week of a year, the week with the year's first Thursday. -/
def firstMonday (newYear : Date) : Nat :=
  if newYear.weekday ≤ 3 then newYear.number - newYear.weekday
  else newYear.number + 7 - newYear.weekday

/-- Weeks of a year: one more when it starts, or in a leap year ends, on a Thursday. -/
def weeksOf (newYear : Date) : Nat :=
  if newYear.weekday == 3 || (newYear.weekday == 2 && isLeap newYear.year) then 53 else 52

/-- The day of a week date. The year 0 has 52 weeks, all of them before the calendar starts. -/
def ofWeek? (year week day : Nat) : Option (Nat × Nat × Nat) :=
  let newYear := Date.ofFields? year 1 1
  let weeks := (newYear.map weeksOf).getD 52
  if week == 0 || weeks < week || day == 0 || 7 < day then none
  else match newYear with
    | none => some (0, 1, 1)
    | some newYear =>
      let past := firstMonday newYear + (week - 1) * 7 + day - 2
      let y := Date.yearOf past
      let (month, d) := Date.monthFrom y 1 (past - daysBeforeYear y) 11
      some (y, month, d)

/-- Year, month and day, whose ranges are not yet checked. -/
def dateFields? (s : List Char) : Option (Nat × Nat × Nat) := do
  let (year, rest) ← Numeral.take? 4 s
  let dashed := rest.head? == some '-'
  let rest := if dashed then rest.drop 1 else rest
  if rest.head? == some 'W' then
    let (week, rest) ← Numeral.take? 2 (rest.drop 1)
    if rest.isEmpty then ofWeek? year week 1
    else
      let rest ← if dashed then (if rest.head? == some '-' then some (rest.drop 1) else none) else some rest
      let (day, _) ← Numeral.take? 1 rest
      ofWeek? year week day
  else
    let (month, rest) ← Numeral.take? 2 rest
    let rest ← if dashed then (if rest.head? == some '-' then some (rest.drop 1) else none) else some rest
    let (day, _) ← Numeral.take? 2 rest
    some (year, month, day)

structure ClockFields where
  hour : Nat := 0
  minute : Nat := 0
  second : Nat := 0
  micros : Nat := 0

def ClockFields.total (f : ClockFields) : Nat :=
  ((f.hour * 60 + f.minute) * 60 + f.second) * microsPerSecond + f.micros

/-- The text ends, or a character with the code zero ends it. -/
def isOver : List Char → Bool
  | [] => true
  | c :: _ => c == '\x00'

/--
A fraction of up to six digits, and whether anything but digits follows them. Missing digits are
zeros, further ones are cut off.
-/
def fraction? (s : List Char) : Option (Nat × Bool) :=
  let field := s.take 6
  if !field.all Char.isDigit then none
  else some (Numeral.value ((field ++ List.replicate 6 '0').take 6),
    !isOver ((s.drop 6).dropWhile Char.isDigit))

inductive Continuation where
  | done (loose : Bool)
  | field (rest : List Char)
  | fraction (rest : List Char)
  | broken

/--
With `colons` a colon leads to the next field, otherwise the next field follows at once. A mark
leads to the fraction. One ASCII character at the end is loose, unless it has the code zero.
-/
def continuation (colons : Bool) : List Char → Continuation
  | [] => .done false
  | [c] => if c.toNat < 128 then .done (c != '\x00') else .broken
  | c :: rest =>
    if colons && c == ':' then .field rest
    else if c == '.' || c == ',' then .fraction rest
    else if colons then .broken
    else .field (c :: rest)

/-- The fields and whether the text goes on after them; later fields are zero if it ends earlier. -/
def clockFields? (s : List Char) : Option (ClockFields × Bool) := do
  let (hour, rest) ← Numeral.take? 2 s
  let colons := rest.head? == some ':'
  match continuation colons rest with
  | .done loose => some ({ hour }, loose)
  | .broken => none
  | .fraction rest => (fraction? rest).map fun (micros, loose) => ({ hour, micros }, loose)
  | .field rest => do
    let (minute, rest) ← Numeral.take? 2 rest
    match continuation colons rest with
    | .done loose => some ({ hour, minute }, loose)
    | .broken => none
    | .fraction rest => (fraction? rest).map fun (micros, loose) => ({ hour, minute, micros }, loose)
    | .field rest => do
      let (second, rest) ← Numeral.take? 2 rest
      match continuation colons rest with
      | .done loose => some ({ hour, minute, second }, loose)
      | .broken => none
      | .fraction rest | .field rest =>
        (fraction? rest).map fun (micros, loose) => (⟨hour, minute, second, micros⟩, loose)

def isZoneMark (c : Char) : Bool := c == '+' || c == '-' || c == 'Z'

/-- An offset of less than a second is none. -/
def offsetOf (ahead : Bool) (f : ClockFields) : Int :=
  if f.total < microsPerSecond then 0 else if ahead then f.total else -f.total

/-- The time and the offset in microseconds. Only before an offset may anything be loose. -/
def timeFields? (s : List Char) : Option (ClockFields × Option Int) := do
  let (face, loose) ← clockFields? (s.takeWhile fun c => !isZoneMark c)
  match s.dropWhile fun c => !isZoneMark c with
  | [] => if loose then none else some (face, none)
  | 'Z' :: rest => if isOver rest then some (face, some 0) else none
  | sign :: rest => do
    let (distance, loose) ← clockFields? rest
    if loose then none else some (face, some (offsetOf (sign == '+') distance))

def read (s : List Char) : Except Refusal DateTime := do
  let length ← malformedUnless (if s.length < 7 then none else dateLength s)
  let (year, month, day) ← malformedUnless (dateFields? (s.take length))
  let (face, distance) ← malformedUnless <|
    if s.length ≤ length then some ({}, none) else timeFields? (s.drop (length + 1))
  let offset ← match distance with
    | none => pure none
    | some micros => (rangedUnless (UtcOffset.ofMicros? micros)).map some
  let date ← rangedUnless (Date.ofFields? year month day)
  let clock ← rangedUnless (clockOf? face.hour face.minute face.second face.micros)
  return ⟨date, clock, offset⟩

end SchemaMigration.Iso
