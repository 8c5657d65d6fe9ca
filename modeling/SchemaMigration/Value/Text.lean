import SchemaMigration.Fault
import SchemaMigration.Text.Quoted
import SchemaMigration.Value.Basic

namespace SchemaMigration.Value

def commaSeparated (parts : List String) : String := String.intercalate ", " parts

/-- A span of time by its days, seconds and microseconds, of which only the days may be negative. -/
def spanText (micros : Int) : String :=
  let day : Int := Calendar.microsPerDay
  let days := Int.fdiv micros day
  let rest := (micros - days * day).toNat
  let part (name : String) (n : Int) : List String :=
    if n == 0 then [] else [name ++ "=" ++ String.ofList (Numeral.ofInt n)]
  let parts := part "days" days ++ part "seconds" (rest / Calendar.microsPerSecond : Nat) ++
    part "microseconds" (rest % Calendar.microsPerSecond : Nat)
  "datetime.timedelta(" ++ (if parts.isEmpty then "0" else commaSeparated parts) ++ ")"

def numberText (n : Nat) : String := String.ofList (Numeral.digits n)

def dateNamed (d : Date) : String :=
  "datetime.date(" ++ commaSeparated [numberText d.year, numberText d.month, numberText d.day] ++ ")"

def zoneText (offset : UtcOffset) : String :=
  if offset.micros == 0 then "datetime.timezone.utc"
  else "datetime.timezone(" ++ spanText offset.micros ++ ")"

def datetimeNamed (t : DateTime) : String :=
  let d := t.date
  let clock := t.clock.val
  let micros := clock % Calendar.microsPerSecond
  let seconds := Calendar.second clock
  let tail :=
    if micros != 0 then [numberText seconds, numberText micros]
    else if seconds != 0 then [numberText seconds] else []
  let zone := match t.offset with
    | none => []
    | some o => ["tzinfo=" ++ zoneText o]
  "datetime.datetime(" ++
    commaSeparated ([d.year, d.month, d.day, Calendar.hour clock, Calendar.minute clock].map numberText ++
      tail ++ zone) ++ ")"

def leafNamed : Value → String
  | .null => "None"
  | .bool b => if b then "True" else "False"
  | .int n => String.ofList (Numeral.ofInt n)
  | .float x => String.ofList x.text
  | .str s => SchemaMigration.Text.quoted s
  | .decimal d => "Decimal('" ++ String.ofList d.text ++ "')"
  | .date d => dateNamed d
  | .datetime t => datetimeNamed t
  | .foreign kind => "<" ++ kind ++ ">"
  | .list _ | .tuple _ | .dict _ => ""

mutual

def named : Value → String
  | .list items => "[" ++ commaSeparated (allNamed items) ++ "]"
  | .tuple items =>
    match allNamed items with
    | [only] => "(" ++ only ++ ",)"
    | parts => "(" ++ commaSeparated parts ++ ")"
  | .dict entries => "\x7b" ++ commaSeparated (entriesNamed entries) ++ "\x7d"
  | v => leafNamed v

def allNamed : List Value → List String
  | [] => []
  | v :: rest => named v :: allNamed rest

def entriesNamed : List (String × Value) → List String
  | [] => []
  | (k, v) :: rest => (SchemaMigration.Text.quoted k ++ ": " ++ named v) :: entriesNamed rest

end

def text : Value → String
  | .str s => s
  | .decimal d => String.ofList d.text
  | .date d => String.ofList d.text
  | .datetime t => String.ofList (t.textWith ' ')
  | v => named v

def integerLimit : Nat := tenTo 4300

mutual

def textFaults : Value → List Fault
  | .int n => if n.natAbs < integerLimit then [] else [.integerTooLong]
  | .list items | .tuple items => allTextFaults items
  | .dict entries => entriesTextFaults entries
  | _ => []

def allTextFaults : List Value → List Fault
  | [] => []
  | v :: rest => textFaults v ++ allTextFaults rest

def entriesTextFaults : List (String × Value) → List Fault
  | [] => []
  | (_, v) :: rest => textFaults v ++ entriesTextFaults rest

end

end SchemaMigration.Value
