import SchemaMigration.Value.Basic
/-!
The tokens of a JSON text. `NaN` and the two infinities count as numbers. Where a text is broken the
tokens end with `malformed`; an integer too long to be held is a token of its own, so that the
first of the two in the text is the one a reader meets.
-/
namespace SchemaMigration.Json

inductive Token where
  | listOpen
  | listClose
  | dictOpen
  | dictClose
  | comma
  | colon
  | leaf (v : Value)
  | integerTooLong
  | malformed

def isBlank (c : Char) : Bool := c == ' ' || c == '\t' || c == '\n' || c == '\r'

def hexValue? (c : Char) : Option Nat :=
  if c.isDigit then some (c.toNat - 48)
  else if 'a' ≤ c && c ≤ 'f' then some (c.toNat - 87)
  else if 'A' ≤ c && c ≤ 'F' then some (c.toNat - 55)
  else none

def hexUnit? (a b c d : Char) : Option Nat := do
  let a ← hexValue? a
  let b ← hexValue? b
  let c ← hexValue? c
  let d ← hexValue? d
  return ((a * 16 + b) * 16 + c) * 16 + d

def escaped? : Char → Option Nat
  | '"' => some 34
  | '\\' => some 92
  | '/' => some 47
  | 'b' => some 8
  | 'f' => some 12
  | 'n' => some 10
  | 'r' => some 13
  | 't' => some 9
  | _ => none

def prepend (unit : Nat) : Option (List Nat × List Char) → Option (List Nat × List Char)
  | some (units, rest) => some (unit :: units, rest)
  | none => none

/-- The units of a text up to the closing quote, and what follows the quote. -/
def units? : List Char → Option (List Nat × List Char)
  | [] => none
  | '"' :: rest => some ([], rest)
  | '\\' :: 'u' :: a :: b :: c :: d :: rest =>
    match hexUnit? a b c d with
    | some unit => prepend unit (units? rest)
    | none => none
  | '\\' :: c :: rest =>
    match escaped? c with
    | some unit => prepend unit (units? rest)
    | none => none
  | c :: rest => if c.toNat < 32 || c == '\\' then none else prepend c.toNat (units? rest)

def isHighSurrogate (unit : Nat) : Bool := 0xd800 ≤ unit && unit < 0xdc00
def isLowSurrogate (unit : Nat) : Bool := 0xdc00 ≤ unit && unit < 0xe000

/-- A high and a low surrogate make one character; one alone is replaced. -/
def joinUnits : List Nat → List Char
  | [] => []
  | [unit] => [if isHighSurrogate unit || isLowSurrogate unit then '\ufffd' else Char.ofNat unit]
  | unit :: next :: rest =>
    if isHighSurrogate unit && isLowSurrogate next then
      Char.ofNat (0x10000 + (unit - 0xd800) * 1024 + (next - 0xdc00)) :: joinUnits rest
    else
      (if isHighSurrogate unit || isLowSurrogate unit then '\ufffd' else Char.ofNat unit) ::
        joinUnits (next :: rest)

def digitLimit : Nat := 4300

/-- The integer part: a zero alone, or digits that do not start with one. -/
def integerPart (s : List Char) : List Char × List Char :=
  match s with
  | '0' :: rest => (['0'], rest)
  | _ => Numeral.span s

def fractionPart : List Char → List Char × List Char
  | '.' :: rest =>
    match Numeral.span rest with
    | ([], _) => ([], '.' :: rest)
    | found => found
  | s => ([], s)

def exponentPart? : List Char → Option (Int × List Char)
  | c :: rest =>
    if c == 'e' || c == 'E' then
      let (negative, rest) := match rest with
        | '-' :: tail => (true, tail)
        | '+' :: tail => (false, tail)
        | _ => (false, rest)
      match Numeral.span rest with
      | ([], _) => none
      | (ds, tail) => some (if negative then -(Numeral.value ds : Int) else Numeral.value ds, tail)
    else none
  | [] => none

def number? (negative : Bool) (s : List Char) : Option (Token × List Char) :=
  match integerPart s with
  | ([], _) => none
  | (whole, rest) =>
    let (fraction, rest) := fractionPart rest
    match fraction, exponentPart? rest with
    | [], none =>
      if digitLimit < whole.length then some (.integerTooLong, rest)
      else
        let n : Int := Numeral.value whole
        some (.leaf (.int (if negative then -n else n)), rest)
    | _, power =>
      let exponent := (power.map (·.1)).getD 0 - fraction.length
      let rest := (power.map (·.2)).getD rest
      some (.leaf (.float (.ofDecimal negative (Numeral.value (whole ++ fraction)) exponent)), rest)

def after? : List Char → List Char → Option (List Char)
  | [], s => some s
  | _ :: _, [] => none
  | c :: word, d :: s => if c == d then after? word s else none

def word? (s : List Char) : Option (Token × List Char) :=
  let word (w : String) (v : Value) : Option (Token × List Char) :=
    (after? w.toList s).map fun rest => (.leaf v, rest)
  word "null" .null <|> word "true" (.bool true) <|> word "false" (.bool false) <|>
    word "NaN" (.float .nan) <|> word "Infinity" (.float (.infinite false)) <|>
    word "-Infinity" (.float (.infinite true)) <|>
    match s with
    | '-' :: rest => number? true rest
    | _ => number? false s

def step? : List Char → Option (Token × List Char)
  | '[' :: rest => some (.listOpen, rest)
  | ']' :: rest => some (.listClose, rest)
  | '\x7b' :: rest => some (.dictOpen, rest)
  | '\x7d' :: rest => some (.dictClose, rest)
  | ',' :: rest => some (.comma, rest)
  | ':' :: rest => some (.colon, rest)
  | '"' :: rest => (units? rest).map fun (units, rest) => (.leaf (.str (String.ofList (joinUnits units))), rest)
  | s => word? s

/-- The tokens of a text of at most `fuel` characters. -/
def tokensFrom : Nat → List Char → List Token
  | 0, _ => []
  | fuel + 1, s =>
    match s.dropWhile isBlank with
    | [] => []
    | c :: rest =>
      match step? (c :: rest) with
      | some (token, rest) => token :: tokensFrom fuel rest
      | none => [.malformed]

def tokens (s : List Char) : List Token := tokensFrom s.length s

end SchemaMigration.Json
