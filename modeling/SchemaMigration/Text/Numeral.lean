namespace SchemaMigration.Numeral

def digits (n : Nat) : List Char := Nat.toDigits 10 n

def padded (width n : Nat) : List Char :=
  List.replicate (width - (digits n).length) '0' ++ digits n

def ofInt : Int → List Char
  | .ofNat n => digits n
  | .negSucc n => '-' :: digits (n + 1)

def value (ds : List Char) : Nat := Nat.ofDigitChars 10 ds 0

def span : List Char → List Char × List Char
  | [] => ([], [])
  | c :: rest => if c.isDigit then (c :: (span rest).1, (span rest).2) else ([], c :: rest)

/-- Exactly `count` leading ASCII digits, as a number, and what follows them. -/
def take? (count : Nat) (s : List Char) : Option (Nat × List Char) :=
  let field := s.take count
  if field.length == count && field.all Char.isDigit then some (value field, s.drop count) else none

/-- The zero of every decimal numeral system; its nine successors are the other digits. -/
def zeros : List Nat :=
  [
   48, 1632, 1776, 1984, 2406, 2534, 2662, 2790, 2918, 3046, 3174, 3302,
   3430, 3558, 3664, 3792, 3872, 4160, 4240, 6112, 6160, 6470, 6608, 6784,
   6800, 6992, 7088, 7232, 7248, 42528, 43216, 43264, 43472, 43504, 43600, 44016,
   65296, 66720, 68912, 69734, 69872, 69942, 70096, 70384, 70736, 70864, 71248, 71360,
   71472, 71904, 72016, 72784, 73040, 73120, 92768, 92864, 93008, 120782, 120792, 120802,
   120812, 120822, 123200, 123632, 125264, 130032
  ]

def isDecimalDigit (c : Char) : Bool :=
  c.isDigit || zeros.any fun start => start ≤ c.toNat && c.toNat < start + 10

end SchemaMigration.Numeral
