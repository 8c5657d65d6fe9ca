import SchemaMigration.Dialect
import SchemaMigration.Value.Text

namespace SchemaMigration.Sql

def doubleQuotes (s : List Char) : List Char :=
  s.flatMap fun c => if c == '\x27' then [c, c] else [c]

def literalChars (s : List Char) : List Char := '\x27' :: doubleQuotes s ++ ['\x27']

def escapeQuotes (s : String) : String := String.ofList (doubleQuotes s.toList)

def literal (s : String) : String := String.ofList (literalChars s.toList)

def literals (values : List String) : String := String.intercalate ", " (values.map literal)

def nameMark : Dialect → String
  | .mysql => "\x60"
  | .postgres | .sqlite => "\""

def quoted (d : Dialect) (name : Value) : String := nameMark d ++ name.text ++ nameMark d

def booleanLiteral (d : Dialect) (b : Bool) : String :=
  match d, b with
  | .postgres, true => "true"
  | .postgres, false => "false"
  | _, true => "1"
  | _, false => "0"

end SchemaMigration.Sql
