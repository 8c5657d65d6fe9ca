import SchemaMigration.Text.Quoted

namespace SchemaMigration.Identifier

def isHead (c : Char) : Bool := c.isAlpha || c == '_'

def isTail (c : Char) : Bool := c.isAlphanum || c == '_'

def wellFormed : List Char → Bool
  | [] => false
  | c :: rest => isHead c && rest.all isTail

/-- One line break after the name is let through. -/
def dropFinalNewline (s : List Char) : List Char :=
  if s.getLast? == some '\n' then s.dropLast else s

def accepts (name : String) : Bool := wellFormed (dropFinalNewline name.toList)

def refusal (context name : String) : String :=
  "Invalid " ++ context ++ ": " ++ Text.quoted name ++
    ". Only letters, digits, and underscores are allowed (must start with a letter or underscore)."

end SchemaMigration.Identifier
