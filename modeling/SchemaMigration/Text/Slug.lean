/-!
File-name-safe forms of free text: lower-case ASCII letters, digits, underscores and dashes, never
empty and never starting or ending in a dash.
-/
namespace SchemaMigration.Slug

def isSlugChar (c : Char) : Bool :=
  c.isLower || c.isDigit || c == '_' || c == '-'

/--
A space becomes a dash and a letter its lower case. Two letters outside ASCII have a lower case
inside it: the dotted capital I and the kelvin sign. Any other character is left out.
-/
def ofChar (c : Char) : List Char :=
  if c == ' ' then ['-']
  else if c.isUpper then [c.toLower]
  else if c == '\u0130' then ['i']
  else if c == '\u212a' then ['k']
  else if isSlugChar c then [c]
  else []

def trimDashes (s : List Char) : List Char :=
  ((s.dropWhile (· == '-')).reverse.dropWhile (· == '-')).reverse

def ofText (name : String) : String :=
  match trimDashes (name.toList.flatMap ofChar) with
  | [] => "migration"
  | slug => String.ofList slug

end SchemaMigration.Slug
