import SchemaMigration.Value.Text

namespace SchemaMigration.Json

/-- How a text is laid out: what stands between items and after keys, and how deep lines go in. -/
structure Layout where
  asciiOnly : Bool
  itemSeparator : List Char
  keySeparator : List Char
  indent : Option Nat

def Layout.compact : Layout := ⟨false, [','], [':'], none⟩

def Layout.spaced : Layout := ⟨true, [',', ' '], [':', ' '], none⟩

def Layout.indented : Layout := ⟨true, [','], [':', ' '], some 2⟩

def Layout.lineBreak (layout : Layout) (level : Nat) : List Char :=
  match layout.indent with
  | none => []
  | some width => '\n' :: List.replicate (width * level) ' '

def unicodeEscape (unit : Nat) : List Char := '\\' :: 'u' :: Text.hex 4 unit

def escape (asciiOnly : Bool) (c : Char) : List Char :=
  if c == '"' then ['\\', '"']
  else if c == '\\' then ['\\', '\\']
  else if c == '\n' then ['\\', 'n']
  else if c == '\r' then ['\\', 'r']
  else if c == '\t' then ['\\', 't']
  else if c == '\x0c' then ['\\', 'f']
  else if c == '\x08' then ['\\', 'b']
  else if c.toNat < 32 then unicodeEscape c.toNat
  else if !asciiOnly || c.toNat < 127 then [c]
  else if c.toNat < 0x10000 then unicodeEscape c.toNat
  else
    let beyond := c.toNat - 0x10000
    unicodeEscape (0xd800 + beyond / 1024) ++ unicodeEscape (0xdc00 + beyond % 1024)

def stringText (asciiOnly : Bool) (s : List Char) : List Char :=
  '"' :: s.flatMap (escape asciiOnly) ++ ['"']

def floatText : Double → List Char
  | .nan => "NaN".toList
  | .infinite negative => if negative then "-Infinity".toList else "Infinity".toList
  | x => x.text

def substitute? : Value → Option String
  | .date d => some (String.ofList d.text)
  | .datetime t => some (String.ofList t.isoText)
  | .decimal d => some (String.ofList d.text)
  | _ => none

/-- The text that is written in the place of a value, which has to be a date or a decimal. -/
def standIn (v : Value) : Except Fault String :=
  match substitute? v with
  | some text => .ok text
  | none => .error (.notSerializable v.kindName)

def leafText (layout : Layout) : Value → List Char
  | .null => "null".toList
  | .bool b => if b then "true".toList else "false".toList
  | .int n => Numeral.ofInt n
  | .float x => floatText x
  | .str s => stringText layout.asciiOnly s.toList
  | v => stringText layout.asciiOnly ((substitute? v).getD "").toList

/-- Parts between two marks, each on its own line where the layout has lines. -/
def block (layout : Layout) (level : Nat) (first last : Char) (parts : List (List Char)) : List Char :=
  if parts.isEmpty then [first, last]
  else
    let inner := layout.lineBreak (level + 1)
    first :: inner ++ List.intercalate (layout.itemSeparator ++ inner) parts ++
      layout.lineBreak level ++ [last]

mutual

def valueText (layout : Layout) (level : Nat) : Value → List Char
  | .list items | .tuple items => block layout level '[' ']' (itemTexts layout (level + 1) items)
  | .dict entries => block layout level '\x7b' '\x7d' (entryTexts layout (level + 1) entries)
  | v => leafText layout v

def itemTexts (layout : Layout) (level : Nat) : List Value → List (List Char)
  | [] => []
  | v :: rest => valueText layout level v :: itemTexts layout level rest

def entryTexts (layout : Layout) (level : Nat) : List (String × Value) → List (List Char)
  | [] => []
  | (k, v) :: rest =>
    (stringText layout.asciiOnly k.toList ++ layout.keySeparator ++ valueText layout level v) ::
      entryTexts layout level rest

end

def write (layout : Layout) (v : Value) : String := String.ofList (valueText layout 0 v)

mutual

/-- What stands in the way of writing a value, in the order of the text. -/
def faults : Value → List Fault
  | .int n => if n.natAbs < Value.integerLimit then [] else [.integerTooLong]
  | .foreign kind => [.notSerializable kind]
  | .list items | .tuple items => itemFaults items
  | .dict entries => entryFaults entries
  | _ => []

def itemFaults : List Value → List Fault
  | [] => []
  | v :: rest => faults v ++ itemFaults rest

def entryFaults : List (String × Value) → List Fault
  | [] => []
  | (_, v) :: rest => faults v ++ entryFaults rest

end

end SchemaMigration.Json
