/-!
Options among arguments. A long option is two dashes and a word, with its value behind an equals
sign or in the next argument; a short one is a dash and a character, with its value right behind it
or in the next argument, and several without values may share a dash. A value may begin with a dash.
Two dashes alone end the options.
-/
namespace SchemaMigration

structure Flag (κ : Type) where
  key : κ
  takesValue : Bool := false

abbrev FlagTable (κ : Type) := List (String × Flag κ)

namespace FlagTable

/-- Options that were given, in order, each with its value, and the arguments that follow. -/
abbrev Found (κ : Type) := List (κ × String) × List String

def takeNext {κ : Type} (key : κ) : List String → Option (Found κ)
  | [] => none
  | value :: rest => some ([(key, value)], rest)

def readLong {κ : Type} (flag : Flag κ) (attached : Option String) (rest : List String) :
    Option (Found κ) :=
  match flag.takesValue, attached with
  | true, some value => some ([(flag.key, value)], rest)
  | true, none => takeNext flag.key rest
  | false, some _ => none
  | false, none => some ([(flag.key, "")], rest)

def readShort {κ : Type} (table : FlagTable κ) : List Char → List String → Option (Found κ)
  | [], rest => some ([], rest)
  | c :: cs, rest => do
    let flag ← table.lookup (String.ofList ['-', c])
    if flag.takesValue then
      if cs.isEmpty then takeNext flag.key rest else some ([(flag.key, String.ofList cs)], rest)
    else do
      let (found, rest) ← readShort table cs rest
      return ((flag.key, "") :: found, rest)

/-- The name of an option and the value behind an equals sign. -/
def splitAttached (option : List Char) : String × Option String :=
  match option.dropWhile (· != '=') with
  | [] => (String.ofList option, none)
  | _ :: value => (String.ofList (option.takeWhile (· != '=')), some (String.ofList value))

def isLong : List Char → Bool
  | '-' :: '-' :: _ => true
  | _ => false

def isOption : List Char → Bool
  | '-' :: _ :: _ => true
  | _ => false

def readOption {κ : Type} (table : FlagTable κ) (option : List Char) (rest : List String) :
    Option (Found κ) :=
  if isLong option then do
    let (name, attached) := splitAttached option
    let flag ← table.lookup name
    readLong flag attached rest
  else readShort table option.tail rest

/--
The options of some arguments and the others. With `mixed`, options may follow other arguments;
otherwise the first argument that is no option ends them.
-/
def parseFuel {κ : Type} (table : FlagTable κ) (mixed : Bool) : Nat → List String → Option (Found κ)
  | 0, _ | _, [] => some ([], [])
  | fuel + 1, arg :: rest =>
    if arg == "--" then some ([], rest)
    else if isOption arg.toList then do
      let (first, rest) ← readOption table arg.toList rest
      let (found, rest) ← parseFuel table mixed fuel rest
      return (first ++ found, rest)
    else if mixed then do
      let (found, rest) ← parseFuel table mixed fuel rest
      return (found, arg :: rest)
    else some ([], arg :: rest)

def parse {κ : Type} (table : FlagTable κ) (mixed : Bool) (args : List String) : Option (Found κ) :=
  parseFuel table mixed args.length args

end FlagTable

def lastValue? {κ : Type} [BEq κ] (found : List (κ × String)) (key : κ) : Option String :=
  found.reverse.lookup key

end SchemaMigration
