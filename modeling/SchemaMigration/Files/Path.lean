/-!
Paths of files: a root, which is empty for a relative path, and components. Empty components and
single dots are left out; two dots are kept, since they may lead through a link.
-/
namespace SchemaMigration

structure FilePath where
  root : String := ""
  components : List String := []
  deriving DecidableEq

namespace FilePath

def splitSlashes : List Char → List (List Char)
  | [] => [[]]
  | c :: rest =>
    if c == '/' then [] :: splitSlashes rest
    else match splitSlashes rest with
      | [] => [[c]]
      | part :: parts => (c :: part) :: parts

/-- Two leading slashes make a root of their own; three or more are one. -/
def rootOf : List Char → String
  | '/' :: '/' :: '/' :: _ => "/"
  | '/' :: '/' :: _ => "//"
  | '/' :: _ => "/"
  | _ => ""

def ofString (s : String) : FilePath :=
  ⟨rootOf s.toList,
    ((splitSlashes s.toList).map String.ofList).filter fun part => part != "" && part != "."⟩

def text (p : FilePath) : String :=
  if p.root == "" && p.components.isEmpty then "."
  else p.root ++ String.intercalate "/" p.components

def name (p : FilePath) : String := p.components.getLast?.getD ""

def parent (p : FilePath) : FilePath := { p with components := p.components.dropLast }

def child (p : FilePath) (name : String) : FilePath :=
  { p with components := p.components ++ [name] }

/-- The path beside this one with another name; the path of a directory alone has none. -/
def withName? (p : FilePath) (name : String) : Option FilePath :=
  if p.components.isEmpty then none else some (p.parent.child name)

/-- The name without its last ending. A dot at either end of the name starts none. -/
def stem (p : FilePath) : String :=
  let reversed := p.name.toList.reverse
  let ending := reversed.takeWhile (· != '.')
  match reversed.dropWhile (· != '.') with
  | '.' :: before => if ending.isEmpty || before.isEmpty then p.name else String.ofList before.reverse
  | _ => p.name

end FilePath
end SchemaMigration
