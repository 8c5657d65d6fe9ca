import SchemaMigration.Files.Path
import SchemaMigration.Text.Order
/-!
A tree of files as the program sees it: what stands at each place, a place being the components that
lead to it from the working directory or from the root. Every operation either gives a new tree or
leaves the tree as it is and says why. The device that holds the tree may fail beside that.
-/
namespace SchemaMigration

inductive Node where
  | directory
  | file (content : ByteArray)

instance : DecidableEq Node
  | .directory, .directory => .isTrue rfl
  | .directory, .file _ | .file _, .directory => .isFalse nofun
  | .file a, .file b =>
    match ByteArray.instDecidableEq a b with
    | .isTrue h => .isTrue (congrArg Node.file h)
    | .isFalse h => .isFalse fun e => h (Node.file.inj e)

inductive FileFault where
  | notFound
  | isDirectory
  | notDirectory
  | alreadyExists
  | nameTooLong
  /-- The system cannot do it for another reason; onto a path that ends in two dots it never moves anything. -/
  | busy
  /-- A name holds the character with the code zero. -/
  | unusableName
  deriving DecidableEq

structure Tree where
  entries : List (List String × Node) := []

inductive Trouble where
  /-- The file cannot be opened, and nothing is changed. -/
  | refused (fault : FileFault)
  /-- The file was opened, which empties it, and holds as many bytes as were written until then. -/
  | brokenOff (written : Nat) (fault : FileFault)

/--
Where a device fails although the tree would allow what is asked: it is full or broken, or something
on it belongs to somebody else. A write may fail after another one that found the same tree, so it
also depends on how much was told before. A move is a single step on every device.
-/
class Device where
  reading : Tree → FilePath → Option FileFault
  writing : Nat → Tree → FilePath → Option Trouble
  making : Tree → FilePath → Option FileFault
  moving : Tree → FilePath → FilePath → Option FileFault

namespace Device

/-- Nothing fails unless another device is named. -/
instance sound : Device where
  reading _ _ := none
  writing _ _ _ := none
  making _ _ := none
  moving _ _ _ := none

/-- What the tree itself refuses comes before what the device does. -/
def grant {α : Type} (refusal : Option FileFault) (x : Except FileFault α) : Except FileFault α :=
  match refusal with
  | none => x
  | some fault => do
    let _ ← x
    .error fault

end Device

namespace Tree

def rootPlace : List String := ["/"]

/-- Places that are there without an entry: the working directory, those above it, the root. -/
def isGiven (place : List String) : Bool := place == rootPlace || place.all (· == "..")

def above (place : List String) : List String :=
  if place == rootPlace then place
  else if place.all (· == "..") then place ++ [".."]
  else place.dropLast

def node? (t : Tree) (place : List String) : Option Node :=
  if isGiven place then some .directory else t.entries.lookup place

/-- Puts a node at a place: in the place of the old one, or at the end. -/
def putEntry (place : List String) (n : Node) : List (List String × Node) → List (List String × Node)
  | [] => [(place, n)]
  | (q, m) :: rest => if q == place then (place, n) :: rest else (q, m) :: putEntry place n rest

def put (t : Tree) (place : List String) (n : Node) : Tree := ⟨putEntry place n t.entries⟩

def remove (t : Tree) (place : List String) : Tree := ⟨t.entries.filter fun entry => entry.1 != place⟩

def nameLimit : Nat := 255

def pathLimit : Nat := 4095

def checkLength (component : String) : Except FileFault Unit :=
  if nameLimit < component.utf8ByteSize then .error .nameTooLong else .ok ()

def enter (t : Tree) (here : List String) (component : String) : Except FileFault (List String) :=
  if component == ".." then .ok (above here)
  else do
    checkLength component
    match t.node? (here ++ [component]) with
    | none => .error .notFound
    | some (.file _) => .error .notDirectory
    | some .directory => return here ++ [component]

/-- The place that components lead to from a directory. All but the last have to be directories. -/
def locateFrom (t : Tree) (here : List String) : List String → Except FileFault (List String)
  | [] => .ok here
  | [last] =>
    if last == ".." then .ok (above here)
    else do
      checkLength last
      return here ++ [last]
  | component :: rest => do
    let next ← t.enter here component
    locateFrom t next rest

def locate (t : Tree) (p : FilePath) : Except FileFault (List String) :=
  if p.text.toList.contains '\x00' then .error .unusableName
  else if pathLimit < p.text.utf8ByteSize then .error .nameTooLong
  else t.locateFrom (if p.root == "" then [] else rootPlace) p.components

def find (t : Tree) (p : FilePath) : Except FileFault Node := do
  let place ← t.locate p
  match t.node? place with
  | some n => return n
  | none => .error .notFound

/-- Whether a path leads anywhere. A name that is too long is a fault, not an answer. -/
def exists? (t : Tree) (p : FilePath) : Except FileFault Bool :=
  match t.find p with
  | .ok _ => .ok true
  | .error .nameTooLong => .error .nameTooLong
  | .error _ => .ok false

def isDirectory? (t : Tree) (p : FilePath) : Except FileFault Bool :=
  match t.find p with
  | .ok .directory => .ok true
  | .ok (.file _) => .ok false
  | .error .nameTooLong => .error .nameTooLong
  | .error _ => .ok false

def read (t : Tree) (p : FilePath) : Except FileFault ByteArray := do
  match ← t.find p with
  | .file content => return content
  | .directory => .error .isDirectory

def write (t : Tree) (p : FilePath) (content : ByteArray) : Except FileFault Tree := do
  let place ← t.locate p
  match t.node? place with
  | some .directory => .error .isDirectory
  | _ => return t.put place (.file content)

def makeDirectory [Device] (t : Tree) (p : FilePath) : Except FileFault Tree := do
  let place ← t.locate p
  match t.node? place with
  | some _ => .error .alreadyExists
  | none => Device.grant (Device.making t p) (.ok (t.put place .directory))

def ensureDirectory [Device] (t : Tree) (p : FilePath) : Except FileFault Tree :=
  match t.makeDirectory p with
  | .ok made => .ok made
  | .error .notFound => .error .notFound
  | .error fault =>
    match t.isDirectory? p with
    | .ok true => .ok t
    | .ok false => .error fault
    | .error other => .error other

/-- Makes a directory and those above it that are missing; what was made stays after a fault. -/
def ensureDirectories [Device] (t : Tree) (p : FilePath) : Nat → Except FileFault Unit × Tree
  | 0 => (.error .notFound, t)
  | depth + 1 =>
    match t.ensureDirectory p with
    | .ok made => (.ok (), made)
    | .error .notFound =>
      match ensureDirectories t p.parent depth with
      | (.ok (), above) =>
        match above.ensureDirectory p with
        | .ok made => (.ok (), made)
        | .error fault => (.error fault, above)
      | failed => failed
    | .error fault => (.error fault, t)

def move (t : Tree) (source target : FilePath) : Except FileFault Tree := do
  let content ← t.read source
  let oldPlace ← t.locate source
  let newPlace ← t.locate target
  if target.name == ".." then .error .busy
  else match t.node? newPlace with
    | some .directory => .error .isDirectory
    | _ => return (t.remove oldPlace).put newPlace (.file content)

def nameIn? (directory place : List String) : Option String :=
  match place.getLast? with
  | some name => if place.dropLast == directory then some name else none
  | none => none

/-- The names in a directory, in the order of their characters; none where there is no directory. -/
def names (t : Tree) (p : FilePath) : Except FileFault (List String) :=
  match t.isDirectory? p with
  | .ok true => do
    let place ← t.locate p
    return Text.sort (t.entries.filterMap fun entry => nameIn? place entry.1)
  | .ok false => .ok []
  | .error fault => .error fault

end Tree
end SchemaMigration
