import SchemaMigration.Migration.Script
import SchemaMigration.Text.Slug
import SchemaMigration.Work
/-!
The directory that migration files are written to. A file is named after a number, which keeps the
files in the order of writing, and the slug of the migration. Where files are to be replaced, a new
one takes the place of the first that has its slug.
-/
namespace SchemaMigration

structure ScriptDirectory where
  path : FilePath
  replaceExisting : Bool := false

namespace ScriptDirectory

structure Progress where
  site : Site
  number : Int
  created : List FilePath := []
  updated : List FilePath := []

def Progress.onSite {α : Type} (x : Work Site α) : Work Progress α :=
  Work.inside (·.site) (fun site s => { s with site }) x

open Progress

def ending : List Char := ".sql".toList

def isScriptFile (name : String) : Bool := ending.isSuffixOf name.toList

/-- What stands between the number and the ending of a file name; it is not empty and one line. -/
def slugOf? (name : String) : Option String :=
  let rest := name.toList.dropWhile Numeral.isDecimalDigit
  if rest.length < name.length then
    match rest with
    | '-' :: tail =>
      let slug := tail.take (tail.length - ending.length)
      if ending.isSuffixOf tail && !slug.isEmpty && !slug.contains '\n' then some (String.ofList slug)
      else none
    | _ => none
  else none

def fileName (number : Int) (slug : String) : String :=
  String.ofList (Numeral.ofInt number) ++ "-" ++ slug ++ ".sql"

def findExisting (directory : ScriptDirectory) (slug : String) : Work Site (Option FilePath) := do
  let names ← Site.ask (·.names directory.path)
  return ((names.filter isScriptFile).find? fun name => slugOf? name == some slug).map directory.path.child

def ensure [Device] (directory : ScriptDirectory) : Work Site Unit := do
  if ← Site.ask (·.exists? directory.path) then return ()
  else do
    Site.ensureDirectories directory.path
    Site.tell (.directoryCreated directory.path)

/-- Takes a number, which is spent even if nothing comes of it. -/
def takeNumber : Work Progress Int := fun s => (.ok s.number, { s with number := s.number + 1 })

def overwrite [Device] (p : FilePath) (text : String) : Work Progress FilePath := do
  onSite (Site.writeText p text)
  onSite (Site.tell (.fileUpdated p.name))
  Work.change fun s => { s with updated := s.updated ++ [p] }
  return p

/-- The name of a new file, unless its number has too many digits to be written. -/
def checkedName (number : Int) (slug : String) : Except Fault String :=
  if number.natAbs < Value.integerLimit then .ok (fileName number slug) else .error .integerTooLong

def create [Device] (directory : ScriptDirectory) (slug text : String) : Work Progress FilePath := do
  let number ← takeNumber
  let name ← Work.ofFaults (checkedName number slug)
  let p := directory.path.child name
  onSite (Site.writeText p text)
  onSite (Site.tell (.fileCreated p.name))
  Work.change fun s => { s with created := s.created ++ [p] }
  return p

def write [Device] (directory : ScriptDirectory) (f : ScriptFile) : Work Progress (Option FilePath) :=
  if f.statements.isEmpty then pure none
  else do
    onSite directory.ensure
    let slug := Slug.ofText f.slug
    let text := f.content ++ "\n"
    let existing ← if directory.replaceExisting then onSite (directory.findExisting slug) else pure none
    match existing with
    | some p => some <$> overwrite p text
    | none => some <$> directory.create slug text

def countText (n : Nat) (what : String) : List String :=
  if n == 0 then [] else [String.ofList (Numeral.digits n) ++ " " ++ what]

def Progress.summary (s : Progress) : String :=
  match countText s.created.length "created" ++ countText s.updated.length "updated" with
  | [] => "Nothing to migrate"
  | counts => "Migration files: " ++ String.intercalate ", " counts

def writeAll [Device] (directory : ScriptDirectory) (files : List ScriptFile) : Work Progress (List FilePath) := do
  let paths ← Work.each directory.write files
  let s ← Work.state
  onSite (Site.tell (.filesWritten s.summary))
  return paths.filterMap id

end ScriptDirectory
end SchemaMigration
