import SchemaMigration.Snapshot
import SchemaMigration.Work
/-!
Snapshots in files. A snapshot that cannot be read counts as none; a failure of any other kind is
passed on. A new one is written beside its place and moved there, so that the old one stays whole
until then.
-/
namespace SchemaMigration.Snapshot
open Site

def readFile [Device] (p : FilePath) : Work Site Snapshot := do
  let v ← readJson p
  Work.ofExcept (Snapshot.ofValue v)

def isUnreadable : FailureKind → Bool
  | .system | .json | .attribute | .key | .type | .value => true
  | .arithmetic | .reported => false

def load [Device] (p : FilePath) : Work Site (Option Snapshot) := do
  if ← ask (·.exists? p) then
    match ← Work.attempt (readFile p) with
    | .ok snapshot => return some snapshot
    | .error cause =>
      if isUnreadable cause.kind then do
        tell (.snapshotIgnored p cause)
        return none
      else Work.fail cause
  else return none

def fileText (s : Snapshot) : String := Json.write .indented s.toValue ++ "\n"

/-- Writes the file beside its place first. -/
def replaceFile [Device] (p : FilePath) (text : String) : Work Site Unit :=
  match p.withName? (p.name ++ ".tmp") with
  | none => Work.fail .unnamed
  | some beside => do
    writeText beside text
    move beside p

def save [Device] (p : FilePath) (plan : Plan) (now : DateTime) : Work Site Snapshot := do
  let digest ← Work.ofFaults plan.fingerprint
  let snapshot : Snapshot := ⟨plan, .str digest, some now⟩
  ensureDirectories p.parent
  replaceFile p snapshot.fileText
  tell (.snapshotSaved p digest)
  return snapshot

end SchemaMigration.Snapshot
