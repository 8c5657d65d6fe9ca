import SchemaMigration.Migration.Diff
import SchemaMigration.Text.ControlSequence
import SchemaMigration.Work
/-!
What a command shows and says: lines on the standard output, and beside them messages about errors
and about what the user should know. None of them can steer the terminal; only notices are passed
on as they are.
-/
namespace SchemaMigration.CommandLine

structure Wording where
  cause : Cause → String
  failure : Failure → String

inductive Message where
  | notice (n : Notice)
  | error (e : Failure)
  /-- A change that is left to the user, with the statement that makes it. -/
  | leftOut (change : SkippedChange) (statement : String)
  | staleSnapshot

namespace Message

def errorText (wording : Wording) : Failure → String
  | .definition e => e.message wording.cause
  | .noModels directory => "No models found in " ++ directory.text
  | .unsupportedDialect tag => Failure.unsupportedDialectMessage tag
  | .file fault => wording.cause (.file fault)
  | e => wording.failure e

def text (wording : Wording) : Message → String
  | .notice n => n.line wording.failure
  | .error e => Text.withoutControls ("Error: " ++ errorText wording e)
  | .leftOut change statement =>
    Text.withoutControls
      ("Skipped " ++ change.description ++ "; apply manually if intended: " ++ statement)
  | .staleSnapshot => "Warning: snapshot hash does not match its stored plan"

/-- Whether a message is shown; notices below a warning are only shown on request. -/
def isShown (verbose : Bool) : Message → Bool
  | .notice n => verbose || n.level == .warning
  | _ => true

end Message

structure Console where
  tree : Tree
  shown : List String := []
  messages : List Message := []

namespace Console

def print (line : String) : Work Console Unit :=
  Work.change fun c => { c with shown := c.shown ++ [Text.withoutControls line] }

def say (message : Message) : Work Console Unit :=
  Work.change fun c => { c with messages := c.messages ++ [message] }

/-- Work on the files; what it tells becomes messages. -/
def onSite {α : Type} (x : Work Site α) : Work Console α :=
  Work.inside (fun c => ⟨c.tree, []⟩)
    (fun site c => { c with tree := site.tree, messages := c.messages ++ site.told.map .notice }) x

def output (c : Console) : String := String.join (c.shown.map (· ++ "\n"))

end Console
end SchemaMigration.CommandLine
