import SchemaMigration.Migration.Full

namespace SchemaMigration

structure ScriptFile where
  slug : String
  statements : List String
  deriving DecidableEq

namespace ScriptFile

def content (f : ScriptFile) : String := String.intercalate "\n\n" f.statements

end ScriptFile

def MigrationFile.script (d : Dialect) (f : MigrationFile) : ScriptFile := ⟨f.slug, f.texts d⟩

end SchemaMigration
