import SchemaMigration.Snapshot

namespace SchemaMigration

structure Settings where
  dialect : Dialect := .postgres
  modelsDir : FilePath := FilePath.ofString "models"
  scriptsDir : FilePath := FilePath.ofString "sql"
  /-- Where the snapshot is kept; by default beside the models. -/
  statePath : Option FilePath := none

def Settings.snapshotPath (s : Settings) : FilePath :=
  s.statePath.getD (Snapshot.defaultPath s.modelsDir s.dialect)

end SchemaMigration
