import SchemaMigration.ModelDirectory
import SchemaMigration.Proofs.Work

namespace SchemaMigration

namespace Site

theorem onlyLooks_ask {α : Type} (question : Tree → Except FileFault α) : (ask question).OnlyLooks := ask_state question

theorem onlyLooks_readText [Device] (p : FilePath) : (readText p).OnlyLooks := by
  apply (onlyLooks_ask _).bind
  intro content
  split
  · exact .pure _
  · exact .fail _

theorem onlyLooks_readJson [Device] (p : FilePath) : (readJson p).OnlyLooks := by
  apply (onlyLooks_readText p).bind
  intro text
  split
  · exact .pure _
  · exact .fail _
  · exact .fail _

end Site

namespace ModelDirectory

theorem onlyLooks_loadFile [Device] (p : FilePath) : (loadFile p).OnlyLooks := by
  apply (Site.onlyLooks_readJson p).attempt.bind
  intro result
  split
  · exact .ofExcept _
  · exact .fail _

theorem onlyLooks_loadFiles [Device] (models : ModelSet) (paths : List FilePath) : (loadFiles models paths).OnlyLooks := by
  induction paths generalizing models with
  | nil => exact .pure models
  | cons p rest ih =>
      apply (onlyLooks_loadFile p).bind
      intro model
      split
      · exact .fail _
      · exact ih _

theorem onlyLooks_load [Device] (directory : FilePath) : (load directory).OnlyLooks := by
  apply (Site.onlyLooks_ask _).bind
  intro there
  split
  · apply (Site.onlyLooks_ask _).bind
    intro names
    exact onlyLooks_loadFiles _ _
  · exact .fail _

end ModelDirectory
end SchemaMigration
