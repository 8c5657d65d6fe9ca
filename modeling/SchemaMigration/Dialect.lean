namespace SchemaMigration

inductive Dialect where
  | postgres
  | mysql
  | sqlite
  deriving DecidableEq, Repr

namespace Dialect

def all : List Dialect := [.postgres, .mysql, .sqlite]

def name : Dialect → String
  | .postgres => "postgres"
  | .mysql => "mysql"
  | .sqlite => "sqlite"

def ofName? (s : String) : Option Dialect := all.find? (·.name == s)

end Dialect
end SchemaMigration
