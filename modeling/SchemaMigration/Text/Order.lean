namespace SchemaMigration.Text

/-- Puts an item before the first one whose key is not smaller. -/
def insertBy {α : Type} (key : α → String) (a : α) : List α → List α
  | [] => [a]
  | b :: rest => if key b < key a then b :: insertBy key a rest else a :: b :: rest

/-- Sorts by a key; items with the same key keep their order. -/
def sortBy {α : Type} (key : α → String) : List α → List α
  | [] => []
  | a :: rest => insertBy key a (sortBy key rest)

def sort (texts : List String) : List String := sortBy id texts

end SchemaMigration.Text
