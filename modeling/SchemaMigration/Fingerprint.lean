import SchemaMigration.Json.Writer
import SchemaMigration.Plan.Document
import SchemaMigration.Sha256
import SchemaMigration.Text.Order
/-!
Fingerprints of content: the digest of a canonical JSON text, in which the entries of dictionaries
stand in the order of their keys at every depth. The order of lists counts.
-/
namespace SchemaMigration

namespace Fingerprint

mutual

/-- The same content with sorted dictionaries, and with lists for all sequences. -/
def canonical : Value → Value
  | .list items | .tuple items => .list (canonicalItems items)
  | .dict entries => .dict (Text.sortBy (·.1) (canonicalEntries entries))
  | v => v

def canonicalItems : List Value → List Value
  | [] => []
  | v :: rest => canonical v :: canonicalItems rest

def canonicalEntries : List (String × Value) → List (String × Value)
  | [] => []
  | (k, v) :: rest => (k, canonical v) :: canonicalEntries rest

end

def canonicalText (v : Value) : Except Fault String :=
  let sorted := canonical v
  match Json.faults sorted with
  | [] => .ok (Json.write .compact sorted)
  | f :: _ => .error f

def short (digest : String) : String := String.ofList (digest.toList.take 12)

def ofValue (v : Value) : Except Fault String := (canonicalText v).map Sha256.ofText

end Fingerprint

def Plan.fingerprint (p : Plan) : Except Fault String := Fingerprint.ofValue p.toValue

end SchemaMigration
