import SchemaMigration.Json.Token
/-!
Reading a JSON text into a value. Of entries with the same key the last one counts, in the place of
the first.
-/
namespace SchemaMigration.Json

inductive Refusal where
  | malformed
  | integerTooLong
  deriving DecidableEq

mutual

def readValue : Nat → List Token → Except Refusal (Value × List Token)
  | 0, _ => .error .malformed
  | _ + 1, .leaf v :: rest => .ok (v, rest)
  | _ + 1, .integerTooLong :: _ => .error .integerTooLong
  | _ + 1, .listOpen :: .listClose :: rest => .ok (.list [], rest)
  | fuel + 1, .listOpen :: rest => do
    let (vs, rest) ← readItems fuel rest
    return (.list vs, rest)
  | _ + 1, .dictOpen :: .dictClose :: rest => .ok (.dict [], rest)
  | fuel + 1, .dictOpen :: rest => do
    let (entries, rest) ← readEntries fuel [] rest
    return (.dict entries, rest)
  | _ + 1, _ => .error .malformed

def readItems : Nat → List Token → Except Refusal (List Value × List Token)
  | 0, _ => .error .malformed
  | fuel + 1, tokens => do
    let (v, rest) ← readValue fuel tokens
    match rest with
    | .listClose :: rest => return ([v], rest)
    | .comma :: rest => do
      let (vs, rest) ← readItems fuel rest
      return (v :: vs, rest)
    | _ => .error .malformed

def readEntries : Nat → List (String × Value) → List Token →
    Except Refusal (List (String × Value) × List Token)
  | fuel + 1, found, .leaf (.str key) :: .colon :: rest => do
    let (v, rest) ← readValue fuel rest
    match rest with
    | .dictClose :: rest => return (Entries.put key v found, rest)
    | .comma :: rest => readEntries fuel (Entries.put key v found) rest
    | _ => .error .malformed
  | _, _, _ => .error .malformed

end

def readTokens (tokens : List Token) : Except Refusal Value :=
  match readValue (2 * tokens.length + 2) tokens with
  | .ok (v, []) => .ok v
  | .ok _ => .error .malformed
  | .error refusal => .error refusal

def read (s : String) : Except Refusal Value := readTokens (tokens s.toList)

end SchemaMigration.Json
