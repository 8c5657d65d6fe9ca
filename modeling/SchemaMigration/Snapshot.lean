import SchemaMigration.Failure
import SchemaMigration.Fingerprint
/-!
A snapshot records the plan that was applied last, with its fingerprint and the time. The
fingerprint is kept as it was stored, so that a plan that was changed afterwards shows.
-/
namespace SchemaMigration

structure Snapshot where
  plan : Plan
  /-- The fingerprint of the plan at the time; a stored one may be any value. -/
  fingerprint : Value
  updatedAt : Option DateTime := none

namespace Snapshot

def of (p : Plan) (updatedAt : Option DateTime) : Except Fault Snapshot := do
  let digest ← p.fingerprint
  return ⟨p, .str digest, updatedAt⟩

def isOf (s : Snapshot) (p : Plan) : Except Fault Bool := do
  let digest ← p.fingerprint
  return s.fingerprint.equals (.str digest)

/-- Whether the stored plan is no longer the one that the fingerprint was taken of. -/
def isStale (s : Snapshot) : Except Fault Bool := do
  let same ← s.isOf s.plan
  return !same

def timeValue : Option DateTime → Value
  | some t => .str (String.ofList t.isoText)
  | none => .null

def toValue (s : Snapshot) : Value :=
  .dict [("plan", s.plan.toValue), ("hash", s.fingerprint), ("updatedAt", timeValue s.updatedAt)]

def readPlan (v : Value) : Except Failure Plan :=
  match Plan.ofValue v with
  | .ok plan => .ok plan
  | .error refusal => .error (.document refusal)

def readFingerprint (p : Plan) (stored : Option Value) : Except Failure Value :=
  match stored.filter Value.holds with
  | some v => .ok v
  | none => match p.fingerprint with
    | .ok digest => .ok (.str digest)
    | .error f => .error (.fault f)

def readTime (stored : Option Value) : Except Failure (Option DateTime) :=
  match stored.filter Value.holds with
  | none => .ok none
  | some (.str s) => match Iso.read s.toList with
    | .ok t => .ok (some t)
    | .error refusal => .error (.timestamp s refusal)
  | some _ => .error .noTimestamp

/-- A plan that stands by itself is a snapshot too. -/
def ofPlanValue (v : Value) : Except Failure Snapshot := do
  let plan ← readPlan v
  let fingerprint ← readFingerprint plan none
  return { plan, fingerprint }

def ofValue (v : Value) : Except Failure Snapshot :=
  match v with
  | .dict entries =>
    match entries.lookup "plan" with
    | some stored => do
      let plan ← readPlan stored
      let fingerprint ← readFingerprint plan (entries.lookup "hash")
      let updatedAt ← readTime (entries.lookup "updatedAt")
      return { plan, fingerprint, updatedAt }
    | none => ofPlanValue v
  | _ => ofPlanValue v

def defaultPath (directory : FilePath) (d : Dialect) : FilePath :=
  directory.child (".schemaplan." ++ d.name ++ ".json")

end Snapshot
end SchemaMigration
