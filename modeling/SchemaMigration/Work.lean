import SchemaMigration.Json.Reader
import SchemaMigration.Migration.Reported
/-!
Work that changes something as it goes: a step from a state to the next with a result or a failure.
What was done before a failure stays done. The state of work on files is the tree and what was told
on the way.
-/
namespace SchemaMigration

def Work (σ α : Type) : Type := σ → Except Failure α × σ

namespace Work

def pure {σ α : Type} (a : α) : Work σ α := fun s => (.ok a, s)

def bind {σ α β : Type} (x : Work σ α) (f : α → Work σ β) : Work σ β := fun s =>
  match x s with
  | (.ok a, next) => f a next
  | (.error e, next) => (.error e, next)

instance {σ : Type} : Monad (Work σ) where
  pure := Work.pure
  bind := Work.bind

def fail {σ α : Type} (e : Failure) : Work σ α := fun s => (.error e, s)

def state {σ : Type} : Work σ σ := fun s => (.ok s, s)

def change {σ : Type} (f : σ → σ) : Work σ Unit := fun s => (.ok (), f s)

def ofExcept {σ α : Type} : Except Failure α → Work σ α
  | .ok a => pure a
  | .error e => fail e

def ofFaults {σ α : Type} : Except Fault α → Work σ α
  | .ok a => pure a
  | .error f => fail (.fault f)

/-- Does the work and goes on after a failure, which is the result then. -/
def attempt {σ α : Type} (x : Work σ α) : Work σ (Except Failure α) := fun s =>
  match x s with
  | (result, next) => (.ok result, next)

def inside {σ τ α : Type} (part : σ → τ) (replace : τ → σ → σ) (x : Work τ α) : Work σ α :=
  fun s => match x (part s) with
  | (result, next) => (result, replace next s)

def each {σ α β : Type} (f : α → Work σ β) : List α → Work σ (List β)
  | [] => pure []
  | a :: rest => bind (f a) fun b => bind (each f rest) fun bs => pure (b :: bs)

end Work

structure Site where
  tree : Tree := {}
  told : List Notice := []

namespace Site
open Work

def tell (n : Notice) : Work Site Unit := change fun s => { s with told := s.told ++ [n] }

def ask {α : Type} (question : Tree → Except FileFault α) : Work Site α := fun s =>
  match question s.tree with
  | .ok a => (.ok a, s)
  | .error fault => (.error (.file fault), s)

/-- A change of the tree that is made as a whole or not at all. -/
def alter (f : Tree → Except FileFault Tree) : Work Site Unit := fun s =>
  match f s.tree with
  | .ok tree => (.ok (), { s with tree })
  | .error fault => (.error (.file fault), s)

def ensureDirectories [Device] (p : FilePath) : Work Site Unit := fun s =>
  match s.tree.ensureDirectories p (p.components.length + 1) with
  | (.ok _, tree) => (.ok (), { s with tree })
  | (.error fault, tree) => (.error (.file fault), { s with tree })

def readText [Device] (p : FilePath) : Work Site String := do
  let content ← ask fun t => Device.grant (Device.reading t p) (t.read p)
  match String.fromUTF8? content with
  | some text => return text
  | none => fail .notUtf8

/-- Writes a file. Unlike a move this is more than one step, and may end between two of them. -/
def writeText [Device] (p : FilePath) (text : String) : Work Site Unit := fun s =>
  match Device.writing s.told.length s.tree p with
  | none => alter (·.write p text.toUTF8) s
  | some (.refused fault) => alter (fun t => Device.grant (some fault) (t.write p text.toUTF8)) s
  | some (.brokenOff written fault) =>
    (do
      alter (·.write p (text.toUTF8.extract 0 written))
      fail (.file fault) : Work Site Unit) s

def move [Device] (source target : FilePath) : Work Site Unit :=
  alter fun t => Device.grant (Device.moving t source target) (t.move source target)

def readJson [Device] (p : FilePath) : Work Site Value := do
  let text ← readText p
  match Json.read text with
  | .ok v => return v
  | .error .malformed => fail .malformedJson
  | .error .integerTooLong => fail (.fault .integerTooLong)

def report {α : Type} (r : Reported α) : Work Site α := fun s =>
  (match r.outcome with
    | .ok a => .ok a
    | .error f => .error (.fault f), { s with told := s.told ++ r.notices })

end Site
end SchemaMigration
