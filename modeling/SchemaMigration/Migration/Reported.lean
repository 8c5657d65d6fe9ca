import SchemaMigration.Notice
/-!
Results that come with a report: the notices of the work and the faults it ran into, in their
order. The result is there in any case. Whoever needs to know whether the work succeeded asks for
`outcome`, which is the first fault if there is one.
-/
namespace SchemaMigration

inductive Event where
  | notice (n : Notice)
  | fault (f : Fault)

structure Reported (α : Type) where
  events : List Event
  value : α

namespace Reported

def pure {α : Type} (a : α) : Reported α := ⟨[], a⟩

def bind {α β : Type} (x : Reported α) (f : α → Reported β) : Reported β :=
  ⟨x.events ++ (f x.value).events, (f x.value).value⟩

instance : Monad Reported where
  pure := Reported.pure
  bind := Reported.bind

def tell (n : Notice) : Reported Unit := ⟨[.notice n], ()⟩

def faults (found : List Fault) : Reported Unit := ⟨found.map .fault, ()⟩

def collect {α β : Type} (f : α → Reported β) : List α → Reported (List β)
  | [] => pure []
  | a :: rest => bind (f a) fun b => bind (collect f rest) fun bs => pure (b :: bs)

/-- A statement together with what stands in the way of writing it. -/
def statement {α : Type} (found : α → List Fault) (s : α) : Reported α :=
  ⟨(found s).map .fault, s⟩

def firstFault? : List Event → Option Fault
  | [] => none
  | .fault f :: _ => some f
  | .notice _ :: rest => firstFault? rest

def noticesOf : List Event → List Notice
  | .notice n :: rest => n :: noticesOf rest
  | _ => []

def outcome {α : Type} (x : Reported α) : Except Fault α :=
  match firstFault? x.events with
  | some f => .error f
  | none => .ok x.value

def notices {α : Type} (x : Reported α) : List Notice := noticesOf x.events

variable {α β : Type}

@[simp] theorem value_pure (a : α) : (Pure.pure a : Reported α).value = a := rfl

@[simp] theorem value_bind (x : Reported α) (f : α → Reported β) : (x >>= f).value = (f x.value).value := rfl

@[simp] theorem value_collect (f : α → Reported β) (items : List α) :
    (collect f items).value = items.map fun a => (f a).value := by
  induction items with
  | nil => rfl
  | cons a rest ih => exact congrArg ((f a).value :: ·) ih

end Reported
end SchemaMigration
