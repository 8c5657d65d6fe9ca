import SchemaMigration.Work

namespace SchemaMigration

theorem eq_ok_of_toOption {ε α : Type} {x : Except ε α} {a : α} (finished : x.toOption = some a) : x = .ok a := by
  cases x with
  | error e => cases finished
  | ok b =>
      cases finished
      rfl

theorem bind_eq_ok {ε α β : Type} {x : Except ε α} {f : α → Except ε β} {b : β} (done : x >>= f = .ok b) :
    ∃ a, x = .ok a ∧ f a = .ok b := by
  cases x with
  | error e => cases done
  | ok a => exact ⟨a, rfl, done⟩

namespace Work
variable {σ α β : Type}

section
variable {x : Work σ α} {f : α → Work σ β} {before middle : σ}

theorem bind_of_ok {a : α} (done : x before = (.ok a, middle)) : (x >>= f) before = f a middle := by
  change Work.bind x f before = f a middle
  rw [Work.bind, done]

theorem bind_of_error {e : Failure} (failed : x before = (.error e, middle)) :
    (x >>= f) before = (.error e, middle) := by
  change Work.bind x f before = (.error e, middle)
  rw [Work.bind, failed]

end

theorem bind_eq_ok_iff {x : Work σ α} {f : α → Work σ β} {before after : σ} {b : β} :
    (x >>= f) before = (.ok b, after) ↔ ∃ a middle, x before = (.ok a, middle) ∧ f a middle = (.ok b, after) := by
  constructor
  · intro both
    cases first : x before with
    | mk result middle =>
        cases result with
        | error e =>
            rw [bind_of_error first] at both
            cases both
        | ok a =>
            rw [bind_of_ok first] at both
            exact ⟨a, middle, rfl, both⟩
  · intro given
    rcases given with ⟨a, middle, first, second⟩
    rw [bind_of_ok first, second]

theorem bind_eq_error {x : Work σ α} {f : α → Work σ β} {before after : σ} {e : Failure}
    (failed : (x >>= f) before = (.error e, after)) :
    x before = (.error e, after) ∨ ∃ a middle, x before = (.ok a, middle) ∧ f a middle = (.error e, after) := by
  cases first : x before with
  | mk result middle =>
      cases result with
      | error other =>
          rw [bind_of_error first] at failed
          cases failed
          exact .inl rfl
      | ok a =>
          rw [bind_of_ok first] at failed
          exact .inr ⟨a, middle, rfl, failed⟩

/-- Whatever comes of the work, the state before it and the one after it are related. -/
def Keeps (related : σ → σ → Prop) (x : Work σ α) : Prop := ∀ s, related s (x s).2

/-- What the second part keeps has to be known only for what the first one can give. -/
theorem Keeps.bind_of_ok {related : σ → σ → Prop} (trans : ∀ {a b c}, related a b → related b c → related a c)
    {x : Work σ α} {f : α → Work σ β} (first : x.Keeps related)
    (second : ∀ {a before middle}, x before = (.ok a, middle) → (f a).Keeps related) : (x >>= f).Keeps related := by
  intro s
  have step := first s
  cases done : x s with
  | mk result middle =>
      rw [done] at step
      cases result with
      | error e =>
          rw [bind_of_error done]
          exact step
      | ok a =>
          rw [Work.bind_of_ok done]
          exact trans step (second done middle)

theorem Keeps.bind {related : σ → σ → Prop} (trans : ∀ {a b c}, related a b → related b c → related a c)
    {x : Work σ α} {f : α → Work σ β} (first : x.Keeps related) (second : ∀ a, (f a).Keeps related) :
    (x >>= f).Keeps related :=
  @bind_of_ok _ _ _ related trans x f first fun _ => second _

def OnlyLooks (x : Work σ α) : Prop := x.Keeps fun before after => after = before

namespace OnlyLooks

theorem pure (a : α) : (Pure.pure a : Work σ α).OnlyLooks := fun _ => rfl

theorem fail (e : Failure) : (Work.fail e : Work σ α).OnlyLooks := fun _ => rfl

theorem bind {x : Work σ α} {f : α → Work σ β} (first : x.OnlyLooks) (second : ∀ a, (f a).OnlyLooks) :
    (x >>= f).OnlyLooks := Keeps.bind (fun same same' => same'.trans same) first second

theorem attempt {x : Work σ α} (looks : x.OnlyLooks) : x.attempt.OnlyLooks := looks

theorem ofExcept (x : Except Failure α) : (Work.ofExcept x : Work σ α).OnlyLooks := by
  cases x with
  | ok a => exact pure a
  | error e => exact fail e

end OnlyLooks

/-- Work that is done for all items, each of which changes the state in its own way. -/
theorem each_of_ok {f : α → Work σ β} {result : α → β} {next : α → σ → σ}
    (done : ∀ a s, f a s = (.ok (result a), next a s)) (items : List α) (s : σ) :
    each f items s = (.ok (items.map result), items.foldl (fun s a => next a s) s) := by
  induction items generalizing s with
  | nil => rfl
  | cons a rest ih =>
      refine bind_eq_ok_iff.mpr ⟨_, _, done a s, ?_⟩
      exact bind_eq_ok_iff.mpr ⟨_, _, ih _, rfl⟩

theorem attempt_eq_ok_iff {x : Work σ α} {before after : σ} {result : Except Failure α} :
    x.attempt before = (.ok result, after) ↔ x before = (result, after) := by
  rw [attempt, Prod.mk.injEq, Except.ok.injEq, Prod.ext_iff]

theorem ofExcept_eq_ok_iff {x : Except Failure α} {before after : σ} {a : α} :
    ofExcept x before = (.ok a, after) ↔ x = .ok a ∧ after = before := by
  cases x with
  | error e => exact iff_of_false nofun nofun
  | ok b => simp [ofExcept, Work.pure, eq_comm]

theorem ofFaults_eq_ok_iff {x : Except Fault α} {before after : σ} {a : α} :
    ofFaults x before = (.ok a, after) ↔ x = .ok a ∧ after = before := by
  cases x with
  | error fault => exact iff_of_false nofun nofun
  | ok b => simp [ofFaults, Work.pure, eq_comm]

theorem eq_ok_of_toOption {x : Work σ α} {s : σ} {a : α} (finished : (x s).1.toOption = some a) :
    x s = (.ok a, (x s).2) :=
  Prod.ext (SchemaMigration.eq_ok_of_toOption finished) rfl

theorem eq_ok_of_isOk {x : Work σ Unit} {s : σ} (finished : (x s).1.isOk) : x s = (.ok (), (x s).2) := by
  cases done : x s with
  | mk result after =>
      cases result with
      | error e =>
          rw [done] at finished
          cases finished
      | ok => rfl

end Work

namespace Site

theorem alter_eq_ok_iff {f : Tree → Except FileFault Tree} {before after : Site} :
    alter f before = (.ok (), after) ↔ ∃ tree, f before.tree = .ok tree ∧ after = { before with tree } := by
  rw [alter]
  cases f before.tree with
  | error fault => exact iff_of_false nofun nofun
  | ok tree => simp [eq_comm]

theorem alter_eq_error {f : Tree → Except FileFault Tree} {before after : Site} {e : Failure}
    (failed : alter f before = (.error e, after)) :
    after = before ∧ ∃ fault, f before.tree = .error fault ∧ e = .file fault := by
  rw [alter] at failed
  cases changed : f before.tree with
  | error fault =>
      rw [changed] at failed
      cases failed
      exact ⟨rfl, fault, rfl, rfl⟩
  | ok tree =>
      rw [changed] at failed
      cases failed

theorem ask_state {α : Type} (question : Tree → Except FileFault α) (s : Site) : (ask question s).2 = s := by
  rw [ask]
  cases question s.tree <;> rfl

theorem ask_eq_ok_iff {α : Type} {question : Tree → Except FileFault α} {s after : Site} {a : α} :
    ask question s = (.ok a, after) ↔ question s.tree = .ok a ∧ after = s := by
  rw [ask]
  cases question s.tree with
  | error fault => exact iff_of_false nofun nofun
  | ok b => simp [eq_comm]

theorem ask_eq_ok {α : Type} (question : Tree → Except FileFault α) {s : Site} {a : α} (answer : question s.tree = .ok a) :
    ask question s = (.ok a, s) := by
  rw [ask, answer]

end Site

end SchemaMigration
