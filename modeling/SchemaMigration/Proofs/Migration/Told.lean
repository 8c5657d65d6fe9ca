import SchemaMigration.Proofs.Migration.Tells

namespace SchemaMigration

def Notice.skipped? : Notice → Option String
  | .changeSkipped description => some description
  | _ => none

namespace Reported
variable {α β : Type}

def SkipsNothing (x : Reported α) : Prop := ∀ n, Event.notice n ∈ x.events → n.skipped? = none

theorem skipsNothing_iff (x : Reported α) : x.SkipsNothing ↔ ¬ x.Tells (·.skipped? ≠ none) := by
  simp only [SkipsNothing, Tells, not_exists, not_and, not_not]

def skips (x : Reported α) : List String := x.notices.filterMap Notice.skipped?

theorem noticesOf_append {first : List Event} (second : List Event) (done : ∀ f, Event.fault f ∉ first) :
    noticesOf (first ++ second) = noticesOf first ++ noticesOf second := by
  induction first with
  | nil => rfl
  | cons event rest ih =>
      cases event with
      | notice n => exact congrArg (n :: ·) (ih fun f member => done f (List.mem_cons_of_mem _ member))
      | fault f => exact absurd List.mem_cons_self (done f)

theorem mem_of_mem_noticesOf {events : List Event} {n : Notice} (member : n ∈ noticesOf events) : .notice n ∈ events := by
  induction events with
  | nil => cases member
  | cons event rest ih =>
      cases event with
      | notice first =>
          rcases List.mem_cons.mp member with rfl | later
          · exact List.mem_cons_self
          · exact List.mem_cons_of_mem _ (ih later)
      | fault f => cases member

theorem SkipsNothing.skips_eq_nil {x : Reported α} (nothing : x.SkipsNothing) : x.skips = [] := by
  rw [skips, List.filterMap_eq_nil_iff]
  exact fun n member => nothing n (mem_of_mem_noticesOf member)

theorem skips_pure (a : α) : (Pure.pure a : Reported α).skips = [] := rfl

theorem skips_bind {x : Reported α} {f : α → Reported β} (done : x.Succeeds) :
    (x >>= f).skips = x.skips ++ (f x.value).skips := by
  have events : (x >>= f).events = x.events ++ (f x.value).events := rfl
  rw [skips, notices, events, noticesOf_append _ done, List.filterMap_append]
  rfl

theorem skips_collect {f : α → Reported β} {items : List α} (done : ∀ a ∈ items, (f a).Succeeds) :
    (collect f items).skips = items.flatMap fun a => (f a).skips := by
  induction items with
  | nil => rfl
  | cons a rest ih =>
      have step : collect f (a :: rest) = f a >>= fun b => collect f rest >>= fun bs => Pure.pure (b :: bs) := rfl
      rcases List.forall_mem_cons.mp done with ⟨first, others⟩
      rw [step, skips_bind first, skips_bind ((succeeds_collect f rest).mpr others), ih others, List.flatMap_cons]
      exact congrArg _ (List.append_nil _)

end Reported

namespace EnumTypes

theorem not_skips_declare (d : Dialect) (types : EnumTypes) (columns : List Column) :
    ¬ (types.declare d columns).Tells (·.skipped? ≠ none) := by
  induction columns generalizing types with
  | nil => simp [declare]
  | cons c rest ih =>
      rw [tells_declare_cons, tells_declareColumn]
      intro told
      rcases told with ⟨-, kept, -, n, conflict, skipped⟩ | later
      · cases kept with
        | none => cases conflict
        | some values =>
            rw [conflict?] at conflict
            split at conflict
            · cases conflict
            · exact skipped (by rw [← Option.some.inj conflict]; rfl)
      · exact ih _ later

end EnumTypes

namespace Diff
open Migration

theorem ignoresNews_skipped : IgnoresNews (·.skipped? ≠ none) where
  table _ := not_not_intro rfl
  column _ _ := not_not_intro rfl
  index _ _ := not_not_intro rfl

theorem skipsNothing_files (previous : Option Plan) (current : Plan) : (files previous current).SkipsNothing := by
  have rebuilt : ¬ current.migrationFiles.Tells (·.skipped? ≠ none) := by
    simp [Plan.migrationFiles, tells_tableFiles, EnumTypes.not_skips_declare]
  rw [Reported.skipsNothing_iff]
  unfold files
  split
  case h_1 => exact rebuilt
  case h_2 p =>
    split
    case isTrue => exact rebuilt
    case isFalse => simp [tells_additions ignoresNews_skipped, EnumTypes.not_skips_declare]

theorem skipsNothing_skipped (previous : Option Plan) (current : Plan) : (skipped previous current).SkipsNothing :=
  (Reported.skipsNothing_iff _).mpr (not_tells_skipped previous current)

theorem skipped_of_isFullRebuild {previous : Option Plan} {current : Plan} (rebuild : isFullRebuild previous current) :
    skipped previous current = pure [] := by
  cases previous <;> simp [skipped, rebuild]

theorem skips_tellSkipped {change : SkippedChange} (done : (tellSkipped change).Succeeds) :
    (tellSkipped change).skips = [change.description] := by
  have faultless : describeFaults change = [] := by simpa [tellSkipped] using done
  rw [tellSkipped, faultless]
  rfl

theorem skips_statements {previous : Option Plan} {current : Plan} (done : (statements previous current).Succeeds) :
    (statements previous current).skips = (skipped previous current).value.map (·.description) := by
  have listed := (skipsNothing_files previous current).skips_eq_nil
  have looked := (skipsNothing_skipped previous current).skips_eq_nil
  unfold statements at done ⊢
  rw [Reported.succeeds_bind] at done
  rcases done with ⟨filed, told⟩
  rw [Reported.skips_bind filed, listed, List.nil_append]
  cases rebuild : isFullRebuild previous current with
  | true =>
      rw [skipped_of_isFullRebuild rebuild]
      rfl
  | false =>
      simp only [rebuild, Bool.false_eq_true, if_false, Reported.succeeds_bind, Reported.succeeds_collect] at told ⊢
      rcases told with ⟨skipping, each, -⟩
      have descriptions : ((skipped previous current).value.flatMap fun change => (tellSkipped change).skips) =
          (skipped previous current).value.map (·.description) := by
        rw [List.map_eq_flatMap, List.flatMap_def, List.flatMap_def]
        exact congrArg _ (List.map_congr_left fun change member => skips_tellSkipped (each change member))
      rw [Reported.skips_bind skipping, looked, Reported.skips_bind (by simpa using each), Reported.skips_collect each,
        Reported.skips_pure, descriptions, List.nil_append, List.append_nil]

theorem skips_script {previous : Option Plan} {current : Plan} (done : (script previous current).Succeeds) :
    (script previous current).skips = (skipped previous current).value.map (·.description) := by
  unfold script at done ⊢
  rw [Reported.succeeds_bind] at done
  rw [Reported.skips_bind done.1, skips_statements done.1, Reported.skips_pure, List.append_nil]

end Diff
end SchemaMigration
