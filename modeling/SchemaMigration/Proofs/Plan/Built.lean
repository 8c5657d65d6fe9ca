import SchemaMigration.Plan.Build
import SchemaMigration.Proofs.Model.Accepted
import SchemaMigration.Proofs.Plan.Named

namespace SchemaMigration

namespace Outline

def ofModels (models : ModelSet) : Outline :=
  ⟨models.map fun entry => (entry.1, entry.2.tableName),
    models.map fun entry => (entry.2.tableName, entry.2.primaryKeyName)⟩

end Outline

namespace ModelSet

def tableNames (models : ModelSet) : List String := models.map (·.2.tableName)

theorem outlineFrom_eq_ok_iff {outline result : Outline} {models : ModelSet}
    (apart : (outline.modelTables.map (·.2)).Nodup) :
    outlineFrom outline models = .ok result ↔
      (outline.modelTables.map (·.2) ++ models.tableNames).Nodup ∧
        result = ⟨outline.modelTables ++ (Outline.ofModels models).modelTables,
          outline.primaryKeys ++ (Outline.ofModels models).primaryKeys⟩ := by
  induction models generalizing outline with
  | nil => simp [outlineFrom, tableNames, Outline.ofModels, apart, eq_comm]
  | cons entry rest ih =>
      rcases entry with ⟨name, model⟩
      rw [outlineFrom]
      cases claimed : outline.modelTables.find? fun entry => entry.2 == model.tableName with
      | some other =>
          have member : model.tableName ∈ outline.modelTables.map (·.2) := by
            have same := List.find?_some claimed
            exact List.mem_map.mpr ⟨other, List.mem_of_find?_eq_some claimed, beq_iff_eq.mp same⟩
          constructor
          · intro done
            cases done
          · intro given
            rcases given with ⟨distinct, -⟩
            exact absurd rfl ((List.nodup_append.mp distinct).2.2 _ member _ (by simp [tableNames]))
      | none =>
          have fresh : model.tableName ∉ outline.modelTables.map (·.2) := by
            intro member
            rcases List.mem_map.mp member with ⟨entry, inside, same⟩
            simpa [same] using List.find?_eq_none.mp claimed entry inside
          have still : ((outline.add name model).modelTables.map (·.2)).Nodup := by
            simp only [Outline.add, List.map_append, List.map_cons, List.map_nil]
            exact List.nodup_append.mpr ⟨apart, List.nodup_singleton _,
              fun a inside b only same => fresh (by rwa [← List.mem_singleton.mp only, ← same])⟩
          simpa [Outline.add, Outline.ofModels, tableNames] using ih still

theorem outline_eq_ok_iff {models : ModelSet} {result : Outline} :
    models.outline = .ok result ↔ models.tableNames.Nodup ∧ result = .ofModels models := by
  rw [outline, outlineFrom_eq_ok_iff (by simp)]
  simp [Outline.ofModels]

end ModelSet

namespace Plan

theorem build_eq_ok_iff {models : ModelSet} {d : Dialect} {p : Plan} :
    build models d = .ok p ↔ models.tableNames.Nodup ∧ p = buildWith (.ofModels models) models d := by
  rw [build]
  cases made : models.outline with
  | error conflict =>
      constructor
      · intro done
        cases done
      · intro given
        rcases given with ⟨distinct, -⟩
        rw [ModelSet.outline_eq_ok_iff.mpr ⟨distinct, rfl⟩] at made
        cases made
  | ok outline =>
      rcases ModelSet.outline_eq_ok_iff.mp made with ⟨distinct, rfl⟩
      constructor
      · intro done
        exact ⟨distinct, (Except.ok.inj done).symm⟩
      · intro given
        rcases given with ⟨-, rfl⟩
        rfl

/-- A plan that some accepted model set gives for a dialect. -/
def Built (d : Dialect) (p : Plan) : Prop := ∃ models : ModelSet, models.Accepted ∧ build models d = .ok p

theorem built_buildWith {models : ModelSet} (d : Dialect) (accepted : models.Accepted)
    (distinct : models.tableNames.Nodup) : (buildWith (.ofModels models) models d).Built d :=
  ⟨models, accepted, build_eq_ok_iff.mpr ⟨distinct, rfl⟩⟩

/-- The plan of models for the dialect in which every part of a plan has a statement of its own. -/
def postgresOf (models : ModelSet) : Plan := buildWith (.ofModels models) models .postgres

theorem postgresOf_built {models : ModelSet} (accepted : models.Accepted) (distinct : models.tableNames.Nodup) :
    (postgresOf models).Built .postgres := built_buildWith .postgres accepted distinct

theorem build_postgresOf (models : ModelSet) (distinct : models.tableNames.Nodup) :
    build models .postgres = .ok (postgresOf models) := build_eq_ok_iff.mpr ⟨distinct, rfl⟩

theorem map_name_buildColumns (outline : Outline) (model : Model) :
    (buildColumns outline model).map (·.name) = model.attributes.map fun a => .str a.1 := by
  simp [buildColumns, Inference.column]

theorem map_name_buildWith (outline : Outline) (models : ModelSet) (d : Dialect) :
    (buildWith outline models d).tables.map (·.name) = models.tableNames.map .str := by
  simp [buildWith, buildTable, ModelSet.tableNames]

theorem Built.regular {d : Dialect} {p : Plan} (built : p.Built d) : p.Regular d := by
  rcases built with ⟨models, accepted, done⟩
  rcases build_eq_ok_iff.mp done with ⟨distinct, rfl⟩
  refine ⟨⟨?_, ?_, ?_, ?_⟩, rfl⟩
  · intro t member
    rcases List.mem_map.mp member with ⟨entry, -, rfl⟩
    exact ⟨_, rfl⟩
  · intro t member c inside
    rcases List.mem_map.mp member with ⟨entry, -, rfl⟩
    rcases List.mem_map.mp inside with ⟨a, -, rfl⟩
    exact ⟨_, rfl⟩
  · rw [map_name_buildWith]
    exact distinct.map Value.str_injective
  · intro t member
    rcases List.mem_map.mp member with ⟨entry, inside, rfl⟩
    have names : (buildTable (.ofModels models) entry.2).columns.map (·.name) =
        (entry.2.attributes.map (·.1)).map Value.str := by
      simp [buildTable, map_name_buildColumns]
    rw [names]
    exact (accepted.models entry inside).attributesDistinct.map Value.str_injective

end Plan
end SchemaMigration
