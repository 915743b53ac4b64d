import RecordCodec.Proofs.Codec.Dynamic
import RecordCodec.Proofs.Planner.TypeText
import RecordCodec.Sample.Entity

/-!
This module contains the plan of entities and its binding, which holds every entity whose scalars
are bit patterns of their types.
-/

namespace RecordCodec.Sample

open RecordCodec.Table

def entityTypes : List FieldType :=
  [.ofScalar .u64, .ofScalar .u8, .ofText, .optional .ofText, .optional (.ofScalar .f64),
    .ofScalar .char, .sequence .ofText, .sequence (.ofScalar .s8), .sequence (.ofScalar .u8),
    .sequence (.ofScalar .char), .sequence (.ofScalar .s32), .optional (.ofScalar .u16),
    .optional (.ofScalar .char), .ofScalar .bool]

def entityPlan : Plan :=
  Plan.ofFields entityRecord.name (fieldsFrom 0 entityRecord.fields entityTypes)

theorem assemble_entityRecord : assemble entityRecord = .ok entityPlan :=
  assemble_of_names (by decide)

theorem exists_dynamic_entityPlan : ∃ bd, Binding.dynamic entityPlan = .ok bd := by
  apply Binding.exists_dynamic (wellFormed_of_assemble assemble_entityRecord)
  decide

end RecordCodec.Sample
