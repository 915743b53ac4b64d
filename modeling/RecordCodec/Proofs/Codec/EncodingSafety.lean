import RecordCodec.Proofs.Codec.Encoder

/-!
This module contains that encoding does not fail. An encoder that checks every step, which indexes
the lists of the plan and of the struct and calls the operations that a field has for its type, does
what an encoder does that checks nothing: it is stopped only where the buffer cannot grow.
-/

namespace RecordCodec

open RecordCodec.Table

theorem forM_congr {m : Type → Type} [Monad m] {f g : α → m Unit} {as : List α}
    (h : ∀ a ∈ as, f a = g a) : as.forM f = as.forM g := by
  induction as with
  | nil => rfl
  | cons a as ih =>
    show (f a >>= fun _ => as.forM f) = g a >>= fun _ => as.forM g
    rw [h a List.mem_cons_self, ih fun b hb => h b (List.mem_cons_of_mem _ hb)]

namespace Table

theorem Memory.length_block_lt (m : Memory) : m.block.length < 0x80000000 := by
  unfold block
  rw [List.length_append]
  exact m.size_lt

theorem Shows.exists_ok {r : EStateM.Result Stop σ α} {b : β} {Q : α → σ → β → Prop}
    (h : Shows true r (.ok b) Q) : ∃ a s, r = .ok a s ∧ Q a s b := by
  cases r with
  | ok a s =>
    obtain ⟨b', hb, hQ⟩ := h
    cases hb
    exact ⟨a, s, rfl, hQ⟩
  | error stop s =>
    obtain ⟨e, -, hy | hsame⟩ := h
    · contradiction
    · cases hsame.1

end Table

namespace FieldType

/--
Make the object of a value with the operation that the type of its field has for it. Types whose
values live in the table have none.
-/
def checkedBuild (t : FieldType) (v : Value) : Writing (Option Nat) :=
  match t.decodeStrategy, v with
  | .text, .text _ | .textOptional, .optionalText _ | .textSequence, .texts _
  | .charSequence, .sequence _ | .signedBytes, .sequence _ | .sequence, .sequence _ => t.buildIn v
  | _, _ => throw .missing

def checkedCommit (t : FieldType) (index : Nat) (v : Value) (off : Option Nat) : Writing Unit :=
  match t.decodeStrategy, v with
  | .scalar, .scalar _ | .char, .scalar _ | .scalarOptional, .optional _
  | .charOptional, .optional _ => t.commitIn index v off
  | .scalar, _ | .char, _ | .scalarOptional, _ | .charOptional, _ => throw .missing
  | _, _ => t.commitIn index v off

variable {t : FieldType} {v : Value}

theorem isIndirect_eq_false
    (h : t.decodeStrategy ∈ [.scalar, .char, .scalarOptional, .charOptional]) :
    t.isIndirect = false := by
  unfold isIndirect
  cases hshape : t.shape with
  | text => simp [decodeStrategy_text hshape] at h
  | sequence =>
    rw [decodeStrategy_sequence hshape] at h
    split at h
    · simp at h
    · split at h
      · simp at h
      · split at h <;> simp at h
  | optional =>
    rw [decodeStrategy_optional hshape] at h
    cases htext : t.text with
    | true => simp [htext] at h
    | false => rfl
  | _ => rfl

theorem checkedBuild_eq (h : t.Holds v) (hindirect : t.isIndirect = true) :
    t.checkedBuild v = t.buildIn v := by
  have hhandled := h.handled
  have hnot := @isIndirect_eq_false t
  rw [hindirect] at hnot
  unfold checkedBuild
  generalize t.decodeStrategy = strategy at hhandled hnot ⊢
  cases hhandled with
  | scalar | char | scalarOptional | charOptional => cases hnot (by decide)
  | _ => rfl

theorem checkedCommit_eq (h : t.Holds v) (index : Nat) (off : Option Nat) :
    t.checkedCommit index v off = t.commitIn index v off := by
  have hhandled := h.handled
  unfold checkedCommit
  generalize t.decodeStrategy = strategy at hhandled ⊢
  cases hhandled with
  | _ => rfl

end FieldType

namespace Encoder

variable {n : Nat}

def checkedKeep (i : Nat) (off : Option Nat) : Encoding n Unit :=
  if i < n then keep i off else throw .bounds

def checkedHandle (i : Nat) : Encoding n (Option Nat) := do
  if i < n then return (← get).handle? i else throw .bounds

theorem checkedKeep_eq {i : Nat} (h : i < n) (off : Option Nat) :
    (checkedKeep i off : Encoding n Unit) = keep i off :=
  if_pos h

theorem checkedHandle_eq {i : Nat} (h : i < n) :
    (checkedHandle i : Encoding n (Option Nat)) = do return (← get).handle? i :=
  if_pos h

end Encoder

namespace Binding

def checkedWrite (bd : Binding) (struct : Array Value) : Encoding bd.plan.fields.size Unit := do
  Encoder.call Memory.reset
  bd.plan.indirect.forM build
  Encoder.call (Memory.startObject bd.plan.fields.size)
  bd.plan.commit.forM commit
  Encoder.call Memory.finishObject
where
  fieldAt (i : Nat) : Encoding bd.plan.fields.size (Field × Value) :=
    match bd.plan.fields[i]?, struct[bd.targetOf i]? with
    | some f, some v => return (f, v)
    | _, _ => throw .bounds
  build (i : Nat) : Encoding bd.plan.fields.size Unit := do
    let (f, v) ← fieldAt i
    Encoder.checkedKeep i (← Encoder.call (f.type.checkedBuild v))
  commit (i : Nat) : Encoding bd.plan.fields.size Unit := do
    let (f, v) ← fieldAt i
    Encoder.call (f.type.checkedCommit i v (← Encoder.checkedHandle i))

def checkedFlattenIn (bd : Binding) (struct : Array Value) :
    Encoding bd.plan.fields.size (List UInt8) := do
  bd.checkedWrite struct
  Encoder.call Memory.finishedBytes

def checkedEncode (bd : Binding) (struct : Array Value) :
    Encoding bd.plan.fields.size (List UInt8) := do
  modify fun e => { e with built := Vector.replicate bd.plan.fields.size false }
  bd.checkedFlattenIn struct

namespace Bound

variable {p : Plan} {bd : Binding} {struct : Array Value}

theorem fieldAt_eq (h : Bound p bd) (hstruct : bd.isStruct struct = true) {i : Nat} {f : Field}
    (hf : p.fields[i]? = some f) :
    checkedWrite.fieldAt bd struct i = pure (f, bd.value struct i) := by
  unfold checkedWrite.fieldAt
  rw [h.getElem?_target hstruct hf, h.plan, hf]

theorem build_eq (h : Bound p bd) (hp : p.WellFormed) (hstruct : bd.isStruct struct = true)
    {i : Nat} (hi : i ∈ bd.plan.indirect) :
    checkedWrite.build bd struct i = write.build bd struct i := by
  rw [h.plan, hp.mem_indirect] at hi
  obtain ⟨f, hf, hindirect⟩ := hi
  have hbuild := FieldType.checkedBuild_eq (h.value_holds hstruct hf) hindirect
  have hfield := h.fieldAt_eq hstruct hf
  rw [← h.plan] at hf
  obtain ⟨hlt, -⟩ := Array.getElem?_eq_some_iff.1 hf
  unfold checkedWrite.build write.build
  simp only [hfield, pure_bind, hbuild, Encoder.checkedKeep_eq hlt, hf]

theorem commit_eq (h : Bound p bd) (hp : p.WellFormed) (hstruct : bd.isStruct struct = true)
    {i : Nat} (hi : i ∈ bd.plan.commit) :
    checkedWrite.commit bd struct i = write.commit bd struct i := by
  rw [h.plan, hp.mem_commit] at hi
  obtain ⟨f, hf⟩ : ∃ f, p.fields[i]? = some f := ⟨_, Array.getElem?_eq_getElem hi⟩
  have hcommit := FieldType.checkedCommit_eq (h.value_holds hstruct hf)
  have hfield := h.fieldAt_eq hstruct hf
  rw [← h.plan] at hf
  obtain ⟨hlt, -⟩ := Array.getElem?_eq_some_iff.1 hf
  unfold checkedWrite.commit write.commit
  simp only [hfield, pure_bind, hcommit, Encoder.checkedHandle_eq hlt, hf, bind_assoc]

theorem checkedWrite_eq (h : Bound p bd) (hp : p.WellFormed) (hstruct : bd.isStruct struct = true) :
    bd.checkedWrite struct = bd.write struct := by
  have hbuild : bd.plan.indirect.forM (checkedWrite.build bd struct) =
      bd.plan.indirect.forM (write.build bd struct) :=
    forM_congr fun _ hi => h.build_eq hp hstruct hi
  have hcommit : bd.plan.commit.forM (checkedWrite.commit bd struct) =
      bd.plan.commit.forM (write.commit bd struct) :=
    forM_congr fun _ hi => h.commit_eq hp hstruct hi
  unfold checkedWrite write
  rw [hbuild, hcommit]

theorem checkedFlattenIn_eq (h : Bound p bd) (hp : p.WellFormed)
    (hstruct : bd.isStruct struct = true) :
    bd.checkedFlattenIn struct = bd.flattenIn struct := by
  unfold checkedFlattenIn flattenIn
  rw [h.checkedWrite_eq hp hstruct]

end Bound

theorem encoding_never_fails {r : Record} {p : Plan} {type : Option HostType} {bd : Binding}
    (hp : assemble r = .ok p) (hbd : ofPlan (some p) type = .ok bd) {struct : Array Value}
    (hstruct : bd.isStruct struct = true) :
    ∃ bytes,
      (∀ b : Builder, (bd.flatten struct b >>= Builder.finishedBytes) = .ok bytes ∨
        (bd.flatten struct b >>= Builder.finishedBytes) = .error .tooLarge) ∧
      (∀ m : Memory, Yields (bd.checkedFlattenIn struct (.on _ m)) bytes) ∧
      (∀ e, Yields (bd.checkedEncode struct e) bytes) ∧
      (bd.sizeBound struct < 0x40000000 →
        (∀ b : Builder, (bd.flatten struct b >>= Builder.finishedBytes) = .ok bytes) ∧
        (∀ m : Memory, ∃ e, bd.checkedFlattenIn struct (.on _ m) = .ok bytes e) ∧
        ∀ e, ∃ e', bd.checkedEncode struct e = .ok bytes e') := by
  have hwellFormed := wellFormed_of_assemble hp
  have hbound := bound_of_ofPlan hbd
  have hfits := hbound.fits hwellFormed hstruct
  have hflatten := hbound.checkedFlattenIn_eq hwellFormed hstruct
  have hencode : ∀ e, bd.checkedEncode struct e =
      bd.flattenIn struct { e with built := Vector.replicate _ false } := by
    intro e
    unfold checkedEncode
    rw [hflatten]
    rfl
  obtain ⟨bytes, hbuilder, hyields⟩ := exists_yields hwellFormed hbound hstruct
  rw [hflatten]
  simp only [hencode]
  refine ⟨bytes, hbuilder, fun m => hyields (.on _ m) rfl, fun e => hyields _ rfl, ?_⟩
  intro hroom
  have hok : ∀ b : Builder, (bd.flatten struct b >>= Builder.finishedBytes) = .ok bytes := by
    intro b
    have hgrowth := flatten_ne_tooLarge_of_sizeBound_lt hfits hroom b
    obtain ⟨b', -, -, hb', hbytes, -⟩ := exists_finished hwellFormed hbound hstruct hgrowth
    rcases hbuilder b with h | h
    · exact h
    · rw [hb'] at h
      cases hbytes.symm.trans h
  have hmemory : ∀ e : Encoder bd.plan.fields.size, e.built = Vector.replicate _ false →
      ∃ e', bd.flattenIn struct e = .ok bytes e' := by
    intro e he
    -- the builder with the room of the memory succeeds, so the memory does
    have hshows := flattenIn_shows true hfits.wellFormed struct he
      (b := { capacity := ⟨_, e.memory.length_block_lt⟩ }) rfl
    rw [hok] at hshows
    obtain ⟨_, e', he', rfl⟩ := hshows.exists_ok
    exact ⟨e', he'⟩
  exact ⟨hok, fun m => hmemory (.on _ m) rfl, fun e => hmemory _ rfl⟩

def staleEncoder (n : Nat) : Encoder n where
  memory := staleMemory
  handles := Vector.replicate n 9
  built := Vector.replicate n true

theorem encoding_never_fails_taggedEntity :
    ∃ bd bytes, Binding.dynamic Sample.entityPlan = .ok bd ∧
      bd.isStruct taggedEntity.toStruct = true ∧
      bd.sizeBound taggedEntity.toStruct < 0x40000000 ∧
      (bd.flatten taggedEntity.toStruct (.new 0) >>= Builder.finishedBytes) = .ok bytes ∧
      (∃ e, bd.checkedFlattenIn taggedEntity.toStruct (.on _ staleMemory) = .ok bytes e) ∧
      ∃ e, bd.checkedEncode taggedEntity.toStruct (staleEncoder _) = .ok bytes e := by
  obtain ⟨bd, hbd⟩ := Sample.exists_dynamic_entityPlan
  have hp := wellFormed_of_assemble Sample.assemble_entityRecord
  have hdynamic := isDynamic_of_dynamic hp hbd
  obtain ⟨type, htype⟩ := exists_ofPlan_of_dynamic hbd
  have hstruct : bd.isStruct taggedEntity.toStruct = true := by
    unfold isStruct
    rw [hdynamic.members]
    decide
  have hroom := sizeBound_lt (hdynamic.bound.fits hp hstruct) (by decide)
  obtain ⟨bytes, -, -, -, hok⟩ := encoding_never_fails Sample.assemble_entityRecord htype hstruct
  obtain ⟨hbuilder, hmemory, hencoder⟩ := hok hroom
  exact ⟨bd, bytes, hbd, hstruct, hroom, hbuilder _, hmemory _, hencoder _⟩

end Binding

end RecordCodec
