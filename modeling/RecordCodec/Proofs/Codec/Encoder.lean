import RecordCodec.Proofs.Codec.Calls
import RecordCodec.Proofs.Codec.Presence
import RecordCodec.Proofs.Table.MemoryView

/-!
This module contains that the encoding of a struct does not depend on what was done before. A memory
may have been used for other buffers, finished or not, and an encoder also keeps the offsets of the
last struct: the bytes are those of a new builder.
-/

namespace RecordCodec

open RecordCodec.Table

namespace FieldType

def buildIn (t : FieldType) (v : Value) : Writing (Option Nat) :=
  match t.creation? v with
  | some c => some <$> c.write
  | none => return none

def commitIn (t : FieldType) (index : Nat) (v : Value) (off : Option Nat) : Writing Unit :=
  match t.action? index v off with
  | some c => c.write
  | none => return

theorem isValid_of_creation? {t : FieldType} {v : Value} {elem : Scalar} {elems : List Nat}
    (ht : t.isKnown = true) (h : t.creation? v = some (.vector elem elems)) :
    elem.isValid = true := by
  unfold creation? at h
  split at h
  case h_6 =>
    cases h
    exact isValid_of_isKnown ht
  all_goals cases h

theorem action?_ne_reset {t : FieldType} {i : Nat} {v : Value} {off : Option Nat} {c : Action}
    (h : t.action? i v off = some c) : c ≠ .reset := by
  unfold action? at h
  split at h
  case h_5 => cases h
  all_goals
    cases h
    nofun

end FieldType

structure Encoder (n : Nat) where
  memory : Memory
  handles : Vector Nat n
  built : Vector Bool n

abbrev Encoding (n : Nat) (α : Type) : Type :=
  EStateM Stop (Encoder n) α

namespace Encoder

variable {n : Nat}

def on (n : Nat) (m : Memory) : Encoder n where
  memory := m
  handles := Vector.replicate n 0
  built := Vector.replicate n false

def call (x : Writing α) : Encoding n α := fun e =>
  match x e.memory with
  | .ok a m => .ok a { e with memory := m }
  | .error s m => .error s { e with memory := m }

def keep (i : Nat) (off : Option Nat) : Encoding n Unit :=
  modify fun e => { e with
    handles := e.handles.setIfInBounds i (off.getD 0)
    built := e.built.setIfInBounds i off.isSome }

def handle? (e : Encoder n) (i : Nat) : Option Nat :=
  (e.built[i]?).bind fun built => if built then e.handles[i]? else none

end Encoder

namespace Binding

def write (bd : Binding) (struct : Array Value) : Encoding bd.plan.fields.size Unit := do
  Encoder.call Memory.reset
  bd.plan.indirect.forM build
  Encoder.call (Memory.startObject bd.plan.fields.size)
  bd.plan.commit.forM commit
  Encoder.call Memory.finishObject
where
  build (i : Nat) : Encoding bd.plan.fields.size Unit := do
    let some f := bd.plan.fields[i]? | return
    Encoder.keep i (← Encoder.call (f.type.buildIn (bd.value struct i)))
  commit (i : Nat) : Encoding bd.plan.fields.size Unit := do
    let some f := bd.plan.fields[i]? | return
    Encoder.call (f.type.commitIn i (bd.value struct i) ((← get).handle? i))

def flattenIn (bd : Binding) (struct : Array Value) :
    Encoding bd.plan.fields.size (List UInt8) := do
  bd.write struct
  Encoder.call Memory.finishedBytes

def encode (bd : Binding) (struct : Array Value) : Encoding bd.plan.fields.size (List UInt8) := do
  modify fun e => { e with built := Vector.replicate bd.plan.fields.size false }
  bd.flattenIn struct

/--
The encoder after structs were encoded one after the other. Encoding goes on after a struct that
could not be encoded.
-/
def encodeAll (bd : Binding) (structs : List (Array Value)) (e : Encoder bd.plan.fields.size) :
    Encoder bd.plan.fields.size :=
  structs.foldl (fun e struct =>
    match bd.encode struct e with
    | .ok _ e | .error _ e => e) e

end Binding

def Yields (r : EStateM.Result Stop σ (List UInt8)) (bytes : List UInt8) : Prop :=
  match r with
  | .ok bytes' _ => bytes' = bytes
  | .error s _ => s = .refused .tooLarge

namespace Table

theorem Shows.forM {same : Bool} {f : α → EStateM Stop σ Unit}
    {g : β → α → Except BuilderError β} (I : σ → β → Prop)
    (hstep : ∀ a s b, I s b → Shows same (f a s) (g b a) fun _ => I) (as : List α) {s : σ} {b : β}
    (h : I s b) : Shows same (as.forM f s) (as.foldlM g b) fun _ => I := by
  induction as generalizing s b with
  | nil => exact Shows.ok h
  | cons a as ih =>
    rw [List.foldlM_cons]
    apply Shows.bind (hstep a s b h)
    intro _ s' b' h'
    exact ih h'

theorem Shows.call {same : Bool} {n : Nat} {x : Writing α} {e : Encoder n}
    {y : Except BuilderError β} {Q : α → Memory → β → Prop} (h : Shows same (x e.memory) y Q) :
    Shows same (Encoder.call x e) y fun a e' b =>
      Q a e'.memory b ∧ e' = { e with memory := e'.memory } := by
  unfold Encoder.call
  cases hx : x e.memory with
  | ok a m =>
    rw [hx] at h
    obtain ⟨b, hy, hQ⟩ := h
    exact ⟨b, hy, hQ, rfl⟩
  | error s m =>
    rw [hx] at h
    exact h

theorem Shows.yields {r : EStateM.Result Stop σ (List UInt8)}
    {y : Except BuilderError (List UInt8)} {bytes : List UInt8}
    (h : Shows false r y fun bytes _ bytes' => bytes' = bytes)
    (hy : y = .ok bytes ∨ y = .error .tooLarge) : Yields r bytes := by
  cases r with
  | ok bytes' s =>
    obtain ⟨b, rfl, rfl⟩ := h
    rcases hy with hy | hy
    · cases hy
      rfl
    · contradiction
  | error s _ =>
    obtain ⟨e, rfl, he | he⟩ := h
    · subst he
      rcases hy with hy | hy
      · contradiction
      · cases hy
        rfl
    · rw [he.2]
      rfl

theorem Shows.of_yields {r : EStateM.Result Stop σ (List UInt8)}
    {y : Except BuilderError (List UInt8)} {bytes : List UInt8}
    (h : Shows true r y fun bytes _ bytes' => bytes' = bytes) (hr : Yields r bytes) :
    y = .ok bytes ∨ y = .error .tooLarge := by
  cases r with
  | ok bytes' s =>
    obtain ⟨b, rfl, rfl⟩ := h
    cases hr
    exact .inl rfl
  | error s _ =>
    cases hr
    obtain ⟨e, he, rfl | hsame⟩ := h
    · cases he
      exact .inr rfl
    · cases hsame.1

namespace Viewed

variable {same opened : Bool} {m : Memory} {b : Builder}

theorem buildIn (h : Viewed same opened m b) {t : FieldType} (ht : t.isKnown = true) (v : Value) :
    Shows same (t.buildIn v m) (t.build v b) (Made same opened) := by
  rw [← FieldType.run_make?]
  unfold FieldType.buildIn
  cases hc : t.creation? v with
  | none => exact Shows.ok ⟨h, rfl⟩
  | some c =>
    have hvalid : ∀ elem elems, c = .vector elem elems → elem.isValid = true := by
      rintro elem elems rfl
      exact FieldType.isValid_of_creation? ht hc
    rw [show (Calls.make? (some c)).run b = _ from Calls.run_map .., Calls.run_make]
    apply Shows.bind (h.create hvalid)
    rintro off m' ⟨b', off'⟩ ⟨hviewed, rfl⟩
    exact Shows.ok ⟨hviewed, rfl⟩

theorem commitIn (h : Viewed same true m b) (t : FieldType) (i : Nat) (v : Value)
    (off : Option Nat) :
    Shows same (t.commitIn i v off m) (t.commit i v off b) fun _ => Viewed same true := by
  rw [← FieldType.exec_perform?]
  unfold FieldType.commitIn
  cases hc : t.action? i v off with
  | none => exact Shows.ok h
  | some c =>
    rw [show (Calls.perform? (some c)).exec b = c.run b from Calls.exec_perform ..]
    exact h.act (FieldType.action?_ne_reset hc)

end Viewed

end Table

structure Encoder.Shown (same opened : Bool) {n : Nat} (e : Encoder n) (b : Builder)
    (offs : Array (Option Nat)) : Prop where
  viewed : Viewed same opened e.memory b
  size_eq : offs.size = n
  handle?_eq : ∀ i, e.handle? i = (offs[i]?).getD none

namespace Encoder

variable {n : Nat}

theorem handle?_of_built {e : Encoder n} (h : e.built = Vector.replicate n false) (i : Nat) :
    e.handle? i = none := by
  unfold handle?
  rw [h, Vector.getElem?_replicate]
  split
  · rfl
  · rfl

theorem Shown.keep {same opened : Bool} {e : Encoder n} {b : Builder} {offs : Array (Option Nat)}
    (h : e.Shown same opened b offs) (i : Nat) (off : Option Nat) :
    ∃ e', Encoder.keep i off e = .ok () e' ∧
      e'.Shown same opened b (offs.setIfInBounds i off) := by
  refine ⟨_, rfl, h.viewed, ?_, ?_⟩
  · rw [Array.size_setIfInBounds, h.size_eq]
  · intro j
    have hj := h.handle?_eq j
    unfold handle? at hj ⊢
    rw [Vector.getElem?_setIfInBounds, Vector.getElem?_setIfInBounds,
      Array.getElem?_setIfInBounds, h.size_eq]
    by_cases hij : i = j
    · rw [if_pos hij, if_pos hij, if_pos hij]
      by_cases hi : i < n
      · rw [if_pos hi, if_pos hi, if_pos hi]
        cases off with
        | none => rfl
        | some off => rfl
      · rw [if_neg hi, if_neg hi, if_neg hi]
        rfl
    · rw [if_neg hij, if_neg hij, if_neg hij]
      exact hj

end Encoder

namespace Binding

variable {bd : Binding} {struct : Array Value} {same : Bool}

theorem build_shown (hp : bd.plan.WellFormed)
    (i : Nat) (e : Encoder bd.plan.fields.size) (r : Builder × Array (Option Nat))
    (h : e.Shown same false r.1 r.2) :
    Shows same (write.build bd struct i e) (buildObjects.step bd struct r i) fun _ e' r' =>
      e'.Shown same false r'.1 r'.2 := by
  unfold write.build buildObjects.step
  cases hf : bd.plan.fields[i]? with
  | none => exact Shows.ok h
  | some f =>
    apply Shows.bind (Shows.call (h.viewed.buildIn (hp.isKnown hf) (bd.value struct i)))
    rintro off e₁ ⟨b₁, off'⟩ ⟨⟨hviewed, rfl⟩, he⟩
    have hshown : e₁.Shown same false b₁ r.2 := by
      rw [he]
      exact ⟨hviewed, h.size_eq, h.handle?_eq⟩
    obtain ⟨e₂, hkeep, hshown₂⟩ := hshown.keep i off'
    rw [hkeep]
    exact Shows.ok hshown₂

theorem commit_shown {offs : Array (Option Nat)} (i : Nat) (e : Encoder bd.plan.fields.size)
    (b : Builder) (h : e.Shown same true b offs) :
    Shows same (write.commit bd struct i e) (commitFields.step bd struct offs b i) fun _ e' b' =>
      e'.Shown same true b' offs := by
  unfold write.commit commitFields.step
  cases hf : bd.plan.fields[i]? with
  | none => exact Shows.ok h
  | some f =>
    show Shows same (Encoder.call (f.type.commitIn i (bd.value struct i) (e.handle? i)) e) _ _
    rw [h.handle?_eq]
    apply (Shows.call (h.viewed.commitIn f.type i (bd.value struct i) _)).mono
    rintro _ e' b' ⟨hviewed, he⟩
    rw [he]
    exact ⟨hviewed, h.size_eq, h.handle?_eq⟩

theorem write_shows (hp : bd.plan.WellFormed) (struct : Array Value) {e : Encoder bd.plan.fields.size}
    (he : e.built = Vector.replicate bd.plan.fields.size false) {b : Builder}
    (hcapacity : b.capacity.val = if same then e.memory.block.length else 0x7fffffff) :
    Shows same (bd.write struct e) (bd.flatten struct b) fun _ e' => Viewed same true e'.memory := by
  obtain ⟨m, hreset, hviewed⟩ := Viewed.reset e.memory hcapacity
  have hcall : (Encoder.call Memory.reset : Encoding bd.plan.fields.size Unit) e =
      .ok () { e with memory := m } := by
    unfold Encoder.call
    rw [hreset]
  have hshown : Encoder.Shown same false { e with memory := m } b.reset
      (Array.replicate bd.plan.fields.size none) := by
    refine ⟨hviewed, Array.size_replicate, ?_⟩
    intro i
    rw [Array.getElem?_replicate]
    exact (Encoder.handle?_of_built he i).trans (by split <;> rfl)
  unfold write flatten
  rw [run_bind_ok hcall]
  apply Shows.bind (Shows.forM (fun e r => e.Shown same false r.1 r.2) (build_shown hp) _ hshown)
  rintro _ e₁ ⟨b₁, offs⟩ hshown₁
  apply Shows.bind (Shows.call (hshown₁.viewed.startObject _))
  rintro _ e₂ b₂ ⟨hviewed₂, he₂⟩
  have hshown₂ : e₂.Shown same true b₂ offs := by
    rw [he₂]
    exact ⟨hviewed₂, hshown₁.size_eq, hshown₁.handle?_eq⟩
  apply Shows.bind (Shows.forM (fun e b => e.Shown same true b offs) commit_shown _ hshown₂)
  rintro _ e₃ b₃ hshown₃
  apply (Shows.call hshown₃.viewed.finishObject).mono
  rintro _ e₄ b₄ ⟨hviewed₄, -⟩
  exact hviewed₄

theorem flattenIn_shows (same : Bool) (hp : bd.plan.WellFormed) (struct : Array Value)
    {e : Encoder bd.plan.fields.size} (he : e.built = Vector.replicate bd.plan.fields.size false)
    {b : Builder} (hcapacity : b.capacity.val = if same then e.memory.block.length else 0x7fffffff) :
    Shows same (bd.flattenIn struct e) (bd.flatten struct b >>= Builder.finishedBytes)
      fun bytes _ bytes' => bytes' = bytes := by
  apply Shows.bind (write_shows hp struct he hcapacity)
  intro _ e' b' hviewed
  apply (Shows.call hviewed.finishedBytes).mono
  rintro bytes _ bytes' ⟨hbytes, -⟩
  exact hbytes

theorem exists_bytes {p : Plan} (hp : p.WellFormed) (hbound : Bound p bd)
    (hstruct : bd.isStruct struct = true) (b : Builder) :
    ∃ bytes, (bd.flatten struct b >>= Builder.finishedBytes) = .ok bytes ∨
      (bd.flatten struct b >>= Builder.finishedBytes) = .error .tooLarge := by
  by_cases htooLarge : bd.flatten struct b = .error .tooLarge
  · refine ⟨[], .inr ?_⟩
    rw [htooLarge]
    rfl
  · obtain ⟨b', -, -, hflatten, hbytes, -⟩ := exists_finished hp hbound hstruct htooLarge
    refine ⟨b'.written, .inl ?_⟩
    rw [hflatten]
    exact hbytes

theorem exists_yields {p : Plan} (hp : p.WellFormed) (hbound : Bound p bd)
    (hstruct : bd.isStruct struct = true) :
    ∃ bytes,
      (∀ b : Builder, (bd.flatten struct b >>= Builder.finishedBytes) = .ok bytes ∨
        (bd.flatten struct b >>= Builder.finishedBytes) = .error .tooLarge) ∧
      ∀ e : Encoder bd.plan.fields.size, e.built = Vector.replicate bd.plan.fields.size false →
        Yields (bd.flattenIn struct e) bytes := by
  have hplan := (hbound.fits hp hstruct).wellFormed
  obtain ⟨bytes, hbytes⟩ := exists_bytes hp hbound hstruct (.new 0x7fffffff)
  have hyields : ∀ e : Encoder bd.plan.fields.size,
      e.built = Vector.replicate bd.plan.fields.size false →
      Yields (bd.flattenIn struct e) bytes := by
    intro e he
    exact (flattenIn_shows false hplan struct he rfl).yields hbytes
  refine ⟨bytes, ?_, hyields⟩
  -- a builder has the outcome of a new memory with its room
  intro b
  have hnew := hyields (.on _ (.new b.capacity)) rfl
  apply Shows.of_yields (flattenIn_shows true hplan struct rfl ?_) hnew
  show b.capacity.val = (List.replicate b.capacity.val (0 : UInt8) ++ []).length
  rw [List.append_nil, List.length_replicate]

theorem encoding_forgets_past {r : Record} {p : Plan} {type : Option HostType} {bd : Binding}
    (hp : assemble r = .ok p) (hbd : ofPlan (some p) type = .ok bd) {struct : Array Value}
    (hstruct : bd.isStruct struct = true) :
    ∃ bytes,
      (∀ b : Builder, (bd.flatten struct b >>= Builder.finishedBytes) = .ok bytes ∨
        (bd.flatten struct b >>= Builder.finishedBytes) = .error .tooLarge) ∧
      (∀ m : Memory, Yields (bd.flattenIn struct (.on _ m)) bytes) ∧
      (∀ past e, Yields (bd.encode struct (bd.encodeAll past e)) bytes) := by
  obtain ⟨bytes, hbuilder, hyields⟩ :=
    exists_yields (wellFormed_of_assemble hp) (bound_of_ofPlan hbd) hstruct
  refine ⟨bytes, hbuilder, ?_, ?_⟩
  · intro m
    exact hyields (.on _ m) rfl
  · intro past e
    exact hyields { bd.encodeAll past e with built := Vector.replicate _ false } rfl

/--
A memory in the middle of an object, with bytes, fields and vtables of earlier buffers, and a head
that lies outside of its room.
-/
def staleMemory : Memory where
  bytes := [0xaa, 0xbb, 0xcc]
  spare := [0xdd]
  slack := fun size => if size < 0x40000000 then size / 3 else 0
  slack_lt := by
    intro size hsize
    split
    · omega
    · exact hsize
  head := 7
  minAlign := 16
  fields := List.replicate 20 9
  fieldCount := 30
  objectEnd := 5
  vtables := [1, 2]
  vtableCount := 2
  isNested := true
  isFinished := true
  size_lt := by decide

def taggedEntity : Sample.Entity where
  name := [0x61]
  tags := some [[0x62], []]
  marks := some [0x1f600]
  level := some 0

theorem encoding_forgets_past_taggedEntity :
    ∃ bd bytes, Binding.dynamic Sample.entityPlan = .ok bd ∧
      bd.isStruct taggedEntity.toStruct = true ∧
      (bd.flatten taggedEntity.toStruct (.new 0) >>= Builder.finishedBytes) = .ok bytes ∧
      Yields (bd.flattenIn taggedEntity.toStruct (.on _ staleMemory)) bytes ∧
      Yields (bd.encode taggedEntity.toStruct
        (bd.encodeAll [Sample.Entity.new.toStruct, #[]] (.on _ staleMemory))) bytes := by
  obtain ⟨bd, hbd⟩ := Sample.exists_dynamic_entityPlan
  have hp := wellFormed_of_assemble Sample.assemble_entityRecord
  have hdynamic := isDynamic_of_dynamic hp hbd
  obtain ⟨type, htype⟩ := exists_ofPlan_of_dynamic hbd
  have hstruct : bd.isStruct taggedEntity.toStruct = true := by
    unfold isStruct
    rw [hdynamic.members]
    decide
  have hgrowth := flatten_ne_tooLarge (hdynamic.bound.fits hp hstruct) (by decide) (.new 0)
  obtain ⟨b', -, -, hflatten, hbytes, -⟩ := exists_finished hp hdynamic.bound hstruct hgrowth
  obtain ⟨bytes, hbuilder, hmemory, hencoder⟩ :=
    encoding_forgets_past Sample.assemble_entityRecord htype hstruct
  refine ⟨bd, bytes, hbd, hstruct, ?_, hmemory _, hencoder _ _⟩
  rcases hbuilder (.new 0) with hok | htooLarge
  · exact hok
  · rw [hflatten] at htooLarge
    have hcontra := hbytes.symm.trans htooLarge
    cases hcontra

end Binding

end RecordCodec
