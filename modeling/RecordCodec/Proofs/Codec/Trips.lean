import RecordCodec.Proofs.Codec.EncodingSafety
import RecordCodec.Proofs.Codec.Entries
import RecordCodec.Proofs.Codec.RoundTrip

/-!
This module contains that a trip does not fail. A trip in memory that checks every step, which looks
up each field of a struct by its position and each value by its type, does what a trip does that
checks nothing: an entry may be refused, and the buffer may not grow any more.
-/

namespace RecordCodec

open RecordCodec.Table

namespace Plan

def Continues (p : Plan) (i : Nat) (fields : List Field) : Prop :=
  ∀ j f, fields[j]? = some f → p.fields[i + j]? = some f ∧ f.index = i + j

variable {p : Plan} {i : Nat} {f : Field} {fields : List Field}

theorem Continues.head (h : p.Continues i (f :: fields)) : p.fields[i]? = some f ∧ f.index = i :=
  h 0 f rfl

theorem Continues.tail (h : p.Continues i (f :: fields)) : p.Continues (i + 1) fields := by
  intro j g hg
  rw [Nat.add_assoc, Nat.add_comm 1]
  exact h (j + 1) g hg

theorem Continues.append_left {rest : List Field} (h : p.Continues i (fields ++ rest)) :
    p.Continues i fields := by
  intro j g hg
  obtain ⟨hj, -⟩ := List.getElem?_eq_some_iff.1 hg
  exact h j g (by rw [List.getElem?_append_left hj]; exact hg)

theorem WellFormed.continues (hp : p.WellFormed) : p.Continues 0 p.fields.toList := by
  intro j f hf
  rw [Array.getElem?_toList] at hf
  rw [Nat.zero_add]
  exact ⟨hf, (hp.isPlaced j f hf).index⟩

end Plan

namespace Binding

def tripOf (bd : Binding) (b : Builder) (entries : List Entry) : Except TripError Trip :=
  (bd.roundTrip b entries).map (·.2)

/--
Store the values that entries stand for, from the field at a position on. A position without a field,
or with one of another type, gives `none`.
-/
def checkedEnter (struct : Array Value) (i : Nat) : List Field → List Entry →
    Option (Except TripError (Array Value))
  | f :: fs, entry :: entries =>
    match struct[i]? with
    | none => none
    | some current =>
      if f.type.holds current then
        match f.type.readEntry entry current with
        | .error e => some (.error (.entry f.name e))
        | .ok v =>
          if f.type.holds v then checkedEnter (struct.setIfInBounds i v) (i + 1) fs entries else none
      else none
  | _, _ => some (.ok struct)

def checkedShown (struct : Array Value) (i : Nat) : List Field → Option (List String)
  | [] => some []
  | f :: fs =>
    match struct[i]? with
    | none => none
    | some v =>
      if f.type.holds v then
        (checkedShown struct (i + 1) fs).map ((f.name ++ " = " ++ f.type.render v) :: ·)
      else none

def checkedReturn (bd : Binding) (m : Memory) (struct : Array Value) :
    Option (Except TripError Trip) :=
  match bd.checkedFlattenIn struct (.on _ m) with
  | .error (.refused e) _ => some (.error (.builder e))
  | .error _ _ => none
  | .ok bytes _ =>
    match bd.checkedInflate bytes.toArray with
    | .error _ => none
    | .ok out => (checkedShown out 0 bd.plan.fields.toList).map (.ok ⟨bytes, ·⟩)

def checkedTrip (bd : Binding) (m : Memory) (entries : List Entry) :
    Option (Except TripError Trip) :=
  match checkedEnter bd.new 0 bd.plan.fields.toList entries with
  | none => none
  | some (.error e) => some (.error e)
  | some (.ok struct) => bd.checkedReturn m struct

namespace IsDynamic

variable {p : Plan} {bd : Binding} {struct : Array Value}

theorem checkedEnter_eq (h : IsDynamic p bd) (hstruct : bd.isStruct struct = true) {i : Nat}
    {fields : List Field} (hfields : p.Continues i fields) (entries : List Entry) :
    checkedEnter struct i fields entries = some (bd.enter struct fields entries) := by
  induction fields generalizing struct i entries with
  | nil =>
    unfold checkedEnter enter
    rfl
  | cons f fields ih =>
    cases entries with
    | nil =>
      unfold checkedEnter enter
      rfl
    | cons entry entries =>
      obtain ⟨hf, hindex⟩ := hfields.head
      obtain ⟨hi, -⟩ := Array.getElem?_eq_some_iff.1 hf
      have htarget := h.targetOf i hi
      have hvalue := h.bound.value_holds hstruct hf
      have hcurrent := h.bound.getElem?_target hstruct hf
      rw [htarget] at hcurrent
      unfold checkedEnter enter
      rw [hcurrent, hindex, htarget]
      dsimp only
      rw [if_pos (FieldType.holds_iff.2 hvalue)]
      cases hread : f.type.readEntry entry (bd.value struct i) with
      | error e => rfl
      | ok v =>
        have hv := FieldType.holds_of_readEntry hvalue hread
        have hstruct' := h.bound.isStruct_set hstruct hf hv
        rw [htarget] at hstruct'
        dsimp only
        rw [if_pos (FieldType.holds_iff.2 hv)]
        exact ih hstruct' hfields.tail entries

theorem checkedShown_eq (h : IsDynamic p bd) (hstruct : bd.isStruct struct = true) {i : Nat}
    {fields : List Field} (hfields : p.Continues i fields) :
    checkedShown struct i fields = some (fields.map fun f =>
      f.name ++ " = " ++ f.type.render (bd.value struct f.index)) := by
  induction fields generalizing i with
  | nil => rfl
  | cons f fields ih =>
    obtain ⟨hf, hindex⟩ := hfields.head
    obtain ⟨hi, -⟩ := Array.getElem?_eq_some_iff.1 hf
    have hvalue := h.bound.value_holds hstruct hf
    have hcurrent := h.bound.getElem?_target hstruct hf
    rw [h.targetOf i hi] at hcurrent
    unfold checkedShown
    rw [hcurrent, ih hfields.tail]
    dsimp only
    rw [if_pos (FieldType.holds_iff.2 hvalue), List.map_cons, hindex]
    rfl

end IsDynamic

theorem roundTrip_of_enter_ok {bd : Binding} {entries : List Entry} {struct : Array Value}
    (h : bd.enter bd.new bd.plan.fields.toList entries = .ok struct) (b : Builder) :
    bd.roundTrip b entries = do
      let b ← (bd.flatten struct b).mapError .builder
      let bytes ← b.finishedBytes.mapError .builder
      return (b, ⟨bytes, bd.shown (bd.inflate bytes.toArray)⟩) := by
  unfold roundTrip
  rw [h]
  rfl

theorem tripOf_of_bytes {bd : Binding} {entries : List Entry} {struct : Array Value}
    (henter : bd.enter bd.new bd.plan.fields.toList entries = .ok struct) {b : Builder}
    {bytes : List UInt8} (h : (bd.flatten struct b >>= Builder.finishedBytes) = .ok bytes) :
    bd.tripOf b entries = .ok ⟨bytes, bd.shown (bd.inflate bytes.toArray)⟩ := by
  obtain ⟨b', hflatten, hbytes⟩ := exists_of_bind_eq_ok h
  unfold tripOf
  rw [roundTrip_of_enter_ok henter, hflatten]
  show Except.map _ ((b'.finishedBytes.mapError TripError.builder) >>= _) = _
  rw [hbytes]
  rfl

theorem tripOf_of_error {bd : Binding} {entries : List Entry} {struct : Array Value}
    (henter : bd.enter bd.new bd.plan.fields.toList entries = .ok struct) {b : Builder}
    {e : BuilderError} (h : (bd.flatten struct b >>= Builder.finishedBytes) = .error e) :
    bd.tripOf b entries = .error (.builder e) := by
  unfold tripOf
  rw [roundTrip_of_enter_ok henter]
  cases hflatten : bd.flatten struct b with
  | error e' =>
    rw [hflatten] at h
    cases h
    rfl
  | ok b' =>
    rw [hflatten] at h
    change b'.finishedBytes = .error e at h
    show Except.map _ ((b'.finishedBytes.mapError TripError.builder) >>= _) = _
    rw [h]
    rfl

def Outgrows (bd : Binding) (entries : List Entry) : Prop :=
  ∃ struct, bd.enter bd.new bd.plan.fields.toList entries = .ok struct ∧
    0x40000000 ≤ bd.sizeBound struct

theorem le_sizeBound_of_tooLarge {p : Plan} {bd : Binding} (hp : p.WellFormed)
    (hbound : Bound p bd) {struct : Array Value} (hstruct : bd.isStruct struct = true) {b : Builder}
    (h : (bd.flatten struct b >>= Builder.finishedBytes) = .error .tooLarge) :
    0x40000000 ≤ bd.sizeBound struct := by
  refine Nat.le_of_not_lt fun hroom => ?_
  have hgrowth := flatten_ne_tooLarge_of_sizeBound_lt (hbound.fits hp hstruct) hroom b
  obtain ⟨b', -, -, hb', hbytes, -⟩ := exists_finished hp hbound hstruct hgrowth
  rw [hb'] at h
  cases hbytes.symm.trans h

theorem IsDynamic.checkedReturn_eq {p : Plan} {bd : Binding} (h : IsDynamic p bd)
    (hp : p.WellFormed) {struct : Array Value} (hstruct : bd.isStruct struct = true) {m : Memory}
    {bytes : List UInt8} (hyields : Yields (bd.flattenIn struct (.on _ m)) bytes) :
    bd.checkedReturn m struct = some (.ok ⟨bytes, bd.shown (bd.inflate bytes.toArray)⟩) ∨
      bd.checkedReturn m struct = some (.error (.builder .tooLarge)) := by
  obtain ⟨hinflate, hout⟩ := h.bound.checkedInflate_eq hp bytes.toArray
  have hshown := h.checkedShown_eq hout hp.continues
  rw [← h.bound.plan] at hshown
  unfold checkedReturn
  rw [h.bound.checkedFlattenIn_eq hp hstruct]
  cases hflatten : bd.flattenIn struct (.on _ m) with
  | ok bytes' e =>
    rw [hflatten] at hyields
    cases hyields
    dsimp only
    rw [hinflate]
    dsimp only
    rw [hshown]
    exact .inl rfl
  | error stop e =>
    rw [hflatten] at hyields
    cases hyields
    exact .inr rfl

theorem IsDynamic.exists_outcome {p : Plan} {bd : Binding} (h : IsDynamic p bd)
    (hp : p.WellFormed) (entries : List Entry) :
    ∃ outcome : Except TripError Trip,
      (∀ e, outcome ≠ .error (.builder e)) ∧
      (∀ b, bd.tripOf b entries = outcome ∨
        bd.tripOf b entries = .error (.builder .tooLarge) ∧ bd.Outgrows entries) ∧
      ∀ m, bd.checkedTrip m entries = some outcome ∨
        bd.checkedTrip m entries = some (.error (.builder .tooLarge)) := by
  have hnew := h.bound.isStruct_new hp
  have hchecked := h.checkedEnter_eq hnew hp.continues entries
  rw [← h.bound.plan] at hchecked
  cases henter : bd.enter bd.new bd.plan.fields.toList entries with
  | error e =>
    obtain ⟨f, -, refusal, rfl⟩ := enter_eq_error henter
    refine ⟨.error (.entry f.name refusal), nofun, fun b => .inl ?_, fun m => .inl ?_⟩
    · unfold tripOf roundTrip
      rw [henter]
      rfl
    · unfold checkedTrip
      rw [hchecked, henter]
  | ok struct =>
    have hstruct : bd.isStruct struct = true := by
      rw [h.bound.plan] at henter
      exact h.bound.isStruct_enter hnew (fun f hf => hp.getElem?_index hf) henter
    obtain ⟨bytes, hbuilder, hyields⟩ := exists_yields hp h.bound hstruct
    refine ⟨.ok ⟨bytes, bd.shown (bd.inflate bytes.toArray)⟩, nofun, ?_, ?_⟩
    · intro b
      rcases hbuilder b with hbytes | htooLarge
      · exact .inl (tripOf_of_bytes henter hbytes)
      · exact .inr ⟨tripOf_of_error henter htooLarge, struct, henter,
          le_sizeBound_of_tooLarge hp h.bound hstruct htooLarge⟩
    · intro m
      have htrip : bd.checkedTrip m entries = bd.checkedReturn m struct := by
        unfold checkedTrip
        rw [hchecked, henter]
      rw [htrip]
      exact h.checkedReturn_eq hp hstruct (hyields (.on _ m) rfl)

end Binding

end RecordCodec
