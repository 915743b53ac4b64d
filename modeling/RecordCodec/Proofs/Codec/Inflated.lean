import RecordCodec.Proofs.Codec.Decoding

/-!
This module contains what a struct holds for each field of a plan if no two fields share a struct
field: a new struct holds the default of each field, and an inflated one what was read for it. The
struct fields of no field are left alone.
-/

namespace RecordCodec

open RecordCodec.Table

namespace FieldType

def found? (t : FieldType) (r : Reader) (slot : UInt16) : Option Value :=
  match t.decodeStrategy with
  | .scalar => (r.lookup? t.scalar slot).map .scalar
  | .char => (r.lookupChar? slot).map .scalar
  | .scalarOptional => (r.lookup? t.scalar slot).map (.optional ∘ some)
  | .charOptional => (r.lookupChar? slot).map (.optional ∘ some)
  | .text => (r.text? slot).map .text
  | .textOptional => (r.text? slot).map (.optionalText ∘ some)
  | .sequence => (read.sequence? t r slot).map (.sequence ∘ some)
  | .signedBytes => (r.signedBytes? slot).map (.sequence ∘ some)
  | .charSequence => (r.codePoints? slot).map (.sequence ∘ some)
  | .textSequence => (r.strings? slot).map (.texts ∘ some)

theorem read_eq {t : FieldType} {current : Value} (h : t.Holds current) (r : Reader)
    (slot : UInt16) : t.read r slot current = (t.found? r slot).getD current := by
  have hhandled := h.handled
  unfold read found?
  generalize t.decodeStrategy = strategy at hhandled ⊢
  cases hhandled with
  | scalar x => exact (Option.getD_map Value.scalar _ _).symm
  | char x => exact (Option.getD_map Value.scalar _ _).symm
  | _ => rfl

end FieldType

theorem Plan.WellFormed.holds_default {p : Plan} (hp : p.WellFormed) :
    ∀ f ∈ p.fields, f.type.Holds f.type.default := by
  intro f hf
  obtain ⟨i, hi⟩ := Array.getElem?_of_mem hf
  exact FieldType.holds_default (hp.isKnown hi)

namespace Binding

def IsSeparate (bd : Binding) : Prop :=
  ∀ i < bd.plan.fields.size, ∀ j < bd.plan.fields.size, bd.targetOf i = bd.targetOf j → i = j

def IsFree (bd : Binding) (j : Nat) : Prop :=
  ∀ i < bd.plan.fields.size, bd.targetOf i ≠ j

/--
A struct that has the values `new` for the fields before `k`, the values `old` for the fields from
there on, and what `start` has in the struct fields of no field.
-/
structure Filling (bd : Binding) (start : Array Value) (new old : Field → Value) (k : Nat)
    (struct : Array Value) : Prop where
  isStruct : bd.isStruct struct = true
  value : ∀ (i : Nat) f, bd.plan.fields[i]? = some f →
    bd.value struct i = if i < k then new f else old f
  rest : ∀ j, bd.IsFree j → struct[j]? = start[j]?

namespace Bound

variable {p : Plan} {bd : Binding} {struct : Array Value}

theorem value_set_self (h : Bound p bd) (hstruct : bd.isStruct struct = true) {i : Nat} {f : Field}
    (hf : p.fields[i]? = some f) (v : Value) :
    bd.value (struct.setIfInBounds (bd.targetOf i) v) i = v := by
  obtain ⟨hlt, -⟩ := Array.getElem?_eq_some_iff.1 (h.getElem?_target hstruct hf)
  unfold value
  rw [Array.getElem?_setIfInBounds_self_of_lt hlt]
  rfl

end Bound

namespace Filling

variable {p : Plan} {bd : Binding} {start struct : Array Value} {new old : Field → Value} {k : Nat}
  {f : Field}

theorem value_eq (h : bd.Filling start new old k struct) (hf : bd.plan.fields[k]? = some f) :
    bd.value struct k = old f := by
  rw [h.value k f hf, if_neg (Nat.lt_irrefl k)]

theorem value_all (h : bd.Filling start new old bd.plan.fields.size struct) {i : Nat}
    (hf : bd.plan.fields[i]? = some f) : bd.value struct i = new f := by
  obtain ⟨hi, -⟩ := Array.getElem?_eq_some_iff.1 hf
  rw [h.value i f hf, if_pos hi]

theorem set (h : bd.Filling start new old k struct) (hbound : Bound p bd)
    (hseparate : bd.IsSeparate) (hf : bd.plan.fields[k]? = some f) (hnew : f.type.Holds (new f)) :
    bd.Filling start new old (k + 1) (struct.setIfInBounds (bd.targetOf k) (new f)) := by
  obtain ⟨hk, -⟩ := Array.getElem?_eq_some_iff.1 hf
  have hf' := hf
  rw [hbound.plan] at hf'
  refine ⟨hbound.isStruct_set h.isStruct hf' hnew, ?_, ?_⟩
  · intro i g hg
    by_cases hik : i = k
    · subst hik
      rw [hf] at hg
      cases hg
      rw [hbound.value_set_self h.isStruct hf', if_pos (Nat.lt_succ_self i)]
    · obtain ⟨hi, -⟩ := Array.getElem?_eq_some_iff.1 hg
      have hne : bd.targetOf k ≠ bd.targetOf i := fun heq => hik (hseparate k hk i hi heq).symm
      have hiff : i < k + 1 ↔ i < k := by omega
      rw [← ite_congr (propext hiff.symm) (fun _ => rfl) (fun _ => rfl), ← h.value i g hg]
      unfold Binding.value
      rw [Array.getElem?_setIfInBounds_ne hne]
  · intro j hj
    rw [Array.getElem?_setIfInBounds_ne (hj k hk)]
    exact h.rest j hj

theorem skip (h : bd.Filling start new old k struct) (hf : bd.plan.fields[k]? = some f)
    (heq : new f = old f) : bd.Filling start new old (k + 1) struct := by
  refine ⟨h.isStruct, ?_, h.rest⟩
  intro i g hg
  rw [h.value i g hg]
  by_cases hik : i = k
  · subst hik
    rw [hf] at hg
    cases hg
    rw [if_neg (Nat.lt_irrefl i), if_pos (Nat.lt_succ_self i), heq]
  · have hiff : i < k ↔ i < k + 1 := by omega
    simp only [hiff]

end Filling

namespace Bound

variable {p : Plan} {bd : Binding} {struct : Array Value}

theorem filling_unset (h : Bound p bd) (new : Field → Value) :
    bd.Filling bd.unset new (fun f => f.type.unset) 0 bd.unset := by
  refine ⟨bd.isStruct_unset, ?_, fun _ _ => rfl⟩
  intro i f hf
  rw [h.plan] at hf
  obtain ⟨m, hm, hfits⟩ := h.exists_member hf
  rw [if_neg (Nat.not_lt_zero i)]
  unfold value unset
  rw [List.getElem?_toArray, List.getElem?_map, hm, Option.map_some, FieldType.zero_of_fits hfits]
  rfl

theorem filling_new (h : Bound p bd) (hp : p.WellFormed) (hseparate : bd.IsSeparate) :
    bd.Filling bd.unset (fun f => f.type.default) (fun f => f.type.unset) bd.plan.fields.size
      bd.new := by
  have hwellFormed : bd.plan.WellFormed := by
    rw [h.plan]
    exact hp
  unfold new
  apply Array.foldl_induction
    (motive := bd.Filling bd.unset (fun f => f.type.default) (fun f => f.type.unset))
  · exact h.filling_unset _
  · rintro ⟨k, hk⟩ struct hstruct
    have hf := Array.getElem?_eq_getElem hk
    unfold new.init
    dsimp only [Fin.getElem_fin]
    split
    · rw [(hwellFormed.isPlaced k _ hf).index]
      exact hstruct.set h hseparate hf (FieldType.holds_default (hwellFormed.isKnown hf))
    · next hshape =>
      apply hstruct.skip hf
      unfold FieldType.unset
      split
      · next hsequence => exact absurd hsequence hshape
      · rfl

theorem filling_readFields (h : Bound p bd) (hp : p.WellFormed) (hseparate : bd.IsSeparate)
    (r : Reader) {start : Array Value} {old : Field → Value}
    (hstart : bd.Filling start (fun f => f.type.read r f.slot (old f)) old 0 struct)
    (hold : ∀ f ∈ p.fields, f.type.Holds (old f)) :
    bd.Filling start (fun f => f.type.read r f.slot (old f)) old bd.plan.fields.size
      (bd.readFields r struct) := by
  have hread : ∀ k ≤ bd.plan.fields.size,
      bd.Filling start (fun f => f.type.read r f.slot (old f)) old k
        ((List.range k).foldl (readFields.step bd r) struct) := by
    intro k
    induction k with
    | zero =>
      intro _
      exact hstart
    | succ k ih =>
      intro hk
      have hf := Array.getElem?_eq_getElem hk
      have hk' := ih (Nat.le_of_lt hk)
      rw [List.range_succ, List.foldl_append, List.foldl_cons, List.foldl_nil]
      generalize (List.range k).foldl (readFields.step bd r) struct = struct' at hk' ⊢
      have hmem : bd.plan.fields[k] ∈ p.fields := by
        rw [← h.plan]
        exact Array.getElem_mem hk
      unfold readFields.step
      rw [hf]
      dsimp only
      rw [hk'.value_eq hf]
      exact hk'.set h hseparate hf (FieldType.holds_read (hold _ hmem))
  unfold readFields
  rw [h.plan, hp.order_eq, ← h.plan]
  exact hread _ (Nat.le_refl _)

theorem filling_inflate (h : Bound p bd) (hp : p.WellFormed) (hseparate : bd.IsSeparate)
    (bytes : Array UInt8) :
    bd.Filling bd.unset (fun f => f.type.read (Reader.ofBytes bytes) f.slot f.type.default)
      (fun f => f.type.default) bd.plan.fields.size (bd.inflate bytes) := by
  have hnew := h.filling_new hp hseparate
  apply h.filling_readFields hp hseparate _ ⟨hnew.isStruct, ?_, hnew.rest⟩ hp.holds_default
  intro i f hf
  rw [hnew.value_all hf, if_neg (Nat.not_lt_zero i)]

theorem value_inflate (h : Bound p bd) (hp : p.WellFormed) (hseparate : bd.IsSeparate)
    (bytes : Array UInt8) {i : Nat} {f : Field} (hf : p.fields[i]? = some f) :
    bd.value (bd.inflate bytes) i =
      f.type.read (Reader.ofBytes bytes) f.slot f.type.default := by
  rw [← h.plan] at hf
  exact (h.filling_inflate hp hseparate bytes).value_all hf

end Bound

end Binding

end RecordCodec
