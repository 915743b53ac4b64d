import RecordCodec.Proofs.Codec.Bound
import RecordCodec.Proofs.Sample.Entity
import RecordCodec.Proofs.Table.InBounds

/-!
This module contains the decoding of arbitrary buffers. A binding that reads a buffer as a machine
does is never stopped by a trap, and what it returns is a struct of its type.
-/

namespace RecordCodec

open RecordCodec.Table

theorem Scalar.holds_ofStored {s : Scalar} {stored : Nat} (h : stored < Nat.pow 256 s.size) :
    s.holds (s.ofStored stored) = true := by
  cases s with
  | bool =>
    unfold ofStored holds
    dsimp only
    split <;> rfl
  | _ => exact decide_eq_true h

namespace Table.Reader

variable {r : Reader} {slot : UInt16}

theorem holds_of_lookup? {s : Scalar} {x : Nat} (h : r.lookup? s slot = some x) :
    s.holds x = true := by
  unfold lookup? at h
  simp only [Option.bind_eq_bind, Option.bind_eq_some_iff] at h
  obtain ⟨pos, -, stored, hload, h⟩ := h
  cases h
  exact Scalar.holds_ofStored (lt_of_load? hload)

theorem holds_of_lookupChar? {x : Nat} (h : r.lookupChar? slot = some x) :
    Scalar.char.holds x = true :=
  holds_of_lookup? (Option.filter_eq_some_iff.1 h).1

theorem holds_of_elements? {s : Scalar} {xs : List Nat} (h : r.elements? s slot = some xs) :
    ∀ x ∈ xs, s.holds x = true := by
  unfold elements? at h
  rw [Option.bind_eq_bind, Option.bind_eq_some_iff] at h
  obtain ⟨⟨data, count⟩, -, h⟩ := h
  obtain ⟨-, helems⟩ := getElem?_of_mapM_range_eq_some h
  intro x hx
  obtain ⟨i, hi⟩ := List.getElem?_of_mem hx
  obtain ⟨stored, hload, rfl⟩ := Option.map_eq_some_iff.1 (helems i x hi)
  exact Scalar.holds_ofStored (lt_of_load? hload)

theorem holds_of_codePoints? {xs : List Nat} (h : r.codePoints? slot = some xs) :
    ∀ x ∈ xs, Scalar.char.holds x = true := by
  unfold codePoints? at h
  obtain ⟨codes, hcodes, rfl⟩ := Option.map_eq_some_iff.1 h
  intro x hx
  exact holds_of_elements? hcodes x (List.mem_filter.1 hx).1

theorem holds_of_bytes? {s : Scalar} {xs : List Nat} (h : r.bytes? slot = some xs)
    (hs : s = .u8 ∨ s = .s8) : ∀ x ∈ xs, s.holds x = true := by
  unfold bytes? at h
  rw [Option.bind_eq_bind, Option.bind_eq_some_iff] at h
  obtain ⟨⟨data, count⟩, -, h⟩ := h
  cases h
  intro x hx
  obtain ⟨byte, -, rfl⟩ := List.mem_map.1 hx
  rcases hs with rfl | rfl
  · exact decide_eq_true byte.toNat_lt
  · exact decide_eq_true byte.toNat_lt

end Table.Reader

namespace FieldType

def checkedRead (t : FieldType) (r : Reader) (slot : UInt16) (current : Value) :
    Except Trap Value :=
  match t.decodeStrategy, current with
  | .scalar, .scalar x => return .scalar (← Checked.get r t.scalar slot x)
  | .char, .scalar x => return .scalar (← Checked.char r slot x)
  | .scalarOptional, _ => stored (Checked.lookup r t.scalar slot) (.optional ∘ some)
  | .charOptional, _ => stored (Checked.lookupChar r slot) (.optional ∘ some)
  | .text, _ => stored (Checked.text r slot) .text
  | .textOptional, _ => stored (Checked.text r slot) (.optionalText ∘ some)
  | .sequence, _ => stored sequence (.sequence ∘ some)
  | .signedBytes, _ => stored (Checked.bytes r slot) (.sequence ∘ some)
  | .charSequence, _ => stored (Checked.codePoints r slot) (.sequence ∘ some)
  | .textSequence, _ => stored (Checked.strings r slot) (.texts ∘ some)
  | _, _ => return current
where
  stored {α : Type} (x : Checked α) (value : α → Value) : Except Trap Value :=
    return ((← x.run).map value).getD current
  sequence : Checked (List Nat) :=
    match t.scalar with
    | .u8 => Checked.bytes r slot
    | s => Checked.elements r s slot

variable {t : FieldType} {r : Reader} {slot : UInt16} {current : Value}

theorem checkedRead_eq (hr : r.Agrees slot) (hknown : t.isKnown = true) :
    t.checkedRead r slot current = .ok (t.read r slot current) := by
  have hvalid := isValid_of_isKnown hknown
  have hstored : ∀ {α : Type} {x : Checked α} {o : Option α} (value : α → Value),
      x.run = .ok o → checkedRead.stored current x value = .ok ((o.map value).getD current) := by
    intro α x o value hx
    unfold checkedRead.stored
    rw [hx]
    rfl
  unfold checkedRead read
  cases t.decodeStrategy with
  | scalar =>
    cases current with
    | scalar x =>
      dsimp only
      rw [hr.get _ _ hvalid]
      rfl
    | _ => rfl
  | char =>
    cases current with
    | scalar x =>
      dsimp only
      rw [hr.char]
      rfl
    | _ => rfl
  | scalarOptional => exact hstored _ (hr.lookup _ hvalid)
  | charOptional => exact hstored _ hr.lookupChar
  | text => exact hstored _ hr.text
  | textOptional => exact hstored _ hr.text
  | sequence =>
    apply hstored
    unfold checkedRead.sequence read.sequence?
    generalize t.scalar = s at hvalid
    cases s with
    | u8 => exact hr.bytes
    | _ => exact hr.elements _ hvalid
  | signedBytes => exact hstored _ hr.signedBytes
  | charSequence => exact hstored _ hr.codePoints
  | textSequence => exact hstored _ hr.strings

theorem holds_of_getD {s : Scalar} {o : Option Nat} {x : Nat} (hx : s.holds x = true)
    (h : ∀ y, o = some y → s.holds y = true) : s.holds (o.getD x) = true := by
  cases o with
  | none => exact hx
  | some y => exact h y rfl

theorem holds_getD {o : Option α} {value : α → Value} (hcurrent : t.Holds current)
    (h : ∀ a, o = some a → t.Holds (value a)) : t.Holds ((o.map value).getD current) := by
  cases o with
  | none => exact hcurrent
  | some a => exact h a rfl

theorem holds_read (h : t.Holds current) : t.Holds (t.read r slot current) := by
  have hcurrent := h
  unfold read
  cases h with
  | scalar hshape hx =>
    rw [decodeStrategy_scalar hshape]
    by_cases hchar : t.scalar = .char
    · rw [if_pos hchar]
      rw [hchar] at hx
      refine .scalar hshape ?_
      rw [hchar]
      exact holds_of_getD hx fun _ => Reader.holds_of_lookupChar?
    · rw [if_neg hchar]
      exact .scalar hshape (holds_of_getD hx fun _ => Reader.holds_of_lookup?)
  | text hshape =>
    rw [decodeStrategy_text hshape]
    exact holds_getD hcurrent fun _ _ => .text hshape
  | sequence hshape htext =>
    rw [decodeStrategy_sequence hshape, htext, if_neg (by decide)]
    by_cases hchar : t.scalar = .char
    · rw [if_pos hchar]
      refine holds_getD hcurrent fun xs hxs => .sequence hshape htext ?_
      rw [hchar]
      exact Reader.holds_of_codePoints? hxs
    · rw [if_neg hchar]
      by_cases hsigned : t.scalar = .s8
      · rw [if_pos hsigned]
        refine holds_getD hcurrent fun xs hxs => .sequence hshape htext ?_
        exact Reader.holds_of_bytes? hxs (.inr hsigned)
      · rw [if_neg hsigned]
        refine holds_getD hcurrent fun xs hxs => .sequence hshape htext ?_
        unfold read.sequence? at hxs
        split at hxs
        · next hbyte => exact Reader.holds_of_bytes? hxs (.inl hbyte)
        · exact Reader.holds_of_elements? hxs
  | texts hshape htext =>
    rw [decodeStrategy_sequence hshape, htext, if_pos rfl]
    exact holds_getD hcurrent fun _ _ => .texts hshape htext
  | optional hshape htext =>
    rw [decodeStrategy_optional hshape, htext, if_neg (by decide)]
    by_cases hchar : t.scalar = .char
    · rw [if_pos hchar]
      refine holds_getD hcurrent fun x hx => .optional hshape htext ?_
      rintro y ⟨⟩
      rw [hchar]
      exact Reader.holds_of_lookupChar? hx
    · rw [if_neg hchar]
      refine holds_getD hcurrent fun x hx => .optional hshape htext ?_
      rintro y ⟨⟩
      exact Reader.holds_of_lookup? hx
  | optionalText hshape htext =>
    rw [decodeStrategy_optional hshape, htext, if_pos rfl]
    exact holds_getD hcurrent fun _ _ => .optionalText hshape htext

theorem holds_default (hknown : t.isKnown = true) : t.Holds t.default := by
  rcases t with ⟨shape, scalar, text⟩
  cases shape with
  | unknown code => simp [isKnown] at hknown
  | scalar => exact .scalar rfl (Scalar.holds_zero scalar)
  | text => exact .text rfl
  | sequence =>
    cases text with
    | true => exact .texts rfl rfl
    | false => exact .sequence rfl rfl (by simp)
  | optional =>
    cases text with
    | true => exact .optionalText rfl rfl
    | false => exact .optional rfl rfl (by simp)

end FieldType

namespace Binding

def checkedReadField (bd : Binding) (r : Reader) (struct : Array Value) (i : Nat) :
    Except Trap (Array Value) :=
  match bd.plan.fields[i]?, struct[bd.targetOf i]? with
  | some f, some current =>
    return struct.setIfInBounds (bd.targetOf i) (← f.type.checkedRead r f.slot current)
  | _, _ => .error .bounds

def checkedInflate (bd : Binding) (bytes : Array UInt8) : Except Trap (Array Value) := do
  let r ← Checked.ofBytes bytes
  bd.plan.order.foldlM (bd.checkedReadField r) bd.new

def unset (bd : Binding) : Array Value :=
  (bd.members.map (·.type.zero)).toArray

theorem isStruct_unset (bd : Binding) : bd.isStruct bd.unset = true := by
  unfold unset
  rw [isStruct_iff]
  refine ⟨by simp, ?_⟩
  intro i m v hm hv
  rw [List.getElem?_toArray, List.getElem?_map, hm] at hv
  cases hv
  exact m.type.holds_zero

namespace Bound

variable {p : Plan} {bd : Binding} {struct : Array Value}

theorem isStruct_set (h : Bound p bd) (hstruct : bd.isStruct struct = true) {i : Nat} {f : Field}
    (hf : p.fields[i]? = some f) {v : Value} (hv : f.type.Holds v) :
    bd.isStruct (struct.setIfInBounds (bd.targetOf i) v) = true := by
  obtain ⟨m, hm, hfits⟩ := h.exists_member hf
  obtain ⟨hsize, hall⟩ := isStruct_iff.1 hstruct
  rw [isStruct_iff]
  refine ⟨by rw [Array.size_setIfInBounds, hsize], ?_⟩
  intro j m' v' hm' hv'
  by_cases hj : bd.targetOf i = j
  · obtain ⟨hlt, -⟩ := List.getElem?_eq_some_iff.1 hm
    rw [← hj, hm] at hm'
    rw [← hj, Array.getElem?_setIfInBounds_self_of_lt (by omega)] at hv'
    cases hm'
    cases hv'
    rw [FieldType.holds_of_fits hfits]
    exact FieldType.holds_iff.2 hv
  · rw [Array.getElem?_setIfInBounds_ne hj] at hv'
    exact hall j m' v' hm' hv'

theorem isStruct_new (h : Bound p bd) (hp : p.WellFormed) : bd.isStruct bd.new = true := by
  unfold new
  rw [h.plan]
  apply Array.foldl_induction (motive := fun _ struct => bd.isStruct struct = true)
  · exact bd.isStruct_unset
  · rintro ⟨k, hk⟩ struct hstruct
    have hf := Array.getElem?_eq_getElem hk
    unfold new.init
    dsimp only [Fin.getElem_fin]
    split
    · rw [(hp.isPlaced k _ hf).index]
      exact h.isStruct_set hstruct hf (FieldType.holds_default (hp.isKnown hf))
    · exact hstruct

theorem checkedReadField_eq (h : Bound p bd) (hp : p.WellFormed) {r : Reader}
    (hr : ∀ slot, r.Agrees slot) (hstruct : bd.isStruct struct = true) {i : Nat}
    (hi : i < p.fields.size) :
    bd.checkedReadField r struct i = .ok (readFields.step bd r struct i) ∧
      bd.isStruct (readFields.step bd r struct i) = true := by
  have hf := Array.getElem?_eq_getElem hi
  have hvalue := h.value_holds hstruct hf
  unfold checkedReadField readFields.step
  rw [h.plan, hf, h.getElem?_target hstruct hf]
  dsimp only
  rw [FieldType.checkedRead_eq (hr _) (hp.isKnown hf)]
  exact ⟨rfl, h.isStruct_set hstruct hf (FieldType.holds_read hvalue)⟩

theorem foldlM_checkedReadField (h : Bound p bd) (hp : p.WellFormed) {r : Reader}
    (hr : ∀ slot, r.Agrees slot) {is : List Nat} (his : ∀ i ∈ is, i < p.fields.size)
    (hstruct : bd.isStruct struct = true) :
    is.foldlM (bd.checkedReadField r) struct = .ok (is.foldl (readFields.step bd r) struct) ∧
      bd.isStruct (is.foldl (readFields.step bd r) struct) = true := by
  induction is generalizing struct with
  | nil => exact ⟨rfl, hstruct⟩
  | cons i is ih =>
    -- the struct stays one of the type, so the next field has a place in it
    obtain ⟨hread, hstruct'⟩ := h.checkedReadField_eq hp hr hstruct (his i List.mem_cons_self)
    rw [List.foldlM_cons, hread, List.foldl_cons]
    exact ih (fun j hj => his j (List.mem_cons_of_mem _ hj)) hstruct'

theorem checkedInflate_eq (h : Bound p bd) (hp : p.WellFormed) (bytes : Array UInt8) :
    bd.checkedInflate bytes = .ok (bd.inflate bytes) ∧ bd.isStruct (bd.inflate bytes) = true := by
  have hr := (Reader.isBounded_ofBytes bytes).agrees
  unfold checkedInflate inflate readFields
  rw [Checked.ofBytes_eq, h.plan, hp.order_eq]
  apply h.foldlM_checkedReadField hp hr
  · intro i hi
    exact List.mem_range.1 hi
  · exact h.isStruct_new hp

end Bound

theorem decoding_in_bounds (bytes : Array UInt8) :
    Checked.ofBytes bytes = .ok (Reader.ofBytes bytes) ∧
    (∀ slot, (Reader.ofBytes bytes).Agrees slot ∧ (Reader.ofBytes bytes).Confined bytes slot) ∧
    ∀ (record : Record) (p : Plan) (type : Option HostType) (bd : Binding),
      assemble record = .ok p → ofPlan (some p) type = .ok bd →
        bd.checkedInflate bytes = .ok (bd.inflate bytes) ∧
          bd.isStruct (bd.inflate bytes) = true := by
  refine ⟨Checked.ofBytes_eq bytes, ?_, ?_⟩
  · intro slot
    exact ⟨(Reader.isBounded_ofBytes bytes).agrees slot, Reader.confined_ofBytes bytes slot⟩
  · intro record p type bd hp hbd
    exact (bound_of_ofPlan hbd).checkedInflate_eq (wellFormed_of_assemble hp) bytes

/--
A buffer with a root table whose fields lead out of it: a scalar behind the end, a text that is
further away than the buffer is long, and a vector with a text that has more bytes than there are.
-/
def hostileBuffer : Array UInt8 :=
  #[24, 0, 0, 0,
    -- the vtable, with the fields 0, 2 and 6
    18, 0, 20, 0, 0xff, 0xff, 0, 0, 4, 0, 0, 0, 0, 0, 0, 0, 8, 0, 0, 0,
    -- the table
    20, 0, 0, 0, 0xff, 0xff, 0xff, 0xff, 4, 0, 0, 0,
    -- the vector of texts
    1, 0, 0, 0, 4, 0, 0, 0, 0xff, 0xff, 0xff, 0xff]

theorem decoding_in_bounds_hostileBuffer :
    (Reader.ofBytes hostileBuffer).isValid = true ∧
    (Checked.lookup (Reader.ofBytes hostileBuffer) .u64 4).run = .ok none ∧
    (Checked.text (Reader.ofBytes hostileBuffer) 8).run = .ok none ∧
    (Checked.strings (Reader.ofBytes hostileBuffer) 16).run = .ok none ∧
    ∃ bd, Binding.dynamic Sample.entityPlan = .ok bd ∧
      bd.checkedInflate hostileBuffer = .ok (bd.inflate hostileBuffer) ∧
      bd.isStruct (bd.inflate hostileBuffer) = true := by
  obtain ⟨-, hreads, hinflate⟩ := decoding_in_bounds hostileBuffer
  refine ⟨by decide, ?_, ?_, ?_, ?_⟩
  · rw [(hreads 4).1.lookup .u64 rfl]
    exact congrArg Except.ok (by decide)
  · rw [(hreads 8).1.text]
    exact congrArg Except.ok (by decide)
  · rw [(hreads 16).1.strings]
    exact congrArg Except.ok (by decide)
  · obtain ⟨bd, hbd⟩ := Sample.exists_dynamic_entityPlan
    obtain ⟨type, hof⟩ := exists_ofPlan_of_dynamic hbd
    exact ⟨bd, hbd, hinflate _ _ _ bd Sample.assemble_entityRecord hof⟩

end Binding

end RecordCodec
