import RecordCodec.Codec.Literal
import RecordCodec.Proofs.Codec.Decoding
import RecordCodec.Proofs.Codec.Presence
import RecordCodec.Proofs.Number.Reading

/-!
This module contains the trip of a record from entries into a buffer and back. Whatever is entered,
what is stored is of the type of its field, so only an entry that is no value of its field and the
limit of growth can stop the trip.
-/

namespace RecordCodec

open RecordCodec.Table RecordCodec.Text RecordCodec.Number

theorem ok_of_mapError {x : Except ε α} {f : ε → δ} {a : α} (h : x.mapError f = .ok a) :
    x = .ok a := by
  cases x with
  | ok b =>
    cases h
    rfl
  | error e => cases h

theorem exists_of_map_eq_ok {x : Except ε α} {f : α → β} {b : β} (h : x.map f = .ok b) :
    ∃ a, x = .ok a ∧ f a = b := by
  cases x with
  | ok a =>
    cases h
    exact ⟨a, rfl, rfl⟩
  | error e => cases h

theorem Table.unsigned_lt (width : Nat) (n : Int) : unsigned width n < Nat.pow 2 (8 * width) := by
  have hpos : 0 < Nat.pow 2 (8 * width) := Nat.pow_pos (by decide)
  unfold unsigned
  have hlt := Int.emod_lt_of_pos n (Int.natCast_pos.2 hpos)
  have hle := Int.emod_nonneg n (Int.natCast_ne_zero.2 (Nat.ne_of_gt hpos))
  omega

namespace Scalar

theorem holds_toNat (c : Char) : char.holds c.toNat = true :=
  decide_eq_true c.val.toNat_lt

theorem pow_size (s : Scalar) : Nat.pow 2 (8 * s.size) = Nat.pow 256 s.size :=
  Nat.pow_mul 2 8 s.size

theorem holds_of_read {s : Scalar} {entry : Entry} {bits : Nat} (h : s.read entry = .ok bits) :
    s.holds bits = true := by
  have hpow := s.pow_size
  have hunsigned : ∀ n, (readUnsigned (8 * s.size) entry.chars).mapError
      (EntryError.number "ParseUint" entry) = .ok n → n < Nat.pow 256 s.size := by
    intro n hn
    rw [← hpow]
    exact readUnsigned_lt (ok_of_mapError hn)
  have hsigned : ∀ n, ((readSigned (8 * s.size) entry.chars).mapError
      (EntryError.number "ParseInt" entry)).map (unsigned s.size) = .ok n →
        n < Nat.pow 256 s.size := by
    intro n hn
    obtain ⟨m, -, rfl⟩ := exists_of_map_eq_ok hn
    rw [← hpow]
    exact unsigned_lt _ _
  have hfloat : ∀ f, f = s.floatFormat → (readFloat f entry.chars).mapError
      (EntryError.number "ParseFloat" entry) = .ok bits → bits < 2 * f.signBit := by
    rintro f rfl hbits
    apply readFloat_lt _ (ok_of_mapError hbits)
    cases s <;> simp [floatFormat]
  unfold read at h
  cases s with
  | bool =>
    obtain ⟨b, -, rfl⟩ := exists_of_map_eq_ok h
    cases b <;> rfl
  | char =>
    dsimp only at h
    split at h
    · next c =>
      split at h
      · cases h
      · cases h
        exact holds_toNat c
    · cases h
  | f32 => exact decide_eq_true (hfloat _ rfl h)
  | f64 => exact decide_eq_true (hfloat _ rfl h)
  | u8 | u16 | u32 | u64 => exact decide_eq_true (hunsigned _ h)
  | s8 | s16 | s32 | s64 | unknown code => exact decide_eq_true (hsigned _ h)

end Scalar

namespace FieldType

theorem holds_of_readElements {s : Scalar} {index : Nat} {parts : List Entry} {xs : List Nat}
    (h : readElements s index parts = .ok xs) : ∀ x ∈ xs, s.holds x = true := by
  induction parts generalizing index xs with
  | nil =>
    cases h
    nofun
  | cons part parts ih =>
    obtain ⟨x, hx, h⟩ := exists_of_bind_eq_ok h
    obtain ⟨rest, hrest, h⟩ := exists_of_bind_eq_ok h
    cases h
    intro y hy
    rcases List.mem_cons.1 hy with rfl | hy
    · exact Scalar.holds_of_read (ok_of_mapError hx)
    · exact ih hrest y hy

theorem holds_of_readEntry {t : FieldType} {entry : Entry} {current v : Value}
    (hcurrent : t.Holds current) (h : t.readEntry entry current = .ok v) : t.Holds v := by
  unfold readEntry at h
  dsimp only at h
  split at h
  · cases h
    exact hcurrent
  · cases hshape : t.shape with
    | text =>
      rw [hshape] at h
      cases h
      exact .text hshape
    | optional =>
      rw [hshape] at h
      dsimp only at h
      cases htext : t.text with
      | true =>
        rw [htext, if_pos rfl] at h
        cases h
        exact .optionalText hshape htext
      | false =>
        rw [htext, if_neg (by decide)] at h
        obtain ⟨x, hx, h⟩ := exists_of_bind_eq_ok h
        cases h
        refine .optional hshape htext ?_
        rintro y ⟨⟩
        exact Scalar.holds_of_read hx
    | sequence =>
      rw [hshape] at h
      dsimp only at h
      cases htext : t.text with
      | true =>
        rw [htext, if_pos rfl] at h
        cases h
        exact .texts hshape htext
      | false =>
        rw [htext, if_neg (by decide)] at h
        split at h
        · next hchar =>
          cases h
          refine .sequence hshape htext ?_
          intro x hx
          obtain ⟨c, -, rfl⟩ := List.mem_map.1 hx
          rw [hchar]
          exact Scalar.holds_toNat c
        · obtain ⟨xs, hxs, h⟩ := exists_of_bind_eq_ok h
          cases h
          exact .sequence hshape htext (holds_of_readElements hxs)
    | scalar =>
      rw [hshape] at h
      obtain ⟨x, hx, h⟩ := exists_of_bind_eq_ok h
      cases h
      exact .scalar hshape (Scalar.holds_of_read hx)
    | unknown code =>
      -- a type of no shape has no values
      cases hcurrent <;> simp_all

end FieldType

theorem Plan.WellFormed.getElem?_index {p : Plan} (hp : p.WellFormed) {f : Field}
    (hf : f ∈ p.fields.toList) : p.fields[f.index]? = some f := by
  obtain ⟨i, hi⟩ := List.getElem?_of_mem hf
  rw [Array.getElem?_toList] at hi
  rw [(hp.isPlaced i f hi).index]
  exact hi

namespace Binding

theorem enter_eq_error {bd : Binding} {struct : Array Value} {fields : List Field}
    {entries : List Entry} {e : TripError} (h : bd.enter struct fields entries = .error e) :
    ∃ f ∈ fields, ∃ refusal, e = .entry f.name refusal := by
  induction fields generalizing struct entries with
  | nil =>
    unfold enter at h
    cases h
  | cons f fields ih =>
    cases entries with
    | nil =>
      unfold enter at h
      cases h
    | cons entry entries =>
      unfold enter at h
      cases hread : f.type.readEntry entry (bd.value struct f.index) with
      | error refusal =>
        rw [hread] at h
        cases h
        exact ⟨f, List.mem_cons_self, refusal, rfl⟩
      | ok v =>
        rw [hread] at h
        obtain ⟨g, hg, he⟩ := ih h
        exact ⟨g, List.mem_cons_of_mem _ hg, he⟩

namespace Bound

variable {p : Plan} {bd : Binding} {struct : Array Value}

theorem isStruct_enter (h : Bound p bd) (hstruct : bd.isStruct struct = true) {fields : List Field}
    (hfields : ∀ f ∈ fields, p.fields[f.index]? = some f) {entries : List Entry}
    {struct' : Array Value} (henter : bd.enter struct fields entries = .ok struct') :
    bd.isStruct struct' = true := by
  induction fields generalizing struct entries with
  | nil =>
    unfold enter at henter
    cases henter
    exact hstruct
  | cons f fields ih =>
    cases entries with
    | nil =>
      unfold enter at henter
      cases henter
      exact hstruct
    | cons entry entries =>
      unfold enter at henter
      obtain ⟨v, hv, henter⟩ := exists_of_bind_eq_ok henter
      have hf := hfields f List.mem_cons_self
      have hvalue := h.value_holds hstruct hf
      have hstruct' := h.isStruct_set hstruct hf
        (FieldType.holds_of_readEntry hvalue (ok_of_mapError hv))
      exact ih hstruct' (fun g hg => hfields g (List.mem_cons_of_mem _ hg)) henter

end Bound

end Binding

end RecordCodec
