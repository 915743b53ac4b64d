import RecordCodec.Proofs.Planner.CommitOrder
import RecordCodec.Proofs.Table.Checked
import RecordCodec.Proofs.Mapping

/-!
This module contains the proof that no trap stops the checked reader, whatever the buffer: each
guard makes the accesses after it fall inside the buffer, and every position is far below the range
of a word. `Meets` relates a checked read to what it finds.
-/

namespace RecordCodec.Table

theorem load?_of_le {bytes : Array UInt8} {pos width : Nat} (h : pos + width ≤ bytes.size) :
    load? bytes pos width = some (leValue (bytes.extract pos (pos + width)).toList) := by
  unfold load?
  rw [if_pos h]

theorem le_size_of_load? {bytes : Array UInt8} {pos width n : Nat}
    (h : load? bytes pos width = some n) : pos + width ≤ bytes.size := by
  unfold load? at h
  split at h
  · assumption
  · contradiction

theorem lt_of_load? {bytes : Array UInt8} {pos width n : Nat}
    (h : load? bytes pos width = some n) : n < Nat.pow 256 width := by
  have hle := le_size_of_load? h
  rw [load?_of_le hle] at h
  cases h
  have hlt := leValue_lt (bytes.extract pos (pos + width)).toList
  have hlength : (bytes.extract pos (pos + width)).toList.length = width := by
    rw [Array.length_toList, Array.size_extract]
    omega
  rw [hlength] at hlt
  exact hlt

theorem load?_extract {bytes : Array UInt8} {first last pos width : Nat}
    (hpos : first + (pos + width) ≤ last) (hlast : last ≤ bytes.size) :
    load? (bytes.extract first last) pos width = load? bytes (first + pos) width := by
  rw [load?_of_le (by rw [Array.size_extract]; omega), load?_of_le (by omega),
    Array.extract_extract]
  have hmin : min (first + (pos + width)) last = first + pos + width := by omega
  rw [hmin]

def Meets (x : Checked α) (found : Option α) : Prop :=
  x.run = .ok found

namespace Meets

variable {x : Checked α} {f : α → Checked β} {g : α → Option β} {o : Option α} {a : α}

theorem pure (a : α) : Meets (Pure.pure a : Checked α) (some a) := rfl

theorem step {found : Option β} (hx : Meets x (some a)) (hf : Meets (f a) found) :
    Meets (x >>= f) found := by
  unfold Meets at *
  rw [OptionT.run_bind, hx]
  exact hf

theorem absent (hx : Meets x none) : Meets (x >>= f) none := by
  unfold Meets at *
  rw [OptionT.run_bind, hx]
  rfl

theorem bind (hx : Meets x o) (hf : ∀ a, o = some a → Meets (f a) (g a)) :
    Meets (x >>= f) (o >>= g) := by
  cases o with
  | none => exact absent hx
  | some a => exact step hx (hf a rfl)

theorem bind_map {φ : α → γ} {y : Checked γ} {f : γ → Checked β} (hy : Meets y (o.map φ))
    (hf : ∀ a, o = some a → Meets (f (φ a)) (g a)) : Meets (y >>= f) (o >>= g) := by
  cases o with
  | none => exact absent hy
  | some a => exact step hy (hf a rfl)

theorem passed {p : Prop} [Decidable p] {f : Unit → Checked β} {found : Option β} (h : p)
    (hf : Meets (f ()) found) : Meets (guard p >>= f) found := by
  unfold guard
  rw [if_pos h]
  exact step rfl hf

theorem refused {p : Prop} [Decidable p] {f : Unit → Checked β} (h : ¬p) :
    Meets (guard p >>= f) none := by
  unfold guard
  rw [if_neg h]
  rfl

theorem guarded {p : Prop} [Decidable p] {f : Unit → Checked β} {g : Unit → Option β}
    (hf : p → Meets (f ()) (g ())) : Meets (guard p >>= f) (guard p >>= g) := by
  by_cases h : p
  · rw [guard_bind_of h]
    exact passed h (hf h)
  · rw [guard_bind_of_not h]
    exact refused h

theorem kept (a : α) (q : α → Bool) :
    Meets (guard (q a = true) >>= fun _ => Pure.pure a : Checked α) ((some a).filter q) := by
  rw [Option.filter_some]
  by_cases h : q a = true
  · rw [if_pos h]
    exact passed h (pure a)
  · rw [if_neg h]
    exact refused h

theorem mapM {xs : List α} (h : ∀ a ∈ xs, Meets (f a) (g a)) : Meets (xs.mapM f) (xs.mapM g) := by
  induction xs with
  | nil => exact pure []
  | cons a xs ih =>
    rw [List.mapM_cons, List.mapM_cons]
    apply bind (h a List.mem_cons_self)
    intro b _
    apply bind (ih fun a ha => h a (List.mem_cons_of_mem _ ha))
    intro bs _
    exact pure (b :: bs)

end Meets

namespace Checked

theorem word_meets {n : Nat} (h : n < 0x10000000000000000) : Meets (word n) (some n) := by
  unfold word
  rw [if_pos h]
  exact Meets.pure n

theorem int_meets {n : Int} (hmin : -0x8000000000000000 ≤ n) (hmax : n < 0x8000000000000000) :
    Meets (int n) (some n) := by
  unfold int
  rw [if_pos ⟨hmin, hmax⟩]
  exact Meets.pure n

theorem length_meets {n : Nat} (h : n < 0x8000000000000000) : Meets (length n) (some n) :=
  Meets.step (int_meets (by omega) (by omega)) rfl

theorem slice_meets {bytes : Array UInt8} {first last : Nat} (hfirst : first ≤ last)
    (hlast : last ≤ bytes.size) : Meets (slice bytes first last) (some (bytes.extract first last)) := by
  unfold slice
  rw [if_pos ⟨hfirst, hlast⟩]
  exact Meets.pure _

theorem peek_meets {bytes : Array UInt8} {pos width : Nat} (h : pos + width ≤ bytes.size) :
    Meets (peek bytes pos width) (load? bytes pos width) := by
  have hsize : width ≤ (bytes.extract pos bytes.size).size := by
    rw [Array.size_extract]
    omega
  have hmin : min (pos + width) bytes.size = pos + width := by omega
  unfold peek
  apply Meets.step (slice_meets (by omega) (Nat.le_refl _))
  unfold number
  rw [if_pos hsize, load?_of_le h, Array.extract_extract, hmin]
  exact Meets.pure _

theorem allocate_meets {bytes : Array UInt8} {count : Nat} (h : count ≤ bytes.size) :
    Meets (allocate bytes count) (some ()) := by
  unfold allocate
  rw [if_pos h]
  exact Meets.pure ()

theorem guard_peek_meets (bytes : Array UInt8) (pos width : Nat) {f : Nat → Checked β}
    {g : Nat → Option β} (hf : ∀ n, load? bytes pos width = some n → Meets (f n) (g n)) :
    Meets (guard (pos + width ≤ bytes.size) >>= fun _ => peek bytes pos width >>= f)
      (load? bytes pos width >>= g) := by
  by_cases h : pos + width ≤ bytes.size
  · exact Meets.passed h (Meets.bind (peek_meets h) hf)
  · unfold load?
    rw [if_neg h]
    exact Meets.refused h

end Checked

structure Reader.IsBounded (r : Reader) : Prop where
  table : r.table < 0x100000000
  vtable : r.vtable < 0x200000000
  vtableSize : r.vtable + r.vtableSize ≤ r.bytes.size

theorem signed_bounds {n : Nat} (h : n < Nat.pow 256 4) :
    -0x80000000 ≤ signed 4 n ∧ signed 4 n < 0x80000000 := by
  have hpow : Nat.pow 256 4 = 0x100000000 := rfl
  have hhalf : Nat.pow 2 (8 * 4 - 1) = 0x80000000 := rfl
  have hfull : Nat.pow 2 (8 * 4) = 0x100000000 := rfl
  unfold signed
  rw [hhalf, hfull]
  split
  · omega
  · omega

namespace Checked

theorem locate_meets (bytes : Array UInt8) : Meets (locate bytes) (Reader.locate? bytes) := by
  have hpow₂ : Nat.pow 256 2 = 0x10000 := rfl
  have hpow₄ : Nat.pow 256 4 = 0x100000000 := rfl
  unfold locate Reader.locate?
  -- what is read has at most 32 bits, so sums of a few such numbers are words
  apply guard_peek_meets bytes 0 4
  intro table htable
  have htable := lt_of_load? htable
  apply Meets.step (word_meets (by omega))
  apply guard_peek_meets bytes table 4
  intro back hback
  have hback := signed_bounds (lt_of_load? hback)
  apply Meets.step (int_meets (by omega) (by omega))
  apply Meets.step (int_meets (by omega) (by omega))
  apply Meets.step (int_meets (by omega) (by omega))
  apply Meets.guarded
  intro hvtable
  apply Meets.step (word_meets (by omega))
  apply Meets.guarded
  intro hfour
  apply Meets.bind (peek_meets (by omega))
  intro vtableSize hsize
  have hsize := lt_of_load? hsize
  apply Meets.step (word_meets (by omega))
  apply Meets.guarded
  intro _
  exact Meets.pure _

theorem ofBytes_eq (bytes : Array UInt8) : ofBytes bytes = .ok (Reader.ofBytes bytes) := by
  have hlocate := locate_meets bytes
  unfold Meets at hlocate
  unfold ofBytes Reader.ofBytes
  rw [hlocate]
  rfl

end Checked

namespace Reader

theorem isBounded_empty : empty.IsBounded := by
  constructor
  · decide
  · decide
  · decide

theorem isBounded_of_locate? {bytes : Array UInt8} {r : Reader} (h : locate? bytes = some r) :
    r.IsBounded ∧ r.bytes = bytes := by
  have hpow₄ : Nat.pow 256 4 = 0x100000000 := rfl
  unfold locate? at h
  obtain ⟨table, htable, h⟩ := Option.bind_eq_some_iff.1 h
  obtain ⟨back, hback, h⟩ := Option.bind_eq_some_iff.1 h
  obtain ⟨hvtable, h⟩ := of_guard_bind_eq_some h
  obtain ⟨-, h⟩ := of_guard_bind_eq_some h
  obtain ⟨vtableSize, -, h⟩ := Option.bind_eq_some_iff.1 h
  obtain ⟨hsize, h⟩ := of_guard_bind_eq_some h
  rw [Bool.and_eq_true, decide_eq_true_eq, decide_eq_true_eq] at hsize
  have htable := lt_of_load? htable
  have hback := signed_bounds (lt_of_load? hback)
  cases h
  refine ⟨⟨?_, ?_, ?_⟩, rfl⟩
  · dsimp only
    omega
  · dsimp only
    omega
  · exact hsize.2

theorem isBounded_ofBytes (bytes : Array UInt8) : (ofBytes bytes).IsBounded := by
  unfold ofBytes
  cases h : locate? bytes with
  | none => exact isBounded_empty
  | some r => exact (isBounded_of_locate? h).1

variable {r : Reader} {slot : UInt16} {width elemSize pos data count : Nat}

theorem field?_bounds (hr : r.IsBounded) (h : r.field? slot width = some pos) :
    pos < 0x200000000 ∧ pos + width ≤ r.bytes.size := by
  have hpow : Nat.pow 256 2 = 0x10000 := rfl
  have htable := hr.table
  unfold field? at h
  obtain ⟨-, h⟩ := of_guard_bind_eq_some h
  obtain ⟨off, hoff, h⟩ := Option.bind_eq_some_iff.1 h
  obtain ⟨-, h⟩ := of_guard_bind_eq_some h
  obtain ⟨hwidth, h⟩ := of_guard_bind_eq_some h
  have hoff := lt_of_load? hoff
  cases h
  omega

theorem vectorAt?_bounds (h : r.vectorAt? pos elemSize = some (data, count)) :
    data < pos + 0x100000004 ∧ count < 0x100000000 ∧
      data + count * elemSize ≤ r.bytes.size := by
  have hpow : Nat.pow 256 4 = 0x100000000 := rfl
  unfold vectorAt? at h
  obtain ⟨distance, hdistance, h⟩ := Option.bind_eq_some_iff.1 h
  obtain ⟨count', hcount, h⟩ := Option.bind_eq_some_iff.1 h
  obtain ⟨hsize, h⟩ := of_guard_bind_eq_some h
  have hdistance := lt_of_load? hdistance
  have hcount := lt_of_load? hcount
  cases h
  refine ⟨?_, ?_, hsize⟩
  · omega
  · omega

theorem vector?_bounds (hr : r.IsBounded) (h : r.vector? slot elemSize = some (data, count)) :
    data < 0x300000004 ∧ count < 0x100000000 ∧ data + count * elemSize ≤ r.bytes.size := by
  unfold vector? at h
  rw [Option.bind_eq_bind, Option.bind_eq_some_iff] at h
  obtain ⟨pos, hpos, h⟩ := h
  have hfield := field?_bounds hr hpos
  have hvector := vectorAt?_bounds h
  omega

theorem elements?_bounds {s : Scalar} {xs : List Nat} (hr : r.IsBounded)
    (h : r.elements? s slot = some xs) :
    ∃ data, data + xs.length * s.size ≤ r.bytes.size ∧ ∀ (i : Nat) x, xs[i]? = some x →
      (load? r.bytes (data + i * s.size) s.size).map s.ofStored = some x := by
  unfold elements? at h
  rw [Option.bind_eq_bind, Option.bind_eq_some_iff] at h
  obtain ⟨⟨data, count⟩, hvector, h⟩ := h
  obtain ⟨hlength, helems⟩ := getElem?_of_mapM_range_eq_some h
  rw [hlength]
  exact ⟨data, (vector?_bounds hr hvector).2.2, helems⟩

end Reader

namespace Checked

variable {r : Reader} {slot : UInt16} {width elemSize pos : Nat}

theorem field_meets (hr : r.IsBounded) (hwidth : width ≤ 8) :
    Meets (field r slot width) (r.field? slot width) := by
  have hpow : Nat.pow 256 2 = 0x10000 := rfl
  have hslot := slot.toNat_lt
  have htable := hr.table
  have hvtable := hr.vtable
  have hvtableSize := hr.vtableSize
  unfold field Reader.field?
  apply Meets.step (word_meets (by omega))
  apply Meets.guarded
  intro hentry
  apply Meets.step (word_meets (by omega))
  -- the entry lies in the vtable, and the vtable in the buffer
  apply Meets.bind (peek_meets (by omega))
  intro off hoff
  have hoff := lt_of_load? hoff
  apply Meets.guarded
  intro _
  apply Meets.step (word_meets (by omega))
  apply Meets.step (word_meets (by omega))
  apply Meets.guarded
  intro _
  exact Meets.pure _

theorem vectorAt_meets (hpos : pos < 0x1000000000) (helem : elemSize ≤ 8) :
    Meets (vectorAt r pos elemSize) (r.vectorAt? pos elemSize) := by
  have hpow : Nat.pow 256 4 = 0x100000000 := rfl
  unfold vectorAt Reader.vectorAt?
  apply Meets.step (word_meets (by omega))
  apply guard_peek_meets r.bytes pos 4
  intro distance hdistance
  have hdistance := lt_of_load? hdistance
  apply Meets.step (word_meets (by omega))
  apply Meets.step (word_meets (by omega))
  apply guard_peek_meets r.bytes (pos + distance) 4
  intro count hcount
  have hcount := lt_of_load? hcount
  have hmul := Nat.mul_le_mul_left count helem
  apply Meets.step (word_meets (by omega))
  apply Meets.step (word_meets (by omega))
  apply Meets.step (word_meets (by omega))
  apply Meets.guarded
  intro _
  -- a count of 32 bits is always a length
  apply Meets.passed (by omega)
  exact Meets.pure _

theorem vector_meets (hr : r.IsBounded) (helem : elemSize ≤ 8) :
    Meets (vector r slot elemSize) ((r.vector? slot elemSize).map fun (data, count) =>
      (r.bytes.extract data (data + count * elemSize), count)) := by
  unfold vector
  rw [Option.map_eq_bind]
  unfold Reader.vector?
  rw [Option.bind_eq_bind, Option.bind_assoc]
  apply Meets.bind (field_meets hr (by decide))
  intro pos hpos
  have hfield := Reader.field?_bounds hr hpos
  apply Meets.bind (vectorAt_meets (by omega) helem)
  rintro ⟨data, count⟩ hvector
  have hbounds := Reader.vectorAt?_bounds hvector
  have hmul := Nat.mul_le_mul_left count helem
  apply Meets.step (length_meets (by omega))
  apply Meets.step (word_meets (by omega))
  apply Meets.step (slice_meets (by omega) hbounds.2.2)
  exact Meets.pure _

theorem lookup_meets {s : Scalar} (hr : r.IsBounded) (hs : s.size ≤ 8) :
    Meets (lookup r s slot) (r.lookup? s slot) := by
  unfold lookup Reader.lookup?
  apply Meets.bind (field_meets hr hs)
  intro pos hpos
  apply Meets.bind (peek_meets (Reader.field?_bounds hr hpos).2)
  intro n _
  exact Meets.pure _

theorem lookupChar_meets (hr : r.IsBounded) : Meets (lookupChar r slot) (r.lookupChar? slot) := by
  unfold lookupChar Reader.lookupChar?
  have hlookup : Meets (lookup r .u32 slot) (r.lookup? .u32 slot) := lookup_meets hr (by decide)
  cases hcode : r.lookup? .u32 slot with
  | none =>
    rw [hcode] at hlookup
    exact Meets.absent hlookup
  | some code =>
    rw [hcode] at hlookup
    exact Meets.step hlookup (Meets.kept code isCodePoint)

theorem text_meets (hr : r.IsBounded) : Meets (text r slot) (r.text? slot) := by
  unfold text Reader.text?
  apply Meets.bind_map (vector_meets hr (by decide))
  rintro ⟨data, count⟩ _
  dsimp only
  rw [Nat.mul_one]
  exact Meets.kept _ Text.isUtf8

theorem elements_meets {s : Scalar} (hr : r.IsBounded) (hs : s.isValid = true) :
    Meets (elements r s slot) (r.elements? s slot) := by
  have hle := Nat.le_of_dvd (by decide) (Scalar.size_dvd_of_isValid hs)
  have hpos := Scalar.size_pos_of_isValid hs
  unfold elements Reader.elements?
  apply Meets.bind_map (vector_meets hr hle)
  rintro ⟨data, count⟩ hvector
  obtain ⟨hdata, hcount, hsize⟩ := Reader.vector?_bounds hr hvector
  have hmul := Nat.mul_le_mul_left count hle
  have hcount_le := Nat.le_mul_of_pos_right count hpos
  dsimp only
  apply Meets.step (allocate_meets (by omega))
  apply Meets.mapM
  intro i hi
  rw [List.mem_range] at hi
  have hlast : (i + 1) * s.size ≤ count * s.size := Nat.mul_le_mul_right s.size hi
  rw [Nat.succ_mul] at hlast
  rw [Option.map_eq_bind]
  apply Meets.step (length_meets (by omega))
  rw [← load?_extract (show data + (i * s.size + s.size) ≤ data + count * s.size by omega) hsize]
  apply Meets.bind (peek_meets (by rw [Array.size_extract]; omega))
  intro n _
  exact Meets.pure _

theorem bytes_meets (hr : r.IsBounded) : Meets (bytes r slot) (r.bytes? slot) := by
  unfold bytes Reader.bytes?
  apply Meets.bind_map (vector_meets hr (by decide))
  rintro ⟨data, count⟩ _
  dsimp only
  apply Meets.step (allocate_meets (by rw [Array.size_extract]; omega))
  rw [Nat.mul_one]
  exact Meets.pure _

theorem codePoints_meets (hr : r.IsBounded) : Meets (codePoints r slot) (r.codePoints? slot) := by
  unfold codePoints Reader.codePoints?
  rw [Option.map_eq_bind]
  apply Meets.bind (elements_meets hr rfl)
  intro codes hcodes
  obtain ⟨data, hsize, -⟩ := Reader.elements?_bounds hr hcodes
  have hlength : codes.length ≤ codes.length * Scalar.u32.size :=
    Nat.le_mul_of_pos_right _ (by decide)
  apply Meets.step (allocate_meets (by omega))
  exact Meets.pure _

theorem strings_meets (hr : r.IsBounded) : Meets (strings r slot) (r.strings? slot) := by
  unfold strings Reader.strings? Reader.vector?
  rw [Option.bind_eq_bind, Option.bind_eq_bind, Option.bind_assoc]
  apply Meets.bind (field_meets hr (by decide))
  intro pos hpos
  have hfield := Reader.field?_bounds hr hpos
  apply Meets.bind (vectorAt_meets (by omega) (by decide))
  rintro ⟨base, count⟩ hvector
  have hbounds := Reader.vectorAt?_bounds hvector
  dsimp only
  apply Meets.step (allocate_meets (by omega))
  apply Meets.mapM
  intro i hi
  rw [List.mem_range] at hi
  -- the offset of the element lies in the vector, and where it leads is checked once more
  apply Meets.step (word_meets (by omega))
  apply Meets.step (word_meets (by omega))
  rw [Nat.mul_comm i]
  apply Meets.bind (vectorAt_meets (by omega) (by decide))
  rintro ⟨data, length⟩ helem
  have hdata := Reader.vectorAt?_bounds helem
  dsimp only
  apply Meets.step (word_meets (by omega))
  apply Meets.step (slice_meets (by omega) (by omega))
  exact Meets.pure _

end Checked

namespace Reader

structure Agrees (r : Reader) (slot : UInt16) : Prop where
  has : Checked.has r slot = .ok (r.has slot)
  lookup : ∀ s, s.isValid = true → (Checked.lookup r s slot).run = .ok (r.lookup? s slot)
  get : ∀ s d, s.isValid = true → Checked.get r s slot d = .ok (r.get s slot d)
  lookupChar : (Checked.lookupChar r slot).run = .ok (r.lookupChar? slot)
  char : ∀ d, Checked.char r slot d = .ok (r.char slot d)
  text : (Checked.text r slot).run = .ok (r.text? slot)
  elements : ∀ s, s.isValid = true → (Checked.elements r s slot).run = .ok (r.elements? s slot)
  bytes : (Checked.bytes r slot).run = .ok (r.bytes? slot)
  signedBytes : (Checked.bytes r slot).run = .ok (r.signedBytes? slot)
  codePoints : (Checked.codePoints r slot).run = .ok (r.codePoints? slot)
  strings : (Checked.strings r slot).run = .ok (r.strings? slot)

theorem IsBounded.agrees {r : Reader} (hr : r.IsBounded) (slot : UInt16) : r.Agrees slot where
  has := by
    have hfield : (Checked.field r slot 0).run = _ := Checked.field_meets hr (by decide)
    unfold Checked.has has
    rw [hfield]
    rfl
  lookup := by
    intro s hs
    exact Checked.lookup_meets hr (Nat.le_of_dvd (by decide) (Scalar.size_dvd_of_isValid hs))
  get := by
    intro s d hs
    have hlookup : (Checked.lookup r s slot).run = _ :=
      Checked.lookup_meets hr (Nat.le_of_dvd (by decide) (Scalar.size_dvd_of_isValid hs))
    unfold Checked.get get
    rw [hlookup]
    rfl
  lookupChar := Checked.lookupChar_meets hr
  char := by
    intro d
    have hlookup : (Checked.lookupChar r slot).run = _ := Checked.lookupChar_meets hr
    unfold Checked.char char
    rw [hlookup]
    rfl
  text := Checked.text_meets hr
  elements := fun _ hs => Checked.elements_meets hr hs
  bytes := Checked.bytes_meets hr
  signedBytes := Checked.bytes_meets hr
  codePoints := Checked.codePoints_meets hr
  strings := Checked.strings_meets hr

/--
The texts and vectors that reads of a slot find stand in the buffer: each text is a part of it, and
each vector has a place in it that is as long as its elements together.
-/
structure Confined (r : Reader) (buffer : Array UInt8) (slot : UInt16) : Prop where
  text : ∀ t, r.text? slot = some t → t <:+: buffer.toList
  elements : ∀ s xs, r.elements? s slot = some xs →
    ∃ pos, pos + xs.length * s.size ≤ buffer.size ∧ ∀ (i : Nat) x, xs[i]? = some x →
      (load? buffer (pos + i * s.size) s.size).map s.ofStored = some x
  bytes : ∀ xs, r.bytes? slot = some xs → ∃ t, t <:+: buffer.toList ∧ t.map (·.toNat) = xs
  codePoints : ∀ xs, r.codePoints? slot = some xs → xs.length * 4 ≤ buffer.size
  strings : ∀ ts, r.strings? slot = some ts →
    ts.length * 4 ≤ buffer.size ∧ ∀ t ∈ ts, t <:+: buffer.toList

theorem slice_isInfix (r : Reader) (pos count : Nat) : r.slice pos count <:+: r.bytes.toList := by
  unfold slice
  rw [Array.toList_extract]
  exact (List.take_prefix _ _).isInfix.trans (List.drop_suffix _ _).isInfix

theorem IsBounded.confined {r : Reader} (hr : r.IsBounded) (slot : UInt16) :
    r.Confined r.bytes slot where
  text := by
    intro t h
    unfold text? at h
    rw [Option.bind_eq_bind, Option.bind_eq_some_iff] at h
    obtain ⟨⟨data, count⟩, -, h⟩ := h
    obtain ⟨h, -⟩ := Option.filter_eq_some_iff.1 h
    cases h
    exact r.slice_isInfix data count
  elements := fun _ _ h => elements?_bounds hr h
  bytes := by
    intro xs h
    unfold bytes? at h
    rw [Option.bind_eq_bind, Option.bind_eq_some_iff] at h
    obtain ⟨⟨data, count⟩, -, h⟩ := h
    cases h
    exact ⟨_, r.slice_isInfix data count, rfl⟩
  codePoints := by
    intro xs h
    unfold codePoints? at h
    rw [Option.map_eq_some_iff] at h
    obtain ⟨codes, hcodes, rfl⟩ := h
    obtain ⟨data, hsize, -⟩ := elements?_bounds hr hcodes
    have hkept : (keepCodePoints codes).length ≤ codes.length := List.length_filter_le _ _
    have hmul : codes.length * Scalar.u32.size = codes.length * 4 := rfl
    omega
  strings := by
    intro ts h
    unfold strings? at h
    rw [Option.bind_eq_bind, Option.bind_eq_some_iff] at h
    obtain ⟨⟨base, count⟩, hvector, h⟩ := h
    have hbounds := vector?_bounds hr hvector
    obtain ⟨hlength, helems⟩ := getElem?_of_mapM_range_eq_some h
    refine ⟨by omega, ?_⟩
    intro t ht
    obtain ⟨i, hi⟩ := List.getElem?_of_mem ht
    have helem := helems i t hi
    rw [Option.bind_eq_bind, Option.bind_eq_some_iff] at helem
    obtain ⟨⟨data, length⟩, -, helem⟩ := helem
    cases helem
    split
    · exact r.slice_isInfix data length
    · exact List.nil_infix

theorem confined_empty (buffer : Array UInt8) (slot : UInt16) : empty.Confined buffer slot := by
  have hvector := vector?_of_absent (field?_empty slot)
  have helements := elements?_of_absent (field?_empty slot)
  constructor
  · intro t h
    simp [text?, hvector] at h
  · intro s xs h
    simp [helements] at h
  · intro xs h
    simp [bytes?_of_absent (field?_empty slot)] at h
  · intro xs h
    simp [codePoints?, helements] at h
  · intro ts h
    simp [strings?, hvector] at h

theorem confined_ofBytes (buffer : Array UInt8) (slot : UInt16) :
    (ofBytes buffer).Confined buffer slot := by
  unfold ofBytes
  cases h : locate? buffer with
  | none => exact confined_empty buffer slot
  | some r =>
    obtain ⟨hr, rfl⟩ := isBounded_of_locate? h
    exact hr.confined slot

end Reader

end RecordCodec.Table
