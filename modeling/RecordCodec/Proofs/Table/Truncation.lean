import RecordCodec.Proofs.Table.InBounds

/-!
This module contains what appending bytes to a buffer does to the reads of it: whatever a read finds
in a buffer, it finds in every longer one too. So a buffer that is cut off lacks fields, but never
has other ones. `Keeps` relates what is found in both.
-/

namespace RecordCodec.Table

def Keeps (x y : Option α) : Prop :=
  ∀ a, x = some a → y = some a

namespace Keeps

variable {x y : Option α} {f g : α → Option β}

theorem refl (x : Option α) : Keeps x x := fun _ h => h

theorem isSome (h : Keeps x y) (hx : x.isSome = true) : y.isSome = true := by
  obtain ⟨a, ha⟩ := Option.isSome_iff_exists.1 hx
  rw [h a ha]
  rfl

theorem bind (h : Keeps x y) (hf : ∀ a, x = some a → Keeps (f a) (g a)) :
    Keeps (x >>= f) (y >>= g) := by
  intro b hb
  obtain ⟨a, ha, hb⟩ := Option.bind_eq_some_iff.1 hb
  rw [h a ha]
  exact hf a ha b hb

theorem map (h : Keeps x y) (φ : α → β) : Keeps (x.map φ) (y.map φ) := by
  intro b hb
  obtain ⟨a, ha, rfl⟩ := Option.map_eq_some_iff.1 hb
  rw [h a ha]
  rfl

theorem filter (h : Keeps x y) (q : α → Bool) : Keeps (x.filter q) (y.filter q) := by
  intro a ha
  obtain ⟨hx, hq⟩ := Option.filter_eq_some_iff.1 ha
  exact Option.filter_eq_some_iff.2 ⟨h a hx, hq⟩

theorem guarded {p q : Prop} [Decidable p] [Decidable q] {f g : Unit → Option β} (hpq : p → q)
    (hf : p → Keeps (f ()) (g ())) : Keeps (guard p >>= f) (guard q >>= g) := by
  intro b hb
  obtain ⟨hp, hb⟩ := of_guard_bind_eq_some hb
  rw [guard_bind_of (hpq hp)]
  exact hf hp b hb

theorem mapM {xs : List α} (h : ∀ a ∈ xs, Keeps (f a) (g a)) : Keeps (xs.mapM f) (xs.mapM g) := by
  induction xs with
  | nil => exact refl _
  | cons a xs ih =>
    rw [List.mapM_cons, List.mapM_cons]
    apply bind (h a List.mem_cons_self)
    intro b _
    apply bind (ih fun a ha => h a (List.mem_cons_of_mem _ ha))
    intro bs _
    exact refl _

end Keeps

theorem extract_append {bytes : Array UInt8} {first last : Nat} (suffix : Array UInt8)
    (h : last ≤ bytes.size) : (bytes ++ suffix).extract first last = bytes.extract first last := by
  have hempty : suffix.extract (first - bytes.size) (last - bytes.size) = #[] :=
    Array.extract_empty_of_stop_le_start (by omega)
  rw [Array.extract_append, hempty, Array.append_empty]

theorem keeps_load? (bytes suffix : Array UInt8) (pos width : Nat) :
    Keeps (load? bytes pos width) (load? (bytes ++ suffix) pos width) := by
  intro n h
  have hle := le_size_of_load? h
  rw [load?_of_le (by rw [Array.size_append]; omega), extract_append suffix hle, ← h, load?_of_le hle]

namespace Reader

def extend (r : Reader) (suffix : Array UInt8) : Reader :=
  { r with bytes := r.bytes ++ suffix }

theorem keeps_locate? (bytes suffix : Array UInt8) :
    Keeps ((·.extend suffix) <$> locate? bytes) (locate? (bytes ++ suffix)) := by
  have hsize : (bytes ++ suffix).size = bytes.size + suffix.size := Array.size_append
  unfold locate?
  rw [map_bind]
  apply Keeps.bind (keeps_load? bytes suffix 0 4)
  intro table _
  rw [map_bind]
  apply Keeps.bind (keeps_load? bytes suffix table 4)
  intro back _
  rw [map_bind]
  apply Keeps.guarded id
  intro hvtable
  rw [map_bind]
  apply Keeps.guarded (by omega)
  intro hfour
  rw [map_bind]
  apply Keeps.bind (keeps_load? bytes suffix _ 2)
  intro vtableSize _
  rw [map_bind]
  apply Keeps.guarded
  · simp only [Bool.and_eq_true, decide_eq_true_eq]
    omega
  · intro _
    exact Keeps.refl _

variable (r : Reader) (suffix : Array UInt8) (slot : UInt16)

theorem size_extend : (r.extend suffix).bytes.size = r.bytes.size + suffix.size :=
  Array.size_append

theorem keeps_field? (width : Nat) :
    Keeps (r.field? slot width) ((r.extend suffix).field? slot width) := by
  have hsize := r.size_extend suffix
  have hload := keeps_load? r.bytes suffix (r.vtable + slot.toNat) 2
  unfold field?
  apply Keeps.guarded id
  intro _
  apply Keeps.bind hload
  intro off _
  apply Keeps.guarded id
  intro _
  apply Keeps.guarded
  · show r.table + off + width ≤ r.bytes.size → r.table + off + width ≤ _
    omega
  · intro _
    exact Keeps.refl _

theorem keeps_vectorAt? (pos elemSize : Nat) :
    Keeps (r.vectorAt? pos elemSize) ((r.extend suffix).vectorAt? pos elemSize) := by
  have hsize := r.size_extend suffix
  unfold vectorAt?
  apply Keeps.bind (keeps_load? r.bytes suffix pos 4)
  intro distance _
  apply Keeps.bind (keeps_load? r.bytes suffix (pos + distance) 4)
  intro count _
  apply Keeps.guarded
  · omega
  · intro _
    exact Keeps.refl _

theorem keeps_vector? (elemSize : Nat) :
    Keeps (r.vector? slot elemSize) ((r.extend suffix).vector? slot elemSize) := by
  apply Keeps.bind (r.keeps_field? suffix slot 4)
  intro pos _
  exact r.keeps_vectorAt? suffix pos elemSize

variable {r suffix} in
theorem slice_extend {pos count : Nat} (h : pos + count ≤ r.bytes.size) :
    (r.extend suffix).slice pos count = r.slice pos count := by
  unfold slice extend
  rw [extract_append suffix h]

theorem keeps_lookup? (s : Scalar) : Keeps (r.lookup? s slot) ((r.extend suffix).lookup? s slot) := by
  apply Keeps.bind (r.keeps_field? suffix slot s.size)
  intro pos _
  apply Keeps.bind (keeps_load? r.bytes suffix pos s.size)
  intro n _
  exact Keeps.refl _

theorem keeps_vector?_slice (make : List UInt8 → Option α) :
    Keeps (r.vector? slot 1 >>= fun v => make (r.slice v.1 v.2))
      ((r.extend suffix).vector? slot 1 >>= fun v => make ((r.extend suffix).slice v.1 v.2)) := by
  apply Keeps.bind (r.keeps_vector? suffix slot 1)
  rintro ⟨data, count⟩ hvector
  obtain ⟨pos, -, hvectorAt⟩ := Option.bind_eq_some_iff.1 hvector
  have hbounds := vectorAt?_bounds hvectorAt
  rw [slice_extend (by omega)]
  exact Keeps.refl _

theorem keeps_text? : Keeps (r.text? slot) ((r.extend suffix).text? slot) :=
  r.keeps_vector?_slice suffix slot fun bytes => (some bytes).filter Text.isUtf8

theorem keeps_bytes? : Keeps (r.bytes? slot) ((r.extend suffix).bytes? slot) :=
  r.keeps_vector?_slice suffix slot fun bytes => some (bytes.map UInt8.toNat)

theorem keeps_elements? (s : Scalar) :
    Keeps (r.elements? s slot) ((r.extend suffix).elements? s slot) := by
  apply Keeps.bind (r.keeps_vector? suffix slot s.size)
  rintro ⟨data, count⟩ _
  apply Keeps.mapM
  intro i _
  exact (keeps_load? r.bytes suffix _ _).map _

theorem keeps_strings? : Keeps (r.strings? slot) ((r.extend suffix).strings? slot) := by
  apply Keeps.bind (r.keeps_vector? suffix slot 4)
  rintro ⟨base, count⟩ _
  apply Keeps.mapM
  intro i _
  apply Keeps.bind (r.keeps_vectorAt? suffix _ 1)
  rintro ⟨data, length⟩ hvector
  have hbounds := vectorAt?_bounds hvector
  dsimp only
  rw [slice_extend (by omega)]
  exact Keeps.refl _

structure KeptBy (r r' : Reader) (slot : UInt16) : Prop where
  has : r.has slot = true → r'.has slot = true
  lookup : ∀ s, Keeps (r.lookup? s slot) (r'.lookup? s slot)
  lookupChar : Keeps (r.lookupChar? slot) (r'.lookupChar? slot)
  text : Keeps (r.text? slot) (r'.text? slot)
  elements : ∀ s, Keeps (r.elements? s slot) (r'.elements? s slot)
  bytes : Keeps (r.bytes? slot) (r'.bytes? slot)
  signedBytes : Keeps (r.signedBytes? slot) (r'.signedBytes? slot)
  codePoints : Keeps (r.codePoints? slot) (r'.codePoints? slot)
  strings : Keeps (r.strings? slot) (r'.strings? slot)

theorem keptBy_extend : r.KeptBy (r.extend suffix) slot where
  has := (r.keeps_field? suffix slot 0).isSome
  lookup := r.keeps_lookup? suffix slot
  lookupChar := (r.keeps_lookup? suffix slot .u32).filter isCodePoint
  text := r.keeps_text? suffix slot
  elements := r.keeps_elements? suffix slot
  bytes := r.keeps_bytes? suffix slot
  signedBytes := r.keeps_bytes? suffix slot
  codePoints := (r.keeps_elements? suffix slot .u32).map keepCodePoints
  strings := r.keeps_strings? suffix slot

theorem keptBy_of_empty : empty.KeptBy r slot := by
  have hlookup := lookup?_of_absent (field?_empty slot)
  have hvector := vector?_of_absent (field?_empty slot)
  have helements := elements?_of_absent (field?_empty slot)
  have hbytes := bytes?_of_absent (field?_empty slot)
  constructor
  · simp [has, field?_empty]
  · simp [hlookup, Keeps]
  · simp [lookupChar?, hlookup, Keeps]
  · simp [text?, hvector, Keeps]
  · simp [helements, Keeps]
  · simp [hbytes, Keeps]
  · simp [signedBytes?, hbytes, Keeps]
  · simp [codePoints?, helements, Keeps]
  · simp [strings?, hvector, Keeps]

theorem keptBy_ofBytes (bytes suffix : Array UInt8) :
    (ofBytes bytes).KeptBy (ofBytes (bytes ++ suffix)) slot := by
  unfold ofBytes
  cases h : locate? bytes with
  | none => exact keptBy_of_empty _ slot
  | some r =>
    have hlocate := keeps_locate? bytes suffix (r.extend suffix) (by rw [h]; rfl)
    rw [hlocate]
    exact r.keptBy_extend suffix slot

end Reader

end RecordCodec.Table
