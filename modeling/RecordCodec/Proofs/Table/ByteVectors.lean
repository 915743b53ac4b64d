import RecordCodec.Proofs.Table.InBounds
import RecordCodec.Proofs.Table.MemoryView

/-!
This module contains that vectors of bytes may be written and read at once. Writing their elements
one by one, from the last to the first, leaves the same builder and the same memory, and reading them
one by one finds the same bytes.
-/

namespace RecordCodec

theorem Layout.padding_one (used : Nat) : Layout.padding used 1 = 0 :=
  Layout.padding_eq_zero (Nat.one_dvd used)

namespace Table

namespace Builder

theorem offset_put (b : Builder) (bytes : List UInt8) :
    (b.put bytes).offset = b.offset + bytes.length := by
  rw [(Wrote.put b bytes).offset, Nat.add_comm]

theorem put_nil (b : Builder) : b.put [] = b := by
  simp [put]

theorem put_put (b : Builder) (xs ys : List UInt8) : (b.put ys).put xs = b.put (xs ++ ys) := by
  have hassoc : b.tail ++ ys.reverse ++ xs.reverse = b.tail ++ (xs ++ ys).reverse := by
    apply Array.toList_inj.1
    simp
  unfold put
  rw [← hassoc]

structure HasRoom (b : Builder) (count : Nat) : Prop where
  offset_lt : b.offset + count < b.capacity.val
  minAlign_pos : 1 ≤ b.minAlign

theorem HasRoom.of_prep {b b' : Builder} {size additional : Nat} (hsize : 0 < size)
    (h : b.prep size additional = .ok b') : b'.HasRoom (size + additional) := by
  unfold prep at h
  dsimp only at h
  generalize Layout.padding (b.offset + additional) size = pad at h
  have hoffset := b.offset_put (List.replicate pad 0)
  rw [List.length_replicate] at hoffset
  cases hgrow : grow (b.offset + pad + size + additional) 40 b.capacity with
  | error e =>
    rw [hgrow] at h
    cases h
  | ok capacity =>
    have hroom := grow_ok hgrow
    rw [hgrow] at h
    cases h
    constructor
    · show (b.put _).offset + _ < capacity.val
      omega
    · show 1 ≤ max b.minAlign size
      omega

theorem HasRoom.prep_one {b : Builder} {count : Nat} (h : b.HasRoom (1 + count)) :
    b.prep 1 count = .ok b := by
  have hlt := h.offset_lt
  have hgrow : grow (b.offset + 0 + 1 + count) 40 b.capacity = .ok b.capacity := by
    unfold grow
    rw [if_pos (by omega)]
  unfold prep
  dsimp only
  rw [Layout.padding_one, hgrow, List.replicate_zero, put_nil, Nat.max_eq_left h.minAlign_pos]
  rfl

theorem HasRoom.prependNumber_one {b : Builder} {count : Nat} (h : b.HasRoom (1 + count)) (x : Nat) :
    b.prependNumber 1 x = .ok (b.put [x.toUInt8]) ∧ (b.put [x.toUInt8]).HasRoom count := by
  have hlt := h.offset_lt
  have hone : b.HasRoom (1 + 0) := ⟨by omega, h.minAlign_pos⟩
  constructor
  · unfold prependNumber
    rw [hone.prep_one]
    rfl
  · refine ⟨?_, h.minAlign_pos⟩
    rw [offset_put, List.length_singleton]
    show _ < b.capacity.val
    omega

theorem HasRoom.prepend_bytes {b : Builder} {count : Nat} {elems : List Nat}
    (h : b.HasRoom (elems.length + count)) :
    elems.foldrM (fun x b => b.prependNumber 1 x) b = .ok (b.put (elems.map (·.toUInt8))) ∧
      (b.put (elems.map (·.toUInt8))).HasRoom count := by
  induction elems generalizing count with
  | nil =>
    rw [List.map_nil, put_nil]
    rw [List.length_nil, Nat.zero_add] at h
    exact ⟨rfl, h⟩
  | cons x elems ih =>
    have hsum : (x :: elems).length + count = elems.length + (1 + count) := by
      rw [List.length_cons]
      omega
    rw [hsum] at h
    obtain ⟨hrest, hroom⟩ := ih h
    obtain ⟨hfirst, hleft⟩ := hroom.prependNumber_one x
    rw [put_put] at hfirst hleft
    rw [List.foldrM_cons, hrest]
    exact ⟨hfirst, hleft⟩

theorem createBytes_eq_createElements (b : Builder) {s : Scalar} (hs : s.size = 1)
    (elems : List Nat) :
    b.createBytes (elems.map (·.toUInt8)) = b.createElements s elems := by
  unfold createBytes createElements startVector prepend
  rw [hs, List.length_map, Nat.one_mul]
  cases hnested : b.requireNotNested with
  | error e => rfl
  | ok _ =>
    cases hprep : prep { b with isNested := true } 4 elems.length with
    | error e => rfl
    | ok b₁ =>
      have hroom := HasRoom.of_prep (by decide) hprep
      have hone : b₁.HasRoom (1 + elems.length) := ⟨by have := hroom.offset_lt; omega, hroom.2⟩
      have helems : b₁.HasRoom (elems.length + 4) := by
        rw [Nat.add_comm]
        exact hroom
      show (b₁.put (elems.map (·.toUInt8))).endVector elems.length =
        b₁.prep 1 elems.length >>= fun b => elems.foldrM (fun x b => b.prependNumber 1 x) b >>=
          fun b => b.endVector elems.length
      rw [hone.prep_one]
      show _ = elems.foldrM (fun x b => b.prependNumber 1 x) b₁ >>= _
      rw [helems.prepend_bytes.1]
      rfl

end Builder

theorem overwrite_overwrite {old xs ys : List UInt8} {pos : Nat} (hxs : xs.length ≤ pos)
    (hpos : pos ≤ old.length) :
    overwrite (overwrite old pos ys) (pos - xs.length) xs =
      overwrite old (pos - xs.length) (xs ++ ys) := by
  have htake : (old.take pos).length = pos := by
    rw [List.length_take]
    omega
  have hfront : (old.take pos ++ (ys ++ old.drop (pos + ys.length))).take (pos - xs.length) =
      old.take (pos - xs.length) := by
    rw [List.take_append_of_le_length (by omega), List.take_take, Nat.min_eq_left (by omega)]
  have hback :
      (old.take pos ++ (ys ++ old.drop (pos + ys.length))).drop (pos - xs.length + xs.length) =
      ys ++ old.drop (pos + ys.length) := by
    rw [Nat.sub_add_cancel hxs, List.drop_left' htake]
  have hend : pos - xs.length + (xs ++ ys).length = pos + ys.length := by
    rw [List.length_append]
    omega
  unfold overwrite
  rw [hfront, hback, hend, List.append_assoc]

namespace Memory

structure HasRoom (m : Memory) (count : Nat) : Prop where
  head_le : m.head ≤ m.bytes.length
  count_lt : count < m.head
  minAlign_pos : 1 ≤ m.minAlign

variable {m : Memory} {count : Nat}

theorem place_eq {new : List UInt8} (hhead : m.head ≤ m.bytes.length) (hroom : new.length ≤ m.head) :
    place new m = .ok () { m with
      bytes := overwrite m.bytes (m.head - new.length) new
      head := m.head - new.length
      size_lt := by
        rw [length_overwrite (by omega)]
        exact m.size_lt } := by
  have hlower : lower new.length m = .ok () { m with head := m.head - new.length } := by
    unfold lower
    rw [if_pos hroom]
  have hfits : m.head - new.length + new.length ≤ m.bytes.length := by omega
  unfold place
  rw [run_bind_ok hlower]
  exact dif_pos hfits

theorem place_nil (hhead : m.head ≤ m.bytes.length) : place [] m = .ok () m := by
  have hsame : overwrite m.bytes m.head [] = m.bytes := by
    unfold overwrite
    rw [List.nil_append, List.length_nil, Nat.add_zero, List.take_append_drop]
  rw [place_eq hhead (Nat.zero_le _)]
  simp only [List.length_nil, Nat.sub_zero, hsame]

theorem place_append {xs ys : List UInt8} (hhead : m.head ≤ m.bytes.length)
    (hroom : (xs ++ ys).length ≤ m.head) :
    place (xs ++ ys) m = (place ys >>= fun _ => place xs) m := by
  have hlength : (xs ++ ys).length = xs.length + ys.length := List.length_append
  have hbytes : (overwrite m.bytes (m.head - ys.length) ys).length = m.bytes.length :=
    length_overwrite (by omega)
  have hover : overwrite (overwrite m.bytes (m.head - ys.length) ys)
      (m.head - ys.length - xs.length) xs =
        overwrite m.bytes (m.head - ys.length - xs.length) (xs ++ ys) :=
    overwrite_overwrite (by omega) (by omega)
  have hsub : m.head - (xs ++ ys).length = m.head - ys.length - xs.length := by omega
  rw [run_bind_ok (place_eq hhead (by omega)), place_eq hhead hroom, place_eq]
  · simp only [hsub, hover]
  · show m.head - ys.length ≤ (overwrite _ _ _).length
    omega
  · show xs.length ≤ m.head - ys.length
    omega

theorem prep_eq (size additional : Nat) :
    prep size additional m =
      (makeRoom (Layout.padding (m.offset + additional) size + size + additional) 40 >>= fun _ =>
        place (List.replicate (Layout.padding (m.offset + additional) size) 0))
      { m with minAlign := max m.minAlign size } :=
  rfl

theorem HasRoom.of_prep {m' : Memory} {size additional : Nat} (hsize : 0 < size)
    (hhead : m.head ≤ m.bytes.length) (h : prep size additional m = .ok () m') :
    m'.HasRoom (size + additional) := by
  rw [prep_eq] at h
  generalize Layout.padding (m.offset + additional) size = pad at h
  have hpad : (List.replicate pad (0 : UInt8)).length = pad := List.length_replicate
  rcases makeRoom_cases (m := { m with minAlign := max m.minAlign size }) hhead
    (pad + size + additional) 40 with ⟨m₁, hroom, hgrown, hneeded, -⟩ | ⟨m₁, hroom, -⟩
  · have halign : m₁.minAlign = max m.minAlign size := by rw [hgrown.rest]
    have hhead₁ := hgrown.head_le
    rw [run_bind_ok hroom, place_eq hhead₁ (by omega)] at h
    cases h
    constructor
    · show m₁.head - _ ≤ (overwrite _ _ _).length
      rw [length_overwrite (by omega)]
      omega
    · show size + additional < m₁.head - _
      omega
    · show 1 ≤ m₁.minAlign
      omega
  · rw [run_bind_error hroom] at h
    cases h

theorem HasRoom.prep_one (h : m.HasRoom (1 + count)) : prep 1 count m = .ok () m := by
  have hlt := h.count_lt
  have halign : max m.minAlign 1 = m.minAlign := Nat.max_eq_left h.minAlign_pos
  have hroom : makeRoom (0 + 1 + count) 40 m = .ok () m := by
    rw [makeRoom_succ, if_pos (by omega)]
    rfl
  rw [prep_eq, Layout.padding_one, halign, run_bind_ok hroom]
  exact place_nil h.head_le

theorem HasRoom.prependNumber_one (h : m.HasRoom 1) (x : Nat) :
    prependNumber 1 x m = place [x.toUInt8] m := by
  have hprep : prep 1 0 m = .ok () m := prep_one h
  unfold prependNumber
  rw [run_bind_ok hprep]
  rfl

theorem HasRoom.place {new : List UInt8} (h : m.HasRoom (new.length + count)) :
    ∃ m', Memory.place new m = .ok () m' ∧ m'.HasRoom count := by
  have hhead := h.head_le
  have hlt := h.count_lt
  refine ⟨_, place_eq hhead (by omega), ?_, ?_, h.minAlign_pos⟩
  · show m.head - _ ≤ (overwrite _ _ _).length
    rw [length_overwrite (by omega)]
    omega
  · show count < m.head - _
    omega

theorem HasRoom.prepend_bytes {elems : List Nat} (h : m.HasRoom (elems.length + count)) :
    elems.foldrM (fun x _ => prependNumber 1 x) () m = Memory.place (elems.map (·.toUInt8)) m := by
  induction elems generalizing count with
  | nil => exact (place_nil h.head_le).symm
  | cons x elems ih =>
    have hlt := h.count_lt
    rw [List.length_cons] at hlt
    have hlength : (elems.map (·.toUInt8)).length = elems.length := List.length_map _
    have hrest : m.HasRoom (elems.length + (count + 1)) := ⟨h.head_le, by omega, h.minAlign_pos⟩
    have hbytes : m.HasRoom ((elems.map (·.toUInt8)).length + 1) :=
      ⟨h.head_le, by omega, h.minAlign_pos⟩
    obtain ⟨m', hplace, hroom'⟩ := hbytes.place
    have happend : Memory.place ([x.toUInt8] ++ elems.map (·.toUInt8)) m = _ :=
      place_append h.head_le (by rw [List.length_append, List.length_singleton]; omega)
    rw [run_bind_ok hplace] at happend
    rw [List.foldrM_cons, run_bind_ok ((ih hrest).trans hplace), hroom'.prependNumber_one]
    exact happend.symm

theorem createBytes_eq_createElements (hhead : m.head ≤ m.bytes.length) {s : Scalar}
    (hs : s.size = 1) (elems : List Nat) :
    createBytes (elems.map (·.toUInt8)) m = createElements s elems m := by
  have hopen : requireNotNested m = if m.isNested then .error (.refused .nested) m else .ok () m := by
    show (if m.isNested then throw (.refused .nested) else return : Writing Unit) m = _
    split <;> rfl
  unfold createBytes createElements startVector
  rw [hs, List.length_map, Nat.one_mul]
  cases hnested : m.isNested with
  | true =>
    rw [hnested, if_pos rfl] at hopen
    rw [run_bind_error hopen, run_bind_error (run_bind_error hopen)]
  | false =>
    rw [hnested, if_neg (by decide)] at hopen
    have hnest : nest true m = .ok () { m with isNested := true } := rfl
    cases hprep : prep 4 elems.length { m with isNested := true } with
    | error e m₁ =>
      rw [run_bind_ok hopen, run_bind_ok hnest, run_bind_error hprep, run_bind_error]
      rw [run_bind_ok hopen, run_bind_ok hnest, run_bind_error hprep]
    | ok _ m₁ =>
      have hroom := HasRoom.of_prep (m := { m with isNested := true }) (show 0 < 4 by decide) hhead
        hprep
      have hlt := hroom.count_lt
      have hone : m₁.HasRoom (1 + elems.length) :=
        ⟨hroom.head_le, by omega, hroom.minAlign_pos⟩
      have helems : m₁.HasRoom (elems.length + 4) := by
        rw [Nat.add_comm]
        exact hroom
      have hstart : (do requireNotNested; nest true; prep 4 elems.length; prep 1 elems.length :
          Writing Unit) m = .ok () m₁ := by
        rw [run_bind_ok hopen, run_bind_ok hnest, run_bind_ok hprep, hone.prep_one]
      rw [run_bind_ok hopen, run_bind_ok hnest, run_bind_ok hprep, run_bind_ok hstart]
      cases hplace : place (elems.map (·.toUInt8)) m₁ with
      | ok _ m₂ => rw [run_bind_ok hplace, run_bind_ok (helems.prepend_bytes.trans hplace)]
      | error e m₂ =>
        rw [run_bind_error hplace, run_bind_error (helems.prepend_bytes.trans hplace)]

end Memory

namespace Reader

theorem load?_one {bytes : Array UInt8} {pos : Nat} {x : UInt8} (h : bytes[pos]? = some x) :
    load? bytes pos 1 = some x.toNat := by
  obtain ⟨hlt, hx⟩ := Array.getElem?_eq_some_iff.1 h
  have hextract : (bytes.extract pos (pos + 1)).toList = [x] := by
    rw [Array.toList_extract, List.extract_eq_take_drop, Nat.add_sub_cancel_left,
      List.drop_eq_getElem_cons (by simpa using hlt), List.take_succ_cons, List.take_zero,
      Array.getElem_toList, hx]
  rw [load?_of_le (by omega), hextract]
  rfl

theorem getElem?_of_slice {r : Reader} {data count i : Nat} {x : UInt8}
    (h : (r.slice data count)[i]? = some x) : r.bytes[data + i]? = some x := by
  unfold slice at h
  rw [Array.getElem?_toList, Array.getElem?_extract] at h
  split at h
  · exact h
  · cases h

theorem bytes?_eq_elements? (r : Reader) (slot : UInt16) {s : Scalar} (hs : s.size = 1)
    (hstored : ∀ x, s.ofStored x = x) : r.bytes? slot = r.elements? s slot := by
  unfold bytes? elements?
  rw [hs]
  cases hvector : r.vector? slot 1 with
  | none => rfl
  | some found =>
    obtain ⟨data, count⟩ := found
    unfold vector? at hvector
    rw [Option.bind_eq_bind, Option.bind_eq_some_iff] at hvector
    obtain ⟨pos, -, hvector⟩ := hvector
    obtain ⟨-, -, hsize⟩ := vectorAt?_bounds hvector
    have hlength : ((r.slice data count).map (·.toNat)).length = count := by
      unfold slice
      rw [List.length_map, Array.length_toList, Array.size_extract]
      omega
    have hread : (List.range ((r.slice data count).map (·.toNat)).length).mapM (fun i =>
        (load? r.bytes (data + i * 1) 1).map s.ofStored) =
          some ((r.slice data count).map (·.toNat)) := by
      apply mapM_range_eq_some
      intro i x hx
      rw [List.getElem?_map, Option.map_eq_some_iff] at hx
      obtain ⟨byte, hbyte, rfl⟩ := hx
      rw [Nat.mul_one, load?_one (getElem?_of_slice hbyte), Option.map_some, hstored]
    rw [hlength] at hread
    exact hread.symm

end Reader

theorem byte_vectors_agree (b : Builder) {m : Memory} (hm : m.head ≤ m.bytes.length) (r : Reader)
    (elems : List Nat) (slot : UInt16) :
    (b.createVector .u8 elems = b.createElements .u8 elems ∧
      b.createSignedBytes elems = b.createElements .s8 elems) ∧
    (Creation.write (.vector .u8 elems) m = Memory.createElements .u8 elems m ∧
      Creation.write (.signedBytes elems) m = Memory.createElements .s8 elems m) ∧
    r.bytes? slot = r.elements? .u8 slot ∧ r.signedBytes? slot = r.elements? .s8 slot := by
  refine ⟨⟨?_, ?_⟩, ⟨?_, ?_⟩, ?_, ?_⟩
  · exact b.createBytes_eq_createElements rfl elems
  · exact b.createBytes_eq_createElements rfl elems
  · exact Memory.createBytes_eq_createElements hm rfl elems
  · exact Memory.createBytes_eq_createElements hm rfl elems
  · exact r.bytes?_eq_elements? slot rfl fun _ => rfl
  · exact r.bytes?_eq_elements? slot rfl fun _ => rfl

def crampedMemory : Memory where
  bytes := [9, 1, 2, 3, 4, 5]
  spare := []
  slack := fun _ => 0
  slack_lt := fun _ h => h
  head := 1
  minAlign := 1
  fields := []
  fieldCount := 0
  objectEnd := 0
  vtables := []
  vtableCount := 0
  isNested := false
  isFinished := false
  size_lt := by decide

theorem byte_vectors_agree_cramped :
    let b : Builder := (Builder.new 6).put [1, 2, 3, 4, 5]
    let r := Reader.ofBytes
      #[12, 0, 0, 0, 0, 0, 6, 0, 8, 0, 4, 0, 6, 0, 0, 0, 4, 0, 0, 0, 2, 0, 0, 0, 128, 7]
    crampedMemory.head ≤ crampedMemory.bytes.length ∧
    b.createSignedBytes [0x80, 1, 0xff] = b.createElements .s8 [0x80, 1, 0xff] ∧
    (b.createElements .s8 [0x80, 1, 0xff]).toOption.map (fun made => (made.1.written, made.2)) =
      some ([3, 0, 0, 0, 0x80, 1, 0xff, 1, 2, 3, 4, 5], 12) ∧
    Creation.write (.signedBytes [0x80, 1, 0xff]) crampedMemory =
      Memory.createElements .s8 [0x80, 1, 0xff] crampedMemory ∧
    r.elements? .s8 4 = some [0x80, 7] ∧ r.signedBytes? 4 = r.elements? .s8 4 := by
  intro b r
  have hm : crampedMemory.head ≤ crampedMemory.bytes.length := by decide
  obtain ⟨hb, hmemory, hr⟩ := byte_vectors_agree b hm r [0x80, 1, 0xff] 4
  exact ⟨hm, hb.2, by decide, hmemory.2, by decide, hr.2⟩

end Table

end RecordCodec
