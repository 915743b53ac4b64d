import RecordCodec.Proofs.Codec.Stored
import RecordCodec.Proofs.Table.Memory

/-!
This module contains that a memory shows a builder. `Viewed` says which part of a memory belongs to
the buffer at hand, and every call keeps it: what else is in the memory is never read.
-/

namespace RecordCodec.Table

/--
The calls on a memory have the outcome of the calls on a builder. If the builder has other room than
the memory, the memory may run out of it first.
-/
def Shows (same : Bool) (r : EStateM.Result Stop σ α) (y : Except BuilderError β)
    (Q : α → σ → β → Prop) : Prop :=
  match r with
  | .ok a m => ∃ b, y = .ok b ∧ Q a m b
  | .error s _ => ∃ e, s = .refused e ∧ (y = .error e ∨ same = false ∧ e = .tooLarge)

namespace Shows

variable {same : Bool} {y : Except BuilderError β} {Q R : α → σ → β → Prop}

theorem ok {a : α} {m : σ} {b : β} (h : Q a m b) : Shows same (.ok a m) (.ok b) Q :=
  ⟨b, rfl, h⟩

theorem refused {m : σ} (e : BuilderError) :
    Shows same (.error (.refused e) m : EStateM.Result Stop σ α) (.error e) Q :=
  ⟨e, rfl, .inl rfl⟩

theorem mono {r : EStateM.Result Stop σ α} (h : Shows same r y Q)
    (hQ : ∀ a m b, Q a m b → R a m b) : Shows same r y R := by
  cases r with
  | ok a m =>
    obtain ⟨b, hy, hb⟩ := h
    exact ⟨b, hy, hQ a m b hb⟩
  | error s m => exact h

theorem bind {x : EStateM Stop σ α} {k : α → EStateM Stop σ γ} {m : σ}
    {g : β → Except BuilderError δ} {S : γ → σ → δ → Prop} (h : Shows same (x m) y Q)
    (hk : ∀ a m b, Q a m b → Shows same (k a m) (g b) S) :
    Shows same ((x >>= k) m) (y >>= g) S := by
  cases hx : x m with
  | ok a m' =>
    rw [hx] at h
    obtain ⟨b, rfl, hb⟩ := h
    rw [run_bind_ok hx]
    exact hk a m' b hb
  | error s m' =>
    rw [hx] at h
    rw [run_bind_error hx]
    obtain ⟨e, hs, rfl | htooLarge⟩ := h
    · exact ⟨e, hs, .inl rfl⟩
    · exact ⟨e, hs, .inr htooLarge⟩

end Shows

/--
The memory shows the builder: what is written from its head on, and the counted offsets. Either both
have the same room, or the builder has the largest there is. The start of an object counts once one
was opened.
-/
structure Viewed (same opened : Bool) (m : Memory) (b : Builder) : Prop where
  head_le : m.head ≤ m.bytes.length
  written : b.written = m.bytes.drop m.head
  capacity : b.capacity.val = if same then m.bytes.length else 0x7fffffff
  minAlign : b.minAlign = m.minAlign
  fieldCount_le : m.fieldCount ≤ m.fields.length
  vtable : b.vtable.toList = m.fields.take m.fieldCount
  objectEnd : opened = true → b.objectEnd = m.objectEnd
  vtableCount_le : m.vtableCount ≤ m.vtables.length
  vtables : b.vtables = (m.vtables.take m.vtableCount).reverse
  vtables_le : ∀ v ∈ b.vtables, v ≤ b.offset
  isNested : b.isNested = m.isNested
  isFinished : b.isFinished = m.isFinished

namespace Viewed

variable {same opened : Bool} {m : Memory} {b : Builder}

theorem offset_eq (h : Viewed same opened m b) : b.offset = m.offset := by
  rw [b.offset_eq, h.written, List.length_drop]
  rfl

theorem offset_add_head (h : Viewed same opened m b) : b.offset + m.head = m.bytes.length := by
  have := h.head_le
  rw [h.offset_eq]
  unfold Memory.offset
  omega

theorem reset (m : Memory) {b : Builder}
    (hcapacity : b.capacity.val = if same then m.block.length else 0x7fffffff) :
    ∃ m', Memory.reset m = .ok () m' ∧ Viewed same false m' b.reset := by
  refine ⟨_, rfl, ?_⟩
  exact
    { head_le := Nat.le_refl _
      written := by
        rw [List.drop_length]
        rfl
      capacity := hcapacity
      minAlign := rfl
      fieldCount_le := Nat.zero_le _
      vtable := rfl
      objectEnd := nofun
      vtableCount_le := Nat.zero_le _
      vtables := rfl
      vtables_le := nofun
      isNested := rfl
      isFinished := rfl }

theorem place (h : Viewed same opened m b) (new : List UInt8) (hroom : new.length ≤ m.head) :
    ∃ m', Memory.place new m = .ok () m' ∧ Viewed same opened m' (b.put new) ∧
      m'.head = m.head - new.length := by
  have hle := h.head_le
  have hfits : m.head - new.length + new.length ≤ m.bytes.length := by omega
  have hlower : Memory.lower new.length m = .ok () { m with head := m.head - new.length } := by
    unfold Memory.lower
    rw [if_pos hroom]
  refine ⟨{ m with
      bytes := overwrite m.bytes (m.head - new.length) new
      head := m.head - new.length
      size_lt := by
        rw [length_overwrite hfits]
        exact m.size_lt }, ?_, ?_, rfl⟩
  · unfold Memory.place
    rw [run_bind_ok hlower]
    exact dif_pos hfits
  · refine
      { h with
        head_le := ?_
        written := ?_
        capacity := ?_
        vtables_le := ?_ }
    · show m.head - new.length ≤ (overwrite _ _ _).length
      rw [length_overwrite hfits]
      omega
    · show (b.put new).written = (overwrite _ _ _).drop (m.head - new.length)
      have hlength : (m.bytes.take (m.head - new.length)).length = m.head - new.length := by
        rw [List.length_take]
        omega
      unfold overwrite
      rw [b.written_put, h.written, List.drop_left' hlength, Nat.sub_add_cancel hroom]
    · show b.capacity.val = if same then (overwrite _ _ _).length else _
      rw [length_overwrite hfits]
      exact h.capacity
    · intro v hv
      have hv' := h.vtables_le v hv
      rw [(Wrote.put b new).offset]
      omega

end Viewed

namespace Memory

structure Grown (m m' : Memory) : Prop where
  head_le : m'.head ≤ m'.bytes.length
  written : m'.bytes.drop m'.head = m.bytes.drop m.head
  le_head : m.head ≤ m'.head
  rest : m' = { m with
    bytes := m'.bytes
    spare := m'.spare
    head := m'.head
    size_lt := m'.size_lt }

theorem Grown.trans {m m' m'' : Memory} (h : Grown m m') (h' : Grown m' m'') : Grown m m'' where
  head_le := h'.head_le
  written := by rw [h'.written, h.written]
  le_head := Nat.le_trans h.le_head h'.le_head
  rest := by
    rw [h'.rest, h.rest]

def room (m : Memory) : Room :=
  ⟨m.bytes.length, Nat.lt_of_le_of_lt (Nat.le_add_right _ _) m.size_lt⟩

variable {m : Memory}

theorem double_eq_ok (hhead : m.head ≤ m.bytes.length) (hlimit : m.bytes.length < 0x40000000) :
    ∃ m', double m = .ok () m' ∧ Grown m m' ∧ Builder.doubled? m.room = some m'.room := by
  have hlength := m.length_doubledBytes
  refine ⟨_, dif_pos hlimit, ⟨?_, ?_, Nat.le_add_right _ _, rfl⟩, ?_⟩
  · show m.head + (m.doubledBytes.length - m.bytes.length) ≤ m.doubledBytes.length
    split at hlength
    · omega
    · omega
  · show m.doubledBytes.drop (m.head + (m.doubledBytes.length - m.bytes.length)) = _
    rw [hlength]
    unfold doubledBytes
    split
    · next hempty =>
      have hzero : m.head = 0 := by omega
      rw [List.eq_nil_of_length_eq_zero hempty, hzero]
      rfl
    · have hsum : m.head + (2 * m.bytes.length - m.bytes.length) = m.bytes.length + m.head := by
        omega
      rw [hsum, List.drop_length_add_append]
  · have hroom : m.room.val < 0x40000000 := hlimit
    unfold Builder.doubled?
    rw [dif_pos hroom, Option.some.injEq, Fin.ext_iff]
    show (if m.bytes.length = 0 then (1 : Room) else _).val = m.doubledBytes.length
    rw [hlength]
    split
    · rfl
    · rfl

theorem makeRoom_succ (needed fuel : Nat) :
    makeRoom needed (fuel + 1) m = (if needed < m.head then pure () else
      (do double; makeRoom needed fuel) : Writing Unit) m :=
  rfl

theorem makeRoom_cases (hhead : m.head ≤ m.bytes.length) (needed fuel : Nat) :
    (∃ m', makeRoom needed fuel m = .ok () m' ∧ Grown m m' ∧ needed < m'.head ∧
      Builder.grow (m.offset + needed) fuel m.room = .ok m'.room) ∨
    (∃ m', makeRoom needed fuel m = .error (.refused .tooLarge) m' ∧
      Builder.grow (m.offset + needed) fuel m.room = .error .tooLarge) := by
  induction fuel generalizing m with
  | zero => exact .inr ⟨m, rfl, rfl⟩
  | succ fuel ih =>
    have hroom : m.room.val = m.bytes.length := rfl
    have hoffset : m.offset = m.bytes.length - m.head := rfl
    rw [makeRoom_succ]
    unfold Builder.grow
    by_cases hlt : needed < m.head
    · rw [if_pos hlt, if_pos (by omega)]
      exact .inl ⟨m, rfl, ⟨hhead, rfl, Nat.le_refl _, rfl⟩, hlt, rfl⟩
    · rw [if_neg hlt, if_neg (by omega)]
      by_cases hlimit : m.bytes.length < 0x40000000
      · obtain ⟨m₁, hdouble, hgrown, hdoubled⟩ := double_eq_ok hhead hlimit
        have hlength := congrArg List.length hgrown.written
        have hhead₁ := hgrown.head_le
        rw [List.length_drop, List.length_drop] at hlength
        have hoffset₁ : m₁.offset = m.offset := hlength
        rw [run_bind_ok hdouble, hdoubled]
        dsimp only
        rw [← hoffset₁]
        rcases ih hgrown.head_le with ⟨m', hroom', hgrown', hneeded, hgrow⟩ | hstopped
        · exact .inl ⟨m', hroom', hgrown.trans hgrown', hneeded, hgrow⟩
        · exact .inr hstopped
      · have hdouble : double m = .error (.refused .tooLarge) m := by
          unfold double
          rw [dif_neg hlimit]
        have hdoubled : Builder.doubled? m.room = none := by
          exact dif_neg hlimit
        rw [run_bind_error hdouble, hdoubled]
        exact .inr ⟨m, rfl, rfl⟩

end Memory

namespace Viewed

variable {same opened : Bool} {m : Memory} {b : Builder}

theorem grown {m' : Memory} {capacity : Room} (h : Viewed same opened m b)
    (hgrown : Memory.Grown m m')
    (hcapacity : capacity.val = if same then m'.bytes.length else 0x7fffffff) :
    Viewed same opened m' { b with capacity := capacity } := by
  have hwritten := hgrown.written
  have hhead := hgrown.head_le
  rw [hgrown.rest] at hhead hwritten hcapacity ⊢
  exact
    { h with
      head_le := hhead
      written := h.written.trans hwritten.symm
      capacity := hcapacity }

theorem makeRoom (h : Viewed same opened m b) (needed : Nat) :
    Shows same (Memory.makeRoom needed 40 m) (Builder.grow (b.offset + needed) 40 b.capacity)
      fun _ m' capacity => Viewed same opened m' { b with capacity := capacity } ∧
        needed < m'.head ∧ m.head ≤ m'.head := by
  have hcapacity := h.capacity
  rcases Memory.makeRoom_cases h.head_le needed 40 with
    ⟨m', hroom, hgrown, hneeded, hgrow⟩ | ⟨m', hroom, hgrow⟩
  · rw [hroom]
    cases same with
    | true =>
      have hsame : b.capacity = m.room := Fin.ext hcapacity
      refine ⟨m'.room, ?_, h.grown hgrown rfl, hneeded, hgrown.le_head⟩
      rw [h.offset_eq, hsame]
      exact hgrow
    | false =>
      have hlargest : b.capacity.val = 0x7fffffff := hcapacity
      have hlt := Builder.grow_ok hgrow
      have hsize := m'.room.isLt
      refine ⟨b.capacity, ?_, h.grown hgrown hlargest, hneeded, hgrown.le_head⟩
      rw [h.offset_eq]
      unfold Builder.grow
      rw [if_pos (by omega)]
  · rw [hroom]
    refine ⟨.tooLarge, rfl, ?_⟩
    cases same with
    | true =>
      have hsame : b.capacity = m.room := Fin.ext hcapacity
      left
      rw [h.offset_eq, hsame]
      exact hgrow
    | false => exact .inr ⟨rfl, rfl⟩

theorem prep (h : Viewed same opened m b) (size additional : Nat) :
    Shows same (Memory.prep size additional m) (b.prep size additional) fun _ m' b' =>
      Viewed same opened m' b' ∧ size + additional < m'.head ∧
      m.head ≤ m'.head + Layout.padding (b.offset + additional) size ∧
      b'.offset = b.offset + Layout.padding (b.offset + additional) size := by
  have haligned : Viewed same opened { m with minAlign := max m.minAlign size }
      { b with minAlign := max b.minAlign size } :=
    { h with
      minAlign := by
        show max b.minAlign size = max m.minAlign size
        rw [h.minAlign] }
  unfold Builder.prep
  show Shows same ((do
    Memory.makeRoom (Layout.padding (m.offset + additional) size + size + additional) 40
    Memory.place (List.replicate (Layout.padding (m.offset + additional) size) 0) : Writing Unit)
    { m with minAlign := max m.minAlign size }) _ _
  rw [← h.offset_eq]
  generalize Layout.padding (b.offset + additional) size = pad
  have hroom := haligned.makeRoom (pad + size + additional)
  rw [show ({ b with minAlign := max b.minAlign size } : Builder).offset = b.offset from rfl,
    ← Nat.add_assoc, ← Nat.add_assoc] at hroom
  apply Shows.bind hroom
  rintro _ m₁ capacity ⟨hviewed, hneeded, hhead⟩
  obtain ⟨m', hplace, hviewed', hhead'⟩ := hviewed.place (List.replicate pad 0)
    (by rw [List.length_replicate]; omega)
  have hput := (Wrote.put b (List.replicate pad 0)).offset
  rw [List.length_replicate] at hhead' hput
  rw [hplace]
  refine ⟨_, rfl, hviewed', by omega, ?_, ?_⟩
  · have hsame : m.head ≤ m₁.head := hhead
    omega
  · show (b.put (List.replicate pad 0)).offset = _
    omega

end Viewed

structure Prepended (same opened : Bool) (width : Nat) (m : Memory) (b : Builder) (m' : Memory)
    (b' : Builder) : Prop where
  viewed : Viewed same opened m' b'
  head_le : m.head ≤ m'.head + Layout.padding b.offset width + width
  offset_eq : b'.offset = b.offset + Layout.padding b.offset width + width

def Made (same opened : Bool) (off : α) (m : Memory) (r : Builder × α) : Prop :=
  Viewed same opened m r.1 ∧ r.2 = off

namespace Viewed

variable {same opened : Bool} {m : Memory} {b : Builder}

theorem prependNumber (h : Viewed same opened m b) (width n : Nat) :
    Shows same (Memory.prependNumber width n m) (b.prependNumber width n) fun _ =>
      Prepended same opened width m b := by
  apply Shows.bind (h.prep width 0)
  rintro _ m₁ b₁ ⟨hviewed, hroom, hhead, hoffset⟩
  obtain ⟨m', hplace, hviewed', hhead'⟩ := hviewed.place (leBytes width n)
    (by rw [length_leBytes]; omega)
  have hput := (Wrote.put b₁ (leBytes width n)).offset
  rw [length_leBytes] at hhead' hput
  rw [Nat.add_zero] at hhead hoffset
  rw [hplace]
  exact Shows.ok ⟨hviewed', by omega, by omega⟩

theorem prependOffset (h : Viewed same opened m b) (off : Nat) :
    Shows same (Memory.prependOffset off m) (b.prependOffset off) fun _ =>
      Prepended same opened 4 m b := by
  apply Shows.bind (h.prep 4 0)
  rintro _ m₁ b₁ ⟨hviewed, hroom, hhead, hoffset⟩
  rw [Nat.add_zero] at hhead hoffset
  show Shows same ((if off ≤ m₁.offset then Memory.place (leBytes 4 (m₁.offset - off + 4)) else
    throw (.refused .offsetOrder) : Writing Unit) m₁) _ _
  rw [← hviewed.offset_eq]
  by_cases hle : off ≤ b₁.offset
  · obtain ⟨m', hplace, hviewed', hhead'⟩ := hviewed.place (leBytes 4 (b₁.offset - off + 4))
      (by rw [length_leBytes]; omega)
    have hput := (Wrote.put b₁ (leBytes 4 (b₁.offset - off + 4))).offset
    rw [length_leBytes] at hhead' hput
    simp only [hle, ↓reduceIte]
    rw [hplace]
    exact Shows.ok ⟨hviewed', by omega, by omega⟩
  · simp only [hle, ↓reduceIte]
    exact Shows.refused _

theorem prependAll {width : Nat} {f : α → Writing Unit}
    {g : α → Builder → Except BuilderError Builder}
    (hstep : ∀ a {m b}, Viewed same opened m b →
      Shows same (f a m) (g a b) fun _ => Prepended same opened width m b)
    (h : Viewed same opened m b) (as : List α) :
    Shows same (as.foldrM (fun a _ => f a) () m) (as.foldrM g b) fun _ m' b' =>
      Viewed same opened m' b' ∧ b.offset ≤ b'.offset ∧
      (width ∣ b.offset → width ∣ b'.offset ∧ m.head ≤ m'.head + width * as.length) := by
  induction as with
  | nil => exact Shows.ok ⟨h, Nat.le_refl _, fun hdvd => ⟨hdvd, Nat.le_add_right _ _⟩⟩
  | cons a as ih =>
    rw [List.foldrM_cons, List.foldrM_cons]
    apply Shows.bind ih
    rintro _ m₁ b₁ ⟨hviewed, hle, hroom⟩
    apply (hstep a hviewed).mono
    rintro _ m₂ b₂ hprepended
    have hhead := hprepended.head_le
    have hoffset := hprepended.offset_eq
    refine ⟨hprepended.viewed, by omega, ?_⟩
    intro hdvd
    obtain ⟨hdvd₁, hhead₁⟩ := hroom hdvd
    rw [Layout.padding_eq_zero hdvd₁] at hhead hoffset
    rw [hoffset, List.length_cons, Nat.mul_add, Nat.mul_one]
    exact ⟨Nat.dvd_add hdvd₁ (Nat.dvd_refl _), by omega⟩

theorem requireNotNested (h : Viewed same opened m b) :
    Shows same (Memory.requireNotNested m) b.requireNotNested fun _ m' _ => m' = m := by
  show Shows same ((if m.isNested then throw (.refused .nested) else pure () : Writing Unit) m) _ _
  unfold Builder.requireNotNested
  rw [h.isNested]
  cases m.isNested with
  | true => exact Shows.refused _
  | false => exact Shows.ok rfl

theorem requireNested (h : Viewed same opened m b) :
    Shows same (Memory.requireNested m) b.requireNested fun _ m' _ => m' = m := by
  show Shows same ((if m.isNested then pure () else throw (.refused .notNested) : Writing Unit) m)
    _ _
  unfold Builder.requireNested
  rw [h.isNested]
  cases m.isNested with
  | true => exact Shows.ok rfl
  | false => exact Shows.refused _

theorem nest (h : Viewed same opened m b) (isNested : Bool) :
    Viewed same opened { m with isNested := isNested } { b with isNested := isNested } :=
  { h with isNested := rfl }

theorem startVector (h : Viewed same opened m b) (elemSize count : Nat) {align : Nat}
    (hpos : 0 < align) (halign : align ∣ 4 ∨ 4 ≤ align) :
    Shows same (Memory.startVector elemSize count align m) (b.startVector elemSize count align)
      fun _ m' b' => Viewed same opened m' b' ∧ 4 + elemSize * count < m'.head ∧
        align ∣ b'.offset + elemSize * count := by
  apply Shows.bind h.requireNotNested
  rintro _ _ _ rfl
  apply Shows.bind ((h.nest true).prep 4 (elemSize * count))
  rintro _ m₁ b₁ ⟨hviewed₁, hroom₁, -, hoffset₁⟩
  have hfour : 4 ∣ b₁.offset + elemSize * count := by
    have hdvd := Layout.dvd_add_padding (b.offset + elemSize * count) (show 0 < 4 by decide)
    have hsame : b₁.offset = b.offset + Layout.padding (b.offset + elemSize * count) 4 := hoffset₁
    omega
  apply (hviewed₁.prep align (elemSize * count)).mono
  rintro _ m₂ b₂ ⟨hviewed₂, hroom₂, hhead₂, hoffset₂⟩
  refine ⟨hviewed₂, ?_, ?_⟩
  · rcases halign with hdvd | hle
    · -- what is aligned to four bytes needs no more padding
      rw [Layout.padding_eq_zero (Nat.dvd_trans hdvd hfour)] at hhead₂
      omega
    · omega
  · have hdvd := Layout.dvd_add_padding (b₁.offset + elemSize * count) hpos
    have hsum : b₂.offset + elemSize * count = b₁.offset + elemSize * count +
        Layout.padding (b₁.offset + elemSize * count) align := by omega
    rw [hsum]
    exact hdvd

theorem endVector (h : Viewed same opened m b) (count : Nat) (hroom : 4 ≤ m.head) :
    Shows same (Memory.endVector count m) (b.endVector count) (Made same opened) := by
  apply Shows.bind h.requireNested
  rintro _ _ _ rfl
  obtain ⟨m', hplace, hviewed, -⟩ := h.place (leBytes 4 count) (by rw [length_leBytes]; exact hroom)
  rw [run_bind_ok hplace]
  exact Shows.ok ⟨hviewed.nest false, (hviewed.nest false).offset_eq⟩

theorem createBytes (h : Viewed same opened m b) (bytes : List UInt8) :
    Shows same (Memory.createBytes bytes m) (b.createBytes bytes) (Made same opened) := by
  apply Shows.bind h.requireNotNested
  rintro _ _ _ rfl
  apply Shows.bind ((h.nest true).prep 4 bytes.length)
  rintro _ m₁ b₁ ⟨hviewed₁, hroom₁, -, -⟩
  obtain ⟨m₂, hplace, hviewed₂, hhead₂⟩ := hviewed₁.place bytes (by omega)
  rw [run_bind_ok hplace]
  exact hviewed₂.endVector _ (by omega)

theorem createString (h : Viewed same opened m b) (bytes : List UInt8) :
    Shows same (Memory.createString bytes m) (b.createString bytes) (Made same opened) := by
  apply Shows.bind h.requireNotNested
  rintro _ _ _ rfl
  apply Shows.bind ((h.nest true).prep 4 (bytes.length + 1))
  rintro _ m₁ b₁ ⟨hviewed₁, hroom₁, -, -⟩
  obtain ⟨m₂, hplace₂, hviewed₂, hhead₂⟩ := hviewed₁.place [0]
    (by simp only [List.length_singleton]; omega)
  rw [List.length_singleton] at hhead₂
  obtain ⟨m₃, hplace₃, hviewed₃, hhead₃⟩ := hviewed₂.place bytes (by omega)
  rw [run_bind_ok hplace₂, run_bind_ok hplace₃]
  exact hviewed₃.endVector _ (by omega)

theorem createElements (h : Viewed same opened m b) {s : Scalar} (hs : s.isValid = true)
    (elems : List Nat) :
    Shows same (Memory.createElements s elems m) (b.createElements s elems) (Made same opened) := by
  have halign : s.size ∣ 4 ∨ 4 ≤ s.size := by
    cases s with
    | unknown code => contradiction
    | _ => decide
  apply Shows.bind (h.startVector s.size elems.length (Scalar.size_pos_of_isValid hs) halign)
  rintro _ m₁ b₁ ⟨hviewed₁, hroom₁, hdvd₁⟩
  apply Shows.bind (hviewed₁.prependAll (fun x _ _ h => h.prependNumber s.size x) elems)
  rintro _ m₂ b₂ ⟨hviewed₂, -, hroom₂⟩
  obtain ⟨-, hhead₂⟩ := hroom₂ ((Nat.dvd_add_left (Nat.dvd_mul_right _ _)).1 hdvd₁)
  exact hviewed₂.endVector _ (by omega)

theorem createVector (h : Viewed same opened m b) {s : Scalar} (hs : s.isValid = true)
    (elems : List Nat) :
    Shows same (Memory.createVector s elems m) (b.createVector s elems) (Made same opened) := by
  cases s with
  | u8 => exact h.createBytes _
  | _ => exact h.createElements hs elems

theorem createStrings (h : Viewed same opened m b) (texts : List (List UInt8)) :
    Shows same (Memory.createStrings texts m) (b.createStrings texts) (Made same opened) := by
  induction texts generalizing m b with
  | nil => exact Shows.ok ⟨h, rfl⟩
  | cons text texts ih =>
    apply Shows.bind (h.createString text)
    rintro _ m₁ ⟨b₁, off⟩ ⟨hviewed₁, rfl⟩
    apply Shows.bind (ih hviewed₁)
    rintro _ m₂ ⟨b₂, offs⟩ ⟨hviewed₂, rfl⟩
    exact Shows.ok ⟨hviewed₂, rfl⟩

theorem createStringVector (h : Viewed same opened m b) (texts : List (List UInt8)) :
    Shows same (Memory.createStringVector texts m) (b.createStringVector texts)
      (Made same opened) := by
  apply Shows.bind (h.createStrings texts)
  rintro _ m₁ ⟨b₁, offs⟩ ⟨hviewed₁, rfl⟩
  apply Shows.bind (hviewed₁.startVector 4 offs.length (by decide) (.inr (by decide)))
  rintro _ m₂ b₂ ⟨hviewed₂, hroom₂, hdvd₂⟩
  apply Shows.bind (hviewed₂.prependAll (fun off _ _ h => h.prependOffset off) offs)
  rintro _ m₃ b₃ ⟨hviewed₃, -, hroom₃⟩
  obtain ⟨-, hhead₃⟩ := hroom₃ ((Nat.dvd_add_left (Nat.dvd_mul_right _ _)).1 hdvd₂)
  exact hviewed₃.endVector _ (by omega)

theorem startObject (h : Viewed same opened m b) (count : Nat) :
    Shows same (Memory.startObject count m) (b.startObject count) fun _ => Viewed same true := by
  apply Shows.bind h.requireNotNested
  rintro _ _ _ rfl
  have hlength : (List.replicate count 0).length = count := List.length_replicate
  apply Shows.ok
  refine { h with fieldCount_le := ?_, vtable := ?_, objectEnd := ?_, isNested := rfl }
  · show count ≤ (List.replicate count 0 ++ _).length
    rw [List.length_append, hlength]
    omega
  · show (Array.replicate count 0).toList = (List.replicate count 0 ++ _).take count
    rw [List.take_left' hlength, Array.toList_replicate]
  · intro _
    exact h.offset_eq

theorem setSlot (h : Viewed same opened m b) (index : Nat) :
    Shows same (Memory.setSlot index m) (b.setSlot index) fun _ => Viewed same opened := by
  have hsize : b.vtable.size = m.fieldCount := by
    rw [← Array.length_toList, h.vtable, List.length_take]
    exact Nat.min_eq_left h.fieldCount_le
  show Shows same ((if index < m.fieldCount then set { m with fields := m.fields.set index m.offset }
    else throw (.refused .noSuchSlot) : Writing Unit) m) _ _
  unfold Builder.setSlot
  simp only [Int.natCast_nonneg, Int.toNat_natCast, true_and, hsize]
  split
  · apply Shows.ok
    refine { h with fieldCount_le := ?_, vtable := ?_ }
    · show m.fieldCount ≤ (m.fields.set index m.offset).length
      rw [List.length_set]
      exact h.fieldCount_le
    · show (b.vtable.setIfInBounds index b.offset).toList =
        (m.fields.set index m.offset).take m.fieldCount
      rw [Array.toList_setIfInBounds, h.vtable, h.offset_eq, List.take_set]
  · exact Shows.refused _

theorem slotAlways (h : Viewed same opened m b) (s : Scalar) (index bits : Nat) :
    Shows same (Memory.slotAlways s index bits m) (b.slotAlways s index bits) fun _ =>
      Viewed same opened := by
  apply Shows.bind (h.prependNumber s.size bits)
  intro _ m₁ b₁ hprepended
  exact hprepended.viewed.setSlot index

theorem slot (h : Viewed same opened m b) (s : Scalar) (index bits default : Nat) :
    Shows same (Memory.slot s index bits default m) (b.slot s index bits default) fun _ =>
      Viewed same opened := by
  unfold Memory.slot Builder.slot
  split
  · exact Shows.ok h
  · exact h.slotAlways s index bits

theorem offsetSlot (h : Viewed same opened m b) (index off : Nat) :
    Shows same (Memory.offsetSlot index off m) (b.offsetSlot index off) fun _ =>
      Viewed same opened := by
  apply Shows.bind (h.prependOffset off)
  intro _ m₁ b₁ hprepended
  exact hprepended.viewed.setSlot index

end Viewed

theorem Memory.take_lastWritten (fields : List Nat) {count : Nat} (h : count ≤ fields.length) :
    fields.take (lastWritten fields count) =
      ((fields.take count).reverse.dropWhile (· == 0)).reverse := by
  induction count with
  | zero => rfl
  | succ count ih =>
    have hlt : count < fields.length := h
    rw [List.take_succ_eq_append_getElem hlt, List.reverse_append, List.reverse_singleton,
      List.singleton_append, List.dropWhile_cons]
    unfold lastWritten
    rw [← List.getElem_eq_getD (h := hlt) 0]
    by_cases hzero : fields[count] = 0
    · rw [if_pos hzero, if_pos (by rw [hzero]; rfl), ih (Nat.le_of_lt hlt)]
    · rw [if_neg hzero, if_neg (by simpa using hzero), List.reverse_cons, List.reverse_reverse,
        List.take_succ_eq_append_getElem hlt]

namespace Viewed

variable {same opened : Bool} {m : Memory} {b : Builder}

theorem writtenFields (h : Viewed same opened m b) : m.writtenFields = b.writtenFields := by
  unfold Memory.writtenFields Builder.writtenFields
  rw [h.vtable, Memory.take_lastWritten _ h.fieldCount_le]

theorem entriesAt (h : Viewed same opened m b) {v : Nat} (hv : v ≤ b.offset) :
    m.entriesAt v = b.entriesAt v := by
  have hsum := h.offset_add_head
  have hstart : m.head + (b.tail.toList.length - v) = m.bytes.length - v := by
    have hoffset : b.offset = b.tail.toList.length := Array.length_toList.symm
    omega
  have hbytes : (b.tail.toList.take v).reverse = m.bytes.drop (m.bytes.length - v) := by
    rw [List.reverse_take, show b.tail.toList.reverse = b.written from rfl, h.written,
      List.drop_drop, hstart]
  unfold Memory.entriesAt Builder.entriesAt
  rw [hbytes]

theorem find?_congr {p q : Nat → Bool} {vs : List Nat} (h : ∀ v ∈ vs, p v = q v) :
    vs.find? p = vs.find? q := by
  induction vs with
  | nil => rfl
  | cons v vs ih =>
    rw [List.find?_cons, List.find?_cons, h v (List.mem_cons_self ..),
      ih fun v hv => h v (List.mem_cons_of_mem _ hv)]

theorem vtableFor? (h : Viewed same opened m b) (object : Nat) (fields : List Nat) :
    m.vtableFor? object fields =
      b.vtables.find? fun v => Builder.serves object (b.entriesAt v) fields := by
  unfold Memory.vtableFor?
  rw [← h.vtables]
  apply find?_congr
  intro v hv
  rw [h.entriesAt (h.vtables_le v hv)]

theorem writeVtable (h : Viewed same opened m b) (objectSize : Nat) (entries : List Nat) :
    Shows same (Memory.writeVtable objectSize entries m) (b.writeVtable objectSize entries)
      fun _ m' b' => Viewed same opened m' b' ∧ b.offset ≤ b'.offset := by
  apply Shows.bind (h.prependAll (fun e _ _ h => h.prependNumber 2 e) entries)
  rintro _ m₁ b₁ ⟨hviewed₁, hle₁, -⟩
  apply Shows.bind (hviewed₁.prependNumber 2 objectSize)
  intro _ m₂ b₂ h₂
  apply (h₂.viewed.prependNumber 2 _).mono
  intro _ m₃ b₃ h₃
  have hoffset₂ := h₂.offset_eq
  have hoffset₃ := h₃.offset_eq
  exact ⟨h₃.viewed, by omega⟩

theorem store (h : Viewed same opened m b) {object : Nat} (bytes : List UInt8)
    (hobject : object ≤ b.offset) (hbytes : bytes.length ≤ object) :
    ∃ m', Memory.store (m.bytes.length - object) bytes m = .ok () m' ∧
      Viewed same opened m' (b.patch object bytes) ∧ m'.offset = m.offset := by
  have hhead := h.head_le
  have hsum := h.offset_add_head
  have hfits : m.bytes.length - object + bytes.length ≤ m.bytes.length := by omega
  have hlength := b.offset_eq
  -- the object with its first bytes apart, and what was written in front of it
  have hsplit : b.written = b.written.take (b.offset - object) ++
      ((b.written.drop (b.offset - object)).take bytes.length ++
        (b.written.drop (b.offset - object)).drop bytes.length) := by
    rw [List.take_append_drop, List.take_append_drop]
  have hback : ((b.written.drop (b.offset - object)).take bytes.length ++
      (b.written.drop (b.offset - object)).drop bytes.length).length = object := by
    rw [List.take_append_drop, List.length_drop]
    omega
  have hpatch := Builder.written_patch bytes hsplit (by
    rw [List.length_take, List.length_drop]
    omega)
  rw [hback] at hpatch
  have hoffset : (b.patch object bytes).offset = b.offset := by
    rw [(b.patch object bytes).offset_eq, hpatch]
    simp only [List.length_append, List.length_take, List.length_drop]
    omega
  refine ⟨_, dif_pos hfits, ?_, ?_⟩
  · refine
      { h with
        head_le := ?_
        written := ?_
        capacity := ?_
        vtables_le := ?_ }
    · show m.head ≤ (overwrite _ _ _).length
      rw [length_overwrite hfits]
      exact hhead
    · show (b.patch object bytes).written = (overwrite _ _ _).drop m.head
      unfold overwrite
      rw [hpatch, h.written, List.drop_append_of_le_length (by rw [List.length_take]; omega),
        List.drop_take, List.drop_drop, List.drop_drop]
      have hfront : m.bytes.length - object - m.head = b.offset - object := by omega
      have hrest : m.head + (b.offset - object + bytes.length) =
          m.bytes.length - object + bytes.length := by omega
      rw [hfront, hrest]
    · show b.capacity.val = if same then (overwrite _ _ _).length else _
      rw [length_overwrite hfits]
      exact h.capacity
    · intro v hv
      rw [hoffset]
      exact h.vtables_le v hv
  · show (overwrite _ _ _).length - m.head = _
    rw [length_overwrite hfits]
    rfl

theorem addVtable (h : Viewed same opened m b) :
    ∃ m', Memory.addVtable m = .ok () m' ∧
      Viewed same opened m' { b with vtables := b.offset :: b.vtables } := by
  have hle := h.vtableCount_le
  have hlength : (m.vtables.take m.vtableCount).length = m.vtableCount := by
    rw [List.length_take]
    omega
  refine ⟨_, rfl, ?_⟩
  refine { h with vtableCount_le := ?_, vtables := ?_, vtables_le := ?_ }
  · show m.vtableCount + 1 ≤ (_ ++ _ :: _).length
    rw [List.length_append, hlength, List.length_cons]
    omega
  · show b.offset :: b.vtables = ((_ ++ _ :: _).take (m.vtableCount + 1)).reverse
    rw [List.take_append, hlength, Nat.add_sub_cancel_left, List.take_take,
      Nat.min_eq_right (Nat.le_succ _), List.reverse_append, ← h.vtables, h.offset_eq]
    rfl
  · intro v hv
    rcases List.mem_cons.1 hv with rfl | hv
    · exact Nat.le_refl _
    · exact h.vtables_le v hv

theorem closeObject (h : Viewed same opened m b) (object : Nat) :
    Shows same (Memory.closeObject object m)
      (.ok ({ b with vtable := #[], isNested := false }, object)) (Made same opened) := by
  refine Shows.ok ⟨?_, rfl⟩
  exact { h with fieldCount_le := Nat.zero_le _, vtable := rfl, isNested := rfl }

theorem endObject (h : Viewed same true m b) :
    Shows same (Memory.endObject m) b.endObject (Made same true) := by
  apply Shows.bind h.requireNested
  rintro _ _ _ rfl
  apply Shows.bind (h.prependOffset 0)
  intro _ m₁ b₁ hprepended
  have hviewed := hprepended.viewed
  have hfour := hprepended.offset_eq
  have hobject := hviewed.offset_eq
  show Shows same (Memory.linkVtable m₁.offset (m₁.offset - m₁.objectEnd) m₁.writtenFields
    (m₁.vtableFor? m₁.offset m₁.writtenFields) m₁) _ _
  rw [← hobject, hviewed.writtenFields, hviewed.vtableFor?, ← hviewed.objectEnd rfl]
  dsimp only
  cases b₁.vtables.find? fun v => Builder.serves b₁.offset (b₁.entriesAt v) b₁.writtenFields with
  | some vtable =>
    obtain ⟨m', hstore, hviewed', -⟩ := hviewed.store
      (leBytes 4 (unsigned 4 ((vtable : Int) - b₁.offset))) (Nat.le_refl _)
      (by rw [length_leBytes]; omega)
    show Shows same ((Memory.store _ _ >>= fun _ => Memory.closeObject _) m₁) _ _
    rw [run_bind_ok hstore]
    exact hviewed'.closeObject _
  | none =>
    apply Shows.bind (hviewed.writeVtable _ _)
    rintro _ m₂ b₂ ⟨hviewed₂, hle₂⟩
    obtain ⟨m₃, hstore, hviewed₃, -⟩ := hviewed₂.store (leBytes 4 (b₂.offset - b₁.offset)) hle₂
      (by rw [length_leBytes]; omega)
    obtain ⟨m₄, hadd, hviewed₄⟩ := hviewed₃.addVtable
    show Shows same ((Memory.store (m₂.bytes.length - b₁.offset)
      (leBytes 4 (m₂.offset - b₁.offset)) >>= fun _ => Memory.addVtable >>= fun _ =>
        Memory.closeObject b₁.offset) m₂) _ _
    rw [← hviewed₂.offset_eq, run_bind_ok hstore, run_bind_ok hadd]
    exact hviewed₄.closeObject _

theorem finish (h : Viewed same opened m b) (root : Nat) :
    Shows same (Memory.finish root m) (b.finish root) fun _ => Viewed same opened := by
  apply Shows.bind h.requireNotNested
  rintro _ m _ rfl
  show Shows same ((Memory.prep m.minAlign 4 >>= _) m) _ _
  rw [← h.minAlign]
  apply Shows.bind (h.prep b.minAlign 4)
  rintro _ m₁ b₁ ⟨hviewed₁, -⟩
  apply Shows.bind (hviewed₁.prependOffset root)
  intro _ m₂ b₂ hprepended
  exact Shows.ok { hprepended.viewed with isFinished := rfl }

theorem finishObject (h : Viewed same true m b) :
    Shows same (Memory.finishObject m) b.finishObject fun _ => Viewed same true := by
  apply Shows.bind h.endObject
  rintro _ m₁ ⟨b₁, object⟩ ⟨hviewed, rfl⟩
  exact hviewed.finish object

theorem finishedBytes (h : Viewed same opened m b) :
    Shows same (Memory.finishedBytes m) b.finishedBytes fun bytes _ bytes' => bytes' = bytes := by
  show Shows same ((if m.isFinished then pure (m.bytes.drop m.head) else
    throw (.refused .notFinished) : Writing (List UInt8)) m) _ _
  unfold Builder.finishedBytes
  rw [h.isFinished, h.written]
  cases m.isFinished with
  | true => exact Shows.ok rfl
  | false => exact Shows.refused _

theorem create (h : Viewed same opened m b) {c : Creation}
    (hc : ∀ elem elems, c = .vector elem elems → elem.isValid = true) :
    Shows same (c.write m) (c.run b) (Made same opened) := by
  cases c with
  | string text => exact h.createString text
  | strings texts => exact h.createStringVector texts
  | codePoints codes => exact h.createVector (s := .u32) rfl codes
  | signedBytes elems => exact h.createBytes _
  | vector elem elems => exact h.createVector (hc elem elems rfl) elems

theorem act (h : Viewed same true m b) {c : Action} (hc : c ≠ .reset) :
    Shows same (c.write m) (c.run b) fun _ => Viewed same true := by
  cases c with
  | reset => contradiction
  | startObject count => exact h.startObject count
  | slot s index bits default => exact h.slot s index bits default
  | slotAlways s index bits => exact h.slotAlways s index bits
  | offsetSlot index off => exact h.offsetSlot index off
  | finish => exact h.finishObject

end Viewed

end RecordCodec.Table
