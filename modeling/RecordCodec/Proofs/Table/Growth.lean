import RecordCodec.Proofs.Table.Bytes

/-!
This module contains the reasoning about builder operations that may run out of room. `Reaches` says
that an operation either has a result with some property or stops at the limit of growth, and stops
only if it needs that much. `Wrote` says what an operation that only writes does to a builder.
-/

namespace RecordCodec.Table

/--
The computation has a result with the property `P`, or it stops because the buffer cannot grow, and
then `bound` bytes are too many to be sure of room for them.
-/
def Reaches (bound : Nat) (x : Except BuilderError α) (P : α → Prop) : Prop :=
  match x with
  | .ok a => P a
  | .error e => e = .tooLarge ∧ 0x40000000 ≤ bound

namespace Reaches

variable {bound : Nat} {x : Except BuilderError α} {P Q : α → Prop}

theorem ok {a : α} (h : P a) : Reaches bound (.ok a) P := h

theorem pure {a : α} (h : P a) : Reaches bound (Pure.pure a : Except BuilderError α) P := h

theorem mono {bound' : Nat} (h : Reaches bound x P) (hbound : bound ≤ bound')
    (hP : ∀ a, P a → Q a) : Reaches bound' x Q := by
  unfold Reaches at *
  split at h
  · next a =>
    apply hP
    exact h
  · next e =>
    refine ⟨h.1, ?_⟩
    have := h.2
    omega

theorem bind {f : α → Except BuilderError β} {R : β → Prop} (h : Reaches bound x P)
    (hf : ∀ a, P a → Reaches bound (f a) R) : Reaches bound (x >>= f) R := by
  cases x with
  | ok a =>
    apply hf
    exact h
  | error e => exact h

theorem ok_bind {a : α} {f : α → Except BuilderError β} {R : β → Prop}
    (h : Reaches bound (f a) R) : Reaches bound (Except.ok a >>= f) R := h

theorem result {a : α} (h : Reaches bound x P) (hx : x = .ok a) : P a := by
  subst hx
  exact h

theorem exists_ok (h : Reaches bound x P) (hx : x ≠ .error .tooLarge) : ∃ a, x = .ok a ∧ P a := by
  cases x with
  | ok a => exact ⟨a, rfl, h⟩
  | error e =>
    rw [h.1] at hx
    contradiction

theorem exists_ok_of_lt (h : Reaches bound x P) (hbound : bound < 0x40000000) :
    ∃ a, x = .ok a ∧ P a := by
  apply h.exists_ok
  intro hx
  subst hx
  have := h.2
  omega

theorem limit (h : Reaches bound x P) : Reaches 0x40000000 x P := by
  cases x with
  | ok a => exact h
  | error e => exact ⟨h.1, Nat.le_refl _⟩

theorem with_eq (h : Reaches bound x P) : Reaches bound x fun a => x = .ok a ∧ P a := by
  cases x with
  | ok a => exact ⟨rfl, h⟩
  | error e => exact h

theorem foldlM {f : β → α → Except BuilderError β} (I : List α → β → Prop)
    (hstep : ∀ a as b, I (a :: as) b → Reaches bound (f b a) (I as)) (as : List α) (b : β)
    (h : I as b) : Reaches bound (as.foldlM f b) (I []) := by
  induction as generalizing b with
  | nil => exact h
  | cons a as ih =>
    rw [List.foldlM_cons]
    apply bind (hstep a as b h)
    exact ih

theorem foldrM {f : α → β → Except BuilderError β} (I : List α → β → Prop) (as : List α) (b : β)
    (hstep : ∀ a done b, (a :: done) <:+ as → I done b → Reaches bound (f a b) (I (a :: done)))
    (h : I [] b) : Reaches bound (as.foldrM f b) (I as) := by
  induction as with
  | nil => exact h
  | cons a as ih =>
    rw [List.foldrM_cons]
    apply bind (P := I as)
    · apply ih
      intro a' done b' hsuffix
      apply hstep
      exact hsuffix.trans (List.suffix_cons a as)
    · intro b' hb'
      apply hstep a as b' (List.suffix_refl _) hb'

end Reaches

end RecordCodec.Table

namespace RecordCodec.Layout

theorem toNat_slot {i : Nat} (h : i < maxFields) : (slot i).toNat = 4 + 2 * i := by
  have hmax : maxFields = 32765 := rfl
  unfold slot metadataSize slotSize UInt16.ofInt
  simp only [UInt16.toNat_ofNat']
  omega

theorem padding_lt {width : Nat} (used : Nat) (h : 0 < width) : padding used width < width := by
  unfold padding
  apply Nat.mod_lt
  exact h

theorem dvd_add_padding {width : Nat} (used : Nat) (h : 0 < width) :
    width ∣ used + padding used width := by
  unfold padding
  have hlt := Nat.mod_lt used h
  apply Nat.dvd_of_mod_eq_zero
  rw [Nat.add_mod, Nat.mod_mod, ← Nat.add_mod]
  by_cases hzero : used % width = 0
  · rw [hzero, Nat.sub_zero, Nat.add_mod, hzero, Nat.mod_self]
    simp
  · rw [Nat.add_mod, Nat.mod_eq_of_lt (a := width - used % width) (by omega)]
    rw [Nat.add_sub_cancel' (by omega)]
    apply Nat.mod_self

theorem padding_eq_zero {used width : Nat} (h : width ∣ used) : padding used width = 0 := by
  unfold padding
  rw [Nat.mod_eq_zero_of_dvd h, Nat.sub_zero]
  apply Nat.mod_self

theorem padding_add_of_dvd {m width : Nat} (n : Nat) (h : width ∣ m) :
    padding (m + n) width = padding n width := by
  obtain ⟨k, rfl⟩ := h
  unfold padding
  rw [Nat.mul_add_mod]

end RecordCodec.Layout

namespace RecordCodec.Table.Builder

theorem grow_ok {needed fuel : Nat} {capacity capacity' : Room}
    (h : grow needed fuel capacity = .ok capacity') : needed < capacity'.val := by
  induction fuel generalizing capacity with
  | zero => simp [grow] at h
  | succ fuel ih =>
    unfold grow at h
    split at h
    · next hlt =>
      cases h
      exact hlt
    · split at h
      · contradiction
      · apply ih h

theorem grow_error {needed fuel : Nat} {capacity : Room} {e : BuilderError}
    (h : grow needed fuel capacity = .error e) : e = .tooLarge := by
  induction fuel generalizing capacity with
  | zero =>
    cases h
    rfl
  | succ fuel ih =>
    unfold grow at h
    split at h
    · contradiction
    · split at h
      · cases h
        rfl
      · apply ih h

theorem grow_eq_error {needed fuel : Nat} {capacity : Room} (h : 0x80000000 ≤ needed) :
    grow needed fuel capacity = .error .tooLarge := by
  cases hgrow : grow needed fuel capacity with
  | ok capacity' =>
    have hlt := grow_ok hgrow
    have := capacity'.isLt
    omega
  | error e => rw [grow_error hgrow]

theorem startVector_eq_error {b : Builder} {elemSize count : Nat} (hb : b.isNested = false)
    (h : 0x80000000 ≤ elemSize * count) (align : Nat) :
    b.startVector elemSize count align = .error .tooLarge := by
  have hprep : prep { b with isNested := true } 4 (elemSize * count) = .error .tooLarge := by
    unfold prep
    dsimp only
    rw [grow_eq_error (by omega)]
    rfl
  unfold startVector requireNotNested
  rw [if_neg (by simp [hb])]
  show (prep { b with isNested := true } 4 (elemSize * count) >>= _) = _
  rw [hprep]
  rfl

theorem grow_of_lt {needed fuel : Nat} {capacity : Room} (hneeded : needed < 0x40000000)
    (hpos : 0 < capacity.val) (hfuel : needed < capacity.val * Nat.pow 2 fuel) :
    ∃ capacity', grow needed (fuel + 1) capacity = .ok capacity' := by
  induction fuel generalizing capacity with
  | zero =>
    refine ⟨capacity, ?_⟩
    unfold grow
    rw [if_pos]
    simpa using hfuel
  | succ fuel ih =>
    unfold grow
    split
    · exact ⟨capacity, rfl⟩
    · next hle =>
      -- there is room to double, because what is needed is below the limit
      have hlimit : capacity.val < 0x40000000 := by omega
      have hdouble : doubled? capacity = some ⟨2 * capacity.val, by omega⟩ := by
        unfold doubled?
        rw [dif_pos hlimit, if_neg (by omega)]
      have hpow : Nat.pow 2 (fuel + 1) = 2 * Nat.pow 2 fuel := Nat.mul_comm _ _
      rw [hdouble]
      apply ih
      · simp only
        omega
      · rw [hpow] at hfuel
        simp only
        rw [Nat.mul_comm 2, Nat.mul_assoc]
        exact hfuel

theorem grow_forty {needed : Nat} (capacity : Room) (hneeded : needed < 0x40000000) :
    ∃ capacity', grow needed 40 capacity = .ok capacity' := by
  by_cases hpos : 0 < capacity.val
  · apply grow_of_lt hneeded hpos
    have hpow : Nat.pow 2 39 = 0x8000000000 := rfl
    rw [hpow]
    omega
  · unfold grow
    rw [if_neg (by omega)]
    have hone : doubled? capacity = some 1 := by
      unfold doubled?
      rw [dif_pos (by omega), if_pos (by omega)]
    rw [hone]
    apply grow_of_lt hneeded
    · decide
    · have hpow : Nat.pow 2 38 = 0x4000000000 := rfl
      rw [hpow]
      simp only [Fin.val_one]
      omega

theorem grow_reaches (needed : Nat) (capacity : Room) :
    Reaches needed (grow needed 40 capacity) fun capacity' => needed < capacity'.val := by
  cases h : grow needed 40 capacity with
  | ok capacity' =>
    apply Reaches.ok
    exact grow_ok h
  | error e =>
    refine ⟨grow_error h, ?_⟩
    apply Nat.le_of_not_lt
    intro hlt
    obtain ⟨capacity', hok⟩ := grow_forty capacity hlt
    rw [hok] at h
    contradiction

end RecordCodec.Table.Builder
