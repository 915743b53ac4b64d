import RecordCodec.Text.Utf8

/-!
This module contains the meaning of `isUtf8`: it accepts exactly the byte strings that encode a
text. Splitting a byte string into pieces loses nothing, and an encoded character is one piece.
-/

namespace RecordCodec.Text

theorem toNat_lt (c : Char) : c.toNat < 0xd800 ∨ (0xdfff < c.toNat ∧ c.toNat < 0x110000) := by
  have hvalid := c.valid
  simp only [UInt32.isValidChar, Nat.isValidChar] at hvalid
  unfold Char.toNat
  omega

theorem toNat_ofNat {n : Nat} (h : n < 0xd800 ∨ (0xdfff < n ∧ n < 0x110000)) :
    (Char.ofNat n).toNat = n := by
  unfold Char.ofNat
  rw [dif_pos h]
  rfl

theorem utf8Char_eq (c : Char) : utf8Char c = String.utf8EncodeChar c := by
  have hvalid := toNat_lt c
  have hval : c.val.toNat = c.toNat := rfl
  unfold utf8Char String.utf8EncodeChar
  dsimp only
  rw [hval]
  generalize c.toNat = n at hvalid ⊢
  by_cases hone : n < 0x80
  · rw [if_pos hone, if_pos (by omega)]
  · rw [if_neg hone, if_neg (show ¬n ≤ 127 by omega)]
    by_cases htwo : n < 0x800
    · rw [if_pos htwo, if_pos (show n ≤ 2047 by omega), Nat.mod_eq_of_lt (a := n / 64) (by omega)]
      simp [Nat.add_comm]
    · rw [if_neg htwo, if_neg (show ¬n ≤ 2047 by omega)]
      by_cases hthree : n < 0x10000
      · rw [if_pos hthree, if_pos (show n ≤ 65535 by omega),
          Nat.mod_eq_of_lt (a := n / 4096) (by omega)]
        simp [Nat.add_comm]
      · rw [if_neg hthree, if_neg (show ¬n ≤ 65535 by omega),
          Nat.mod_eq_of_lt (a := n / 262144) (by omega)]
        simp [Nat.add_comm]

theorem isContinuation_iff {b : UInt8} :
    isContinuation b = true ↔ 0x80 ≤ b.toNat ∧ b.toNat ≤ 0xbf := by
  simp [isContinuation, UInt8.le_iff_toNat_le]

theorem startsTwo_iff {a b : UInt8} :
    (decide (0xc2 ≤ a) && decide (a ≤ 0xdf) && isContinuation b) = true ↔
      0xc2 ≤ a.toNat ∧ a.toNat ≤ 0xdf ∧ 0x80 ≤ b.toNat ∧ b.toNat ≤ 0xbf := by
  simp [isContinuation_iff, UInt8.le_iff_toNat_le, and_assoc]

theorem startsThree_iff {a b : UInt8} :
    startsThree a b = true ↔
      (a.toNat = 0xe0 ∧ 0xa0 ≤ b.toNat ∧ b.toNat ≤ 0xbf) ∨
      (a.toNat = 0xed ∧ 0x80 ≤ b.toNat ∧ b.toNat ≤ 0x9f) ∨
      (0xe1 ≤ a.toNat ∧ a.toNat ≤ 0xef ∧ a.toNat ≠ 0xed ∧ 0x80 ≤ b.toNat ∧ b.toNat ≤ 0xbf) := by
  unfold startsThree
  simp only [beq_iff_eq, ← UInt8.toNat_inj]
  split
  · next ha =>
    simp [UInt8.le_iff_toNat_le, ha]
  · next ha =>
    split
    · next ha' =>
      simp [UInt8.le_iff_toNat_le, ha']
    · next ha' =>
      simp only [Bool.and_eq_true, decide_eq_true_eq, isContinuation_iff, UInt8.le_iff_toNat_le]
      simp only [UInt8.reduceToNat] at ha ha' ⊢
      omega

theorem startsFour_iff {a b : UInt8} :
    startsFour a b = true ↔
      (a.toNat = 0xf0 ∧ 0x90 ≤ b.toNat ∧ b.toNat ≤ 0xbf) ∨
      (a.toNat = 0xf4 ∧ 0x80 ≤ b.toNat ∧ b.toNat ≤ 0x8f) ∨
      (0xf1 ≤ a.toNat ∧ a.toNat ≤ 0xf3 ∧ 0x80 ≤ b.toNat ∧ b.toNat ≤ 0xbf) := by
  unfold startsFour
  simp only [beq_iff_eq, ← UInt8.toNat_inj]
  split
  · next ha =>
    simp [UInt8.le_iff_toNat_le, ha]
  · next ha =>
    split
    · next ha' =>
      simp [UInt8.le_iff_toNat_le, ha']
    · next ha' =>
      simp only [Bool.and_eq_true, decide_eq_true_eq, isContinuation_iff, UInt8.le_iff_toNat_le]
      simp only [UInt8.reduceToNat] at ha ha' ⊢
      omega

theorem toUInt8_eq {n : Nat} {b : UInt8} (h : n = b.toNat) : n.toUInt8 = b := by
  rw [h]
  simp

theorem utf8Char_ofNat_one {a : UInt8} (h : a < 0x80) : utf8Char (Char.ofNat a.toNat) = [a] := by
  rw [UInt8.lt_iff_toNat_lt] at h
  simp only [UInt8.reduceToNat] at h
  unfold utf8Char
  rw [toNat_ofNat (by omega)]
  dsimp only
  rw [if_pos h, toUInt8_eq rfl]

theorem utf8Char_ofNat_two {a b : UInt8}
    (h : (decide (0xc2 ≤ a) && decide (a ≤ 0xdf) && isContinuation b) = true) :
    utf8Char (Char.ofNat (a.toNat % 32 * 64 + payload b)) = [a, b] := by
  rw [startsTwo_iff] at h
  unfold utf8Char payload
  rw [toNat_ofNat (by omega)]
  dsimp only
  rw [if_neg (by omega), if_pos (by omega)]
  rw [toUInt8_eq (b := a) (by omega), toUInt8_eq (b := b) (by omega)]

theorem utf8Char_ofNat_three {a b c : UInt8} (h : (startsThree a b && isContinuation c) = true) :
    utf8Char (Char.ofNat ((a.toNat % 16 * 64 + payload b) * 64 + payload c)) = [a, b, c] := by
  rw [Bool.and_eq_true, startsThree_iff, isContinuation_iff] at h
  unfold utf8Char payload
  rw [toNat_ofNat (by omega)]
  dsimp only
  rw [if_neg (by omega), if_neg (by omega), if_pos (by omega)]
  rw [toUInt8_eq (b := a) (by omega), toUInt8_eq (b := b) (by omega),
    toUInt8_eq (b := c) (by omega)]

theorem utf8Char_ofNat_four {a b c d : UInt8}
    (h : (startsFour a b && isContinuation c && isContinuation d) = true) :
    utf8Char (Char.ofNat (((a.toNat % 8 * 64 + payload b) * 64 + payload c) * 64 + payload d)) =
      [a, b, c, d] := by
  rw [Bool.and_eq_true, Bool.and_eq_true, startsFour_iff, isContinuation_iff,
    isContinuation_iff] at h
  unfold utf8Char payload
  rw [toNat_ofNat (by omega)]
  dsimp only
  rw [if_neg (by omega), if_neg (by omega), if_neg (by omega)]
  rw [toUInt8_eq (b := a) (by omega), toUInt8_eq (b := b) (by omega),
    toUInt8_eq (b := c) (by omega), toUInt8_eq (b := d) (by omega)]

theorem flatMap_bytes_pieces (bytes : List UInt8) :
    (pieces bytes).flatMap Piece.bytes = bytes := by
  fun_induction pieces bytes with
  | case1 => rfl
  | case2 a r h ih => rw [List.flatMap_cons, ih, Piece.bytes, utf8Char_ofNat_one h]; rfl
  | case3 => rfl
  | case4 a _ b r h ih => rw [List.flatMap_cons, ih, Piece.bytes, utf8Char_ofNat_two h]; rfl
  | case5 a _ b _ ih => rw [List.flatMap_cons, ih]; rfl
  | case6 a _ b _ c r h ih => rw [List.flatMap_cons, ih, Piece.bytes, utf8Char_ofNat_three h]; rfl
  | case7 a _ b _ c _ ih => rw [List.flatMap_cons, ih]; rfl
  | case8 a _ b _ c _ d r h ih =>
    rw [List.flatMap_cons, ih, Piece.bytes, utf8Char_ofNat_four h]
    rfl
  | case9 a _ b _ c _ d r _ ih => rw [List.flatMap_cons, ih]; rfl

theorem not_lt_of_le {a : UInt8} (h : 0x80 ≤ a.toNat) : ¬a < 0x80 := by
  rw [UInt8.lt_iff_toNat_lt]
  simp only [UInt8.reduceToNat]
  omega

theorem pieces_one {a : UInt8} (h : a < 0x80) (r : List UInt8) :
    pieces (a :: r) = .char (Char.ofNat a.toNat) :: pieces r := by
  rw [pieces.eq_def]
  dsimp only
  rw [if_pos h]

theorem pieces_two {a b : UInt8}
    (h : (decide (0xc2 ≤ a) && decide (a ≤ 0xdf) && isContinuation b) = true) (r : List UInt8) :
    pieces (a :: b :: r) = .char (Char.ofNat (a.toNat % 32 * 64 + payload b)) :: pieces r := by
  have ha := startsTwo_iff.1 h
  rw [pieces.eq_def]
  dsimp only
  rw [if_neg (not_lt_of_le (by omega))]
  rw [if_pos h]

theorem pieces_three {a b c : UInt8} (h : (startsThree a b && isContinuation c) = true)
    (r : List UInt8) :
    pieces (a :: b :: c :: r) =
      .char (Char.ofNat ((a.toNat % 16 * 64 + payload b) * 64 + payload c)) :: pieces r := by
  have ha := h
  rw [Bool.and_eq_true, startsThree_iff] at ha
  rw [pieces.eq_def]
  dsimp only
  rw [if_neg (not_lt_of_le (by omega))]
  rw [if_neg (by rw [startsTwo_iff]; omega)]
  rw [if_pos h]

theorem pieces_four {a b c d : UInt8}
    (h : (startsFour a b && isContinuation c && isContinuation d) = true) (r : List UInt8) :
    pieces (a :: b :: c :: d :: r) =
      .char (Char.ofNat (((a.toNat % 8 * 64 + payload b) * 64 + payload c) * 64 + payload d)) ::
        pieces r := by
  have ha := h
  rw [Bool.and_eq_true, Bool.and_eq_true, startsFour_iff] at ha
  rw [pieces.eq_def]
  dsimp only
  rw [if_neg (not_lt_of_le (by omega))]
  rw [if_neg (by rw [startsTwo_iff]; omega)]
  rw [if_neg (by rw [Bool.and_eq_true, startsThree_iff]; omega)]
  rw [if_pos h]

theorem toNat_toUInt8 {n : Nat} (h : n < 256) : n.toUInt8.toNat = n := by
  simp only [Nat.toUInt8_eq, UInt8.toNat_ofNat']
  omega

theorem pieces_utf8Char (c : Char) (rest : List UInt8) :
    pieces (utf8Char c ++ rest) = .char c :: pieces rest := by
  have hvalid := toNat_lt c
  have hchar : Char.ofNat c.toNat = c := Char.ofNat_toNat c
  unfold utf8Char
  dsimp only
  generalize c.toNat = n at hvalid hchar ⊢
  subst hchar
  by_cases hone : n < 0x80
  · rw [if_pos hone, List.cons_append, List.nil_append, pieces_one]
    · rw [toNat_toUInt8 (by omega)]
    · rw [UInt8.lt_iff_toNat_lt, toNat_toUInt8 (by omega)]
      exact hone
  · rw [if_neg hone]
    by_cases htwo : n < 0x800
    · rw [if_pos htwo, List.cons_append, List.cons_append, List.nil_append, pieces_two]
      · unfold payload
        rw [toNat_toUInt8 (by omega), toNat_toUInt8 (by omega)]
        congr 3
        omega
      · rw [startsTwo_iff, toNat_toUInt8 (by omega), toNat_toUInt8 (by omega)]
        omega
    · rw [if_neg htwo]
      by_cases hthree : n < 0x10000
      · rw [if_pos hthree, List.cons_append, List.cons_append, List.cons_append, List.nil_append,
          pieces_three]
        · unfold payload
          rw [toNat_toUInt8 (by omega), toNat_toUInt8 (by omega), toNat_toUInt8 (by omega)]
          congr 3
          omega
        · rw [Bool.and_eq_true, startsThree_iff, isContinuation_iff, toNat_toUInt8 (by omega),
            toNat_toUInt8 (by omega), toNat_toUInt8 (by omega)]
          omega
      · rw [if_neg hthree, List.cons_append, List.cons_append, List.cons_append, List.cons_append,
          List.nil_append, pieces_four]
        · unfold payload
          rw [toNat_toUInt8 (by omega), toNat_toUInt8 (by omega), toNat_toUInt8 (by omega),
            toNat_toUInt8 (by omega)]
          congr 3
          omega
        · rw [Bool.and_eq_true, Bool.and_eq_true, startsFour_iff, isContinuation_iff,
            isContinuation_iff, toNat_toUInt8 (by omega), toNat_toUInt8 (by omega),
            toNat_toUInt8 (by omega), toNat_toUInt8 (by omega)]
          omega

theorem pieces_flatMap_utf8Char (cs : List Char) :
    pieces (cs.flatMap utf8Char) = cs.map .char := by
  induction cs with
  | nil => rfl
  | cons c cs ih => rw [List.flatMap_cons, pieces_utf8Char, ih, List.map_cons]

theorem flatMap_bytes_of_all_isChar {ps : List Piece} (h : ps.all Piece.isChar = true) :
    ps.flatMap Piece.bytes = (ps.map Piece.toChar).flatMap utf8Char := by
  induction ps with
  | nil => rfl
  | cons p ps ih =>
    rw [List.all_cons, Bool.and_eq_true] at h
    rw [List.flatMap_cons, List.map_cons, List.flatMap_cons, ih h.2]
    cases p with
    | char c => rfl
    | stray b => simp [Piece.isChar] at h

theorem isUtf8_iff {bytes : List UInt8} :
    isUtf8 bytes = true ↔ bytes.toByteArray.IsValidUTF8 := by
  constructor
  · intro h
    refine ⟨(pieces bytes).map Piece.toChar, ?_⟩
    have hbytes := flatMap_bytes_pieces bytes
    rw [flatMap_bytes_of_all_isChar h] at hbytes
    unfold List.utf8Encode
    rw [← funext utf8Char_eq, hbytes]
  · rintro ⟨cs, hcs⟩
    have hbytes : bytes = cs.flatMap utf8Char := by
      unfold List.utf8Encode at hcs
      rw [← funext utf8Char_eq] at hcs
      simpa using congrArg (fun b => b.data.toList) hcs
    unfold isUtf8
    rw [hbytes, pieces_flatMap_utf8Char, List.all_map]
    apply List.all_eq_true.2
    intro c _
    rfl

end RecordCodec.Text
