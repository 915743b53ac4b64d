import RecordCodec.Layout

/-!
This module contains the padding in 64 bit words. Masking the negated number of bytes gives the
remainder of the negated number, also if bytes were counted below zero or past the last word, and so
the least padding.
-/

namespace RecordCodec

namespace Layout

def Aligns (used width pad : Int64) : Prop :=
  0 ≤ pad ∧ ∃ count : Int64, used + pad = count * width

theorem bmod_emod_of_dvd {m : Nat} {w : Int} (h : w ∣ m) (n : Int) : n.bmod m % w = n % w := by
  rw [← Int.emod_emod_of_dvd _ h, Int.bmod_emod, Int.emod_emod_of_dvd _ h]

section

variable {width : Int64}

theorem toInt_pos (hwidth : width.toNatClampNeg.isPowerOfTwo) : 0 < width.toInt := by
  have hpos := Nat.pos_of_isPowerOfTwo hwidth
  unfold Int64.toNatClampNeg at hpos
  omega

theorem toNat_width (hwidth : width.toNatClampNeg.isPowerOfTwo) :
    width.toBitVec.toNat = width.toNatClampNeg := by
  have hpos := toInt_pos hwidth
  unfold Int64.toNatClampNeg
  rw [← Int64.toInt_toBitVec, BitVec.toInt_eq_toNat_cond] at hpos ⊢
  split at hpos
  · omega
  · have hlt := width.toBitVec.isLt
    omega

theorem width_dvd_size (hwidth : width.toNatClampNeg.isPowerOfTwo) :
    width.toNatClampNeg ∣ Int64.size := by
  obtain ⟨k, hk⟩ := hwidth
  have hlt : 2 ^ k < 2 ^ 64 := by
    have := width.toInt_lt
    unfold Int64.toNatClampNeg at hk
    omega
  rw [hk]
  exact Nat.pow_dvd_pow 2 (Nat.le_of_lt ((Nat.pow_lt_pow_iff_right (by decide)).1 hlt))

theorem bmod_emod_width (hwidth : width.toNatClampNeg.isPowerOfTwo) (n : Int) :
    n.bmod Int64.size % width.toInt = n % width.toInt := by
  apply bmod_emod_of_dvd
  rw [← Int.toNat_of_nonneg (Int.le_of_lt (toInt_pos hwidth))]
  exact Int.natCast_dvd_natCast.2 (width_dvd_size hwidth)

theorem toNat_alignPad (used : Int64) (hwidth : width.toNatClampNeg.isPowerOfTwo) :
    (alignPad used width).toBitVec.toNat = (-used).toBitVec.toNat % width.toNatClampNeg := by
  have hmask : (width - 1).toBitVec.toNat = width.toNatClampNeg - 1 := by
    rw [Int64.toBitVec_sub, BitVec.toNat_sub_of_le, toNat_width hwidth]
    · rfl
    · rw [BitVec.le_def, toNat_width hwidth]
      exact Nat.pos_of_isPowerOfTwo hwidth
  obtain ⟨k, hk⟩ := hwidth
  rw [alignPad, Int64.toBitVec_and, BitVec.toNat_and, hmask, hk, Nat.and_two_pow_sub_one_eq_mod]

theorem toInt_alignPad (used : Int64) (hwidth : width.toNatClampNeg.isPowerOfTwo) :
    (alignPad used width).toInt = -used.toInt % width.toInt := by
  have hwidthInt := Int.toNat_of_nonneg (Int.le_of_lt (toInt_pos hwidth))
  have hlt := width.toInt_lt
  have hmod := Nat.mod_lt (-used).toBitVec.toNat (Nat.pos_of_isPowerOfTwo hwidth)
  have hnat := toNat_alignPad used hwidth
  unfold Int64.toNatClampNeg at hmod hnat
  calc (alignPad used width).toInt
      = (alignPad used width).toBitVec.toNat := by
        rw [← Int64.toInt_toBitVec, BitVec.toInt_eq_toNat_of_lt]
        omega
    _ = (-used).toBitVec.toNat % width.toInt := by
        rw [hnat, Int.natCast_emod, hwidthInt]
    _ = (-used).toInt % width.toInt := by
        rw [← Int64.toInt_toBitVec (-used), BitVec.toInt_eq_toNat_bmod]
        exact (bmod_emod_width hwidth _).symm
    _ = -used.toInt % width.toInt := by
        rw [Int64.toInt_neg]
        exact bmod_emod_width hwidth _

theorem aligns_iff (used pad : Int64) (hwidth : width.toNatClampNeg.isPowerOfTwo) :
    Aligns used width pad ↔ 0 ≤ pad.toInt ∧ width.toInt ∣ used.toInt + pad.toInt := by
  have hsum : (used + pad).toInt % width.toInt = (used.toInt + pad.toInt) % width.toInt := by
    rw [Int64.toInt_add]
    exact bmod_emod_width hwidth _
  rw [Aligns, Int64.le_iff_toInt_le, Int64.toInt_zero, Int.dvd_iff_emod_eq_zero, ← hsum]
  refine and_congr_right fun _ => ?_
  constructor
  · rintro ⟨count, hcount⟩
    rw [hcount, Int64.toInt_mul]
    exact (bmod_emod_width hwidth _).trans (Int.mul_emod_left ..)
  · intro hzero
    obtain ⟨q, hq⟩ := Int.dvd_of_emod_eq_zero hzero
    refine ⟨Int64.ofInt q, ?_⟩
    rw [← Int64.ofInt_toInt (used + pad), hq, Int.mul_comm, Int64.ofInt_mul, Int64.ofInt_toInt]

theorem alignPad_eq_iff (used other : Int64) (hwidth : width.toNatClampNeg.isPowerOfTwo) :
    alignPad used width = alignPad other width ↔
      used.toInt % width.toInt = other.toInt % width.toInt := by
  rw [← Int64.toInt_inj, toInt_alignPad used hwidth, toInt_alignPad other hwidth,
    Int.emod_eq_emod_iff_emod_sub_eq_zero, Int.emod_eq_emod_iff_emod_sub_eq_zero,
    ← Int.dvd_iff_emod_eq_zero, ← Int.dvd_iff_emod_eq_zero, ← Int.dvd_neg]
  rw [show -(-used.toInt - -other.toInt) = used.toInt - other.toInt by omega]

theorem toInt_alignPad_ofNat {used w : Nat} (hused : (Int64.ofNat used).toInt = used)
    (hw : (Int64.ofNat w).toInt = w) (hpower : w.isPowerOfTwo) :
    (alignPad (Int64.ofNat used) (Int64.ofNat w)).toInt = padding used w := by
  have hmod := Nat.mod_lt used (Nat.pos_of_isPowerOfTwo hpower)
  have hwidth : (Int64.ofNat w).toNatClampNeg = w := by
    rw [← Int64.toNat_toInt, hw, Int.toNat_natCast]
  rw [toInt_alignPad _ (by rwa [hwidth]), hw, hused, padding, Int.neg_emod_eq_sub_emod,
    Int.natCast_emod, Int.ofNat_sub (Nat.le_of_lt hmod), Int.natCast_emod, Int.sub_emod_emod]

end

theorem alignPad_isLeast (used width : Int64) (hwidth : width.toNatClampNeg.isPowerOfTwo) :
    alignPad used width < width ∧ Aligns used width (alignPad used width) ∧
      (∀ pad : Int64, Aligns used width pad → alignPad used width ≤ pad) ∧
      ∀ other : Int64, alignPad used width = alignPad other width ↔
        used.toInt % width.toInt = other.toInt % width.toInt := by
  have hpos := toInt_pos hwidth
  have hpad := toInt_alignPad used hwidth
  refine ⟨?_, ?_, ?_, fun other => alignPad_eq_iff used other hwidth⟩
  · rw [Int64.lt_iff_toInt_lt, hpad]
    exact Int.emod_lt_of_pos _ hpos
  · rw [aligns_iff used _ hwidth, hpad]
    refine ⟨Int.emod_nonneg _ (Int.ne_of_gt hpos), -(-used.toInt / width.toInt), ?_⟩
    have hdivision := Int.emod_add_mul_ediv (-used.toInt) width.toInt
    rw [Int.mul_neg]
    omega
  · intro pad haligns
    obtain ⟨hnonneg, count, hcount⟩ := (aligns_iff used pad hwidth).1 haligns
    have hneg : -used.toInt = pad.toInt - width.toInt * count := by omega
    have hdivision := Int.emod_add_mul_ediv pad.toInt width.toInt
    have hquotient : 0 ≤ pad.toInt / width.toInt := Int.ediv_nonneg hnonneg (Int.le_of_lt hpos)
    have hproduct := Int.mul_nonneg (Int.le_of_lt hpos) hquotient
    rw [Int64.le_iff_toInt_le, hpad, hneg, Int.sub_mul_emod_self_left]
    omega

theorem alignPad_isLeast_minValue :
    let used := Int64.minValue + 5
    let width := Int64.ofInt 0x4000000000000000
    let pad := Int64.ofInt 0x3ffffffffffffffb
    width.toNatClampNeg.isPowerOfTwo ∧ alignPad used width = pad ∧ Aligns used width pad ∧
      ∀ other : Int64, Aligns used width other → pad ≤ other := by
  intro used width pad
  have hwidth : width.toNatClampNeg.isPowerOfTwo := ⟨62, by decide⟩
  have hpad : alignPad used width = pad := by decide
  have hleast := alignPad_isLeast used width hwidth
  rw [hpad] at hleast
  exact ⟨hwidth, hpad, hleast.2.1, hleast.2.2.1⟩

end Layout

end RecordCodec
