import RecordCodec.Number.Float
import RecordCodec.Proofs.Source.Lexing

/-!
This module contains what is read as a number: always one of the wanted size, and the number itself
if the text is its decimal.
-/

namespace RecordCodec.Number

/-! What is read is in range. -/

theorem accumulate_le {base limit n m : Nat} {cs : List Char} (hn : n ≤ limit)
    (h : accumulate base limit n cs = .ok m) : m ≤ limit := by
  fun_induction accumulate base limit n cs with
  | case1 n =>
    cases h
    exact hn
  | case2 n cs ih => exact ih hn h
  | case6 n c cs _ d _ _ hle ih => exact ih (Nat.le_of_not_lt hle) h
  | _ => cases h

theorem readUnsigned_eq {cs : List Char} (h : cs ≠ []) (bits : Nat) :
    readUnsigned bits cs = accumulate (splitBase cs).1 (Nat.pow 2 bits - 1) 0 (splitBase cs).2 >>=
      fun n => if (splitBase cs).2.contains '_' && !underscoresFit cs then .error .malformed
        else .ok n := by
  unfold readUnsigned
  dsimp only
  rw [if_neg (by simpa using h)]
  congr 1

theorem readUnsigned_lt {bits n : Nat} {cs : List Char} (h : readUnsigned bits cs = .ok n) :
    n < Nat.pow 2 bits := by
  have hpos : 0 < Nat.pow 2 bits := Nat.pow_pos (by decide)
  by_cases hempty : cs = []
  · rw [hempty] at h
    cases h
  · rw [readUnsigned_eq hempty] at h
    cases hn : accumulate (splitBase cs).1 (Nat.pow 2 bits - 1) 0 (splitBase cs).2 with
    | error e =>
      rw [hn] at h
      cases h
    | ok m =>
      have hle := accumulate_le (Nat.zero_le _) hn
      rw [hn] at h
      change (if _ then Except.error ReadError.malformed else Except.ok m) = _ at h
      split at h
      · cases h
      · cases h
        omega

namespace FloatFormat

theorem nearest?_lt {f : FloatFormat} {num den bits : Nat} (h : f.nearest? num den = some bits) :
    bits < f.infinity ∨ bits = 0 := by
  unfold nearest? at h
  split at h
  · cases h
    exact .inr rfl
  · dsimp only at h
    split at h
    · next hlt =>
      cases h
      exact .inl hlt
    · cases h

theorem infinity_lt (f : FloatFormat) : f.infinity < f.signBit := by
  have hexponent : 0 < Nat.pow 2 f.exponentBits := Nat.pow_pos (by decide)
  have hmantissa : 0 < Nat.pow 2 f.mantissaBits := Nat.pow_pos (by decide)
  have hsign : f.signBit = Nat.pow 2 f.exponentBits * Nat.pow 2 f.mantissaBits := by
    rw [signBit, Nat.add_comm]
    exact Nat.pow_add 2 _ _
  rw [hsign]
  exact Nat.mul_lt_mul_of_pos_right (by omega) hmantissa

end FloatFormat

theorem Numeral.nearest?_lt {f : FloatFormat} {x : Numeral} {bits : Nat}
    (h : x.nearest? f = some bits) : bits < f.signBit := by
  have hinfinity := f.infinity_lt
  have hzero : bits < f.infinity ∨ bits = 0 := by
    unfold nearest? at h
    split at h
    · cases h
      exact .inr rfl
    · dsimp only at h
      split at h
      · cases h
      · split at h
        · cases h
          exact .inr rfl
        · exact FloatFormat.nearest?_lt h
  omega

theorem readFloat_lt {f : FloatFormat} (hf : f = .single ∨ f = .double) {cs : List Char} {bits : Nat}
    (h : readFloat f cs = .ok bits) : bits < 2 * f.signBit := by
  unfold readFloat at h
  split at h
  · next bits' hnamed =>
    cases h
    have hvalues : bits ∈ [f.infinity, f.signBit + f.infinity, f.notANumber, f.notANumber + 1] := by
      unfold readNamed? at hnamed
      dsimp only at hnamed
      split at hnamed
      · cases hnamed
        split <;> simp
      · split at hnamed
        · cases hnamed
          split <;> simp
        · cases hnamed
    have hall : ∀ x ∈ [f.infinity, f.signBit + f.infinity, f.notANumber, f.notANumber + 1],
        x < 2 * f.signBit := by
      rcases hf with rfl | rfl
      · decide
      · decide
    exact hall bits hvalues
  · dsimp only at h
    split at h
    · cases h
    · split at h
      · cases h
      · split at h
        · cases h
        · next x _ _ _ bits' hnearest =>
          have hlt := Numeral.nearest?_lt hnearest
          cases h
          split
          · omega
          · omega

/-! Decimals. -/

theorem accumulate_cons {c : Char} {d : Nat} (hc : c ≠ '_')
    (hd : accumulate.letterValue? c = some d) (base limit n : Nat) (cs : List Char) :
    accumulate base limit n (c :: cs) =
      if base ≤ d then .error .malformed
      else if limit < n * base + d then .error .outOfRange
      else accumulate base limit (n * base + d) cs := by
  rw [accumulate]
  · rw [hd]
  · exact hc

theorem accumulate_append (base limit n : Nat) (xs ys : List Char) :
    accumulate base limit n (xs ++ ys) =
      accumulate base limit n xs >>= fun m => accumulate base limit m ys := by
  fun_induction accumulate base limit n xs with
  | case1 n => rfl
  | case2 n cs ih =>
    rw [List.cons_append, accumulate]
    exact ih
  | case3 n c cs hc hnone =>
    rw [List.cons_append, accumulate]
    · rw [hnone]
      rfl
    · exact hc
  | case4 n c cs hc d hd hle =>
    rw [List.cons_append, accumulate_cons hc hd, if_pos hle]
    rfl
  | case5 n c cs hc d hd hle hlt =>
    rw [List.cons_append, accumulate_cons hc hd, if_neg hle, if_pos hlt]
    rfl
  | case6 n c cs hc d hd hle hlt ih =>
    rw [List.cons_append, accumulate_cons hc hd, if_neg hle, if_neg hlt]
    exact ih

theorem letterValue?_digitChar {d : Nat} (h : d < 10) :
    accumulate.letterValue? d.digitChar = some d ∧ d.digitChar ≠ '_' := by
  revert d
  decide

theorem accumulate_digitChar {d : Nat} (h : d < 10) (limit n : Nat) :
    accumulate 10 limit n [d.digitChar] =
      if limit < n * 10 + d then .error .outOfRange else .ok (n * 10 + d) := by
  obtain ⟨hd, hne⟩ := letterValue?_digitChar h
  rw [accumulate_cons hne hd, if_neg (by omega)]
  rfl

theorem accumulate_toDigits (limit n : Nat) :
    accumulate 10 limit 0 (Nat.toDigits 10 n) =
      if n ≤ limit then .ok n else .error .outOfRange := by
  induction n using Nat.strongRecOn with
  | ind n ih =>
    rw [Nat.toDigits_eq_if (by decide)]
    split
    · next hlt =>
      rw [accumulate_digitChar hlt]
      simp only [Nat.zero_mul, Nat.zero_add, ← Nat.not_le, ite_not]
    · rw [accumulate_append, ih (n / 10) (by omega)]
      by_cases hle : n / 10 ≤ limit
      · rw [if_pos hle]
        show accumulate 10 limit (n / 10) [_] = _
        rw [accumulate_digitChar (by omega), Nat.div_add_mod']
        simp only [← Nat.not_le, ite_not]
      · rw [if_neg hle, if_neg (by omega)]
        rfl

theorem isDigit_of_mem_decimal {n : Nat} {c : Char} (h : c ∈ Nat.toDigits 10 n) : c.isDigit = true :=
  Nat.isDigit_of_mem_toDigits (by decide) (by decide) h

theorem not_mem_decimal {n : Nat} {c : Char} (h : c.isDigit = false) : c ∉ Nat.toDigits 10 n := by
  intro hc
  rw [isDigit_of_mem_decimal hc] at h
  cases h

theorem splitBase_toDigits {n : Nat} (h : 0 < n) :
    splitBase (Nat.toDigits 10 n) = (10, Nat.toDigits 10 n) := by
  have hhead := Source.head_toDigits_ne h
  generalize Nat.toDigits 10 n = ds at hhead
  unfold splitBase
  split
  · simp at hhead
  · simp at hhead
  · rfl

theorem splitSign_toDigits (n : Nat) :
    splitSign (Nat.toDigits 10 n) = (false, Nat.toDigits 10 n) := by
  have hminus : '-' ∉ Nat.toDigits 10 n := not_mem_decimal rfl
  have hplus : '+' ∉ Nat.toDigits 10 n := not_mem_decimal rfl
  generalize Nat.toDigits 10 n = ds at hminus hplus
  unfold splitSign
  split
  · simp at hminus
  · simp at hplus
  · rfl

theorem readUnsigned_toDigits (bits n : Nat) :
    readUnsigned bits (Nat.toDigits 10 n) =
      if n < Nat.pow 2 bits then .ok n else .error .outOfRange := by
  have hlimit : 0 < Nat.pow 2 bits := Nat.pow_pos (by decide)
  by_cases hpos : 0 < n
  · have hdivided : (Nat.toDigits 10 n).contains '_' = false := by
      rw [← Bool.not_eq_true, List.contains_iff_mem]
      exact not_mem_decimal rfl
    rw [readUnsigned_eq Nat.toDigits_ne_nil, splitBase_toDigits hpos, accumulate_toDigits]
    dsimp only
    rw [hdivided]
    by_cases hlt : n < Nat.pow 2 bits
    · rw [if_pos hlt, if_pos (by omega)]
      rfl
    · rw [if_neg hlt, if_neg (by omega)]
      rfl
  · rw [show n = 0 by omega, if_pos hlimit]
    rfl

theorem readUnsigned_minus (bits : Nat) (cs : List Char) :
    readUnsigned bits ('-' :: cs) = .error .malformed := by
  rw [readUnsigned_eq (List.cons_ne_nil _ _)]
  show accumulate 10 _ 0 ('-' :: cs) >>= _ = _
  rw [accumulate]
  · rfl
  · decide

theorem toList_toString_int (n : Int) :
    (toString n).toList =
      if n < 0 then '-' :: Nat.toDigits 10 n.natAbs else Nat.toDigits 10 n.natAbs := by
  cases n with
  | ofNat m =>
    have hpos : ¬ Int.ofNat m < 0 := Int.not_lt.2 (Int.natCast_nonneg m)
    rw [if_neg hpos]
    exact String.toList_ofList
  | negSucc m =>
    rw [if_pos (Int.negSucc_lt_zero m)]
    show ("-" ++ String.ofList (Nat.toDigits 10 (m + 1))).toList = _
    rw [String.toList_append, String.toList_ofList (l := Nat.toDigits 10 (m + 1))]
    rfl

theorem readSigned_decimal {bits : Nat} (hbits : 0 < bits) (n : Int) :
    readSigned bits (toString n).toList =
      if -(Nat.pow 2 (bits - 1) : Nat) ≤ n ∧ n < (Nat.pow 2 (bits - 1) : Nat) then .ok n
      else .error .outOfRange := by
  have hdouble : Nat.pow 2 bits = 2 * Nat.pow 2 (bits - 1) := by
    obtain ⟨k, rfl⟩ : ∃ k, bits = k + 1 := ⟨bits - 1, by omega⟩
    exact Nat.pow_succ'
  have hsplit : splitSign (toString n).toList = (decide (n < 0), Nat.toDigits 10 n.natAbs) := by
    rw [toList_toString_int]
    by_cases hneg : n < 0
    · rw [if_pos hneg, decide_eq_true hneg]
      rfl
    · rw [if_neg hneg, decide_eq_false hneg]
      exact splitSign_toDigits _
  unfold readSigned
  rw [hsplit]
  dsimp only
  rw [readUnsigned_toDigits]
  by_cases hlt : n.natAbs < Nat.pow 2 bits
  · rw [if_pos hlt]
    dsimp only
    by_cases hneg : n < 0
    · rw [if_pos (decide_eq_true hneg)]
      by_cases hhalf : Nat.pow 2 (bits - 1) < n.natAbs
      · rw [if_pos hhalf, if_neg (by omega)]
      · rw [if_neg hhalf, if_pos (by omega), show -(n.natAbs : Int) = n by omega]
    · rw [if_neg (by simpa using hneg)]
      by_cases hhalf : Nat.pow 2 (bits - 1) ≤ n.natAbs
      · rw [if_pos hhalf, if_neg (by omega)]
      · rw [if_neg hhalf, if_pos (by omega), show (n.natAbs : Int) = n by omega]
  · rw [if_neg hlt, if_neg (by omega)]

end RecordCodec.Number
