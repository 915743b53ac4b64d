import RecordCodec.Naming
import RecordCodec.Proofs.Text.Parts

/-!
This module contains which characters names consist of. Upper case forms of letters are letters, so
the exported name of an identifier is an identifier.
-/

namespace RecordCodec

open RecordCodec.Text

namespace Text

/-! Tables. -/

theorem Span.bounds_of_holds {s : Span} {n : Nat} (h : s.holds n = true) : s.lo ≤ n ∧ n ≤ s.hi := by
  simp only [holds, Bool.and_eq_true, decide_eq_true_eq] at h
  exact h.1

def Span.isProper (s : Span) : Bool :=
  (s.hi < 0xd800 || 0xdfff < s.lo && s.hi < 0x110000) &&
    (128 ≤ s.lo || 0x41 ≤ s.lo && s.hi ≤ 0x5a || 0x61 ≤ s.lo && s.hi ≤ 0x7a)

theorem of_ascii (p : Char → Prop) (hall : ∀ n < 128, p (Char.ofNat n)) {c : Char}
    (hc : c.toNat < 128) : p c :=
  Char.ofNat_toNat c ▸ hall c.toNat hc

theorem toNat_ofNat_or (n : Nat) : (Char.ofNat n).toNat = n ∨ (Char.ofNat n).toNat = 0 := by
  by_cases hvalid : n.isValidChar
  · rw [Char.ofNat, dif_pos hvalid]
    exact .inl rfl
  · rw [Char.ofNat, dif_neg hvalid]
    exact .inr rfl

theorem shiftBy_eq_or (shifts : List Shift) (c : Char) : shiftBy shifts c = c ∨
    ∃ s ∈ shifts, s.span.holds c.toNat = true ∧
      shiftBy shifts c = Char.ofNat (c.toNat + s.delta).toNat := by
  unfold shiftBy
  cases hfind : shifts.find? (·.span.holds c.toNat) with
  | none => exact .inl rfl
  | some s =>
    have hholds := List.find?_some (p := fun s : Shift => s.span.holds c.toNat) hfind
    exact .inr ⟨s, List.mem_of_find?_eq_some hfind, hholds, rfl⟩

theorem isProper_letterSpans : letterSpans.all Span.isProper = true := by decide +kernel

theorem isLetter_ofNat {n : Nat} {s : Span} (hs : s ∈ letterSpans) (hn : s.holds n = true) :
    isLetter (Char.ofNat n) = true := by
  have hproper := List.all_eq_true.1 isProper_letterSpans s hs
  have hbounds := Span.bounds_of_holds hn
  simp only [Span.isProper, Bool.and_eq_true, Bool.or_eq_true, decide_eq_true_eq] at hproper
  have hvalid : n.isValidChar := by
    unfold Nat.isValidChar
    omega
  have htoNat : (Char.ofNat n).toNat = n := by
    rw [Char.ofNat, dif_pos hvalid]
    rfl
  unfold isLetter
  rw [htoNat]
  split
  · next hascii =>
    have hall : ∀ n < 128, 0x41 ≤ n ∧ n ≤ 0x5a ∨ 0x61 ≤ n ∧ n ≤ 0x7a →
        (Char.ofNat n).isAlpha = true := by decide
    apply hall n hascii
    omega
  · unfold inSpans
    rw [htoNat]
    exact List.any_eq_true.2 ⟨s, hs, hn⟩

def Shift.movesToSpan (s : Shift) : Bool :=
  letterSpans.any fun t => (s.hi + s.delta).toNat.ble t.hi && t.lo.ble (s.lo + s.delta).toNat &&
    t.step == 1

def Shift.movesToLetters (s : Shift) : Bool :=
  (List.range (s.hi - s.lo + 1)).all fun k => !s.span.holds (s.lo + k) ||
    letterSpans.any (·.holds ((s.lo + k : Nat) + s.delta).toNat)

def Shift.movesOthers (s : Shift) : Bool :=
  (letterSpans ++ digitSpans).all fun t => t.hi.blt s.lo || s.hi.blt t.lo

-- The first test decides about nearly all shifts, and the other two would take much longer.
theorem upperShifts_keep_names :
    (upperShifts.all fun s => s.movesToSpan || s.movesOthers || s.movesToLetters) = true := by
  decide +kernel

def movesPast (shifts : List Shift) : Bool :=
  shifts.all fun s => 95 < s.lo + s.delta

theorem movesPast_lowerShifts : movesPast lowerShifts = true := by decide +kernel

theorem shiftBy_ne {shifts : List Shift} (h : movesPast shifts = true) {c d : Char}
    (hd : 0 < d.toNat ∧ d.toNat ≤ 95) (hc : c ≠ d) : shiftBy shifts c ≠ d := by
  rcases shiftBy_eq_or shifts c with heq | ⟨s, hs, hholds, heq⟩
  · rwa [heq]
  · have hbounds : s.lo ≤ c.toNat ∧ c.toNat ≤ s.hi := Span.bounds_of_holds hholds
    have hpast := of_decide_eq_true (List.all_eq_true.1 h s hs)
    have hcode := toNat_ofNat_or (c.toNat + s.delta).toNat
    rw [heq]
    rintro rfl
    omega

end Text

namespace Naming

def isNameChar (c : Char) : Bool :=
  isIdentifier.starts c || isDigit c

theorem isIdentifier_cons {name : String} {c : Char} {cs : List Char} (hname : name.toList = c :: cs)
    (h : isIdentifier name = true) :
    isIdentifier.starts c = true ∧ ∀ d ∈ cs, isNameChar d = true := by
  unfold isIdentifier at h
  rw [hname] at h
  dsimp only at h
  rw [Bool.and_eq_true, List.all_eq_true] at h
  exact h

theorem all_of_isIdentifier {name : String} (h : isIdentifier name = true) :
    name.toList ≠ [] ∧ ∀ c ∈ name.toList, isNameChar c = true := by
  cases hname : name.toList with
  | nil =>
    unfold isIdentifier at h
    rw [hname] at h
    contradiction
  | cons c cs =>
    obtain ⟨hc, hcs⟩ := isIdentifier_cons hname h
    refine ⟨by simp, ?_⟩
    intro d hd
    rcases List.mem_cons.1 hd with rfl | hd
    · unfold isNameChar
      rw [hc]
      rfl
    · exact hcs d hd

theorem ne_of_isNameChar {c d : Char} (hc : isNameChar c = true)
    (hd : isNameChar d = false) : c ≠ d := by
  rintro rfl
  rw [hc] at hd
  contradiction

theorem isNameChar_of_isLetter {c : Char} (h : isLetter c = true) : isNameChar c = true := by
  unfold isNameChar isIdentifier.starts
  rw [h, Bool.or_true]
  rfl

theorem Shift.not_holds_of_movesOthers {s : Shift} {n : Nat} (h : s.movesOthers = true)
    (hn : s.lo ≤ n ∧ n ≤ s.hi) {t : Span} (ht : t ∈ letterSpans ++ digitSpans) :
    t.holds n = false := by
  have hapart := List.all_eq_true.1 h t ht
  rw [Bool.or_eq_true, Nat.blt_eq, Nat.blt_eq] at hapart
  rw [← Bool.not_eq_true]
  intro hholds
  have := Span.bounds_of_holds hholds
  omega

theorem Shift.not_isNameChar_of_movesOthers {s : Shift} {c : Char} (h : s.movesOthers = true)
    (hascii : ¬ c.toNat < 128) (hc : s.lo ≤ c.toNat ∧ c.toNat ≤ s.hi) : isNameChar c = false := by
  have hletter : isLetter c = false := by
    unfold isLetter inSpans
    rw [if_neg hascii, List.any_eq_false]
    intro t ht
    rw [not_holds_of_movesOthers h hc (List.mem_append_left _ ht)]
    exact Bool.false_ne_true
  have hdigit : isDigit c = false := by
    unfold isDigit inSpans
    rw [if_neg hascii, List.any_eq_false]
    intro t ht
    rw [not_holds_of_movesOthers h hc (List.mem_append_right _ ht)]
    exact Bool.false_ne_true
  have hunderscore : c ≠ '_' := by
    rintro rfl
    exact hascii (by decide)
  unfold isNameChar isIdentifier.starts
  rw [hletter, hdigit, beq_false_of_ne hunderscore]
  rfl

theorem Shift.isLetter_of_movesToSpan {s : Shift} {n : Nat} (h : s.movesToSpan = true)
    (hn : s.lo ≤ n ∧ n ≤ s.hi) : isLetter (Char.ofNat (n + s.delta).toNat) = true := by
  obtain ⟨t, ht, hspan⟩ := List.any_eq_true.1 h
  simp only [Bool.and_eq_true, Nat.ble_eq, beq_iff_eq] at hspan
  apply isLetter_ofNat ht
  simp only [Span.holds, hspan.2, Nat.mod_one, beq_self_eq_true, Bool.and_true, Bool.and_eq_true,
    decide_eq_true_eq]
  omega

theorem Shift.isLetter_of_movesToLetters {s : Shift} {n : Nat} (h : s.movesToLetters = true)
    (hn : s.span.holds n = true) : isLetter (Char.ofNat (n + s.delta).toNat) = true := by
  have hbounds : s.lo ≤ n ∧ n ≤ s.hi := Span.bounds_of_holds hn
  have hmem : n - s.lo ∈ List.range (s.hi - s.lo + 1) := by
    rw [List.mem_range]
    omega
  have hletter := List.all_eq_true.1 h _ hmem
  rw [show s.lo + (n - s.lo) = n by omega, hn, Bool.not_true, Bool.false_or] at hletter
  obtain ⟨t, ht, hletter⟩ := List.any_eq_true.1 hletter
  exact isLetter_ofNat ht hletter

theorem isLetter_of_shift {c : Char} {s : Shift} (hc : isNameChar c = true)
    (hascii : ¬ c.toNat < 128) (hs : s ∈ upperShifts) (hholds : s.span.holds c.toNat = true) :
    isLetter (Char.ofNat (c.toNat + s.delta).toNat) = true := by
  have hbounds : s.lo ≤ c.toNat ∧ c.toNat ≤ s.hi := Span.bounds_of_holds hholds
  have hkeep := List.all_eq_true.1 upperShifts_keep_names s hs
  rw [Bool.or_eq_true, Bool.or_eq_true] at hkeep
  rcases hkeep with (hspan | hothers) | hletters
  · exact Shift.isLetter_of_movesToSpan hspan hbounds
  · rw [Shift.not_isNameChar_of_movesOthers hothers hascii hbounds] at hc
    contradiction
  · exact Shift.isLetter_of_movesToLetters hletters hholds

theorem isNameChar_toUpper {c : Char} (hc : isNameChar c = true) :
    isNameChar (toUpper c) = true := by
  unfold toUpper
  split
  · next hascii =>
    exact of_ascii (fun c => isNameChar c = true → isNameChar c.toUpper = true) (by decide) hascii hc
  · next hascii =>
    rcases shiftBy_eq_or upperShifts c with heq | ⟨s, hs, hholds, heq⟩
    · rwa [heq]
    · rw [heq]
      exact isNameChar_of_isLetter (isLetter_of_shift hc hascii hs hholds)

theorem mem_capitalize {word : List Char} {c : Char} (h : c ∈ capitalize word) :
    c ∈ word ∨ ∃ d ∈ word, c = toUpper d := by
  cases word with
  | nil => contradiction
  | cons d ds =>
    rcases List.mem_cons.1 h with rfl | h
    · exact .inr ⟨d, List.mem_cons_self .., rfl⟩
    · exact .inl (List.mem_cons_of_mem _ h)

theorem isIdentifier_exported {name : String} (h : isIdentifier name = true) :
    isIdentifier (exported name) = true := by
  obtain ⟨-, hname⟩ := all_of_isIdentifier h
  have hall : ∀ c ∈ (runs isSeparator name.toList).flatMap capitalize, isNameChar c = true := by
    intro c hc
    obtain ⟨run, hrun, hc⟩ := List.mem_flatMap.1 hc
    have hmem : ∀ d ∈ run, isNameChar d = true := by
      intro d hd
      exact hname d (mem_of_mem_splitAtAll (List.mem_filter.1 hrun).1 hd)
    rcases mem_capitalize hc with hc | ⟨d, hd, rfl⟩
    · exact hmem c hc
    · exact isNameChar_toUpper (hmem d hd)
  have hstarts : ∀ {c}, isLetter c = true → isIdentifier.starts c = true := by
    intro c hc
    unfold isIdentifier.starts
    rw [hc, Bool.or_true]
  unfold isIdentifier exported
  rw [String.toList_ofList]
  generalize (runs isSeparator name.toList).flatMap capitalize = cs at hall ⊢
  cases cs with
  | nil => decide
  | cons c cs =>
    dsimp only
    by_cases hc : isLetter c = true
    · rw [if_pos hc]
      dsimp only
      rw [hstarts hc, Bool.true_and, List.all_eq_true]
      intro d hd
      exact hall d (List.mem_cons_of_mem _ hd)
    · rw [if_neg hc]
      dsimp only
      rw [hstarts (c := 'F') (by decide), Bool.true_and, List.all_eq_true]
      exact hall

theorem toLower_ne_slash {c : Char} (hc : c ≠ '/') : toLower c ≠ '/' := by
  unfold toLower
  split
  · next hascii =>
    exact of_ascii (fun c => c ≠ '/' → c.toLower ≠ '/') (by decide) hascii hc
  · exact shiftBy_ne movesPast_lowerShifts (by decide) hc

theorem slash_not_mem_snake {name : String} (h : '/' ∉ name.toList) :
    '/' ∉ (snake name).toList := by
  have hgo : ∀ (cs : List Char) (prev : Option Char), '/' ∉ cs → '/' ∉ snake.go prev cs := by
    intro cs
    induction cs with
    | nil => simp [snake.go]
    | cons c cs ih =>
      intro prev hcs
      have hc : c ≠ '/' := fun heq => hcs (heq ▸ List.mem_cons_self ..)
      have hrest := ih (some c) fun hmem => hcs (List.mem_cons_of_mem _ hmem)
      rw [snake.go]
      split
      · rw [List.mem_append, List.mem_cons]
        rintro (hmem | heq | hmem)
        · split at hmem <;> simp at hmem
        · exact toLower_ne_slash hc heq.symm
        · exact hrest hmem
      · rw [List.mem_cons]
        rintro (heq | hmem)
        · exact hc heq.symm
        · exact hrest hmem
  rw [snake, String.toList_ofList]
  exact hgo _ _ h

end Naming

end RecordCodec
