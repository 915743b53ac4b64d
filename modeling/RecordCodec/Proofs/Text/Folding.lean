import RecordCodec.Proofs.Text.Names
import RecordCodec.Proofs.Text.Utf8

/-!
This module contains what case folding forgets: a letter and its lower case form have the same
folding, with one exception, and no letter folds to a separator. So a declared name that is derived
from the name of a struct field differs from it in case and separators only.
-/

namespace RecordCodec

open RecordCodec.Text

namespace Text

/-! Tables. -/

deriving instance DecidableEq for Shift

def Shift.image (s : Shift) : Span :=
  ⟨(s.lo + s.delta).toNat, (s.hi + s.delta).toNat, s.step⟩

def Span.isSparse (s : Span) : Bool :=
  s.step == 2 || s.lo == s.hi

def Span.isApart (s t : Span) : Bool :=
  s.hi.blt t.lo || t.hi.blt s.lo || s.isSparse && t.isSparse && s.lo % 2 != t.lo % 2

theorem Span.mod_two_of_isSparse {s : Span} {n : Nat} (h : s.isSparse = true)
    (hn : s.holds n = true) : n % 2 = s.lo % 2 := by
  have hbounds := bounds_of_holds hn
  simp only [holds, Bool.and_eq_true, beq_iff_eq] at hn
  simp only [isSparse, Bool.or_eq_true, beq_iff_eq] at h
  rcases h with hstep | hsingle
  · rw [hstep] at hn
    omega
  · omega

def Span.isOnly (s : Span) (n : Nat) : Bool :=
  s.lo == n && s.hi == n

theorem Span.not_holds_of_isApart {s t : Span} {n : Nat} (h : s.isApart t = true)
    (hn : s.holds n = true) : t.holds n = false := by
  rw [← Bool.not_eq_true]
  intro hholds
  have hs := bounds_of_holds hn
  have ht := bounds_of_holds hholds
  simp only [isApart, Bool.or_eq_true, Bool.and_eq_true, Nat.blt_eq, bne_iff_ne] at h
  rcases h with (h | h) | ⟨⟨hsparse, tsparse⟩, h⟩
  · omega
  · omega
  · rw [← mod_two_of_isSparse hsparse hn, ← mod_two_of_isSparse tsparse hholds] at h
    exact h rfl

def isAscending : List Shift → Bool
  | s :: t :: rest => s.lo.ble s.hi && s.hi.blt t.lo && isAscending (t :: rest)
  | _ => true

theorem lt_of_isAscending {s : Shift} {rest : List Shift} (h : isAscending (s :: rest) = true)
    {t : Shift} (ht : t ∈ rest) : s.hi < t.lo := by
  induction rest generalizing s with
  | nil => contradiction
  | cons u rest ih =>
    simp only [isAscending, Bool.and_eq_true, Nat.ble_eq, Nat.blt_eq] at h
    rcases List.mem_cons.1 ht with rfl | hmem
    · exact h.1.2
    · have hu := ih h.2 hmem
      have hle : u.lo ≤ u.hi := by
        cases rest with
        | nil => contradiction
        | cons v rest =>
          simp only [isAscending, Bool.and_eq_true, Nat.ble_eq] at h
          exact h.2.1.1
      omega

theorem find?_of_isAscending {shifts : List Shift} (h : isAscending shifts = true) {s : Shift}
    (hs : s ∈ shifts) {n : Nat} (hn : s.span.holds n = true) :
    shifts.find? (·.span.holds n) = some s := by
  induction shifts with
  | nil => contradiction
  | cons t rest ih =>
    rw [List.find?_cons]
    rcases List.mem_cons.1 hs with rfl | hmem
    · rw [hn]
    · have hlt := lt_of_isAscending h hmem
      have hbounds : s.lo ≤ n ∧ n ≤ s.hi := Span.bounds_of_holds hn
      have ht : t.span.holds n = false := by
        rw [← Bool.not_eq_true]
        intro hholds
        have hle : n ≤ t.hi := (Span.bounds_of_holds hholds).2
        omega
      have hrest : isAscending rest = true := by
        cases rest with
        | nil => rfl
        | cons u rest =>
          simp only [isAscending, Bool.and_eq_true] at h
          exact h.2
      rw [ht]
      exact ih hrest hmem

theorem isAscending_foldShifts : isAscending foldShifts = true := by decide +kernel

/--
Whether the code points of a shift have the folding of where it moves them: they are folded by the
same shift, to where nothing is folded.
-/
def Shift.isFolding (s : Shift) : Bool :=
  foldShifts.all fun t => s.image.isApart t.span

/--
Whether the code points of a shift have the folding of where it moves them: nothing folds them, and
they are what the others are folded to.
-/
def Shift.isUnfolding (s : Shift) : Bool :=
  128 ≤ s.image.lo && foldShifts.contains ⟨s.image.lo, s.image.hi, s.step, -s.delta⟩ &&
    foldShifts.all fun t => s.span.isApart t.span

def Shift.isProper (s : Shift) : Bool :=
  0 ≤ s.lo + s.delta && (s.image.hi < 0xd800 || 0xdfff < s.image.lo && s.image.hi < 0x110000) &&
    (128 ≤ s.image.lo || 0x61 ≤ s.image.lo && s.image.hi ≤ 0x7a)

/--
Whether a shift moves capital letters that nothing folds: `İ`, and those of the one script in which
the small letters are folded.
-/
def Shift.isUnusual (s : Shift) : Bool :=
  s.lo == 0x130 || s.lo == 0x13a0 || s.lo == 0x13f0

theorem lowerShifts_fold : lowerShifts.all Shift.isProper = true ∧
    (lowerShifts.filter (!·.isUnusual)).isSublist foldShifts = true ∧
    lowerShifts.all (fun s => s.isUnusual || s.isFolding) = true ∧
    lowerShifts.all (fun s => !s.isUnusual || s.span.isOnly 0x130 || s.isUnfolding) = true := by
  decide +kernel

theorem isProper_lowerShifts : lowerShifts.all Shift.isProper = true :=
  lowerShifts_fold.1

theorem usual_sublist_foldShifts :
    (lowerShifts.filter (!·.isUnusual)).isSublist foldShifts = true :=
  lowerShifts_fold.2.1

theorem isFolding_usual : lowerShifts.all (fun s => s.isUnusual || s.isFolding) = true :=
  lowerShifts_fold.2.2.1

theorem isUnfolding_unusual :
    lowerShifts.all (fun s => !s.isUnusual || s.span.isOnly 0x130 || s.isUnfolding) = true :=
  lowerShifts_fold.2.2.2

/-! Folding. -/

theorem Shift.holds_image {s : Shift} (h : s.isProper = true) {n : Nat}
    (hn : s.span.holds n = true) : s.image.holds (n + s.delta).toNat = true := by
  have hbounds : s.lo ≤ n ∧ n ≤ s.hi := Span.bounds_of_holds hn
  have hstep : (n - s.lo) % s.step = 0 := by
    simp only [Span.holds, Bool.and_eq_true, beq_iff_eq] at hn
    exact hn.2
  simp only [isProper, Bool.and_eq_true, decide_eq_true_eq] at h
  have hlo : (s.lo + s.delta).toNat ≤ (n + s.delta).toNat := by omega
  have hhi : (n + s.delta).toNat ≤ (s.hi + s.delta).toNat := by omega
  have hdistance : (n + s.delta).toNat - (s.lo + s.delta).toNat = n - s.lo := by omega
  simp [Span.holds, image, hlo, hhi, hdistance, hstep]

theorem Shift.toNat_image {s : Shift} (h : s.isProper = true) {n : Nat}
    (hn : s.span.holds n = true) :
    (Char.ofNat (n + s.delta).toNat).toNat = (n + s.delta).toNat := by
  have himage := Span.bounds_of_holds (s.holds_image h hn)
  simp only [isProper, Bool.and_eq_true, Bool.or_eq_true, decide_eq_true_eq] at h
  apply toNat_ofNat
  omega

theorem fold_of_not_holds {c : Char} (hascii : 128 ≤ c.toNat ∨ 0x61 ≤ c.toNat)
    (h : ∀ t ∈ foldShifts, t.span.holds c.toNat = false) : fold c = c := by
  unfold fold
  split
  · next hlt =>
    exact of_ascii (fun c => 0x61 ≤ c.toNat → c.toLower = c) (by decide) hlt (by omega)
  · unfold shiftBy
    rw [List.find?_eq_none.2]
    intro t ht
    rw [h t ht]
    exact Bool.false_ne_true

theorem fold_of_mem {c : Char} (hascii : 128 ≤ c.toNat) {s : Shift} (hs : s ∈ foldShifts)
    (h : s.span.holds c.toNat = true) : fold c = Char.ofNat (c.toNat + s.delta).toNat := by
  unfold fold shiftBy
  rw [if_neg (by omega), find?_of_isAscending isAscending_foldShifts hs h]

theorem Shift.mem_foldShifts_of_isUsual {s : Shift} (hs : s ∈ lowerShifts)
    (h : s.isUnusual = false) : s ∈ foldShifts := by
  apply (List.isSublist_iff_sublist.1 usual_sublist_foldShifts).subset
  rw [List.mem_filter, h]
  exact ⟨hs, rfl⟩

theorem Shift.fold_image_of_isFolding {s : Shift} (hproper : s.isProper = true)
    (hs : s ∈ foldShifts) (h : s.isFolding = true) {c : Char} (hascii : 128 ≤ c.toNat)
    (hc : s.span.holds c.toNat = true) :
    fold (Char.ofNat (c.toNat + s.delta).toNat) = fold c := by
  have himage := s.holds_image hproper hc
  have htoNat := s.toNat_image hproper hc
  have hbounds := Span.bounds_of_holds himage
  simp only [isProper, Bool.and_eq_true, Bool.or_eq_true, decide_eq_true_eq] at hproper
  rw [fold_of_mem hascii hs hc]
  apply fold_of_not_holds
  · omega
  · intro t ht
    rw [htoNat]
    exact Span.not_holds_of_isApart (List.all_eq_true.1 h t ht) himage

theorem Shift.fold_image_of_isUnfolding {s : Shift} (hproper : s.isProper = true)
    (h : s.isUnfolding = true) {c : Char} (hascii : 128 ≤ c.toNat)
    (hc : s.span.holds c.toNat = true) :
    fold (Char.ofNat (c.toNat + s.delta).toNat) = fold c := by
  have himage := s.holds_image hproper hc
  have htoNat := s.toNat_image hproper hc
  have hbounds := Span.bounds_of_holds himage
  simp only [isUnfolding, Bool.and_eq_true, decide_eq_true_eq, List.contains_iff_mem] at h
  obtain ⟨⟨hlo, hmem⟩, hapart⟩ := h
  have hself : fold c = c := by
    apply fold_of_not_holds (.inl hascii)
    intro t ht
    exact Span.not_holds_of_isApart (List.all_eq_true.1 hapart t ht) hc
  have hback := fold_of_mem (c := Char.ofNat (c.toNat + s.delta).toNat) (by omega) hmem
    (by rw [htoNat]; exact himage)
  rw [hback, hself, htoNat]
  have hdelta : ((c.toNat + s.delta).toNat + -s.delta).toNat = c.toNat := by omega
  dsimp only
  rw [hdelta, Char.ofNat_toNat]

theorem fold_toLower {c : Char} (h : c ≠ 'İ') : fold (toLower c) = fold c := by
  unfold toLower
  split
  · next hascii =>
    exact of_ascii (fun c => fold c.toLower = fold c) (by decide) hascii
  · next hascii =>
    rcases shiftBy_eq_or lowerShifts c with heq | ⟨s, hs, hc, heq⟩
    · rw [heq]
    · rw [heq]
      have hproper := List.all_eq_true.1 isProper_lowerShifts s hs
      cases husual : s.isUnusual with
      | false =>
        have hfolding := List.all_eq_true.1 isFolding_usual s hs
        rw [husual, Bool.false_or] at hfolding
        exact s.fold_image_of_isFolding hproper (s.mem_foldShifts_of_isUsual hs husual) hfolding
          (Nat.le_of_not_lt hascii) hc
      | true =>
        have hunfolding := List.all_eq_true.1 isUnfolding_unusual s hs
        rw [husual, Bool.not_true, Bool.false_or, Bool.or_eq_true] at hunfolding
        rcases hunfolding with honly | hunfolding
        · exfalso
          apply h
          simp only [Span.isOnly, Bool.and_eq_true, beq_iff_eq] at honly
          have hbounds := Span.bounds_of_holds hc
          rw [← Char.ofNat_toNat c, show c.toNat = 0x130 by omega]
        · exact s.fold_image_of_isUnfolding hproper hunfolding (Nat.le_of_not_lt hascii) hc

theorem movesPast_foldShifts : movesPast foldShifts = true := by decide +kernel

end Text

namespace Naming

/-! Separators. -/

theorem isSeparator_eq_false_iff {c : Char} : isSeparator c = false ↔ c ≠ '_' ∧ c ≠ '-' := by
  simp [isSeparator]

theorem isSeparator_shiftBy {shifts : List Shift} (h : movesPast shifts = true) {c : Char}
    (hc : isSeparator c = false) : isSeparator (shiftBy shifts c) = false := by
  rw [isSeparator_eq_false_iff] at hc ⊢
  exact ⟨shiftBy_ne h (by decide) hc.1, shiftBy_ne h (by decide) hc.2⟩

theorem not_isSeparator_of_large {c : Char} (h : ¬ c.toNat < 128) : isSeparator c = false := by
  rw [isSeparator_eq_false_iff]
  constructor <;> rintro rfl <;> exact h (by decide)

theorem isSeparator_toLower (c : Char) : isSeparator (toLower c) = isSeparator c := by
  unfold toLower
  split
  · next hascii =>
    exact of_ascii (fun c => isSeparator c.toLower = isSeparator c) (by decide) hascii
  · next hascii =>
    have hc := not_isSeparator_of_large hascii
    rw [isSeparator_shiftBy movesPast_lowerShifts hc, hc]

theorem isSeparator_fold (c : Char) : isSeparator (fold c) = isSeparator c := by
  unfold fold
  split
  · next hascii =>
    have := isSeparator_toLower c
    unfold toLower at this
    rwa [if_pos hascii] at this
  · next hascii =>
    have hc := not_isSeparator_of_large hascii
    rw [isSeparator_shiftBy movesPast_foldShifts hc, hc]

/-! Names without case and separators. -/

def folded (cs : List Char) : List Char :=
  (cs.filter (!isSeparator ·)).map fold

theorem folded_cons (c : Char) (cs : List Char) :
    folded (c :: cs) = if isSeparator c then folded cs else fold c :: folded cs := by
  unfold folded
  cases hc : isSeparator c with
  | true => simp [hc]
  | false => simp [hc]

theorem folded_append (cs ds : List Char) : folded (cs ++ ds) = folded cs ++ folded ds := by
  unfold folded
  rw [List.filter_append, List.map_append]

theorem folded_eq_map {cs : List Char} (h : ∀ c ∈ cs, isSeparator c = false) :
    folded cs = cs.map fold := by
  unfold folded
  rw [List.filter_eq_self.2]
  intro c hc
  rw [h c hc]
  rfl

theorem folded_eq_filter_map (cs : List Char) :
    folded cs = (cs.map fold).filter (!isSeparator ·) := by
  unfold folded
  rw [List.filter_map]
  congr 2
  funext c
  simp [isSeparator_fold]

theorem folded_eq_of_corresponds {host name : String} (h : corresponds host name = true) :
    folded host.toList = folded name.toList := by
  unfold corresponds equalFold at h
  rw [Bool.or_eq_true, beq_iff_eq, beq_iff_eq] at h
  rcases h with h | h
  · rw [folded_eq_filter_map, folded_eq_filter_map, h]
  · have hname : folded name.toList = host.toList.map fold := h.symm
    rw [folded_eq_filter_map, ← hname, List.filter_eq_self]
    intro c hc
    obtain ⟨d, hd, rfl⟩ := List.mem_map.1 hc
    rw [isSeparator_fold]
    exact (List.mem_filter.1 hd).2

theorem corresponds_of_folded_eq {host name : String}
    (hhost : ∀ c ∈ host.toList, isSeparator c = false)
    (h : folded host.toList = folded name.toList) : corresponds host name = true := by
  unfold corresponds equalFold
  rw [Bool.or_eq_true, beq_iff_eq, beq_iff_eq]
  right
  rw [← folded_eq_map hhost]
  exact h

theorem folded_snake_go {cs : List Char} (h : 'İ' ∉ cs) (prev : Option Char) :
    folded (snake.go prev cs) = folded cs := by
  induction cs generalizing prev with
  | nil => rfl
  | cons c cs ih =>
    rw [List.mem_cons, not_or] at h
    have hrest := ih h.2 (some c)
    rw [snake.go, folded_cons]
    split
    · have hmark : folded (if snake.startsWord prev cs = true then ['_'] else []) = [] := by
        split <;> rfl
      rw [folded_append, hmark, List.nil_append, folded_cons, isSeparator_toLower,
        fold_toLower (Ne.symm h.1), hrest]
    · rw [folded_cons, hrest]

theorem folded_snake {name : String} (h : 'İ' ∉ name.toList) :
    folded (snake name).toList = folded name.toList := by
  rw [snake, String.toList_ofList]
  exact folded_snake_go h none

theorem corresponds_snake {name : String} (hletter : 'İ' ∉ name.toList)
    (hname : ∀ c ∈ name.toList, isSeparator c = false) : corresponds name (snake name) = true :=
  corresponds_of_folded_eq hname (folded_snake hletter).symm

end Naming

end RecordCodec
