import RecordCodec.Proofs.Planner.Grammar

/-!
This module contains the balance of angle brackets in type texts. A text that has a path closes its
brackets, except in a qualifier in front of the first `<`: there the brackets are dropped together
with the qualifier, and nothing looks at them.
-/

namespace RecordCodec

open RecordCodec.Text

/--
Whether the angle brackets of a text are balanced: no front part closes more of them than it opens,
and as many are closed as opened in all.
-/
def IsBalanced (s : List Char) : Prop :=
  (∀ front, front <+: s → front.count '>' ≤ front.count '<') ∧ s.count '<' = s.count '>'

def ClosesInQualifier (s : List Char) : Prop :=
  ∃ qualifier rest, s.takeWhile (· != '<') = qualifier ++ ':' :: ':' :: rest ∧ '>' ∈ qualifier

structure ClosesFrom (depth : Nat) (s : List Char) : Prop where
  closed_le : ∀ front, front <+: s → front.count '>' ≤ depth + front.count '<'
  closed_eq : s.count '>' = depth + s.count '<'

theorem isBalanced_iff_closesFrom {s : List Char} : IsBalanced s ↔ ClosesFrom 0 s := by
  constructor
  · rintro ⟨hle, heq⟩
    exact ⟨fun front hfront => by simpa using hle front hfront, by omega⟩
  · rintro ⟨hle, heq⟩
    exact ⟨fun front hfront => by simpa using hle front hfront, by omega⟩

namespace ClosesFrom

variable {depth depth' : Nat} {c : Char} {s xs : List Char}

theorem nil_iff : ClosesFrom depth [] ↔ depth = 0 := by
  constructor
  · intro h
    simpa using h.closed_eq.symm
  · rintro rfl
    exact ⟨fun front hfront => by simp [List.prefix_nil.1 hfront], rfl⟩

theorem cons_iff (hdepth : depth + [c].count '<' = depth' + [c].count '>') :
    ClosesFrom depth (c :: s) ↔ ClosesFrom depth' s := by
  have hcount : ∀ d cs, (c :: cs).count d = [c].count d + cs.count d := by
    intro d cs
    rw [← List.singleton_append, List.count_append]
  constructor
  · intro h
    constructor
    · intro front hfront
      have := h.closed_le (c :: front) (List.cons_prefix_cons.2 ⟨rfl, hfront⟩)
      rw [hcount '>', hcount '<'] at this
      omega
    · have := h.closed_eq
      rw [hcount '>', hcount '<'] at this
      omega
  · intro h
    constructor
    · intro front hfront
      rcases List.prefix_cons_iff.1 hfront with rfl | ⟨rest, rfl, hrest⟩
      · simp
      · have := h.closed_le rest hrest
        rw [hcount '>', hcount '<']
        omega
    · have := h.closed_eq
      rw [hcount '>', hcount '<']
      omega

theorem cons_open_iff : ClosesFrom depth ('<' :: s) ↔ ClosesFrom (depth + 1) s :=
  cons_iff rfl

theorem cons_close_iff : ClosesFrom (depth + 1) ('>' :: s) ↔ ClosesFrom depth s :=
  cons_iff rfl

theorem cons_other_iff (hc : c ≠ '<' ∧ c ≠ '>') : ClosesFrom depth (c :: s) ↔ ClosesFrom depth s := by
  apply cons_iff
  simp [hc.1, hc.2]

theorem not_cons_close : ¬ClosesFrom 0 ('>' :: s) := by
  intro h
  have := h.closed_le ['>'] (List.cons_prefix_cons.2 ⟨rfl, List.nil_prefix⟩)
  simp at this

theorem append_left_iff (hxs : ∀ c ∈ xs, c ≠ '<' ∧ c ≠ '>') :
    ClosesFrom depth (xs ++ s) ↔ ClosesFrom depth s := by
  induction xs with
  | nil => rfl
  | cons x xs ih =>
    rw [List.cons_append, cons_other_iff (hxs x (List.mem_cons_self ..)),
      ih fun c hc => hxs c (List.mem_cons_of_mem _ hc)]

theorem append_close (h : ClosesFrom depth s) : ClosesFrom (depth + 1) (s ++ ['>']) := by
  have hcount : (s ++ ['>']).count '>' = s.count '>' + 1 ∧ (s ++ ['>']).count '<' = s.count '<' := by
    simp
  have heq := h.closed_eq
  constructor
  · intro front hfront
    rcases List.prefix_concat_iff.1 hfront with rfl | hfront
    · omega
    · have := h.closed_le front hfront
      omega
  · omega

theorem append_right (hxs : ∀ c ∈ xs, c ≠ '<' ∧ c ≠ '>') (h : ClosesFrom depth s) :
    ClosesFrom depth (s ++ xs) := by
  have hzero : ∀ ys, ys <+: xs → ys.count '<' = 0 ∧ ys.count '>' = 0 := by
    intro ys hys
    constructor
    · exact List.count_eq_zero.2 fun hmem => (hxs _ (hys.subset hmem)).1 rfl
    · exact List.count_eq_zero.2 fun hmem => (hxs _ (hys.subset hmem)).2 rfl
  constructor
  · intro front hfront
    have hle := h.closed_le (s.take front.length) (List.take_prefix ..)
    have hnone := hzero (xs.take (front.length - s.length)) (List.take_prefix ..)
    rw [List.prefix_iff_eq_take.1 hfront, List.take_append, List.count_append, List.count_append]
    omega
  · have heq := h.closed_eq
    have hnone := hzero xs (List.prefix_refl xs)
    rw [List.count_append, List.count_append]
    omega

end ClosesFrom

theorem topLevelCommas?_go_isSome_iff (depth : Nat) (s : List Char) :
    (topLevelCommas?.go depth s).isSome = true ↔ ClosesFrom depth s := by
  induction s generalizing depth with
  | nil =>
    rw [ClosesFrom.nil_iff]
    cases depth with
    | zero => simp [topLevelCommas?.go]
    | succ depth => simp [topLevelCommas?.go]
  | cons c s ih =>
    by_cases hopen : c = '<'
    · subst hopen
      rw [ClosesFrom.cons_open_iff, ← ih]
      cases depth with
      | zero => rfl
      | succ depth => rfl
    · by_cases hclose : c = '>'
      · subst hclose
        cases depth with
        | zero => simp [topLevelCommas?.go, ClosesFrom.not_cons_close]
        | succ depth =>
          rw [ClosesFrom.cons_close_iff, ← ih]
          rfl
      · rw [ClosesFrom.cons_other_iff ⟨hopen, hclose⟩, ← ih]
        cases depth with
        | zero => by_cases hcomma : c = ',' <;> simp [topLevelCommas?.go, hopen, hclose, hcomma]
        | succ depth => simp [topLevelCommas?.go, hopen, hclose]

theorem closesFrom_of_isOneArgument {s : List Char} (h : isOneArgument s = true) :
    ClosesFrom 0 s := by
  unfold isOneArgument at h
  rw [Bool.and_eq_true, beq_iff_eq] at h
  apply (topLevelCommas?_go_isSome_iff 0 s).1
  exact Option.isSome_of_eq_some h.1

def StandsIn (s text : List Char) : Prop :=
  ∃ front back, text = front ++ s ++ back ∧ (∀ c ∈ front, c ≠ '<' ∧ c ≠ '>') ∧
    ∀ c ∈ back, c ≠ '<' ∧ c ≠ '>'

theorem ne_of_isBlank {c : Char} (h : isBlank c = true) : c ≠ '<' ∧ c ≠ '>' := by
  constructor
  · rintro rfl
    exact absurd h (by decide)
  · rintro rfl
    exact absurd h (by decide)

theorem trim_standsIn (cs : List Char) : StandsIn (trim cs) cs := by
  refine ⟨cs.takeWhile isBlank, ((trimStart cs).reverse.takeWhile isBlank).reverse, ?_, ?_, ?_⟩
  · have hback : trim cs ++ ((trimStart cs).reverse.takeWhile isBlank).reverse = trimStart cs := by
      unfold trim trimEnd
      rw [← List.reverse_append, List.takeWhile_append_dropWhile, List.reverse_reverse]
    rw [List.append_assoc, hback]
    exact List.takeWhile_append_dropWhile.symm
  · intro c hc
    exact ne_of_isBlank (List.mem_takeWhile_imp hc)
  · intro c hc
    exact ne_of_isBlank (List.mem_takeWhile_imp (List.mem_reverse.1 hc))

namespace StandsIn

variable {s text : List Char}

theorem closesFrom (h : StandsIn s text) (hs : ClosesFrom 0 s) : ClosesFrom 0 text := by
  obtain ⟨front, back, rfl, hfront, hback⟩ := h
  rw [List.append_assoc, ClosesFrom.append_left_iff hfront]
  exact hs.append_right hback

theorem closesInQualifier (h : StandsIn s text) (hs : ClosesInQualifier s) :
    ClosesInQualifier text := by
  obtain ⟨front, back, rfl, hfront, hback⟩ := h
  obtain ⟨qualifier, rest, hhead, hclose⟩ := hs
  have hpass : ∀ c ∈ front, (c != '<') = true := fun c hc => bne_iff_ne.2 (hfront c hc).1
  have hpass' : ∀ c ∈ back, (c != '<') = true := fun c hc => bne_iff_ne.2 (hback c hc).1
  unfold ClosesInQualifier
  rw [List.append_assoc, List.takeWhile_append_of_pos hpass, List.takeWhile_append]
  split
  · next hall =>
    have hs : s.takeWhile (· != '<') = s := (List.takeWhile_prefix _).eq_of_length hall
    rw [hs] at hhead
    refine ⟨front ++ qualifier, rest ++ back.takeWhile (· != '<'), ?_,
      List.mem_append_right _ hclose⟩
    rw [hhead]
    simp
  · refine ⟨front ++ qualifier, rest, ?_, List.mem_append_right _ hclose⟩
    rw [hhead, List.append_assoc]

end StandsIn

theorem exists_qualifier_of_segmentName? {s : List Char} {name : String}
    (h : segmentName? s = some name) (hclose : '>' ∈ s) :
    ∃ qualifier rest, s = qualifier ++ ':' :: ':' :: rest ∧ '>' ∈ qualifier := by
  have hname : '>' ∉ unqualified (trim s) := by
    intro hmem
    have hreserved : (unqualified (trim s)).any isReserved = true :=
      List.any_eq_true.2 ⟨'>', hmem, by decide⟩
    simp [segmentName?, hreserved] at h
  have hclose' : '>' ∈ trim s := (mem_trim_iff (by decide)).2 hclose
  rcases unqualified_eq_iff.1 (rfl : unqualified (trim s) = _) with ⟨qualifier, htrim, -⟩ | ⟨-, hlast⟩
  · have hmem : '>' ∈ qualifier := by
      rw [htrim] at hclose'
      simpa [hname] using hclose'
    obtain ⟨front, back, hs, -⟩ := trim_standsIn s
    refine ⟨front ++ qualifier, unqualified (trim s) ++ back, ?_, List.mem_append_right _ hmem⟩
    rw [htrim] at hs
    simpa using hs
  · rw [hlast] at hname
    contradiction

theorem bne_of_not_mem {xs : List Char} (h : '<' ∉ xs) : ∀ c ∈ xs, (c != '<') = true := by
  intro c hc
  rw [bne_iff_ne]
  rintro rfl
  contradiction

theorem closesFrom_of_plain {s : List Char} {name : String} (hopen : '<' ∉ s)
    (hname : segmentName? s = some name) (hqualifier : ¬ClosesInQualifier s) : ClosesFrom 0 s := by
  have hclose : '>' ∉ s := by
    intro hmem
    apply hqualifier
    unfold ClosesInQualifier
    rw [List.takeWhile_eq_self_iff.2 (bne_of_not_mem hopen)]
    exact exists_qualifier_of_segmentName? hname hmem
  rw [← List.append_nil s, ClosesFrom.append_left_iff, ClosesFrom.nil_iff]
  intro c hc
  exact ⟨fun heq => hopen (heq ▸ hc), fun heq => hclose (heq ▸ hc)⟩

theorem closesFrom_of_generic {before inner : List Char} {name : String} (hopen : '<' ∉ before)
    (hname : segmentName? before = some name) (hone : isOneArgument (trim inner) = true)
    (hqualifier : ¬ClosesInQualifier (before ++ '<' :: inner ++ ['>'])) :
    ClosesFrom 0 (before ++ '<' :: inner ++ ['>']) := by
  have hclose : '>' ∉ before := by
    intro hmem
    apply hqualifier
    unfold ClosesInQualifier
    rw [List.append_assoc, List.takeWhile_append_of_pos (bne_of_not_mem hopen)]
    simpa using exists_qualifier_of_segmentName? hname hmem
  have hinner : ClosesFrom 0 inner :=
    (trim_standsIn inner).closesFrom (closesFrom_of_isOneArgument hone)
  rw [List.append_assoc, ClosesFrom.append_left_iff, List.cons_append, ClosesFrom.cons_open_iff]
  · exact hinner.append_close
  · intro c hc
    exact ⟨fun heq => hopen (heq ▸ hc), fun heq => hclose (heq ▸ hc)⟩

theorem trim_standsIn_slice (rest : List Char) : StandsIn (trim rest) ('[' :: ']' :: rest) := by
  obtain ⟨front, back, hrest, hfront, hback⟩ := trim_standsIn rest
  refine ⟨'[' :: ']' :: front, back, congrArg (fun cs => '[' :: ']' :: cs) hrest, ?_, hback⟩
  simpa using hfront

theorem closesFrom_of_segments_go {s : List Char} {path : List String}
    (h : segments.go s = some path) (hqualifier : ¬ClosesInQualifier s) : ClosesFrom 0 s := by
  -- only `[]` leads to another text whose qualifier counts: the argument of a generic name has been
  -- checked as a whole
  induction hlength : s.length using Nat.strong_induction_on generalizing s path with
  | _ n ih =>
    subst hlength
    by_cases hslice : ['[', ']'] <+: s
    · obtain ⟨rest, rfl⟩ := hslice
      rw [List.cons_append, List.cons_append, List.nil_append] at h hqualifier ih ⊢
      rw [segments_go_slice] at h
      obtain ⟨path', hpath, -⟩ := Option.map_eq_some_iff.1 h
      have hstands := trim_standsIn_slice rest
      apply hstands.closesFrom
      apply ih _ _ hpath _ rfl
      · have := length_trim_le rest
        simp only [List.length_cons]
        omega
      · exact fun hclose => hqualifier (hstands.closesInQualifier hclose)
    · by_cases hgeneric : '<' ∈ s
      · obtain ⟨before, inner, name, rest, hopen, hname, hone, -, -⟩ :=
          exists_of_segments_go_generic hslice hgeneric h
        obtain ⟨rfl, hbefore⟩ := openGeneric?_eq_some_iff.1 hopen
        exact closesFrom_of_generic hbefore hname hone hqualifier
      · rw [segments_go_plain hslice hgeneric] at h
        obtain ⟨name, hname, -⟩ := Option.map_eq_some_iff.1 h
        exact closesFrom_of_plain hgeneric hname hqualifier

theorem IsBalanced.not_closesInQualifier {s : List Char} (h : IsBalanced s) :
    ¬ClosesInQualifier s := by
  rintro ⟨qualifier, rest, hhead, hclose⟩
  have hle := h.1 _ (List.takeWhile_prefix (· != '<'))
  have hopen : (s.takeWhile (· != '<')).count '<' = 0 := by
    rw [List.count_eq_zero]
    intro hmem
    have := List.mem_takeWhile_imp hmem
    contradiction
  have hpos : 0 < (s.takeWhile (· != '<')).count '>' := by
    rw [List.count_pos_iff, hhead]
    exact List.mem_append_left _ hclose
  omega

theorem isBalanced_iff_of_segments {text : String} {path : List String}
    (h : segments text = some path) :
    IsBalanced text.toList ↔ ¬ClosesInQualifier text.toList := by
  constructor
  · exact IsBalanced.not_closesInQualifier
  · intro hqualifier
    have hstands := trim_standsIn text.toList
    rw [isBalanced_iff_closesFrom]
    apply hstands.closesFrom
    apply closesFrom_of_segments_go h
    exact fun hclose => hqualifier (hstands.closesInQualifier hclose)

theorem not_isBalanced_closedQualifier :
    segments "a>::b" = some ["b"] ∧ ¬IsBalanced "a>::b".toList := by
  have hpath : segments "a>::b" = some ["b"] := by decide +kernel
  refine ⟨hpath, ?_⟩
  rw [isBalanced_iff_of_segments hpath, Classical.not_not]
  exact ⟨['a', '>'], ['b'], by decide, by decide⟩

end RecordCodec
