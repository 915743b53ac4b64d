import RecordCodec.Layout
import RecordCodec.Proofs.Table.Growth

/-!
This module contains the theory of the commit order: it has every field once, wider fields come
before narrower ones, and so the layout has no padding and is as large as its fields together.
-/

namespace RecordCodec

def FieldType.isKnown (t : FieldType) : Bool :=
  t.scalar.isValid && match t.shape with
    | .unknown _ => false
    | _ => true

theorem Scalar.size_dvd_of_isValid {s : Scalar} (h : s.isValid = true) : s.size ∣ 8 := by
  cases s with
  | unknown code => simp [isValid] at h
  | _ => decide

theorem Scalar.size_pos_of_isValid {s : Scalar} (h : s.isValid = true) : 0 < s.size :=
  Nat.pos_of_dvd_of_pos (size_dvd_of_isValid h) (by decide)

namespace FieldType

theorem isValid_of_isKnown {t : FieldType} (h : t.isKnown = true) : t.scalar.isValid = true := by
  unfold isKnown at h
  rw [Bool.and_eq_true] at h
  exact h.1

theorem width_dvd_of_isKnown {t : FieldType} (h : t.isKnown = true) : t.width ∣ 8 := by
  unfold width
  split
  · decide
  · exact Scalar.size_dvd_of_isValid (isValid_of_isKnown h)

theorem width_pos_of_isKnown {t : FieldType} (h : t.isKnown = true) : 0 < t.width :=
  Nat.pos_of_dvd_of_pos (width_dvd_of_isKnown h) (by decide)

def widthOfPriority : Nat → Nat
  | 1 => 8
  | 2 | 4 | 5 => 4
  | 6 => 2
  | _ => 1

theorem width_eq_of_pos {t : FieldType} (h : 0 < t.width) :
    t.width = widthOfPriority (Layout.priority t) := by
  rcases t with ⟨shape, scalar, text⟩
  have hscalar : 0 < scalar.size → scalar.size = widthOfPriority (Layout.scalarPriority scalar) := by
    cases scalar with
    | unknown code => nofun
    | _ => exact fun _ => rfl
  cases shape with
  | text => rfl
  | sequence => rfl
  | scalar => exact hscalar h
  | unknown code => exact hscalar h
  | optional =>
    cases text with
    | true => rfl
    | false => exact hscalar h

end FieldType

namespace Layout

theorem priority_mem (t : FieldType) : priority t ∈ priorities := by
  have hscalar : ∀ s : Scalar, scalarPriority s ∈ priorities := by
    intro s
    cases s with
    | unknown code =>
      show 7 ∈ priorities
      decide
    | _ => decide
  unfold priority
  split
  · decide
  · decide
  · split
    · decide
    · apply hscalar
  · apply hscalar

theorem widthOfPriority_dvd {p q : Nat} (hp : p ∈ priorities) (hq : q ∈ priorities) (h : p ≤ q) :
    FieldType.widthOfPriority q ∣ FieldType.widthOfPriority p := by
  revert h
  revert q
  revert p
  decide

def Before (types : List FieldType) (i j : Nat) : Prop :=
  ∀ t u, types[i]? = some t → types[j]? = some u →
    priority t < priority u ∨ (priority t = priority u ∧ i < j)

theorem mem_bucket {types : List FieldType} {p i : Nat} :
    i ∈ (types.zipIdx.filter (priority ·.1 == p)).map (·.2) ↔
      ∃ t, types[i]? = some t ∧ priority t = p := by
  simp only [List.mem_map, List.mem_filter, List.mem_zipIdx_iff_getElem?, beq_iff_eq, Prod.exists]
  constructor
  · rintro ⟨t, j, ⟨ht, hp⟩, rfl⟩
    exact ⟨t, ht, hp⟩
  · rintro ⟨t, ht, hp⟩
    exact ⟨t, i, ⟨ht, hp⟩, rfl⟩

theorem pairwise_bucket (types : List FieldType) (p : Nat) :
    ((types.zipIdx.filter (priority ·.1 == p)).map (·.2)).Pairwise (· < ·) := by
  have hsub : ((types.zipIdx.filter (priority ·.1 == p)).map (·.2)).Sublist
      (types.zipIdx.map (·.2)) := by
    apply List.Sublist.map
    apply List.filter_sublist
  rw [List.zipIdx_map_snd] at hsub
  exact (List.pairwise_lt_range' (s := 0) (n := types.length)).sublist hsub

theorem mem_commitOrder {types : List FieldType} {i : Nat} :
    i ∈ commitOrder types ↔ i < types.length := by
  unfold commitOrder
  rw [List.mem_flatMap]
  constructor
  · rintro ⟨p, -, hi⟩
    obtain ⟨t, ht, -⟩ := mem_bucket.1 hi
    exact (List.getElem?_eq_some_iff.1 ht).1
  · intro hi
    refine ⟨priority types[i], priority_mem _, ?_⟩
    rw [mem_bucket]
    exact ⟨types[i], List.getElem?_eq_getElem hi, rfl⟩

theorem pairwise_commitOrder (types : List FieldType) :
    (commitOrder types).Pairwise (Before types) := by
  unfold commitOrder
  rw [List.pairwise_flatMap]
  constructor
  · intro p _
    apply (pairwise_bucket types p).imp_of_mem
    intro i j hi hj hlt t u ht hu
    obtain ⟨t', ht', hp⟩ := mem_bucket.1 hi
    obtain ⟨u', hu', hq⟩ := mem_bucket.1 hj
    rw [ht] at ht'
    rw [hu] at hu'
    cases ht'
    cases hu'
    right
    exact ⟨hp.trans hq.symm, hlt⟩
  · have hpriorities : priorities.Pairwise (· < ·) := by decide
    apply hpriorities.imp
    intro p q hlt i hi j hj t u ht hu
    obtain ⟨t', ht', hp⟩ := mem_bucket.1 hi
    obtain ⟨u', hu', hq⟩ := mem_bucket.1 hj
    rw [ht] at ht'
    rw [hu] at hu'
    cases ht'
    cases hu'
    left
    omega

theorem nodup_commitOrder (types : List FieldType) : (commitOrder types).Nodup := by
  apply (pairwise_commitOrder types).imp_of_mem
  intro i j hi hj hbefore heq
  subst heq
  have hlt := mem_commitOrder.1 hi
  have := hbefore _ _ (List.getElem?_eq_getElem hlt) (List.getElem?_eq_getElem hlt)
  omega

theorem width_dvd_of_before {types : List FieldType} {i j : Nat} {t u : FieldType}
    (h : Before types i j) (ht : types[i]? = some t) (hu : types[j]? = some u) (hpos : 0 < t.width)
    (hpos' : 0 < u.width) : u.width ∣ t.width := by
  have hle := h t u ht hu
  rw [FieldType.width_eq_of_pos hpos, FieldType.width_eq_of_pos hpos']
  apply widthOfPriority_dvd (priority_mem t) (priority_mem u)
  omega

def total (widths : List Nat) : Nat :=
  widths.foldr (· + ·) 0

@[simp]
theorem total_nil : total [] = 0 := rfl

@[simp]
theorem total_cons (width : Nat) (widths : List Nat) :
    total (width :: widths) = width + total widths := rfl

theorem total_append (xs ys : List Nat) : total (xs ++ ys) = total xs + total ys := by
  induction xs with
  | nil => simp
  | cons x xs ih =>
    rw [List.cons_append, total_cons, total_cons, ih]
    omega

theorem total_le {xs : List Nat} {bound : Nat} (h : ∀ x ∈ xs, x ≤ bound) :
    total xs ≤ bound * xs.length := by
  induction xs with
  | nil => simp
  | cons x xs ih =>
    have hx := h x (List.mem_cons_self ..)
    have hxs := ih (fun y hy => h y (List.mem_cons_of_mem _ hy))
    rw [total_cons, List.length_cons, Nat.mul_add, Nat.mul_one]
    omega

theorem total_replicate (count width : Nat) :
    total (List.replicate count width) = width * count := by
  induction count with
  | zero => rfl
  | succ count ih =>
    rw [List.replicate_succ, total_cons, ih, Nat.mul_add, Nat.mul_one, Nat.add_comm]

theorem size_foldl_of_pairwise {widths : List Nat} (info : Info)
    (hpairwise : widths.Pairwise (fun x y => y ∣ x)) (hsize : ∀ width ∈ widths, width ∣ info.size) :
    (widths.foldl Info.commit info).size = info.size + total widths := by
  induction widths generalizing info with
  | nil => simp
  | cons width widths ih =>
    obtain ⟨hhead, htail⟩ := List.pairwise_cons.1 hpairwise
    have hcommit : (info.commit width).size = info.size + width := by
      unfold Info.commit
      split
      · next hzero =>
        simp only [beq_iff_eq] at hzero
        omega
      · simp only
        rw [padding_eq_zero (hsize width (List.mem_cons_self ..)), Nat.add_zero]
    rw [List.foldl_cons, ih _ htail, hcommit, total_cons, Nat.add_assoc]
    intro y hy
    rw [hcommit]
    exact Nat.dvd_add (hsize y (List.mem_cons_of_mem _ hy)) (hhead y hy)

theorem size_of_pairwise {widths : List Nat} (h : widths.Pairwise (fun x y => y ∣ x)) :
    (ofWidths widths).size = total widths := by
  unfold ofWidths
  rw [size_foldl_of_pairwise _ h, Nat.zero_add]
  intro width _
  apply Nat.dvd_zero

theorem align_foldl_of_le {widths : List Nat} {info : Info}
    (h : ∀ width ∈ widths, width ≤ info.align) :
    (widths.foldl Info.commit info).align = info.align := by
  induction widths generalizing info with
  | nil => rfl
  | cons width widths ih =>
    have hwidth := h width (List.mem_cons_self ..)
    have hcommit : (info.commit width).align = info.align := by
      unfold Info.commit
      split
      · rfl
      · exact Nat.max_eq_left hwidth
    rw [List.foldl_cons, ih, hcommit]
    intro other hother
    rw [hcommit]
    exact h other (List.mem_cons_of_mem _ hother)

theorem align_ofWidths_cons {width : Nat} {widths : List Nat} (hpos : 0 < width)
    (h : ∀ other ∈ widths, other ≤ width) : (ofWidths (width :: widths)).align = width := by
  have hcommit : (Info.commit ⟨0, 0, 1⟩ width).align = width := by
    unfold Info.commit
    rw [if_neg (by simpa using Nat.ne_of_gt hpos)]
    exact Nat.max_eq_right hpos
  unfold ofWidths
  rw [List.foldl_cons, align_foldl_of_le, hcommit]
  rw [hcommit]
  exact h

end Layout

end RecordCodec
