import RecordCodec.Proofs.Planner.CommitOrder

/-!
This module contains the optimality of the commit order. Whatever the order is, the inline region is
as large as its fields and its padding together, and the commit order is one without padding. Types
outside the closed set count as well: those without a width take no room anywhere.
-/

namespace RecordCodec

namespace Layout

theorem foldl_commit_filter (widths : List Nat) (info : Info) :
    (widths.filter (0 < ·)).foldl Info.commit info = widths.foldl Info.commit info := by
  induction widths generalizing info with
  | nil => rfl
  | cons width widths ih =>
    cases width with
    | zero => exact ih info
    | succ width => exact ih _

theorem total_filter (widths : List Nat) : total (widths.filter (0 < ·)) = total widths := by
  induction widths with
  | nil => rfl
  | cons width widths ih =>
    cases width with
    | zero =>
      rw [total_cons, Nat.zero_add]
      exact ih
    | succ width => exact congrArg (width + 1 + ·) ih

theorem Info.commit_of_pos (info : Info) {width : Nat} (h : 0 < width) :
    info.commit width = ⟨info.size + Layout.padding info.size width + width,
      info.padding + Layout.padding info.size width, max info.align width⟩ := by
  unfold commit
  rw [if_neg (by simpa using Nat.ne_of_gt h)]

theorem size_foldl (widths : List Nat) (info : Info) :
    (widths.foldl Info.commit info).size + info.padding =
      info.size + total widths + (widths.foldl Info.commit info).padding := by
  induction widths generalizing info with
  | nil => rfl
  | cons width widths ih =>
    have hstep : (info.commit width).size + info.padding =
        info.size + width + (info.commit width).padding := by
      rcases Nat.eq_zero_or_pos width with rfl | hpos
      · rfl
      · rw [info.commit_of_pos hpos]
        dsimp only
        omega
    have hrest := ih (info.commit width)
    rw [List.foldl_cons, total_cons]
    omega

theorem size_ofWidths (widths : List Nat) :
    (ofWidths widths).size = total widths + (ofWidths widths).padding := by
  have hfold := size_foldl widths ⟨0, 0, 1⟩
  rw [Nat.add_zero, Nat.zero_add] at hfold
  exact hfold

def widthAt (types : List FieldType) (i : Nat) : Nat :=
  (types[i]?.map FieldType.width).getD 0

theorem widthAt_eq {types : List FieldType} {i : Nat} {t : FieldType} (h : types[i]? = some t) :
    widthAt types i = t.width := by
  unfold widthAt
  rw [h]
  rfl

def laidOut (types : List FieldType) (order : List Nat) : Info :=
  ofWidths (order.map (widthAt types))

theorem calculate?_eq {types : List FieldType} {order : List Nat}
    (h : ∀ i ∈ order, i < types.length) :
    calculate? types (order.map Int.ofNat) = some (laidOut types order) := by
  have hmapM : ∃ ts, (order.map Int.ofNat).mapM
      (fun i => if i < 0 then none else types[i.toNat]?) = some ts ∧
      ts.map FieldType.width = order.map (widthAt types) := by
    induction order with
    | nil => exact ⟨[], rfl, rfl⟩
    | cons i order ih =>
      obtain ⟨ts, hts, hwidths⟩ := ih fun j hj => h j (List.mem_cons_of_mem _ hj)
      obtain ⟨t, ht⟩ : ∃ t, types[i]? = some t :=
        ⟨_, List.getElem?_eq_getElem (h i (List.mem_cons_self ..))⟩
      refine ⟨t :: ts, ?_, ?_⟩
      · have hi : ¬Int.ofNat i < 0 := Int.not_lt.2 (Int.natCast_nonneg i)
        rw [List.map_cons, List.mapM_cons, hts, if_neg hi]
        simp [ht]
      · rw [List.map_cons, List.map_cons, hwidths, widthAt_eq ht]
  obtain ⟨ts, hts, hwidths⟩ := hmapM
  unfold calculate? laidOut
  rw [hts, Option.map_some, hwidths]

theorem commitOrder_perm (types : List FieldType) :
    (commitOrder types).Perm (List.range types.length) := by
  rw [List.perm_ext_iff_of_nodup (nodup_commitOrder types) List.nodup_range]
  intro i
  rw [mem_commitOrder, List.mem_range]

theorem total_of_perm {types : List FieldType} {order : List Nat}
    (h : order.Perm (List.range types.length)) :
    total (order.map (widthAt types)) = total (types.map FieldType.width) := by
  have hwidths : (List.range types.length).map (widthAt types) = types.map FieldType.width := by
    apply List.ext_getElem?
    intro i
    rw [List.getElem?_map, List.getElem?_map]
    by_cases hi : i < types.length
    · have ht := List.getElem?_eq_getElem hi
      rw [List.getElem?_range hi, ht, Option.map_some, Option.map_some, widthAt_eq ht]
    · rw [List.getElem?_eq_none (by simpa using hi), List.getElem?_eq_none (by simpa using hi)]
      rfl
  have hperm := h.map (widthAt types)
  rw [hwidths] at hperm
  exact hperm.sum_nat

theorem pairwise_widths_commitOrder (types : List FieldType) :
    (((commitOrder types).map (widthAt types)).filter (0 < ·)).Pairwise (fun x y => y ∣ x) := by
  rw [List.pairwise_filter, List.pairwise_map]
  apply (pairwise_commitOrder types).imp_of_mem
  intro i j hi hj hbefore
  have ht := List.getElem?_eq_getElem (mem_commitOrder.1 hi)
  have hu := List.getElem?_eq_getElem (mem_commitOrder.1 hj)
  rw [widthAt_eq ht, widthAt_eq hu, decide_eq_true_eq, decide_eq_true_eq]
  exact width_dvd_of_before hbefore ht hu

theorem padding_laidOut_commitOrder (types : List FieldType) :
    (laidOut types (commitOrder types)).padding = 0 := by
  have hsize := size_of_pairwise (pairwise_widths_commitOrder types)
  have hsum := size_ofWidths ((commitOrder types).map (widthAt types))
  rw [total_filter] at hsize
  unfold laidOut ofWidths at *
  rw [foldl_commit_filter] at hsize
  omega

theorem size_laidOut_of_perm {types : List FieldType} {order : List Nat}
    (h : order.Perm (List.range types.length)) :
    (laidOut types order).size =
      total (types.map FieldType.width) + (laidOut types order).padding := by
  unfold laidOut
  rw [size_ofWidths, total_of_perm h]

theorem commitOrder_isOptimal (types : List FieldType) :
    (commitOrder types).Perm (List.range types.length) ∧
    (commitOrder types).Pairwise (Before types) ∧
    ∃ best, calculate? types ((commitOrder types).map Int.ofNat) = some best ∧
      best.padding = 0 ∧ best.size = total (types.map FieldType.width) ∧
      ∀ order : List Nat, order.Perm (List.range types.length) →
        ∃ info, calculate? types (order.map Int.ofNat) = some info ∧
          info.size = total (types.map FieldType.width) + info.padding ∧
          best.size ≤ info.size := by
  have hlayout : ∀ order : List Nat, order.Perm (List.range types.length) →
      calculate? types (order.map Int.ofNat) = some (laidOut types order) := by
    intro order hperm
    exact calculate?_eq fun i hi => List.mem_range.1 (hperm.mem_iff.1 hi)
  have hpadding := padding_laidOut_commitOrder types
  have hsize := size_laidOut_of_perm (commitOrder_perm types)
  rw [hpadding, Nat.add_zero] at hsize
  refine ⟨commitOrder_perm types, pairwise_commitOrder types, _, hlayout _ (commitOrder_perm types),
    hpadding, hsize, ?_⟩
  intro order hperm
  have hsize' := size_laidOut_of_perm hperm
  exact ⟨_, hlayout order hperm, hsize', by omega⟩

def assorted : List FieldType :=
  [.ofScalar .u8, .ofScalar .u64, ⟨.unknown 9, .u16, false⟩, .optional .ofText,
    .ofScalar (.unknown 77), .sequence (.ofScalar .u64)]

theorem commitOrder_isOptimal_assorted :
    [0, 1, 2, 3, 4, 5].Perm (List.range assorted.length) ∧
    ∃ best info, calculate? assorted [1, 5, 3, 2, 0, 4] = some best ∧
      calculate? assorted [0, 1, 2, 3, 4, 5] = some info ∧
      best.size = 19 ∧ best.padding = 0 ∧ info.size = 19 + info.padding ∧ best.size ≤ info.size := by
  have hperm : [0, 1, 2, 3, 4, 5].Perm (List.range assorted.length) := by decide
  obtain ⟨-, -, best, hbest, hpadding, hsize, hall⟩ := commitOrder_isOptimal assorted
  obtain ⟨info, hinfo, hsize', hle⟩ := hall [0, 1, 2, 3, 4, 5] hperm
  exact ⟨hperm, best, info, hbest, hinfo, hsize, hpadding, hsize', hle⟩

end Layout

end RecordCodec
