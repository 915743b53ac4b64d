import RecordCodec.Text.Trim

/-!
This module contains the division of texts into parts: parts without the separator are what their
joined text divides into.
-/

namespace RecordCodec.Text

theorem mem_of_mem_splitAtAll {p : α → Bool} {xs part : List α} {x : α}
    (hpart : part ∈ splitAtAll p xs) (hx : x ∈ part) : x ∈ xs := by
  induction xs generalizing part with
  | nil =>
    rw [splitAtAll, List.mem_singleton] at hpart
    rw [hpart] at hx
    exact hx
  | cons y ys ih =>
    unfold splitAtAll at hpart
    split at hpart
    · rcases List.mem_cons.1 hpart with rfl | hpart
      · contradiction
      · exact List.mem_cons_of_mem _ (ih hpart hx)
    · split at hpart
      · rw [List.mem_singleton] at hpart
        rw [hpart, List.mem_singleton] at hx
        rw [hx]
        exact List.mem_cons_self ..
      · next first rest heq =>
        rw [heq] at ih
        rcases List.mem_cons.1 hpart with rfl | hpart
        · rcases List.mem_cons.1 hx with rfl | hx
          · exact List.mem_cons_self ..
          · exact List.mem_cons_of_mem _ (ih (List.mem_cons_self ..) hx)
        · exact List.mem_cons_of_mem _ (ih (List.mem_cons_of_mem _ hpart) hx)

theorem splitAtAll_of_all {p : α → Bool} {xs : List α} (h : ∀ x ∈ xs, p x = false) :
    splitAtAll p xs = [xs] := by
  induction xs with
  | nil => rfl
  | cons x xs ih =>
    have hxs := ih (fun y hy => h y (List.mem_cons_of_mem _ hy))
    unfold splitAtAll
    rw [h x (List.mem_cons_self ..), hxs]
    rfl

theorem splitAtAll_ne_nil (p : α → Bool) (xs : List α) : splitAtAll p xs ≠ [] := by
  cases xs with
  | nil => simp [splitAtAll]
  | cons x xs =>
    unfold splitAtAll
    split
    · simp
    · split <;> simp

theorem splitAtAll_append_cons {p : α → Bool} (xs ys : List α) {y : α} (hy : p y = true) :
    splitAtAll p (xs ++ y :: ys) = splitAtAll p xs ++ splitAtAll p ys := by
  induction xs with
  | nil => simp [splitAtAll, hy]
  | cons x xs ih =>
    rw [List.cons_append, splitAtAll, splitAtAll, ih]
    split
    · rfl
    · cases hsplit : splitAtAll p xs with
      | nil => exact absurd hsplit (splitAtAll_ne_nil p xs)
      | cons part parts => rfl

theorem eq_false_of_mem_splitAtAll {p : α → Bool} {xs part : List α}
    (h : part ∈ splitAtAll p xs) : ∀ x ∈ part, p x = false := by
  induction xs generalizing part with
  | nil =>
    rw [splitAtAll, List.mem_singleton] at h
    simp [h]
  | cons y ys ih =>
    unfold splitAtAll at h
    split at h
    · rcases List.mem_cons.1 h with rfl | h
      · simp
      · exact ih h
    · next hy =>
      split at h
      · next hnil => exact absurd hnil (splitAtAll_ne_nil p ys)
      · next first rest heq =>
        rw [heq] at ih
        rcases List.mem_cons.1 h with rfl | h
        · intro x hx
          rcases List.mem_cons.1 hx with rfl | hx
          · simpa using hy
          · exact ih (List.mem_cons_self ..) x hx
        · exact ih (List.mem_cons_of_mem _ h)

theorem splitAtAll_intercalate {c : Char} {parts : List (List Char)} (hparts : parts ≠ [])
    (h : ∀ part ∈ parts, c ∉ part) : splitAtAll (· == c) ([c].intercalate parts) = parts := by
  induction parts with
  | nil => contradiction
  | cons part parts ih =>
    have hpart : ∀ x ∈ part, (x == c) = false := by
      intro x hx
      rw [beq_eq_false_iff_ne]
      rintro rfl
      exact h part (List.mem_cons_self ..) hx
    cases parts with
    | nil =>
      rw [List.intercalate_singleton]
      exact splitAtAll_of_all hpart
    | cons next parts =>
      have hrest := ih (by simp) fun other hother => h other (List.mem_cons_of_mem _ hother)
      rw [List.intercalate_cons_cons, List.append_assoc, List.singleton_append,
        splitAtAll_append_cons _ _ (by simp), splitAtAll_of_all hpart, hrest, List.singleton_append]

end RecordCodec.Text
