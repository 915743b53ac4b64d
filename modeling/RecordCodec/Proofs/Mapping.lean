import Mathlib.Data.List.Forall2

/-!
This module contains general facts about computations that are made one after the other for the
elements of a list, and that may fail.
-/

namespace RecordCodec

theorem exists_of_bind_eq_ok {x : Except ε α} {f : α → Except ε β} {b : β}
    (h : (x >>= f) = .ok b) : ∃ a, x = .ok a ∧ f a = .ok b := by
  cases x with
  | ok a => exact ⟨a, rfl, h⟩
  | error e => contradiction

/-! Results or errors. -/

section

variable {f : α → Except ε β} {xs : List α} {ys : List β}

theorem mapM_eq_ok_iff :
    xs.mapM f = .ok ys ↔ List.Forall₂ (fun x y => f x = .ok y) xs ys := by
  constructor
  · intro h
    induction xs generalizing ys with
    | nil =>
      cases h
      exact .nil
    | cons x xs ih =>
      rw [List.mapM_cons] at h
      obtain ⟨y, hy, h⟩ := exists_of_bind_eq_ok h
      obtain ⟨ys', hys, h⟩ := exists_of_bind_eq_ok h
      cases h
      exact .cons hy (ih hys)
  · intro h
    induction h with
    | nil => rfl
    | cons hx _ ih =>
      rw [List.mapM_cons, hx, ih]
      rfl

theorem getElem?_of_mapM_eq_ok (h : xs.mapM f = .ok ys) {i : Nat} {x : α} (hx : xs[i]? = some x) :
    ∃ y, ys[i]? = some y ∧ f x = .ok y := by
  obtain ⟨hlength, hget⟩ := List.forall₂_iff_get.1 (mapM_eq_ok_iff.1 h)
  obtain ⟨hi, rfl⟩ := List.getElem?_eq_some_iff.1 hx
  exact ⟨_, List.getElem?_eq_getElem (hlength ▸ hi), hget i hi (hlength ▸ hi)⟩

theorem exists_of_mem_of_mapM_eq_ok (h : xs.mapM f = .ok ys) {y : β} (hy : y ∈ ys) :
    ∃ x ∈ xs, f x = .ok y := by
  obtain ⟨i, hi⟩ := List.getElem?_of_mem hy
  obtain ⟨hlt, -⟩ := List.getElem?_eq_some_iff.1 hi
  have hx : i < xs.length := (mapM_eq_ok_iff.1 h).length_eq ▸ hlt
  obtain ⟨y', hy', hf⟩ := getElem?_of_mapM_eq_ok h (List.getElem?_eq_getElem hx)
  rw [hi, Option.some_inj] at hy'
  exact ⟨xs[i], List.getElem_mem hx, hy' ▸ hf⟩

theorem exists_mapM_eq_ok (h : ∀ x ∈ xs, ∃ y, f x = .ok y) : ∃ ys, xs.mapM f = .ok ys := by
  induction xs with
  | nil => exact ⟨[], rfl⟩
  | cons x xs ih =>
    obtain ⟨y, hy⟩ := h x List.mem_cons_self
    obtain ⟨ys, hys⟩ := ih fun z hz => h z (List.mem_cons_of_mem x hz)
    exact ⟨y :: ys, mapM_eq_ok_iff.2 (.cons hy (mapM_eq_ok_iff.1 hys))⟩

theorem exists_of_mapM_eq_error {e : ε} (h : xs.mapM f = .error e) : ∃ x ∈ xs, f x = .error e := by
  induction xs with
  | nil => contradiction
  | cons x xs ih =>
    rw [List.mapM_cons] at h
    cases hx : f x with
    | error e' =>
      rw [hx] at h
      cases h
      exact ⟨x, List.mem_cons_self, hx⟩
    | ok y =>
      rw [hx] at h
      cases hxs : xs.mapM f with
      | error e' =>
        rw [hxs] at h
        cases h
        obtain ⟨z, hz, hfz⟩ := ih hxs
        exact ⟨z, List.mem_cons_of_mem x hz, hfz⟩
      | ok ys =>
        rw [hxs] at h
        cases h

theorem mapM_eq_range' {f : α → Except ε Nat} {start : Nat}
    (h : ∀ i x, xs[i]? = some x → f x = .ok (start + i)) :
    xs.mapM f = .ok (List.range' start xs.length) := by
  induction xs generalizing start with
  | nil => rfl
  | cons x xs ih =>
    have hxs : ∀ i y, xs[i]? = some y → f y = .ok (start + 1 + i) := by
      intro i y hy
      rw [h (i + 1) y hy, Nat.add_right_comm, Nat.add_assoc]
    rw [List.mapM_cons, h 0 x rfl, ih hxs]
    rfl

end

/-! Results or none. -/

theorem exists_mapM_eq_some {f : α → Option β} {xs : List α} (h : ∀ x ∈ xs, ∃ y, f x = some y) :
    ∃ ys, xs.mapM f = some ys := by
  induction xs with
  | nil => exact ⟨[], rfl⟩
  | cons x xs ih =>
    obtain ⟨y, hy⟩ := h x List.mem_cons_self
    obtain ⟨ys, hys⟩ := ih fun z hz => h z (List.mem_cons_of_mem x hz)
    refine ⟨y :: ys, ?_⟩
    rw [List.mapM_cons, hy, hys]
    rfl

theorem getElem?_of_mapM_eq_some {f : α → Option β} {xs : List α} {ys : List β}
    (h : xs.mapM f = some ys) :
    ys.length = xs.length ∧
    ∀ (i : Nat) y, ys[i]? = some y → ∃ x, xs[i]? = some x ∧ f x = some y := by
  induction xs generalizing ys with
  | nil =>
    rw [List.mapM_nil] at h
    cases h
    exact ⟨rfl, by simp⟩
  | cons x xs ih =>
    rw [List.mapM_cons, Option.bind_eq_bind, Option.bind_eq_some_iff] at h
    obtain ⟨y, hy, h⟩ := h
    rw [Option.bind_eq_bind, Option.bind_eq_some_iff] at h
    obtain ⟨ys', hys, h⟩ := h
    cases h
    obtain ⟨hlength, helems⟩ := ih hys
    refine ⟨by rw [List.length_cons, List.length_cons, hlength], ?_⟩
    intro i y' hy'
    cases i with
    | zero =>
      cases hy'
      exact ⟨x, rfl, hy⟩
    | succ i => exact helems i y' hy'

theorem getElem?_of_mapM_range_eq_some {f : Nat → Option β} {count : Nat} {ys : List β}
    (h : (List.range count).mapM f = some ys) :
    ys.length = count ∧ ∀ (i : Nat) y, ys[i]? = some y → f i = some y := by
  obtain ⟨hlength, helems⟩ := getElem?_of_mapM_eq_some h
  rw [List.length_range] at hlength
  refine ⟨hlength, ?_⟩
  intro i y hy
  obtain ⟨j, hj, hf⟩ := helems i y hy
  obtain ⟨_, hget⟩ := List.getElem?_eq_some_iff.1 hj
  rw [List.getElem_range] at hget
  rw [hget]
  exact hf

theorem mapM_range'_eq_some {f : Nat → Option α} {xs : List α} (k : Nat)
    (h : ∀ (i : Nat) x, xs[i]? = some x → f (k + i) = some x) :
    (List.range' k xs.length).mapM f = some xs := by
  induction xs generalizing k with
  | nil => rfl
  | cons x xs ih =>
    have hhead := h 0 x rfl
    have htail := ih (k + 1) (by
      intro i y hy
      rw [Nat.add_assoc, Nat.add_comm 1]
      exact h (i + 1) y hy)
    rw [Nat.add_zero] at hhead
    rw [List.length_cons, List.range'_succ, List.mapM_cons, hhead, htail]
    rfl

theorem mapM_range_eq_some {f : Nat → Option α} {xs : List α}
    (h : ∀ (i : Nat) x, xs[i]? = some x → f i = some x) :
    (List.range xs.length).mapM f = some xs := by
  rw [List.range_eq_range']
  apply mapM_range'_eq_some
  intro i x hx
  rw [Nat.zero_add]
  exact h i x hx

end RecordCodec
