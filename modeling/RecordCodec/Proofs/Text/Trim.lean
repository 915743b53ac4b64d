import RecordCodec.Text.Trim
import Mathlib.Data.List.DropRight

/-!
This module contains the trimming of texts: only white space goes, and what is left starts and ends
with something else.
-/

namespace RecordCodec.Text

theorem trim_isPrefix_trimStart (cs : List Char) : trim cs <+: trimStart cs :=
  List.rdropWhile_prefix isBlank _

theorem trimStart_eq_self_of_isPrefix {cs ds : List Char} (hfront : ds <+: cs)
    (h : trimStart cs = cs) : trimStart ds = ds := by
  obtain ⟨rest, rfl⟩ := hfront
  cases ds with
  | nil => rfl
  | cons d ds =>
    unfold trimStart at h ⊢
    rw [List.dropWhile_eq_self_iff] at h ⊢
    exact fun _ => h (by simp)

theorem trimStart_trim (cs : List Char) : trimStart (trim cs) = trim cs := by
  apply trimStart_eq_self_of_isPrefix (trim_isPrefix_trimStart cs)
  apply List.dropWhile_idempotent

theorem trim_trim (cs : List Char) : trim (trim cs) = trim cs :=
  calc
    trim (trim cs)
    _ = trimEnd (trim cs) := by rw [trim, trimStart_trim]
    _ = trim cs := List.rdropWhile_idempotent isBlank (trimStart cs)

theorem mem_dropWhile_iff {p : α → Bool} {x : α} (hx : p x = false) {xs : List α} :
    x ∈ xs.dropWhile p ↔ x ∈ xs := by
  induction xs with
  | nil => rfl
  | cons y ys ih =>
    rw [List.dropWhile_cons]
    split
    · next hy =>
      rw [ih, List.mem_cons, or_iff_right]
      rintro rfl
      rw [hx] at hy
      contradiction
    · rfl

theorem mem_trim_iff {c : Char} (h : isBlank c = false) {cs : List Char} : c ∈ trim cs ↔ c ∈ cs := by
  unfold trim trimEnd trimStart
  rw [List.mem_reverse, mem_dropWhile_iff h, List.mem_reverse, mem_dropWhile_iff h]

theorem trim_eq_self_iff {cs : List Char} : trim cs = cs ↔ trimStart cs = cs ∧ trimEnd cs = cs := by
  constructor
  · intro h
    constructor
    · rw [← h]
      exact trimStart_trim cs
    · rw [← h]
      exact List.rdropWhile_idempotent isBlank (trimStart cs)
  · rintro ⟨hstart, hend⟩
    rw [trim, hstart, hend]

theorem trim_append {front cs : List Char} {c : Char} (hfront : front.head? = some c)
    (hc : isBlank c = false) (hne : cs ≠ []) (hcs : trim cs = cs) :
    trim (front ++ cs) = front ++ cs := by
  rw [trim_eq_self_iff] at hcs ⊢
  obtain ⟨rest, rfl⟩ := List.head?_eq_some_iff.1 hfront
  constructor
  · unfold trimStart
    rw [List.cons_append, List.dropWhile_cons_of_neg (by rw [hc]; exact Bool.false_ne_true)]
  · have hlast := List.rdropWhile_eq_self_iff.1 hcs.2 hne
    apply List.rdropWhile_eq_self_iff.2
    intro _
    rwa [List.getLast_append_of_ne_nil _ hne]

end RecordCodec.Text
