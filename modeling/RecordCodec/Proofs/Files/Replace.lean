import Mathlib.Data.List.Nodup
import RecordCodec.Files.Replace
import RecordCodec.Proofs.Files.Disk

/-!
This module contains the theory of the replacement of files. A target has three places on the disk:
those of its temporary file, of its backup and of its goal. `Holds` says what stands at the places
of several targets, and that the disk is as it was at all others. Each step of the replacement
changes the contents of one target.
-/

namespace RecordCodec.Files

/-! Runs. -/

namespace DiskM

variable {α β : Type} (c : Disk)

def exec (m : DiskM α) : Except Fault α × Disk :=
  m.run.run c

@[simp]
theorem exec_pure (a : α) : exec c (pure a) = (.ok a, c) :=
  rfl

@[simp]
theorem exec_throw (f : Fault) : exec c (throw f : DiskM α) = (.error f, c) :=
  rfl

@[simp]
theorem exec_get : exec c get = (.ok c, c) :=
  rfl

@[simp]
theorem exec_set (c' : Disk) : exec c (set c') = (.ok ⟨⟩, c') :=
  rfl

@[simp]
theorem exec_attempt (change : Disk → Option Disk) :
    exec c (attempt change) = (.ok (), (change c).getD c) :=
  rfl

theorem exec_bind (m : DiskM α) (f : α → DiskM β) : exec c (m >>= f) =
    match exec c m with
    | (.ok a, c') => exec c' (f a)
    | (.error e, c') => (.error e, c') := by
  unfold exec
  rw [ExceptT.run_bind, StateT.run_bind]
  cases hm : m.run.run c with
  | mk result c' => cases result <;> rfl

theorem exec_map (f : α → β) (m : DiskM α) : exec c (f <$> m) =
    match exec c m with
    | (.ok a, c') => (.ok (f a), c')
    | (.error e, c') => (.error e, c') := by
  rw [← bind_pure_comp, exec_bind]
  rfl

theorem exec_tryCatch (m : DiskM α) (f : Fault → DiskM α) : exec c (tryCatch m f) =
    match exec c m with
    | (.ok a, c') => (.ok a, c')
    | (.error e, c') => exec c' (f e) := by
  unfold exec
  show (ExceptT.tryCatch m f).run.run c = _
  unfold ExceptT.tryCatch
  rw [ExceptT.run_mk, StateT.run_bind]
  cases hm : m.run.run c with
  | mk result c' =>
    rw [ExceptT.run] at hm
    cases result <;> simp [hm] <;> rfl

end DiskM

/-! Targets. -/

structure Disk.Leads (b : Disk) (path : String) (goal : Option Place) : Prop where
  place : ∀ c, b.KeepsWays c → c.place? path = goal
  entry : ∀ c, b.KeepsWays c → c.entry? path = goal.bind c.get?
  slash : goal.isSome → Disk.endsWithSlash path = false
  parent : ∀ p, goal = some p → ∃ dir name, p = dir ++ [name] ∧ b.get? dir = some .directory

inductive Slot where
  | temporary
  | backup
  | goal
  deriving DecidableEq

abbrev Contents :=
  Slot → Option String

structure Target where
  path : String
  temporary : String
  old : Option String
  text : String
  place : Slot → Option Place

namespace Target

def pathAt (t : Target) : Slot → String
  | .temporary => t.temporary
  | .backup => t.temporary ++ ".bak"
  | .goal => t.path

def untouched (t : Target) : Contents
  | .goal => t.old
  | _ => none

def staged (t : Target) : Contents
  | .temporary => some t.text
  | .backup => none
  | .goal => t.old

def committed (t : Target) : Contents
  | .temporary => none
  | .backup => t.old
  | .goal => some t.text

def finished (t : Target) : Contents
  | .goal => some t.text
  | _ => none

def At (t : Target) (c : Disk) (x : Contents) : Prop :=
  ∀ i p, t.place i = some p → c.get? p = (x i).map .file

def Has (t : Target) (p : Place) : Prop :=
  ∃ i, t.place i = some p

structure Fits (t : Target) (b : Disk) : Prop where
  leads : ∀ i, b.Leads (t.pathAt i) (t.place i)
  apart : ∀ i j p, t.place i = some p → t.place j = some p → i = j
  start : t.At b t.untouched
  temporary : (t.place .temporary).isSome
  old : t.place .goal = none → t.old = none

end Target

structure Holds (b c : Disk) (xs : List (Target × Contents)) : Prop where
  tree : b.IsTree
  fits : ∀ x ∈ xs, x.1.Fits b
  apart : xs.Pairwise fun x y => ∀ p, x.1.Has p → ¬ y.1.Has p
  home : c.home = b.home
  inside : ∀ x ∈ xs, x.1.At c x.2
  outside : ∀ p, (∀ x ∈ xs, ¬ x.1.Has p) → c.get? p = b.get? p

namespace Holds

variable {b c c' : Disk} {xs ys : List (Target × Contents)} {t : Target} {x w : Contents}

theorem keepsWays (h : Holds b c xs) : b.KeepsWays c := by
  refine ⟨h.home, fun p e hp hway => ?_⟩
  rw [h.outside p, hp]
  rintro y hy ⟨i, hi⟩
  rw [(h.fits y hy).start i p hi] at hp
  obtain ⟨text, -, rfl⟩ := Option.map_eq_some_iff.1 hp
  contradiction

theorem isTree (h : Holds b c xs) : c.IsTree := by
  refine ⟨?_, fun dir name e he => ?_⟩
  · rw [h.home]
    exact h.keepsWays.ways _ _ h.tree.home rfl
  · refine h.keepsWays.ways _ _ ?_ rfl
    by_cases hhas : ∃ y ∈ xs, y.1.Has (dir ++ [name])
    · obtain ⟨y, hy, i, hi⟩ := hhas
      obtain ⟨dir', name', heq, hdir⟩ := ((h.fits y hy).leads i).parent _ hi
      rw [(List.append_inj' heq rfl).1]
      exact hdir
    · rw [h.outside _ (by simpa using hhas)] at he
      exact h.tree.parent _ _ _ he

theorem step (h : Holds b c (xs ++ (t, x) :: ys)) (hhome : c'.home = c.home) (hinside : t.At c' w)
    (houtside : ∀ p, ¬ t.Has p → c'.get? p = c.get? p) : Holds b c' (xs ++ (t, w) :: ys) := by
  have happart := h.apart
  rw [List.pairwise_append, List.pairwise_cons] at happart
  obtain ⟨hxs, ⟨ht, hys⟩, hcross⟩ := happart
  have hother : ∀ y ∈ xs ++ ys, ∀ p, y.1.Has p → ¬ t.Has p := by
    intro y hy p hp hhas
    rcases List.mem_append.1 hy with hy | hy
    · exact hcross y hy _ (List.mem_cons_self ..) p hp hhas
    · exact ht y hy p hhas hp
  have hmem : ∀ {z : Contents} {y}, y ∈ xs ++ (t, z) :: ys ↔ y = (t, z) ∨ y ∈ xs ++ ys := by
    grind
  refine ⟨h.tree, ?_, ?_, hhome.trans h.home, ?_, ?_⟩
  · intro y hy
    rcases hmem.1 hy with rfl | hy
    · exact h.fits (t, x) (hmem.2 (.inl rfl))
    · exact h.fits y (hmem.2 (.inr hy))
  · rw [List.pairwise_append, List.pairwise_cons]
    refine ⟨hxs, ⟨ht, hys⟩, fun y hy z hz => ?_⟩
    rcases List.mem_cons.1 hz with rfl | hz
    · exact hcross y hy (t, x) (List.mem_cons_self ..)
    · exact hcross y hy z (List.mem_cons_of_mem _ hz)
  · intro y hy
    rcases hmem.1 hy with rfl | hy
    · exact hinside
    · intro i p hp
      rw [houtside p (hother y hy p ⟨i, hp⟩)]
      exact h.inside y (hmem.2 (.inr hy)) i p hp
  · intro p hp
    rw [houtside p (hp (t, w) (hmem.2 (.inl rfl)))]
    refine h.outside p fun y hy => ?_
    rcases hmem.1 hy with rfl | hy
    · exact hp (t, w) (hmem.2 (.inl rfl))
    · exact hp y (hmem.2 (.inr hy))

theorem add (h : Holds b c xs) (hfits : t.Fits b)
    (hapart : ∀ x ∈ xs, ∀ p, x.1.Has p → ¬ t.Has p) : Holds b c (xs ++ [(t, t.untouched)]) := by
  refine ⟨h.tree, ?_, ?_, h.home, ?_, fun p hp => ?_⟩
  · intro y hy
    rcases List.mem_append.1 hy with hy | hy
    · exact h.fits y hy
    · rw [List.mem_singleton.1 hy]
      exact hfits
  · rw [List.pairwise_append]
    refine ⟨h.apart, List.pairwise_singleton _ _, fun y hy z hz => ?_⟩
    rw [List.mem_singleton.1 hz]
    exact hapart y hy
  · intro y hy
    rcases List.mem_append.1 hy with hy | hy
    · exact h.inside y hy
    · rw [List.mem_singleton.1 hy]
      intro i p hp
      rw [h.outside p fun z hz hhas => hapart z hz p hhas ⟨i, hp⟩]
      exact hfits.start i p hp
  · exact h.outside p fun y hy => hp y (List.mem_append_left _ hy)

/-! Steps on the disk. -/

section

variable (h : Holds b c (xs ++ (t, x) :: ys)) {i j : Slot} {p q : Place} {u : String}

include h

theorem fits_mid : t.Fits b :=
  h.fits (t, x) (by simp)

theorem get?_mid (hp : t.place i = some p) : c.get? p = (x i).map .file :=
  h.inside (t, x) (by simp) i p hp

theorem place?_mid (i : Slot) : c.place? (t.pathAt i) = t.place i :=
  (h.fits_mid.leads i).place c h.keepsWays

theorem entry?_mid (i : Slot) : c.entry? (t.pathAt i) = (t.place i).bind c.get? :=
  (h.fits_mid.leads i).entry c h.keepsWays

theorem endsWithSlash_mid (hp : t.place i = some p) : Disk.endsWithSlash (t.pathAt i) = false :=
  (h.fits_mid.leads i).slash (by simp [hp])

theorem ne_nil_mid (hp : t.place i = some p) : p ≠ [] := by
  obtain ⟨dir, name, rfl, -⟩ := (h.fits_mid.leads i).parent p hp
  simp

theorem step_slot {v : Option String} (hp : t.place i = some p) (hhome : c'.home = c.home)
    (hget : ∀ q, c'.get? q = if q = p then v.map .file else c.get? q)
    (hw : ∀ k, w k = if k = i then v else x k) : Holds b c' (xs ++ (t, w) :: ys) := by
  refine h.step hhome (fun k q hq => ?_) (fun q hq => ?_)
  · rw [hget, hw]
    by_cases hk : k = i
    · subst hk
      rw [if_pos rfl, if_pos (Option.some.inj (hq.symm.trans hp))]
    · rw [if_neg hk, if_neg, h.get?_mid hq]
      rintro rfl
      exact hk (h.fits_mid.apart _ _ _ hq hp)
  · rw [hget, if_neg]
    rintro rfl
    exact hq ⟨i, hp⟩

theorem create? (hp : t.place i = some p) (hi : x i = none)
    (hw : ∀ k, w k = if k = i then some u else x k) :
    ∃ c', c.create? (t.pathAt i) u = some c' ∧ Holds b c' (xs ++ (t, w) :: ys) := by
  refine ⟨c.put p (.file u), ?_, h.step_slot hp rfl (Disk.get?_put (h.ne_nil_mid hp) _) hw⟩
  simp [Disk.create?, h.place?_mid, hp, h.get?_mid hp, hi, h.endsWithSlash_mid hp]

theorem remove? (hp : t.place i = some p) (hi : x i = some u)
    (hw : ∀ k, w k = if k = i then none else x k) :
    ∃ c', c.remove? (t.pathAt i) = some c' ∧ Holds b c' (xs ++ (t, w) :: ys) := by
  refine ⟨c.erase p, ?_, h.step_slot hp rfl (Disk.get?_erase (h.ne_nil_mid hp)) hw⟩
  simp [Disk.remove?, h.place?_mid, hp, h.get?_mid hp, hi, h.endsWithSlash_mid hp]

theorem rename? (hij : i ≠ j) (hp : t.place i = some p) (hq : t.place j = some q)
    (hi : x i = some u) (hj : x j = none)
    (hw : ∀ k, w k = if k = j then some u else if k = i then none else x k) :
    ∃ c', c.rename? (t.pathAt i) (t.pathAt j) = some c' ∧ Holds b c' (xs ++ (t, w) :: ys) := by
  have hgetp := h.get?_mid hp
  have hgetq := h.get?_mid hq
  rw [hi] at hgetp
  rw [hj] at hgetq
  have hpq : p ≠ q := by
    rintro rfl
    exact hij (h.fits_mid.apart _ _ _ hp hq)
  have hmove := Disk.get?_move (h.ne_nil_mid hp) (h.ne_nil_mid hq) hpq
    (h.isTree.leaf (by simp [hgetp]))
  refine ⟨c.move p q, ?_, h.step rfl ?_ ?_⟩
  · simp [Disk.rename?, h.place?_mid, h.entry?_mid, hp, hq, hgetp, hgetq, hpq,
      h.endsWithSlash_mid hp, h.endsWithSlash_mid hq]
  · intro k r hr
    rw [hmove, hw]
    by_cases hkj : k = j
    · subst hkj
      rw [if_pos rfl, if_pos (Option.some.inj (hr.symm.trans hq)), hgetp]
    · have hrq : r ≠ q := by
        rintro rfl
        exact hkj (h.fits_mid.apart _ _ _ hr hq)
      rw [if_neg hkj, if_neg hrq]
      by_cases hki : k = i
      · subst hki
        rw [if_pos rfl, if_pos (Option.some.inj (hr.symm.trans hp))]
        rfl
      · rw [if_neg hki, if_neg, h.get?_mid hr]
        rintro rfl
        exact hki (h.fits_mid.apart _ _ _ hr hp)
  · intro r hr
    rw [hmove, if_neg, if_neg]
    · rintro rfl
      exact hr ⟨i, hp⟩
    · rintro rfl
      exact hr ⟨j, hq⟩

theorem rename?_eq_none (hq : t.place j = none) : c.rename? (t.pathAt i) (t.pathAt j) = none := by
  simp [Disk.rename?, h.place?_mid, hq]

end

end Holds

/-! Steps of the replacement. -/

def Disk.IsBlocked (c : Disk) (path : String) : Prop :=
  c.entry? path = some .directory ∨ ∃ target, c.entry? path = some (.link target)

namespace DiskM

variable {c : Disk} {path : String} (text name : String)

theorem exec_stage_of_isBlocked (h : c.IsBlocked path) :
    ∃ f, exec c (stage path text name) = (.error f, c) := by
  rcases h with h | ⟨target, h⟩
  · simp [stage, exec_bind, h]
  · simp [stage, exec_bind, h]

theorem exec_stage (h : ¬ c.IsBlocked path) : exec c (stage path text name) =
    match c.makeDirectories (parentOf path) with
    | (c', false) => (.error (refused "create" (parentOf path)), c')
    | (c', true) =>
      match c'.create? (temporaryPath (parentOf path) name) text with
      | none => (.error (refused "create temporary file in" (parentOf path)), c')
      | some c'' => (.ok { path, temporary := temporaryPath (parentOf path) name }, c'') := by
  have hentry : c.entry? path = none ∨ ∃ old, c.entry? path = some (.file old) := by
    cases hentry : c.entry? path with
    | none => exact .inl rfl
    | some e =>
      cases e with
      | directory => exact absurd (.inl hentry) h
      | file old => exact .inr ⟨old, rfl⟩
      | link target => exact absurd (.inr ⟨target, hentry⟩) h
  cases hmake : c.makeDirectories (parentOf path) with
  | mk c' isThere =>
    cases isThere with
    | false => rcases hentry with hentry | ⟨old, hentry⟩ <;> simp [stage, exec_bind, hentry, hmake]
    | true =>
      cases hcreate : c'.create? (temporaryPath (parentOf path) name) text <;>
        rcases hentry with hentry | ⟨old, hentry⟩ <;>
        simp [stage, exec_bind, exec_map, hentry, hmake, hcreate]

end DiskM

def Target.record (t : Target) (isCommitted : Bool) : Staged where
  path := t.path
  temporary := t.temporary
  backup := if isCommitted && t.old.isSome then some (t.temporary ++ ".bak") else none
  isCommitted := isCommitted

def Target.contents (t : Target) (isCommitted : Bool) : Contents :=
  if isCommitted then t.committed else t.staged

def Target.HasRoom (t : Target) : Prop :=
  (t.place .goal).isSome ∧ (t.old.isSome → (t.place .backup).isSome)

namespace Holds

variable {b c : Disk} {xs ys : List (Target × Contents)} {t : Target}

open DiskM

theorem undo {isCommitted : Bool} (h : Holds b c (xs ++ (t, t.contents isCommitted) :: ys))
    (hroom : isCommitted = true → t.HasRoom) :
    ∃ c', exec c (undo (t.record isCommitted)) = (.ok (), c') ∧
      Holds b c' (xs ++ (t, t.untouched) :: ys) := by
  cases isCommitted with
  | false =>
    obtain ⟨tmp, htmp⟩ := Option.isSome_iff_exists.1 h.fits_mid.temporary
    obtain ⟨c', hremove, hc'⟩ := h.remove? (w := t.untouched) (u := t.text) htmp rfl
      (by intro k; cases k <;> rfl)
    simp only [Target.pathAt] at hremove
    exact ⟨c', by simp [Files.undo, Target.record, hremove], hc'⟩
  | true =>
    obtain ⟨hgoal, hbackup⟩ := hroom rfl
    obtain ⟨goal, hgoal⟩ := Option.isSome_iff_exists.1 hgoal
    cases hold : t.old with
    | none =>
      obtain ⟨c', hremove, hc'⟩ := h.remove? (w := t.untouched) (u := t.text) hgoal rfl
        (by intro k; cases k <;> simp [Target.untouched, Target.contents, Target.committed, hold])
      simp only [Target.pathAt] at hremove
      exact ⟨c', by simp [Files.undo, Target.record, hremove, hold], hc'⟩
    | some old =>
      obtain ⟨backup, hbackup⟩ := Option.isSome_iff_exists.1 (hbackup (by simp [hold]))
      obtain ⟨c₁, hremove, hc₁⟩ := h.remove? (u := t.text) hgoal rfl (fun _ => rfl)
      obtain ⟨c₂, hrename, hc₂⟩ := hc₁.rename? (i := .backup) (w := t.untouched) (by decide)
        hbackup hgoal hold rfl
        (by intro k; cases k <;> simp [Target.untouched, Target.contents, Target.committed, hold])
      simp only [Target.pathAt] at hremove hrename
      exact ⟨c₂, by simp [Files.undo, Target.record, hremove, hold, exec_bind, hrename], hc₂⟩

theorem commit (h : Holds b c (xs ++ (t, t.staged) :: ys)) :
    (∃ c', exec c (commit (t.record false)) = (.ok (t.record true), c') ∧ t.HasRoom ∧
      Holds b c' (xs ++ (t, t.committed) :: ys)) ∨
    ∃ f, exec c (commit (t.record false)) = (.error f, c) := by
  have hentry := h.entry?_mid .goal
  obtain ⟨tmp, htmp⟩ := Option.isSome_iff_exists.1 h.fits_mid.temporary
  simp only [Target.pathAt] at hentry
  cases hgoal : t.place .goal with
  | none =>
    have hrename := h.rename?_eq_none (i := .temporary) hgoal
    simp only [Target.pathAt] at hrename
    right
    simp [Files.commit, Target.record, exec_bind, hentry, hgoal, hrename]
  | some goal =>
    have hget := h.get?_mid hgoal
    cases hold : t.old with
    | none =>
      obtain ⟨c', hrename, hc'⟩ := h.rename? (i := .temporary) (w := t.committed) (u := t.text)
        (by decide) htmp hgoal rfl hold
        (by intro k; cases k <;> simp [Target.committed, Target.staged, hold])
      simp only [Target.pathAt] at hrename
      refine .inl ⟨c', ?_, ⟨by simp [hgoal], by simp [hold]⟩, hc'⟩
      simp [Files.commit, Target.record, exec_bind, exec_map, hentry, hgoal, hget, Target.staged,
        hold, hrename]
    | some old =>
      cases hbackup : t.place .backup with
      | none =>
        have hrename := h.rename?_eq_none (i := .goal) hbackup
        simp only [Target.pathAt] at hrename
        right
        simp [Files.commit, Target.record, exec_bind, hentry, hgoal, hget, Target.staged, hold,
          hrename]
      | some backup =>
        obtain ⟨c₁, hsave, hc₁⟩ := h.rename? (i := .goal) (j := .backup) (by decide) hgoal hbackup
          hold rfl (fun _ => rfl)
        obtain ⟨c₂, hrename, hc₂⟩ := hc₁.rename? (i := .temporary) (w := t.committed)
          (u := t.text) (by decide) htmp hgoal rfl rfl
          (by intro k; cases k <;> simp [Target.committed, hold])
        simp only [Target.pathAt] at hsave hrename
        refine .inl ⟨c₂, ?_, ⟨by simp [hgoal], by simp [hbackup]⟩, hc₂⟩
        simp [Files.commit, Target.record, exec_bind, exec_map, hentry, hgoal, hget, Target.staged,
          hold, hsave, hrename]

theorem get?_eq (h : Holds b c xs) (hxs : ∀ x ∈ xs, x.2 = x.1.untouched) (p : Place) :
    c.get? p = b.get? p := by
  by_cases hhas : ∃ x ∈ xs, x.1.Has p
  · obtain ⟨x, hx, i, hi⟩ := hhas
    rw [h.inside x hx i p hi, (h.fits x hx).start i p hi, hxs x hx]
  · exact h.outside p (by simpa using hhas)

end Holds

def Target.withContents (x : Target × Bool) : Target × Contents :=
  (x.1, x.1.contents x.2)

namespace Holds

variable {b c : Disk} {ys : List (Target × Contents)}

open DiskM

theorem rollBack {xs : List (Target × Bool)} (h : Holds b c (xs.map Target.withContents ++ ys))
    (hxs : ∀ x ∈ xs, x.2 = true → x.1.HasRoom) :
    ∃ c', exec c (rollBack (xs.map fun x => x.1.record x.2)) = (.ok (), c') ∧
      Holds b c' (xs.map (fun x => (x.1, x.1.untouched)) ++ ys) := by
  induction xs using List.reverseRecOn generalizing c ys with
  | nil => exact ⟨c, rfl, h⟩
  | append_singleton xs x ih =>
    rw [List.map_append, List.map_singleton, List.append_assoc, List.singleton_append] at h
    obtain ⟨c₁, hundo, hc₁⟩ := h.undo (hxs x (by simp))
    obtain ⟨c₂, hroll, hc₂⟩ := ih hc₁ fun y hy => hxs y (by simp [hy])
    refine ⟨c₂, ?_, by simpa using hc₂⟩
    unfold Files.rollBack at hroll ⊢
    rw [List.map_append, List.map_singleton, List.reverse_append, List.reverse_singleton,
      List.singleton_append, List.forM, exec_bind, hundo]
    exact hroll

theorem rollBack_throw {α : Type} {xs : List (Target × Bool)}
    (h : Holds b c (xs.map Target.withContents)) (hxs : ∀ x ∈ xs, x.2 = true → x.1.HasRoom)
    (f : Fault) :
    ∃ c', exec c (do Files.rollBack (xs.map fun x => x.1.record x.2); throw f : DiskM α) =
        (.error f, c') ∧ c'.home = b.home ∧ ∀ p, c'.get? p = b.get? p := by
  rw [← List.append_nil (xs.map _)] at h
  obtain ⟨c', hroll, hc'⟩ := h.rollBack hxs
  rw [List.append_nil] at hc'
  refine ⟨c', ?_, hc'.home, hc'.get?_eq (by simp)⟩
  simp [exec_bind, hroll]

theorem commitAll (done : List Target) {rest : List Target}
    (h : Holds b c (done.map (fun t => (t, t.committed)) ++ rest.map (fun t => (t, t.staged))))
    (hdone : ∀ t ∈ done, t.HasRoom) :
    (∃ c', exec c (commitAll (done.map (·.record true)) (rest.map (·.record false))) =
        (.ok ((done ++ rest).map (·.record true)), c') ∧
      (∀ t ∈ done ++ rest, t.HasRoom) ∧ Holds b c' ((done ++ rest).map fun t => (t, t.committed))) ∨
    ∃ f c', exec c (commitAll (done.map (·.record true)) (rest.map (·.record false))) =
        (.error f, c') ∧ c'.home = b.home ∧ ∀ p, c'.get? p = b.get? p := by
  induction rest generalizing c done with
  | nil =>
    rw [List.map_nil, List.append_nil] at h
    rw [List.append_nil]
    exact .inl ⟨c, rfl, hdone, h⟩
  | cons t rest ih =>
    rw [List.map_cons] at h ⊢
    rw [Files.commitAll, exec_bind, exec_tryCatch]
    rcases h.commit with ⟨c', hcommit, hroom, hc'⟩ | ⟨f, hcommit⟩
    · rw [hcommit]
      dsimp only
      have hmap : done.map (·.record true) ++ [t.record true] =
          (done ++ [t]).map (·.record true) := by
        simp
      have happend : done ++ t :: rest = done ++ [t] ++ rest := by simp
      rw [hmap, happend]
      apply ih
      · simpa using hc'
      · intro s hs
        rcases List.mem_append.1 hs with hs | hs
        · exact hdone s hs
        · rw [List.mem_singleton.1 hs]
          exact hroom
    · rw [hcommit]
      dsimp only
      let xs := done.map (·, true) ++ (t :: rest).map (·, false)
      have hxs : Holds b c (xs.map Target.withContents) := by
        simpa [xs, Target.withContents, Target.contents, Function.comp_def] using h
      have hrecords : xs.map (fun x => x.1.record x.2) =
          done.map (·.record true) ++ t.record false :: rest.map (·.record false) := by
        simp [xs, Function.comp_def]
      obtain ⟨c', hroll, hc'⟩ := hxs.rollBack_throw (by simpa [xs] using hdone) f (α := Staged)
      rw [hrecords] at hroll
      rw [hroll]
      exact .inr ⟨f, c', rfl, hc'⟩

theorem exec_dropBackups_cons (c : Disk) (s : Staged) (rest : List Staged) :
    exec c (Files.dropBackups (s :: rest)) =
      match exec c (Files.dropBackups [s]) with
      | (.ok _, c') => exec c' (Files.dropBackups rest)
      | (.error e, c') => (.error e, c') := by
  unfold Files.dropBackups
  rw [List.forM, exec_bind, List.forM, exec_bind]
  split <;> simp [List.forM, *]

theorem dropBackup {xs : List (Target × Contents)} {t : Target}
    (h : Holds b c (xs ++ (t, t.committed) :: ys)) (hroom : t.HasRoom) :
    ∃ c', exec c (Files.dropBackups [t.record true]) = (.ok (), c') ∧
      Holds b c' (xs ++ (t, t.finished) :: ys) := by
  unfold Files.dropBackups
  rw [List.forM, exec_bind]
  cases hold : t.old with
  | none =>
    refine ⟨c, by simp [Target.record, hold, List.forM], ?_⟩
    have hsame : t.finished = t.committed := by
      funext k
      cases k <;> simp [Target.finished, Target.committed, hold]
    rw [hsame]
    exact h
  | some old =>
    obtain ⟨backup, hbackup⟩ := Option.isSome_iff_exists.1 (hroom.2 (by simp [hold]))
    obtain ⟨c', hremove, hc'⟩ := h.remove? (w := t.finished) hbackup hold
      (by intro k; cases k <;> rfl)
    simp only [Target.pathAt] at hremove
    exact ⟨c', by simp [Target.record, hold, hremove, List.forM], hc'⟩

theorem dropBackups (done : List Target) {rest : List Target}
    (h : Holds b c (done.map (fun t => (t, t.finished)) ++ rest.map (fun t => (t, t.committed))))
    (hrest : ∀ t ∈ rest, t.HasRoom) :
    ∃ c', exec c (dropBackups (rest.map (·.record true))) = (.ok (), c') ∧
      Holds b c' ((done ++ rest).map fun t => (t, t.finished)) := by
  induction rest generalizing c done with
  | nil =>
    refine ⟨c, rfl, ?_⟩
    simpa using h
  | cons t rest ih =>
    rw [List.map_cons] at h
    obtain ⟨c₁, hfirst, hc₁⟩ := h.dropBackup (hrest t (List.mem_cons_self ..))
    have hc₁' : Holds b c₁ ((done ++ [t]).map (fun t => (t, t.finished)) ++
        rest.map (fun t => (t, t.committed))) := by
      simpa using hc₁
    obtain ⟨c₂, hothers, hc₂⟩ := ih _ hc₁' fun s hs => hrest s (List.mem_cons_of_mem _ hs)
    refine ⟨c₂, ?_, by simpa using hc₂⟩
    rw [List.map_cons, exec_dropBackups_cons, hfirst]
    exact hothers

end Holds

/-! The order of targets. -/

theorem eraseReps_of_nodup {paths : List String} (h : paths.Nodup) : paths.eraseReps = paths := by
  have hloop : ∀ (rest : List String) (path : String) (done : List String), (path :: rest).Nodup →
      List.eraseRepsBy.loop (· == ·) path rest done = done.reverse ++ path :: rest := by
    intro rest
    induction rest with
    | nil => simp [List.eraseRepsBy.loop]
    | cons next rest ih =>
      intro path done hnodup
      have hne : (path == next) = false := by
        rw [beq_eq_false_iff_ne]
        rintro rfl
        simp at hnodup
      rw [List.eraseRepsBy.loop, hne, ih next _ (List.nodup_cons.1 hnodup).2, List.reverse_cons,
        List.append_assoc, List.singleton_append]
  cases paths with
  | nil => rfl
  | cons path rest => exact hloop rest path [] h

section

variable {files : List (String × String)} (h : (files.map Prod.fst).Nodup)

include h

theorem map_fst_writeOrder : ((writeOrder files).map Prod.fst).Perm (files.map Prod.fst) := by
  have hfind : ∀ paths : List String, (∀ path ∈ paths, path ∈ files.map Prod.fst) →
      (paths.filterMap fun path => files.reverse.find? (·.1 == path)).map Prod.fst = paths := by
    intro paths
    induction paths with
    | nil => simp
    | cons path paths ih =>
      intro hpaths
      obtain ⟨file, hfile, rfl⟩ := List.mem_map.1 (hpaths path (List.mem_cons_self ..))
      obtain ⟨found, hfound⟩ : ∃ found, files.reverse.find? (·.1 == file.1) = some found := by
        rw [← Option.isSome_iff_exists, List.find?_isSome]
        exact ⟨file, List.mem_reverse.2 hfile, by simp⟩
      have heq := List.find?_some hfound
      rw [List.filterMap_cons, hfound]
      dsimp only
      rw [List.map_cons, eq_of_beq heq,
        ih fun other hother => hpaths other (List.mem_cons_of_mem _ hother)]
  have hperm := List.mergeSort_perm (files.map Prod.fst) fun a b => decide (a ≤ b)
  unfold writeOrder
  dsimp only
  rw [eraseReps_of_nodup (hperm.nodup_iff.2 h), hfind]
  · exact hperm
  · intro path hpath
    exact hperm.mem_iff.1 hpath

theorem mem_writeOrder {file : String × String} : file ∈ writeOrder files ↔ file ∈ files := by
  have hmem : ∀ {other}, other ∈ writeOrder files → other ∈ files := by
    intro other hother
    obtain ⟨path, -, hfind⟩ := List.mem_filterMap.1 hother
    exact List.mem_reverse.1 (List.mem_of_find?_eq_some hfind)
  refine ⟨hmem, fun hfile => ?_⟩
  have hpath := (map_fst_writeOrder h).mem_iff.2 (List.mem_map_of_mem hfile)
  obtain ⟨other, hother, heq⟩ := List.mem_map.1 hpath
  rw [← List.inj_on_of_nodup_map h (hmem hother) hfile heq]
  exact hother

theorem pairwise_writeOrder : (writeOrder files).Pairwise fun f g => f.1 ≠ g.1 := by
  have hnodup := (map_fst_writeOrder h).nodup_iff.2 h
  rw [List.Nodup, List.pairwise_map] at hnodup
  exact hnodup

end

end RecordCodec.Files
