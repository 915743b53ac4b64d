import RecordCodec.Proofs.Codec.Stored
import RecordCodec.Proofs.Planner.Assembled

/-!
This module contains what writing a whole struct leaves in a buffer: where each field of the table
stands, what stands there, and that nothing but the limit of growth can stop it.
-/

namespace RecordCodec

open RecordCodec.Table

namespace Binding

structure Fits (bd : Binding) (struct : Array Value) : Prop where
  wellFormed : bd.plan.WellFormed
  holds : ∀ (i : Nat) f, bd.plan.fields[i]? = some f → f.type.Holds (bd.value struct i)

def presentAt (bd : Binding) (struct : Array Value) (i : Nat) : Bool :=
  (bd.plan.fields[i]?.map fun f => f.type.present (bd.value struct i)).getD false

def used (bd : Binding) (struct : Array Value) (is : List Nat) : Nat :=
  Layout.total ((is.filter (bd.presentAt struct)).map bd.plan.widthAt)

def objectsCost (bd : Binding) (struct : Array Value) (is : List Nat) : Nat :=
  Layout.total (is.map fun i => (bd.value struct i).objectCost)

theorem presentAt_eq {bd : Binding} {struct : Array Value} {i : Nat} {f : Field}
    (h : bd.plan.fields[i]? = some f) :
    bd.presentAt struct i = f.type.present (bd.value struct i) := by
  unfold presentAt
  rw [h]
  rfl

theorem used_append (bd : Binding) (struct : Array Value) (is js : List Nat) :
    bd.used struct (is ++ js) = bd.used struct is + bd.used struct js := by
  unfold used
  rw [List.filter_append, List.map_append, Layout.total_append]

theorem used_singleton_of_present {bd : Binding} {struct : Array Value} {i : Nat}
    (h : bd.presentAt struct i = true) : bd.used struct [i] = bd.plan.widthAt i := by
  unfold used
  simp [h]

theorem used_singleton_of_absent {bd : Binding} {struct : Array Value} {i : Nat}
    (h : bd.presentAt struct i = false) : bd.used struct [i] = 0 := by
  unfold used
  simp [h]

theorem used_le (bd : Binding) (struct : Array Value) (is : List Nat) :
    bd.used struct is ≤ Layout.total (is.map bd.plan.widthAt) := by
  induction is with
  | nil => simp [used]
  | cons i is ih =>
    have happend := bd.used_append struct [i] is
    rw [List.singleton_append] at happend
    rw [happend, List.map_cons, Layout.total_cons]
    cases hpresent : bd.presentAt struct i with
    | true =>
      rw [used_singleton_of_present hpresent]
      omega
    | false =>
      rw [used_singleton_of_absent hpresent]
      omega

theorem used_commit_le {bd : Binding} {struct : Array Value} (h : bd.Fits struct) :
    bd.used struct bd.plan.commit ≤ bd.plan.layout.size := by
  rw [h.wellFormed.layout_size]
  apply used_le

theorem Fits.used_pos {bd : Binding} {struct : Array Value} (h : bd.Fits struct) {i : Nat}
    {is : List Nat} (hi : i ∈ is) (hsize : i < bd.plan.fields.size)
    (hpresent : bd.presentAt struct i = true) : 0 < bd.used struct is := by
  obtain ⟨front, back, rfl⟩ := List.append_of_mem hi
  have hwidth := h.wellFormed.widthAt_pos hsize
  have happend := bd.used_append struct [i] back
  rw [List.singleton_append] at happend
  rw [used_append, happend, used_singleton_of_present hpresent]
  omega

structure Built (bd : Binding) (struct : Array Value) (b b' : Builder) (offs : Array (Option Nat)) :
    Prop where
  extends_ : b.Extends b'
  offset_le : b'.offset ≤ b.offset + bd.objectsCost struct bd.plan.indirect
  holds : ∀ (i : Nat) f, bd.plan.fields[i]? = some f → f.type.isIndirect = true →
    f.type.HoldsBuilt (bd.value struct i) b'.written ((offs[i]?).getD none)

structure Building (bd : Binding) (struct : Array Value) (b : Builder) (rem : List Nat)
    (state : Builder × Array (Option Nat)) : Prop where
  extends_ : b.Extends state.1
  offset_le : state.1.offset + bd.objectsCost struct rem ≤
    b.offset + bd.objectsCost struct bd.plan.indirect
  size : state.2.size = bd.plan.fields.size
  subset : ∀ i ∈ rem, i ∈ bd.plan.indirect
  holds : ∀ (i : Nat) f, bd.plan.fields[i]? = some f → i ∈ bd.plan.indirect → i ∉ rem →
    f.type.HoldsBuilt (bd.value struct i) state.1.written ((state.2[i]?).getD none)

theorem buildObjects_step {bd : Binding} {struct : Array Value} {b : Builder} {i : Nat}
    {rem : List Nat} {state : Builder × Array (Option Nat)} (h : bd.Fits struct)
    (hb : b.isNested = false) (hstate : bd.Building struct b (i :: rem) state) :
    Reaches (b.offset + bd.objectsCost struct bd.plan.indirect)
      (buildObjects.step bd struct state i) (bd.Building struct b rem) := by
  obtain ⟨f, hf, hindirect⟩ := h.wellFormed.mem_indirect.1 (hstate.subset i (List.mem_cons_self ..))
  obtain ⟨hi, -⟩ := Array.getElem?_eq_some_iff.1 hf
  have hnested : state.1.isNested = false := by rw [hstate.extends_.isNested, hb]
  have hle := hstate.offset_le
  have hcost : bd.objectsCost struct (i :: rem) =
      (bd.value struct i).objectCost + bd.objectsCost struct rem := rfl
  unfold buildObjects.step
  simp only [hf]
  apply Reaches.bind ((FieldType.build_reaches (h.wellFormed.isKnown hf) (h.holds i f hf) hindirect
    hnested).mono (by omega) (fun _ h => h))
  rintro ⟨b', off⟩ ⟨hextends, hoffset, hbuilt⟩
  apply Reaches.pure
  refine ⟨hstate.extends_.trans hextends, ?_, ?_, ?_, ?_⟩
  · dsimp only
    omega
  · rw [Array.size_setIfInBounds]
    exact hstate.size
  · intro j hj
    exact hstate.subset j (List.mem_cons_of_mem _ hj)
  · intro j g hg hmem hrem
    dsimp only
    by_cases hji : j = i
    · subst hji
      rw [hf] at hg
      cases hg
      rw [Array.getElem?_setIfInBounds_self_of_lt (by rw [hstate.size]; exact hi)]
      exact hbuilt
    · rw [Array.getElem?_setIfInBounds_ne (Ne.symm hji)]
      obtain ⟨bytes, hwritten⟩ := hextends.written
      rw [hwritten]
      apply FieldType.HoldsBuilt.prepend
      apply hstate.holds j g hg hmem
      simp [hji, hrem]

theorem buildObjects_reaches {bd : Binding} {struct : Array Value} {b : Builder}
    (h : bd.Fits struct) (hb : b.isNested = false) :
    Reaches (b.offset + bd.objectsCost struct bd.plan.indirect) (bd.buildObjects struct b)
      fun (b', offs) => bd.Built struct b b' offs := by
  unfold buildObjects
  apply (Reaches.foldlM (bd.Building struct b) (fun i rem state => buildObjects_step h hb)
    bd.plan.indirect (b, Array.replicate bd.plan.fields.size none) ?_).mono (Nat.le_refl _)
  · rintro ⟨b', offs⟩ hstate
    refine ⟨hstate.extends_, hstate.offset_le, ?_⟩
    intro i f hf hindirect
    exact hstate.holds i f hf (h.wellFormed.mem_indirect.2 ⟨f, hf, hindirect⟩) (List.not_mem_nil)
  · refine ⟨Builder.Extends.refl b, Nat.le_refl _, Array.size_replicate .., fun _ hi => hi, ?_⟩
    intro i f hf hmem hrem
    contradiction

/--
The fields `done` of the table that was opened in `b₀` are committed, and the fields `rem` are still
to come. What is present of the former stands one after the other, from the offset `base` on.
-/
structure Committing (bd : Binding) (struct : Array Value) (b₀ : Builder) (done rem : List Nat)
    (base : Nat) (b : Builder) : Prop where
  commit_eq : bd.plan.commit = done ++ rem
  written : ∃ bytes, b.written = bytes ++ b₀.written
  minAlign : b.minAlign ∣ 8
  objectEnd : b.objectEnd = b₀.objectEnd
  vtables : b.vtables = b₀.vtables
  isNested : b.isNested = b₀.isNested
  size : b.vtable.size = bd.plan.fields.size
  /-- There is padding in front of the first field that is present, and nowhere else. -/
  base_eq : bd.used struct done = 0 → base = b₀.offset
  base_le : b₀.offset ≤ base ∧ base ≤ b₀.offset + 8
  offset : b.offset = base + bd.used struct done
  base_dvd : ∀ i ∈ done, bd.presentAt struct i = true → bd.plan.widthAt i ∣ base
  aligned : bd.used struct done ≠ 0 → ∀ i ∈ rem,
    bd.plan.widthAt i ∣ base ∧ bd.plan.widthAt i ∣ b.offset
  absent : ∀ (i : Nat), i < bd.plan.fields.size → i ∈ rem ∨ bd.presentAt struct i = false →
    b.vtable[i]? = some 0
  placed : ∀ is i js, done = is ++ i :: js → bd.presentAt struct i = true →
    b.vtable[i]? = some (base + bd.used struct is + bd.plan.widthAt i)
  holds : ∀ (i : Nat) f off, bd.plan.fields[i]? = some f → b.vtable[i]? = some off → off ≠ 0 →
    f.type.HoldsField (bd.value struct i) b.written off

theorem append_singleton_eq_append_cons {is js done : List Nat} {i j : Nat}
    (h : done ++ [i] = is ++ j :: js) :
    (is = done ∧ j = i) ∨ ∃ js', done = is ++ j :: js' := by
  rcases List.eq_nil_or_concat js with rfl | ⟨js', k, rfl⟩
  · left
    obtain ⟨hdone, hij⟩ := List.append_inj' h rfl
    cases hij
    exact ⟨hdone.symm, rfl⟩
  · right
    refine ⟨js', ?_⟩
    rw [List.concat_eq_append, ← List.cons_append, ← List.append_assoc] at h
    exact (List.append_inj' h rfl).1

namespace Committing

variable {bd : Binding} {struct : Array Value} {b₀ b b' : Builder} {done rem : List Nat}
  {base i : Nat}

theorem lt_size (hfits : bd.Fits struct) (h : bd.Committing struct b₀ done rem base b)
    (hi : i ∈ done ∨ i ∈ rem) : i < bd.plan.fields.size := by
  apply hfits.wellFormed.mem_commit.1
  rw [h.commit_eq]
  exact List.mem_append.2 hi

theorem not_mem (hfits : bd.Fits struct) (h : bd.Committing struct b₀ done (i :: rem) base b) :
    i ∉ done ∧ i ∉ rem := by
  have hnodup := hfits.wellFormed.nodup_commit
  rw [h.commit_eq] at hnodup
  obtain ⟨-, hrem, hdisjoint⟩ := List.nodup_append.1 hnodup
  constructor
  · intro hi
    exact hdisjoint i hi i (List.mem_cons_self ..) rfl
  · exact (List.nodup_cons.1 hrem).1

theorem start (hvtable : b.vtable = Array.replicate bd.plan.fields.size 0)
    (halign : b.minAlign ∣ 8) : bd.Committing struct b [] bd.plan.commit b.offset b := by
  refine {
    commit_eq := rfl
    written := ⟨[], rfl⟩
    minAlign := halign
    objectEnd := rfl
    vtables := rfl
    isNested := rfl
    size := by rw [hvtable, Array.size_replicate]
    base_eq := fun _ => rfl
    base_le := by omega
    offset := rfl
    base_dvd := ?_
    aligned := fun hpos => absurd rfl hpos
    absent := ?_
    placed := ?_
    holds := ?_ }
  · intro i hi
    contradiction
  · intro i hi _
    rw [hvtable, Array.getElem?_replicate, if_pos hi]
  · intro is i js hnil
    simp at hnil
  · intro i f off _ hoff hne
    rw [hvtable, Array.getElem?_replicate] at hoff
    split at hoff
    · cases hoff
      contradiction
    · contradiction

theorem commit_eq_append (h : bd.Committing struct b₀ done (i :: rem) base b) :
    bd.plan.commit = (done ++ [i]) ++ rem := by
  rw [h.commit_eq, List.append_assoc, List.singleton_append]

theorem absent_of_rem (h : bd.Committing struct b₀ done (i :: rem) base b) {j : Nat}
    (hsize : j < bd.plan.fields.size) (hj : j ∈ rem ∨ bd.presentAt struct j = false) :
    b.vtable[j]? = some 0 := by
  apply h.absent j hsize
  rcases hj with hj | hj
  · exact .inl (List.mem_cons_of_mem _ hj)
  · exact .inr hj

theorem skip (h : bd.Committing struct b₀ done (i :: rem) base b)
    (habsent : bd.presentAt struct i = false) :
    bd.Committing struct b₀ (done ++ [i]) rem base b := by
  have hused : bd.used struct (done ++ [i]) = bd.used struct done := by
    rw [used_append, used_singleton_of_absent habsent, Nat.add_zero]
  refine { h with
    commit_eq := h.commit_eq_append
    base_eq := ?_
    offset := ?_
    base_dvd := ?_
    aligned := ?_
    absent := fun _ => h.absent_of_rem
    placed := ?_ }
  · rw [hused]
    exact h.base_eq
  · rw [hused]
    exact h.offset
  · intro j hj hpresent
    rcases List.mem_append.1 hj with hj | hj
    · exact h.base_dvd j hj hpresent
    · rw [List.mem_singleton.1 hj, habsent] at hpresent
      contradiction
  · rw [hused]
    intro hpos j hj
    exact h.aligned hpos j (List.mem_cons_of_mem _ hj)
  · intro is j js hdone hpresent
    rcases append_singleton_eq_append_cons hdone with ⟨-, rfl⟩ | ⟨js', hdone'⟩
    · rw [habsent] at hpresent
      contradiction
    · exact h.placed is j js' hdone' hpresent

theorem padding_eq_zero (h : bd.Committing struct b₀ done (i :: rem) base b)
    (hpos : bd.used struct done ≠ 0) : Layout.padding b.offset (bd.plan.widthAt i) = 0 := by
  apply Layout.padding_eq_zero
  exact (h.aligned hpos i (List.mem_cons_self ..)).2

theorem dvd_base_add_padding (hfits : bd.Fits struct)
    (h : bd.Committing struct b₀ done (i :: rem) base b) {j : Nat} (hj : j ∈ i :: rem)
    (hdvd : bd.plan.widthAt j ∣ bd.plan.widthAt i) :
    bd.plan.widthAt j ∣ base + Layout.padding b.offset (bd.plan.widthAt i) := by
  have hi := h.lt_size hfits (.inr (List.mem_cons_self ..))
  by_cases hzero : bd.used struct done = 0
  · have hbase : base = b.offset := by
      rw [h.offset, hzero, Nat.add_zero]
    rw [hbase]
    exact Nat.dvd_trans hdvd (Layout.dvd_add_padding b.offset (hfits.wellFormed.widthAt_pos hi))
  · rw [h.padding_eq_zero hzero, Nat.add_zero]
    exact (h.aligned hzero j hj).1

theorem base_add_padding (hfits : bd.Fits struct)
    (h : bd.Committing struct b₀ done (i :: rem) base b) {j : Nat} (hj : j ∈ done)
    (hpresent : bd.presentAt struct j = true) :
    base + Layout.padding b.offset (bd.plan.widthAt i) = base := by
  have hpos := hfits.used_pos hj (h.lt_size hfits (.inl hj)) hpresent
  rw [h.padding_eq_zero (Nat.ne_of_gt hpos), Nat.add_zero]

theorem take (hfits : bd.Fits struct) (h : bd.Committing struct b₀ done (i :: rem) base b)
    {f : Field} (hf : bd.plan.fields[i]? = some f) (hpresent : bd.presentAt struct i = true)
    (hslotted : Slotted b b' i (bd.plan.widthAt i))
    (hfield : f.type.HoldsField (bd.value struct i) b'.written b'.offset) :
    bd.Committing struct b₀ (done ++ [i]) rem
      (base + Layout.padding b.offset (bd.plan.widthAt i)) b' := by
  have hi := h.lt_size hfits (.inr (List.mem_cons_self ..))
  have hwidth := hfits.wellFormed.widthAt_pos hi
  have hwidth_dvd := hfits.wellFormed.widthAt_dvd hi
  have hsmaller := hfits.wellFormed.widthAt_dvd_of_mem_right h.commit_eq
  have hused : bd.used struct (done ++ [i]) = bd.used struct done + bd.plan.widthAt i := by
    rw [used_append, used_singleton_of_present hpresent]
  have hoffset := hslotted.offset
  have hoffset₀ := h.offset
  have hself := hslotted.getElem?_self (by rw [h.size]; exact hi)
  obtain ⟨hdone, hrem⟩ := h.not_mem hfits
  -- only the first field that is present has padding behind it, so the base moves at most once
  refine {
    commit_eq := h.commit_eq_append
    written := ?_
    minAlign := ?_
    objectEnd := by rw [hslotted.objectEnd, h.objectEnd]
    vtables := by rw [hslotted.vtables, h.vtables]
    isNested := by rw [hslotted.isNested, h.isNested]
    size := by rw [hslotted.vtable, Array.size_setIfInBounds, h.size]
    base_eq := by omega
    base_le := ?_
    offset := by omega
    base_dvd := ?_
    aligned := ?_
    absent := ?_
    placed := ?_
    holds := ?_ }
  · obtain ⟨bytes, hwritten⟩ := hslotted.written
    obtain ⟨bytes₀, hwritten₀⟩ := h.written
    rw [hwritten, hwritten₀, ← List.append_assoc]
    exact ⟨_, rfl⟩
  · rw [hslotted.minAlign]
    exact max_dvd h.minAlign hwidth_dvd
  · have hle := h.base_le
    have hwidth_le := Nat.le_of_dvd (by decide) hwidth_dvd
    have hpad_lt := Layout.padding_lt b.offset hwidth
    by_cases hzero : bd.used struct done = 0
    · have := h.base_eq hzero
      omega
    · rw [h.padding_eq_zero hzero]
      omega
  · intro j hj hpresent'
    rcases List.mem_append.1 hj with hj | hj
    · rw [h.base_add_padding hfits hj hpresent']
      exact h.base_dvd j hj hpresent'
    · rw [List.mem_singleton.1 hj]
      exact h.dvd_base_add_padding hfits (List.mem_cons_self ..) (Nat.dvd_refl _)
  · intro _ j hj
    refine ⟨h.dvd_base_add_padding hfits (List.mem_cons_of_mem _ hj) (hsmaller j hj), ?_⟩
    rw [hoffset]
    exact Nat.dvd_add (Nat.dvd_trans (hsmaller j hj) (Layout.dvd_add_padding b.offset hwidth))
      (hsmaller j hj)
  · intro j hsize hj
    have hji : j ≠ i := by
      rintro rfl
      rcases hj with hj | hj
      · contradiction
      · rw [hpresent] at hj
        contradiction
    rw [hslotted.getElem?_of_ne hji]
    exact h.absent_of_rem hsize hj
  · intro is j js hsplit hpresent'
    rcases append_singleton_eq_append_cons hsplit with ⟨rfl, rfl⟩ | ⟨js', hdone'⟩
    · rw [hself, Option.some.injEq]
      omega
    · have hj : j ∈ done := by
        rw [hdone']
        simp
      have hji : j ≠ i := by
        rintro rfl
        contradiction
      rw [hslotted.getElem?_of_ne hji, h.base_add_padding hfits hj hpresent']
      exact h.placed is j js' hdone' hpresent'
  · intro j g off hg hoff hne
    by_cases hji : j = i
    · subst hji
      rw [hf] at hg
      rw [hself] at hoff
      cases hg
      cases hoff
      exact hfield
    · rw [hslotted.getElem?_of_ne hji] at hoff
      obtain ⟨bytes, hwritten⟩ := hslotted.written
      rw [hwritten]
      exact (h.holds j g off hg hoff hne).prepend bytes

end Committing

theorem commitFields_step {bd : Binding} {struct : Array Value} {b₀ b : Builder}
    {offs : Array (Option Nat)} {done rem : List Nat} {base i : Nat} (hfits : bd.Fits struct)
    (hbuilt : ∀ (i : Nat) f, bd.plan.fields[i]? = some f → f.type.isIndirect = true →
      f.type.HoldsBuilt (bd.value struct i) b₀.written ((offs[i]?).getD none))
    (h : bd.Committing struct b₀ done (i :: rem) base b) :
    Reaches (b₀.offset + bd.plan.layout.size + 24) (commitFields.step bd struct offs b i)
      (bd.Committing struct b₀ (done ++ [i]) rem (if bd.presentAt struct i then
        base + Layout.padding b.offset (bd.plan.widthAt i) else base)) := by
  have hi := h.lt_size hfits (.inr (List.mem_cons_self ..))
  have hf := Array.getElem?_eq_getElem hi
  have hpresent : bd.presentAt struct i = _ := presentAt_eq hf
  have hbound : b.offset + 16 ≤ b₀.offset + bd.plan.layout.size + 24 := by
    have hused := bd.used_le struct done
    have hoffset := h.offset
    have hbase := h.base_le
    have htotal : Layout.total (done.map bd.plan.widthAt) ≤ bd.plan.layout.size := by
      rw [hfits.wellFormed.layout_size, h.commit_eq, List.map_append, Layout.total_append]
      omega
    omega
  unfold commitFields.step
  simp only [hf]
  apply (FieldType.commit_reaches (hfits.wellFormed.isKnown hf) (hfits.holds i _ hf)
    (by rw [h.size]; exact hi) ?_).mono hbound
  · intro b' hcommitted
    unfold FieldType.Committed at hcommitted
    rw [← hpresent, ← Plan.widthAt_eq hf] at hcommitted
    split at hcommitted
    · next htrue =>
      rw [if_pos htrue]
      exact h.take hfits hf htrue hcommitted.1 hcommitted.2
    · next hfalse =>
      rw [if_neg hfalse, hcommitted]
      exact h.skip (Bool.eq_false_iff.2 hfalse)
  · intro hindirect
    obtain ⟨bytes, hwritten⟩ := h.written
    rw [hwritten]
    exact (hbuilt i _ hf hindirect).prepend bytes

def firstPadding (bd : Binding) (struct : Array Value) (start : Nat) (is : List Nat) : Nat :=
  ((is.filter (bd.presentAt struct)).head?.map fun i =>
    Layout.padding start (bd.plan.widthAt i)).getD 0

theorem Committing.base_add_firstPadding {bd : Binding} {struct : Array Value} {b₀ b : Builder}
    {done rem : List Nat} {base i : Nat} (hfits : bd.Fits struct)
    (h : bd.Committing struct b₀ done (i :: rem) base b)
    (hbase : base = b₀.offset + bd.firstPadding struct b₀.offset done) :
    (if bd.presentAt struct i then base + Layout.padding b.offset (bd.plan.widthAt i) else base) =
      b₀.offset + bd.firstPadding struct b₀.offset (done ++ [i]) := by
  unfold firstPadding at hbase ⊢
  rw [List.filter_append]
  cases hpresent : bd.presentAt struct i with
  | false =>
    rw [List.filter_cons_of_neg (by simp [hpresent]), List.filter_nil, List.append_nil,
      if_neg Bool.false_ne_true]
    exact hbase
  | true =>
    rw [if_pos rfl, List.filter_cons_of_pos hpresent, List.filter_nil]
    cases hdone : done.filter (bd.presentAt struct) with
    | nil =>
      have hused : bd.used struct done = 0 := by
        unfold used
        rw [hdone]
        rfl
      have hoffset : b.offset = b₀.offset := by
        rw [h.offset, hused, h.base_eq hused, Nat.add_zero]
      rw [h.base_eq hused, hoffset]
      rfl
    | cons j js =>
      have hj : j ∈ done ∧ bd.presentAt struct j = true := by
        apply List.mem_filter.1
        rw [hdone]
        exact List.mem_cons_self ..
      rw [hdone] at hbase
      rw [h.base_add_padding hfits hj.1 hj.2]
      exact hbase

theorem commitFields_committing {bd : Binding} {struct : Array Value} {b₁ : Builder}
    {offs : Array (Option Nat)} (hfits : bd.Fits struct)
    (hvtable : b₁.vtable = Array.replicate bd.plan.fields.size 0) (halign : b₁.minAlign ∣ 8)
    (hbuilt : ∀ (i : Nat) f, bd.plan.fields[i]? = some f → f.type.isIndirect = true →
      f.type.HoldsBuilt (bd.value struct i) b₁.written ((offs[i]?).getD none)) :
    Reaches (b₁.offset + bd.plan.layout.size + 24) (bd.commitFields struct offs b₁)
      (bd.Committing struct b₁ bd.plan.commit []
        (b₁.offset + bd.firstPadding struct b₁.offset bd.plan.commit)) := by
  unfold commitFields
  apply (Reaches.foldlM (fun rem b => ∃ done, bd.Committing struct b₁ done rem
    (b₁.offset + bd.firstPadding struct b₁.offset done) b) ?_ _ _
    ⟨[], Committing.start hvtable halign⟩).mono (Nat.le_refl _)
  · rintro b' ⟨done, hdone⟩
    have hcommit := hdone.commit_eq
    rw [List.append_nil] at hcommit
    rw [← hcommit] at hdone
    exact hdone
  · rintro i rem b' ⟨done, hcommitting⟩
    apply (commitFields_step hfits hbuilt hcommitting).mono (Nat.le_refl _)
    intro b'' hnext
    rw [hcommitting.base_add_firstPadding hfits rfl] at hnext
    exact ⟨done ++ [i], hnext⟩

def Opened (bd : Binding) (struct : Array Value) (base : Nat) (b : Builder) : Prop :=
  ∃ b₀, b₀.isNested = true ∧ b₀.vtables = [] ∧
    bd.Committing struct b₀ bd.plan.commit [] base b

def openTable (bd : Binding) (struct : Array Value) (b : Builder) : Except BuilderError Builder := do
  let (b, offs) ← bd.buildObjects struct b.reset
  let b ← b.startObject bd.plan.fields.size
  bd.commitFields struct offs b

theorem flatten_eq (bd : Binding) (struct : Array Value) (b : Builder) :
    bd.flatten struct b = bd.openTable struct b >>= Builder.finishObject := by
  unfold flatten openTable
  simp only [bind_assoc]

theorem commitFields_reaches {bd : Binding} {struct : Array Value} {b b₀ : Builder}
    {offs : Array (Option Nat)} (hfits : bd.Fits struct) (h : bd.Built struct b b₀ offs)
    (hvtables : b.vtables = []) (halign : b.minAlign ∣ 8) :
    Reaches (b₀.offset + bd.plan.layout.size + 24)
      (bd.commitFields struct offs { b₀ with
        isNested := true
        vtable := Array.replicate bd.plan.fields.size 0
        objectEnd := b₀.offset })
      fun b' => b'.offset ≤ b₀.offset + bd.plan.layout.size + 8 ∧ b'.objectEnd = b₀.offset ∧
        bd.Opened struct (b₀.offset + bd.firstPadding struct b₀.offset bd.plan.commit) b' := by
  generalize hopen : ({ b₀ with
    isNested := true
    vtable := Array.replicate bd.plan.fields.size 0
    objectEnd := b₀.offset } : Builder) = b₁
  have hwritten : b₁.written = b₀.written := by
    rw [← hopen]
    rfl
  have hoffset : b₁.offset = b₀.offset := by rw [b₁.offset_eq, hwritten, b₀.offset_eq]
  have hvtable : b₁.vtable = Array.replicate bd.plan.fields.size 0 := by rw [← hopen]
  have halign₁ : b₁.minAlign ∣ 8 := by
    rw [← hopen]
    exact h.extends_.minAlign halign
  rw [← hoffset]
  apply (commitFields_committing hfits hvtable halign₁ (by rw [hwritten]; exact h.holds)).mono
    (Nat.le_refl _)
  intro b' hcommitting
  have hused := used_commit_le hfits
  have hbase := hcommitting.base_le
  have hoffset' := hcommitting.offset
  refine ⟨by omega, ?_, b₁, ?_, ?_, hcommitting⟩
  · rw [hcommitting.objectEnd, ← hopen]
    rfl
  · rw [← hopen]
  · rw [← hopen]
    exact h.extends_.vtables.trans hvtables

theorem openTable_reaches {bd : Binding} {struct : Array Value} (hfits : bd.Fits struct)
    (b : Builder) :
    Reaches (bd.objectsCost struct bd.plan.indirect + bd.plan.layout.size + 24)
      (bd.openTable struct b) fun b' =>
        b'.offset ≤ bd.objectsCost struct bd.plan.indirect + bd.plan.layout.size + 8 ∧
        bd.Opened struct (b'.objectEnd + bd.firstPadding struct b'.objectEnd bd.plan.commit) b' := by
  have hempty : b.reset.offset = 0 := rfl
  unfold openTable
  apply Reaches.bind ((buildObjects_reaches hfits (b := b.reset) rfl).mono (by omega)
    (fun _ h => h))
  rintro ⟨b₀, offs⟩ hbuilt
  have hle := hbuilt.offset_le
  have hnested : b₀.isNested = false := hbuilt.extends_.isNested
  dsimp only
  unfold Builder.startObject
  rw [Builder.requireNotNested_eq hnested]
  apply (commitFields_reaches hfits hbuilt rfl (Nat.one_dvd 8)).mono (by omega)
  rintro b' ⟨hle', hend, hopened⟩
  rw [hend]
  exact ⟨by omega, hopened⟩

namespace Opened

variable {bd : Binding} {struct : Array Value} {base : Nat} {b b' : Builder}

theorem offset_eq (h : bd.Opened struct base b) :
    b.offset = base + bd.used struct bd.plan.commit := by
  obtain ⟨b₀, -, -, hcommitting⟩ := h
  exact hcommitting.offset

theorem size_eq (h : bd.Opened struct base b) : b.vtable.size = bd.plan.fields.size := by
  obtain ⟨b₀, -, -, hcommitting⟩ := h
  exact hcommitting.size

theorem finishObject_reaches (h : bd.Opened struct base b) :
    Reaches (b.offset + 4 * bd.plan.fields.size + 48) b.finishObject fun b' => Finished b b' := by
  have hsize := h.size_eq
  obtain ⟨b₀, hnested, hvtables, hcommitting⟩ := h
  rw [← hsize]
  apply Builder.finishObject_reaches
  · rw [hcommitting.isNested, hnested]
  · rw [hcommitting.vtables, hvtables]
  · exact hcommitting.minAlign

theorem getElem?_of_absent (h : bd.Opened struct base b) {i : Nat}
    (hi : i < bd.plan.fields.size) (habsent : bd.presentAt struct i = false) :
    b.vtable[i]? = some 0 := by
  obtain ⟨b₀, -, -, hcommitting⟩ := h
  exact hcommitting.absent i hi (.inr habsent)

theorem getElem?_of_present (h : bd.Opened struct base b) {is js : List Nat} {i : Nat}
    (hcommit : bd.plan.commit = is ++ i :: js) (hpresent : bd.presentAt struct i = true) :
    b.vtable[i]? = some (base + bd.used struct is + bd.plan.widthAt i) := by
  obtain ⟨b₀, -, -, hcommitting⟩ := h
  exact hcommitting.placed is i js hcommit hpresent

theorem holdsField (h : bd.Opened struct base b) {i off : Nat} {f : Field}
    (hf : bd.plan.fields[i]? = some f) (hoff : b.vtable[i]? = some off) (hne : off ≠ 0) :
    f.type.HoldsField (bd.value struct i) b.written off := by
  obtain ⟨b₀, -, -, hcommitting⟩ := h
  exact hcommitting.holds i f off hf hoff hne

theorem widthAt_dvd_base (h : bd.Opened struct base b) {i : Nat} (hi : i ∈ bd.plan.commit)
    (hpresent : bd.presentAt struct i = true) : bd.plan.widthAt i ∣ base := by
  obtain ⟨b₀, -, -, hcommitting⟩ := h
  exact hcommitting.base_dvd i hi hpresent

end Opened

def sizeBound (bd : Binding) (struct : Array Value) : Nat :=
  bd.objectsCost struct bd.plan.indirect + 4 * bd.plan.fields.size + bd.plan.layout.size + 80

theorem flatten_reaches {bd : Binding} {struct : Array Value} (hfits : bd.Fits struct)
    (b : Builder) :
    Reaches (bd.sizeBound struct) (bd.flatten struct b) fun b' =>
      ∃ o base, bd.Opened struct base o ∧ Finished o b' := by
  unfold sizeBound
  rw [flatten_eq]
  apply Reaches.bind ((openTable_reaches hfits b).mono (by omega) (fun _ h => h))
  rintro o ⟨hle, hopened⟩
  apply hopened.finishObject_reaches.mono (by omega)
  intro b' hfinished
  exact ⟨o, _, hopened, hfinished⟩

theorem flatten_ne_tooLarge_of_sizeBound_lt {bd : Binding} {struct : Array Value}
    (hfits : bd.Fits struct) (h : bd.sizeBound struct < 0x40000000) (b : Builder) :
    bd.flatten struct b ≠ .error .tooLarge := by
  obtain ⟨b', hb', -⟩ := (flatten_reaches hfits b).exists_ok_of_lt h
  rw [hb']
  nofun

theorem objectsCost_le {bd : Binding} {struct : Array Value} {cost : Nat}
    (h : ∀ v ∈ struct, v.objectCost ≤ cost) (is : List Nat) :
    bd.objectsCost struct is ≤ cost * is.length := by
  have hlength : (is.map fun i => (bd.value struct i).objectCost).length = is.length :=
    List.length_map ..
  unfold objectsCost
  rw [← hlength]
  apply Layout.total_le
  intro x hx
  obtain ⟨i, -, rfl⟩ := List.mem_map.1 hx
  unfold value
  cases hv : struct[bd.targetOf i]? with
  | none => exact Nat.zero_le _
  | some v => exact h v (Array.mem_of_getElem? hv)

theorem sizeBound_lt {bd : Binding} {struct : Array Value} (hfits : bd.Fits struct)
    (hcost : ∀ v ∈ struct, v.objectCost ≤ 0x2000) : bd.sizeBound struct < 0x40000000 := by
  have hobjects : bd.objectsCost struct bd.plan.indirect ≤ _ := objectsCost_le hcost _
  have hindirect := hfits.wellFormed.length_indirect_le
  have hsize := hfits.wellFormed.size_le
  have hlayout := hfits.wellFormed.layout_size_le
  have hmax : Layout.maxFields = 32765 := rfl
  unfold sizeBound
  omega

theorem flatten_ne_tooLarge {bd : Binding} {struct : Array Value} (hfits : bd.Fits struct)
    (hcost : ∀ v ∈ struct, v.objectCost ≤ 0x2000) (b : Builder) :
    bd.flatten struct b ≠ .error .tooLarge :=
  flatten_ne_tooLarge_of_sizeBound_lt hfits (sizeBound_lt hfits hcost) b

end Binding

end RecordCodec
