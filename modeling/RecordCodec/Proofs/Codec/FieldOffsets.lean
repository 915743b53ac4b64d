import RecordCodec.Proofs.Codec.Presence

/-!
This module contains the limit of field offsets. A vtable has 16 bits for the distance of a field
from its table, and records are bounded by the number of their fields only, so the distances are
exact for some plans and cut off for others. The layout of a plan says which.
-/

namespace RecordCodec

open RecordCodec.Table

def Table.Reader.offsetAt? (r : Reader) (slot : UInt16) : Option Nat :=
  load? r.bytes (r.vtable + slot.toNat) 2

def Table.Reader.distance (r : Reader) (off : Nat) : Nat :=
  r.bytes.size - off - r.table

namespace Binding

variable {bd : Binding} {struct : Array Value} {base : Nat} {o b' : Builder}

theorem Opened.offset_le (h : bd.Opened struct base o) {i off : Nat} {f : Field}
    (hf : bd.plan.fields[i]? = some f) (hoff : o.vtable[i]? = some off) (hne : off ≠ 0) :
    off ≤ o.offset := by
  rw [o.offset_eq]
  exact (h.holdsField hf hoff hne).le_length

theorem Opened.distance_eq_sub (h : bd.Opened struct base o) (hfinished : Finished o b')
    {i off : Nat} {f : Field} (hf : bd.plan.fields[i]? = some f) (hoff : o.vtable[i]? = some off)
    (hne : off ≠ 0) : (finishedReader o b').distance off = o.objectOffset - off := by
  have hle := h.offset_le hf hoff hne
  have hobject := hfinished.objectOffset_le
  have hsize : (finishedReader o b').bytes.size = b'.offset := by
    rw [b'.offset_eq]
    exact List.size_toArray
  have htable : (finishedReader o b').table = b'.offset - o.objectOffset := rfl
  unfold Reader.distance
  rw [hsize, htable]
  unfold Builder.objectOffset at *
  omega

theorem Opened.offsetAt?_eq (h : bd.Opened struct base o) (hfinished : Finished o b')
    (hfits : bd.Fits struct) {i off : Nat} {f : Field} (hf : bd.plan.fields[i]? = some f)
    (hoff : o.vtable[i]? = some off) (hne : off ≠ 0) :
    (finishedReader o b').offsetAt? f.slot =
      some ((finishedReader o b').distance off % 0x10000) := by
  have hi : i < o.writtenFields.length := by
    apply Nat.lt_of_not_le
    intro hle
    exact hne (Builder.eq_zero_of_length_writtenFields_le hle hoff)
  obtain ⟨field, hfield, hload⟩ := hfinished.load?_entry hi
  rw [hoff] at hfield
  cases hfield
  have hentry : Builder.entry o.objectOffset off = o.objectOffset - off := by
    unfold Builder.entry
    rw [if_neg (by simpa using hne)]
  unfold Reader.offsetAt?
  rw [hfits.wellFormed.slot_toNat hf, h.distance_eq_sub hfinished hf hoff hne, ← hentry]
  exact hload

end Binding

namespace Plan

/--
The distance of the field that is committed first from its table, up to the width of the field,
when all fields are present.
-/
def reach (p : Plan) : Nat :=
  p.layout.size + Layout.padding p.layout.size 4 + 4

theorem widthAt_cases {p : Plan} (hp : p.WellFormed) {i : Nat} (hi : i < p.fields.size) :
    p.widthAt i ≤ 2 ∨ 4 ∣ p.widthAt i := by
  have hdvd := hp.widthAt_dvd hi
  have hle := Nat.le_of_dvd (by decide) hdvd
  revert hdvd
  revert hle
  generalize p.widthAt i = width
  revert width
  decide

theorem total_le_of_narrow {p : Plan} (hp : p.WellFormed) {is js : List Nat} {i : Nat}
    (hcommit : p.commit = is ++ i :: js) (hnarrow : p.widthAt i ≤ 2) :
    Layout.total (js.map p.widthAt) ≤ 65528 := by
  have hpos := hp.widthAt_pos (hp.lt_size_of_commit_eq hcommit)
  have htotal : Layout.total (js.map p.widthAt) ≤ 2 * (js.map p.widthAt).length := by
    apply Layout.total_le
    intro width hwidth
    obtain ⟨j, hj, rfl⟩ := List.mem_map.1 hwidth
    have := Nat.le_of_dvd hpos (hp.widthAt_dvd_of_mem_right hcommit j hj)
    omega
  have hlength := hp.length_commit
  have hsize := hp.size_le
  have hmax : Layout.maxFields = 32765 := rfl
  rw [hcommit, List.length_append, List.length_cons] at hlength
  rw [List.length_map] at htotal
  omega

theorem align_le {p : Plan} (hp : p.WellFormed) {is js : List Nat} {i : Nat}
    (hcommit : p.commit = is ++ i :: js) :
    p.layout.align ≤ Layout.total (is.map p.widthAt) + p.widthAt i := by
  cases is with
  | nil =>
    rw [hp.layout_align_of_cons hcommit]
    omega
  | cons k is =>
    rw [hp.layout_align_of_cons hcommit, List.map_cons, Layout.total_cons]
    omega

theorem widthAt_dvd_align {p : Plan} (hp : p.WellFormed) {is js : List Nat} {i : Nat}
    (hcommit : p.commit = is ++ i :: js) : p.widthAt i ∣ p.layout.align := by
  cases is with
  | nil => simp [hp.layout_align_of_cons hcommit]
  | cons k is =>
    rw [hp.layout_align_of_cons hcommit]
    exact hp.widthAt_dvd_of_mem_left hcommit k (List.mem_cons_self ..)

theorem layout_size_eq {p : Plan} (hp : p.WellFormed) {is js : List Nat} {i : Nat}
    (hcommit : p.commit = is ++ i :: js) :
    p.layout.size = Layout.total (is.map p.widthAt) + p.widthAt i +
      Layout.total (js.map p.widthAt) := by
  rw [hp.layout_size, hcommit, List.map_append, List.map_cons, Layout.total_append,
    Layout.total_cons, Nat.add_assoc]

end Plan

namespace Binding

variable {bd : Binding} {struct : Array Value} {base : Nat} {o b' : Builder}

theorem dvd_used {d : Nat} {is : List Nat} (h : ∀ i ∈ is, d ∣ bd.plan.widthAt i) :
    d ∣ bd.used struct is := by
  induction is with
  | nil => exact Nat.dvd_zero d
  | cons i is ih =>
    have hrest := ih (fun j hj => h j (List.mem_cons_of_mem _ hj))
    have happend := bd.used_append struct [i] is
    rw [List.singleton_append] at happend
    rw [happend]
    cases hpresent : bd.presentAt struct i with
    | true =>
      rw [used_singleton_of_present hpresent]
      exact Nat.dvd_add (h i (List.mem_cons_self ..)) hrest
    | false =>
      rw [used_singleton_of_absent hpresent, Nat.zero_add]
      exact hrest

theorem Opened.padding_eq (h : bd.Opened struct base o) (hfits : bd.Fits struct)
    {is js : List Nat} {i : Nat} (hcommit : bd.plan.commit = is ++ i :: js)
    (hpresent : bd.presentAt struct i = true) (hwide : 4 ∣ bd.plan.widthAt i) :
    Layout.padding o.offset 4 = Layout.padding (bd.used struct js) 4 := by
  have hmem : i ∈ bd.plan.commit := by
    rw [hcommit]
    exact List.mem_append_right _ (List.mem_cons_self ..)
  have hbase : 4 ∣ base := Nat.dvd_trans hwide (h.widthAt_dvd_base hmem hpresent)
  have hused : 4 ∣ bd.used struct is := by
    apply dvd_used
    intro j hj
    exact Nat.dvd_trans hwide (hfits.wellFormed.widthAt_dvd_of_mem_left hcommit j hj)
  have happend := bd.used_append struct [i] js
  rw [List.singleton_append] at happend
  rw [h.offset_eq, hcommit, used_append, happend, used_singleton_of_present hpresent,
    ← Nat.add_assoc, ← Nat.add_assoc]
  apply Layout.padding_add_of_dvd
  exact Nat.dvd_add (Nat.dvd_add hbase hused) hwide

theorem Opened.distance_lt (h : bd.Opened struct base o) (hfits : bd.Fits struct)
    (hlimit : bd.plan.reach < 0x10000 + bd.plan.layout.align) {is js : List Nat} {i : Nat}
    (hcommit : bd.plan.commit = is ++ i :: js) (hpresent : bd.presentAt struct i = true) :
    bd.used struct js + Layout.padding o.offset 4 + 4 < 0x10000 := by
  have hused := bd.used_le struct js
  have hpad := Layout.padding_lt o.offset (show 0 < 4 by decide)
  rcases Plan.widthAt_cases hfits.wellFormed (hfits.wellFormed.lt_size_of_commit_eq hcommit)
    with hnarrow | hwide
  · have := Plan.total_le_of_narrow hfits.wellFormed hcommit hnarrow
    omega
  · have hsize := Plan.layout_size_eq hfits.wellFormed hcommit
    have halign := Plan.align_le hfits.wellFormed hcommit
    have hdvd := Nat.dvd_trans hwide (Plan.widthAt_dvd_align hfits.wellFormed hcommit)
    rw [h.padding_eq hfits hcommit hpresent hwide]
    unfold Plan.reach at hlimit
    unfold Layout.padding at *
    omega

end Binding

def Value.filled : Value → Value
  | .scalar _ => .scalar 1
  | .optional _ => .optional (some 0)
  | .optionalText _ => .optionalText (some [])
  | v => v

theorem FieldType.holds_filled_unset {t : FieldType} (h : t.isKnown = true) :
    t.holds t.unset.filled = true := by
  rcases t with ⟨shape, scalar, text⟩
  cases shape with
  | unknown code => simp [isKnown] at h
  | scalar =>
    cases scalar with
    | unknown code => simp [isKnown, Scalar.isValid] at h
    | _ => rfl
  | text => rfl
  | sequence =>
    cases text with
    | _ => rfl
  | optional =>
    cases text with
    | true => rfl
    | false => exact Scalar.holds_zero scalar

theorem HostType.holds_filled_zero (t : HostType) : t.holds t.zero.filled = true := by
  obtain ⟨u, h⟩ := t.exists_holding
  cases u with
  | none =>
    cases h with
    | none hzero =>
      rw [hzero]
      exact holds_other hzero
  | some u =>
    rw [h.zero_eq, h.holds_eq]
    exact FieldType.holds_filled_unset h.isKnown

theorem FieldType.objectCost_filled_unset (t : FieldType) : t.unset.filled.objectCost ≤ 0x2000 := by
  rcases t with ⟨shape, scalar, text⟩
  cases text with
  | _ =>
    cases shape with
    | _ => exact Nat.le_of_ble_eq_true rfl

theorem HostType.objectCost_filled_zero (t : HostType) : t.zero.filled.objectCost ≤ 0x2000 := by
  obtain ⟨u, h⟩ := t.exists_holding
  cases u with
  | none =>
    cases h with
    | none hzero =>
      rw [hzero]
      decide
  | some u =>
    rw [h.zero_eq]
    exact u.objectCost_filled_unset

theorem FieldType.present_filled_unset {t : FieldType} (h : t.isKnown = true) :
    t.present t.unset.filled = true := by
  rcases t with ⟨shape, scalar, text⟩
  cases shape with
  | unknown code => simp [isKnown] at h
  | scalar =>
    cases scalar with
    | _ => rfl
  | _ =>
    cases text with
    | true => rfl
    | false => rfl

namespace Binding

def full (bd : Binding) : Array Value :=
  (bd.members.map fun m => m.type.zero.filled).toArray

theorem isStruct_full (bd : Binding) : bd.isStruct bd.full = true := by
  rw [isStruct_iff]
  refine ⟨by simp [full], ?_⟩
  intro i m v hm hv
  unfold full at hv
  rw [List.getElem?_toArray, List.getElem?_map, hm] at hv
  cases hv
  exact HostType.holds_filled_zero m.type

theorem flatten_full_ne_tooLarge {bd : Binding} (hfits : bd.Fits bd.full) (b : Builder) :
    bd.flatten bd.full b ≠ .error .tooLarge := by
  apply flatten_ne_tooLarge hfits
  intro v hv
  unfold full at hv
  rw [List.mem_toArray, List.mem_map] at hv
  obtain ⟨m, -, rfl⟩ := hv
  exact HostType.objectCost_filled_zero m.type

theorem Bound.value_full {p : Plan} {bd : Binding} (h : Bound p bd) {i : Nat} {f : Field}
    (hf : p.fields[i]? = some f) : bd.value bd.full i = f.type.unset.filled := by
  obtain ⟨t, m, ht, -, hm, hfits⟩ := h.target i f hf
  unfold value targetOf full
  rw [ht, Option.getD_some, List.getElem?_toArray, List.getElem?_map, hm, Option.map_some,
    FieldType.zero_of_fits hfits]
  rfl

theorem Bound.presentAt_full {p : Plan} {bd : Binding} (h : Bound p bd) (hp : p.WellFormed)
    {i : Nat} {f : Field} (hf : p.fields[i]? = some f) : bd.presentAt bd.full i = true := by
  have hknown := hp.isKnown hf
  have hvalue := h.value_full hf
  rw [← h.plan] at hf
  rw [presentAt_eq hf, hvalue]
  exact FieldType.present_filled_unset hknown

theorem used_of_all_present {bd : Binding} {struct : Array Value} {is : List Nat}
    (h : ∀ i ∈ is, bd.presentAt struct i = true) :
    bd.used struct is = Layout.total (is.map bd.plan.widthAt) := by
  unfold used
  rw [List.filter_eq_self.2 h]

/--
In the buffer of `b'`, in which the table that is open in `o` is finished, every field that is
present stands where the builder put it, and its vtable entry has its distance as `stored` makes it.
-/
def HasEntries (bd : Binding) (struct : Array Value) (o b' : Builder) (stored : Nat → Nat) : Prop :=
  ∀ f ∈ bd.plan.fields, f.type.present (bd.value struct f.index) = true →
    ∃ off, o.vtable[f.index]? = some off ∧
      f.type.HoldsField (bd.value struct f.index) b'.written off ∧
      (Reader.ofBytes b'.written.toArray).offsetAt? f.slot =
        some (stored ((Reader.ofBytes b'.written.toArray).distance off))

section

variable {bd : Binding} {struct : Array Value} {base : Nat} {o b' : Builder}

theorem Opened.exists_entry (h : bd.Opened struct base o) (hfinished : Finished o b')
    (hfits : bd.Fits struct) {is js : List Nat} {i : Nat} {f : Field}
    (hcommit : bd.plan.commit = is ++ i :: js) (hf : bd.plan.fields[i]? = some f)
    (hpresent : bd.presentAt struct i = true) :
    ∃ off, o.vtable[i]? = some off ∧ f.type.HoldsField (bd.value struct i) b'.written off ∧
      (finishedReader o b').offsetAt? f.slot = some ((finishedReader o b').distance off % 0x10000) ∧
      (finishedReader o b').distance off =
        bd.used struct js + Layout.padding o.offset 4 + 4 := by
  have hwidth := hfits.wellFormed.widthAt_pos (hfits.wellFormed.lt_size_of_commit_eq hcommit)
  have hoff := h.getElem?_of_present hcommit hpresent
  have hne : base + bd.used struct is + bd.plan.widthAt i ≠ 0 := by omega
  refine ⟨_, hoff, ?_, h.offsetAt?_eq hfinished hfits hf hoff hne, ?_⟩
  · obtain ⟨front, hwritten⟩ := hfinished.written_append
    rw [hwritten]
    exact (h.holdsField hf hoff hne).prepend front
  · rw [h.distance_eq_sub hfinished hf hoff hne, h.distance_eq hcommit hpresent]

theorem exists_opened {p : Plan} {b : Builder} (hp : p.WellFormed) (hbound : Bound p bd)
    (hstruct : bd.isStruct struct = true) (hopen : bd.openTable struct b = .ok o)
    (hflatten : bd.flatten struct b = .ok b') :
    ∃ base, bd.Opened struct base o ∧ Finished o b' ∧
      Reader.ofBytes b'.written.toArray = finishedReader o b' := by
  have hfits := hbound.fits hp hstruct
  obtain ⟨-, hopened⟩ := (openTable_reaches hfits b).result hopen
  rw [flatten_eq, hopen] at hflatten
  have hfinished := hopened.finishObject_reaches.result hflatten
  refine ⟨_, hopened, hfinished, ?_⟩
  apply hfinished.ofBytes
  rw [hopened.size_eq]
  exact hfits.wellFormed.size_le

theorem Opened.hasEntries (h : bd.Opened struct base o) (hfinished : Finished o b')
    (hfits : bd.Fits struct) (hreader : Reader.ofBytes b'.written.toArray = finishedReader o b')
    (stored : Nat → Nat) (hstored : ∀ is i js, bd.plan.commit = is ++ i :: js →
      bd.presentAt struct i = true →
      (bd.used struct js + Layout.padding o.offset 4 + 4) % 0x10000 =
        stored (bd.used struct js + Layout.padding o.offset 4 + 4)) :
    bd.HasEntries struct o b' stored := by
  intro f hf hpresent
  obtain ⟨i, hi⟩ := Array.getElem?_of_mem hf
  obtain ⟨hlt, -⟩ := Array.getElem?_eq_some_iff.1 hi
  rw [(hfits.wellFormed.isPlaced i f hi).index] at hpresent ⊢
  rw [← presentAt_eq hi] at hpresent
  obtain ⟨is, js, hcommit⟩ := List.append_of_mem (hfits.wellFormed.mem_commit.2 hlt)
  obtain ⟨off, hoff, hholds, hentry, hdistance⟩ :=
    h.exists_entry hfinished hfits hcommit hi hpresent
  refine ⟨off, hoff, hholds, ?_⟩
  rw [hreader, hentry, hdistance, hstored is i js hcommit hpresent]

theorem Opened.not_hasEntries_full (h : bd.Opened bd.full base o) (hfinished : Finished o b')
    {p : Plan} (hp : p.WellFormed) (hbound : Bound p bd)
    (hreader : Reader.ofBytes b'.written.toArray = finishedReader o b')
    (hlimit : 0x10000 + p.layout.align ≤ p.reach) : ¬bd.HasEntries bd.full o b' id := by
  have hfits := hbound.fits hp bd.isStruct_full
  obtain rfl := hbound.plan
  have hpad := Layout.padding_lt bd.plan.layout.size (show 0 < 4 by decide)
  unfold Plan.reach at hlimit
  intro hentries
  cases hcommit : bd.plan.commit with
  | nil =>
    have hsize := hp.layout_size
    rw [hcommit] at hsize
    simp only [List.map_nil, Layout.total_nil] at hsize
    omega
  | cons i js =>
    have hcommit' : bd.plan.commit = [] ++ i :: js := hcommit
    have hi := hp.lt_size_of_commit_eq hcommit'
    have hf := Array.getElem?_eq_getElem hi
    have halign := hp.layout_align_of_cons hcommit
    have hsize := Plan.layout_size_eq hp hcommit'
    rw [List.map_nil, Layout.total_nil, Nat.zero_add] at hsize
    have hwidth := hp.widthAt_pos hi
    rcases Plan.widthAt_cases hp hi with hnarrow | hwide
    -- fields of one or two bytes are too few to lead that far
    · have := Plan.total_le_of_narrow hp hcommit' hnarrow
      omega
    · have hpresent := hbound.presentAt_full hp hf
      have hused : bd.used bd.full js = Layout.total (js.map bd.plan.widthAt) := by
        apply used_of_all_present
        intro j hj
        have hlt : j < bd.plan.fields.size := by
          apply hp.mem_commit.1
          rw [hcommit]
          exact List.mem_cons_of_mem _ hj
        exact hbound.presentAt_full hp (Array.getElem?_eq_getElem hlt)
      obtain ⟨off, hoff, -, hentry, hdistance⟩ :=
        h.exists_entry hfinished hfits hcommit' hf hpresent
      rw [h.padding_eq hfits hcommit' hpresent hwide] at hdistance
      have hpresent' := hpresent
      rw [presentAt_eq hf] at hpresent'
      have hindex := (hp.isPlaced i _ hf).index
      obtain ⟨off', hoff', -, hentry'⟩ := hentries bd.plan.fields[i] (Array.mem_of_getElem? hf)
        (by rw [hindex]; exact hpresent')
      rw [hindex, hoff] at hoff'
      cases hoff'
      rw [hreader, hentry, Option.some.injEq, hdistance] at hentry'
      -- an entry is below the limit, and the distance that it should be is not
      have hlarge : 0x10000 ≤ bd.used bd.full js + Layout.padding (bd.used bd.full js) 4 + 4 := by
        unfold Layout.padding at *
        omega
      have hmod := Nat.mod_lt
        (bd.used bd.full js + Layout.padding (bd.used bd.full js) 4 + 4) (show 0 < 0x10000 by decide)
      rw [hentry'] at hmod
      exact absurd hlarge (Nat.not_le_of_lt hmod)

end

theorem hasEntries_flatten {r : Record} {p : Plan} {type : Option HostType} {bd : Binding}
    (hp : assemble r = .ok p) (hbd : Binding.ofPlan (some p) type = .ok bd) :
    (∀ struct b o b', bd.isStruct struct = true → bd.openTable struct b = .ok o →
      bd.flatten struct b = .ok b' → bd.HasEntries struct o b' (· % 0x10000)) ∧
    ((∀ struct b o b', bd.isStruct struct = true → bd.openTable struct b = .ok o →
        bd.flatten struct b = .ok b' → bd.HasEntries struct o b' id) ↔
      p.layout.size + Layout.padding p.layout.size 4 + 4 < 0x10000 + p.layout.align) := by
  have hwellFormed := wellFormed_of_assemble hp
  have hbound := bound_of_ofPlan hbd
  refine ⟨?_, ?_, ?_⟩
  · intro struct b o b' hstruct hopen hflatten
    obtain ⟨base, hopened, hfinished, hreader⟩ :=
      exists_opened hwellFormed hbound hstruct hopen hflatten
    apply hopened.hasEntries hfinished (hbound.fits hwellFormed hstruct) hreader
    intro is i js _ _
    rfl
  · intro hexact
    apply Nat.lt_of_not_le
    intro hlimit
    have hfits := hbound.fits hwellFormed bd.isStruct_full
    obtain ⟨b', hflatten, -⟩ := (flatten_reaches hfits (Builder.new 0)).exists_ok
      (flatten_full_ne_tooLarge hfits (Builder.new 0))
    have hbind := hflatten
    rw [flatten_eq] at hbind
    obtain ⟨o, hopen, -⟩ := exists_of_bind_eq_ok hbind
    obtain ⟨base, hopened, hfinished, hreader⟩ :=
      exists_opened hwellFormed hbound bd.isStruct_full hopen hflatten
    apply hopened.not_hasEntries_full hfinished hwellFormed hbound hreader hlimit
    exact hexact bd.full (Builder.new 0) o b' bd.isStruct_full hopen hflatten
  · intro hlimit struct b o b' hstruct hopen hflatten
    obtain ⟨base, hopened, hfinished, hreader⟩ :=
      exists_opened hwellFormed hbound hstruct hopen hflatten
    have hfits := hbound.fits hwellFormed hstruct
    apply hopened.hasEntries hfinished hfits hreader
    intro is i js hcommit hpresent
    rw [← hbound.plan] at hlimit
    exact Nat.mod_eq_of_lt (hopened.distance_lt hfits hlimit hcommit hpresent)

end Binding

def wideRecord (count : Nat) : Record where
  name := "Wide"
  fields := (List.range count).map fun n => ⟨String.ofList ('a' :: List.replicate n 'a'), "u64"⟩

theorem nodup_map_range {α : Type} {g : Nat → α} (hg : ∀ m n, g m = g n → m = n) (count : Nat) :
    ((List.range count).map g).Nodup := by
  unfold List.Nodup
  rw [List.pairwise_map]
  apply List.nodup_range.imp
  intro m n hne heq
  exact hne (hg m n heq)

theorem eq_of_replicate_eq {c d : Char} {m n : Nat}
    (h : String.ofList (c :: List.replicate m d) = String.ofList (c :: List.replicate n d)) :
    m = n := by
  have hlist := String.ofList_injective h
  have hlength := congrArg List.length hlist
  simpa using hlength

theorem isIdentifier_replicate (n : Nat) :
    Naming.isIdentifier (String.ofList ('a' :: List.replicate n 'a')) = true := by
  unfold Naming.isIdentifier
  rw [String.toList_ofList]
  dsimp only
  rw [Bool.and_eq_true, List.all_eq_true]
  refine ⟨by decide, ?_⟩
  intro c hc
  rw [List.eq_of_mem_replicate hc]
  decide

theorem exported_replicate (n : Nat) :
    Naming.exported (String.ofList ('a' :: List.replicate n 'a')) =
      String.ofList ('A' :: List.replicate n 'a') := by
  have hsplit : Text.splitAtAll Naming.isSeparator ('a' :: List.replicate n 'a') =
      ['a' :: List.replicate n 'a'] := by
    apply Text.splitAtAll_of_all
    intro c hc
    have hca : c = 'a' := by
      rcases List.mem_cons.1 hc with rfl | hc
      · rfl
      · exact List.eq_of_mem_replicate hc
    rw [hca]
    decide
  have hupper : Text.toUpper 'a' = 'A' := by decide
  unfold Naming.exported Text.runs
  rw [String.toList_ofList, hsplit]
  simp only [List.filter_cons, List.isEmpty_cons, Bool.not_false, ↓reduceIte, List.filter_nil,
    List.flatMap_cons, List.flatMap_nil, List.append_nil, Naming.capitalize, hupper]
  rw [if_pos (by decide)]

theorem isIdentifier_wideRecord (count : Nat) :
    ∀ d ∈ (wideRecord count).fields, Naming.isIdentifier d.name = true := by
  intro d hd
  obtain ⟨n, -, rfl⟩ := List.mem_map.1 hd
  exact isIdentifier_replicate n

theorem nodup_wideRecord (count : Nat) : ((wideRecord count).fields.map (·.name)).Nodup := by
  unfold wideRecord
  rw [List.map_map]
  exact nodup_map_range (fun m n => eq_of_replicate_eq) count

theorem nodup_exported_wideRecord (count : Nat) :
    (((wideRecord count).fields.map (·.name)).map Naming.exported).Nodup := by
  unfold wideRecord
  rw [List.map_map, List.map_map]
  apply nodup_map_range
  intro m n heq
  apply eq_of_replicate_eq (c := 'A') (d := 'a')
  rw [← exported_replicate, ← exported_replicate]
  exact heq

theorem length_wideRecord (count : Nat) : (wideRecord count).fields.length = count := by
  unfold wideRecord
  simp

theorem typeOfText_wideRecord (count : Nat) :
    (wideRecord count).fields.map (fun d => typeOfText d.type) =
      (List.replicate count (.ofScalar .u64)).map .ok := by
  have htype : typeOfText "u64" = .ok (.ofScalar .u64) :=
    typeOfText_name (t := .ofScalar .u64) (by decide)
  unfold wideRecord
  rw [List.map_map, List.map_replicate, List.eq_replicate_iff]
  constructor
  · simp
  · intro t ht
    obtain ⟨n, -, rfl⟩ := List.mem_map.1 ht
    exact htype

theorem assemble_wideRecord {count : Nat} (h : count ≤ Layout.maxFields) :
    ∃ p, assemble (wideRecord count) = .ok p ∧
      p.fields.toList.map (·.name) = (wideRecord count).fields.map (·.name) ∧
      p.fields.toList.map (·.type) = List.replicate count (.ofScalar .u64) := by
  have hassemble : assemble (wideRecord count) = .ok (Plan.ofFields (wideRecord count).name
      (fieldsFrom 0 (wideRecord count).fields (List.replicate count (.ofScalar .u64)))) := by
    apply assemble_eq_ok
    · show Naming.isIdentifier "Wide" = true
      decide
    · rw [length_wideRecord]
      exact h
    · exact isIdentifier_wideRecord count
    · exact nodup_wideRecord count
    · exact typeOfText_wideRecord count
  refine ⟨_, hassemble, ?_⟩
  apply map_fieldsFrom
  rw [length_wideRecord, List.length_replicate]

theorem exists_dynamic_of_names {r : Record} {p : Plan} (hp : assemble r = .ok p)
    (hnames : p.fields.toList.map (·.name) = r.fields.map (·.name))
    (hnodup : ((r.fields.map (·.name)).map Naming.exported).Nodup) :
    ∃ bd, Binding.dynamic p = .ok bd := by
  apply Binding.exists_dynamic (wellFormed_of_assemble hp)
  rw [← hnames, List.map_map] at hnodup
  exact hnodup

theorem layout_of_wide {count : Nat} {p : Plan} (hp : p.WellFormed)
    (htypes : p.fields.toList.map (·.type) = List.replicate (count + 1) (.ofScalar .u64)) :
    p.layout.size = 8 * (count + 1) ∧ p.layout.align = 8 := by
  constructor
  · rw [hp.layout_size_eq_total, htypes, List.map_replicate, Layout.total_replicate]
    rfl
  · cases hcommit : p.commit with
    | nil =>
      have hlength := congrArg List.length htypes
      rw [List.length_map, Array.length_toList, List.length_replicate, ← hp.length_commit,
        hcommit] at hlength
      contradiction
    | cons i js =>
      have hi : i ∈ p.commit := by
        rw [hcommit]
        exact List.mem_cons_self ..
      have hf := Array.getElem?_eq_getElem (hp.mem_commit.1 hi)
      have htype := congrArg (·[i]?) htypes
      simp only [Plan.WellFormed.getElem?_types, hf, Option.map_some] at htype
      rw [hp.layout_align_of_cons hcommit, Plan.widthAt_eq hf,
        List.eq_of_mem_replicate (List.mem_of_getElem? htype.symm)]
      rfl

theorem not_hasEntries_wideRecord :
    ∃ p bd, assemble (wideRecord 8193) = .ok p ∧ Binding.dynamic p = .ok bd ∧
      ¬∀ struct b o b', bd.isStruct struct = true → bd.openTable struct b = .ok o →
        bd.flatten struct b = .ok b' → bd.HasEntries struct o b' id := by
  obtain ⟨p, hp, hnames, htypes⟩ := assemble_wideRecord (show 8193 ≤ Layout.maxFields by decide)
  obtain ⟨bd, hbd⟩ := exists_dynamic_of_names hp hnames (nodup_exported_wideRecord 8193)
  obtain ⟨type, htype⟩ := Binding.exists_ofPlan_of_dynamic hbd
  obtain ⟨hsize, halign⟩ := layout_of_wide (wellFormed_of_assemble hp) htypes
  refine ⟨p, bd, hp, hbd, ?_⟩
  rw [(Binding.hasEntries_flatten hp htype).2, hsize, halign]
  decide

end RecordCodec
