import RecordCodec.Proofs.Codec.Stored
import RecordCodec.Proofs.Table.Calls

/-!
This module contains the round trip of a single table, whatever is written in it and in whatever
order. A `Draft` lists the objects outside the table and the commits of its fields, each in the order
in which they are made. `Draft.ReadsBack` says what a reader finds, and it does not depend on the
order.
-/

namespace RecordCodec.Table

namespace Creation

def holds : Creation → Bool
  | string _ | strings _ => true
  | codePoints codes => codes.all Scalar.u32.holds
  | signedBytes elems => elems.all Scalar.s8.holds
  | vector elem elems => elem.isValid && elems.all elem.holds

def Stands (c : Creation) (w : List UInt8) (off : Nat) : Prop :=
  match c with
  | string text => HoldsVector w off text.length text
  | strings texts => HoldsTexts w off texts
  | codePoints codes => HoldsVector w off codes.length (codes.flatMap (leBytes Scalar.u32.size))
  | signedBytes elems => HoldsVector w off elems.length (elems.flatMap (leBytes Scalar.s8.size))
  | vector elem elems => HoldsVector w off elems.length (elems.flatMap (leBytes elem.size))

theorem Stands.prepend {c : Creation} {w : List UInt8} {off : Nat} (h : c.Stands w off)
    (xs : List UInt8) : c.Stands (xs ++ w) off := by
  cases c with
  | strings texts => exact HoldsTexts.prepend h xs
  | _ => exact HoldsVector.prepend h xs

theorem Stands.le_length {c : Creation} {w : List UInt8} {off : Nat} (h : c.Stands w off) :
    off ≤ w.length := by
  cases c with
  | strings texts => exact h.header.le_length
  | _ => exact HoldsVector.le_length h

theorem run_reaches {c : Creation} {b : Builder} (hc : c.holds = true) (hb : b.isNested = false) :
    Reaches 0x40000000 (c.run b) fun (b', off) => b.Extends b' ∧ c.Stands b'.written off := by
  cases c with
  | string text =>
    apply (Builder.createString_reaches text hb).limit.mono (Nat.le_refl _)
    rintro ⟨b', off⟩ ⟨hextends, -, hvector, -⟩
    exact ⟨hextends, hvector⟩
  | strings texts =>
    apply (Builder.createStringVector_reaches texts hb).limit.mono (Nat.le_refl _)
    rintro ⟨b', off⟩ ⟨hextends, -, htexts, -⟩
    exact ⟨hextends, htexts⟩
  | codePoints codes =>
    apply (Builder.createVector_reaches (s := .u32) codes rfl hb).limit.mono (Nat.le_refl _)
    rintro ⟨b', off⟩ hvector
    exact ⟨hvector.extends_, hvector.holds⟩
  | signedBytes elems =>
    apply (Builder.createByteVector_reaches (s := .s8) elems rfl hb).limit.mono (Nat.le_refl _)
    rintro ⟨b', off⟩ hvector
    exact ⟨hvector.extends_, hvector.holds⟩
  | vector elem elems =>
    have hvalid : elem.isValid = true := (Bool.and_eq_true_iff.1 hc).1
    apply (Builder.createVector_reaches elems hvalid hb).limit.mono (Nat.le_refl _)
    rintro ⟨b', off⟩ hvector
    exact ⟨hvector.extends_, hvector.holds⟩

theorem run_mapM_make_reaches {cs : List Creation} {b : Builder}
    (hcs : ∀ c ∈ cs, c.holds = true) (hb : b.isNested = false) :
    Reaches 0x40000000 ((cs.mapM Calls.make).run b) fun (b', offs) =>
      b.Extends b' ∧ ∀ (i : Nat) c, cs[i]? = some c → c.Stands b'.written (offs.getD i 0) := by
  induction cs generalizing b with
  | nil =>
    apply Reaches.ok
    refine ⟨Builder.Extends.refl b, ?_⟩
    intro i c hc
    simp at hc
  | cons c cs ih =>
    rw [List.mapM_cons, Calls.run_bind, Calls.run_make]
    apply Reaches.bind (run_reaches (hcs c (List.mem_cons_self ..)) hb)
    rintro ⟨b₁, off⟩ ⟨hextends₁, hstands⟩
    have hb₁ : b₁.isNested = false := by rw [hextends₁.isNested, hb]
    rw [bind_pure_comp, Calls.run_map]
    apply Reaches.bind (ih (fun c hc => hcs c (List.mem_cons_of_mem _ hc)) hb₁)
    rintro ⟨b₂, offs⟩ ⟨hextends, hobjects⟩
    apply Reaches.ok
    refine ⟨hextends₁.trans hextends, ?_⟩
    intro i c' hc'
    cases i with
    | zero =>
      cases hc'
      obtain ⟨bytes, hwritten⟩ := hextends.written
      rw [hwritten]
      exact hstands.prepend bytes
    | succ i => exact hobjects i c' hc'

end Creation

inductive Entry (n : Nat) where
  | scalar (s : Scalar) (bits default : Nat)
  | scalarAlways (s : Scalar) (bits : Nat)
  | object (ref : Fin n)
  deriving DecidableEq, Repr

namespace Entry

def holds : Entry n → Bool
  | scalar s bits _ | scalarAlways s bits => s.isValid && s.holds bits
  | object _ => true

def action (e : Entry n) (index : Nat) (offs : List Nat) : Action :=
  match e with
  | scalar s bits default => .slot s index bits default
  | scalarAlways s bits => .slotAlways s index bits
  | object ref => .offsetSlot index (offs.getD ref 0)

end Entry

inductive Content where
  | scalar (s : Scalar) (bits : Nat)
  | object (c : Creation)
  deriving DecidableEq, Repr

namespace Content

def holds : Content → Bool
  | scalar s bits => s.isValid && s.holds bits
  | object c => c.holds

/--
The reader finds a content in a field. Numbers that are no characters are dropped, a text that is
not UTF-8 is not found, and one inside a vector is found empty.
-/
def IsRead (c : Content) (r : Reader) (slot : UInt16) : Prop :=
  match c with
  | scalar s bits => r.lookup? s slot = some bits ∧
    (s = .char → r.lookupChar? slot = (some bits).filter (·.isValidChar))
  | object (.string text) => r.text? slot = (some text).filter (·.toByteArray.IsValidUTF8)
  | object (.strings texts) => r.strings? slot = some (texts.map canonicalText)
  | object (.codePoints codes) => r.codePoints? slot = some (codes.filter (·.isValidChar))
  | object (.signedBytes elems) => r.signedBytes? slot = some elems
  | object (.vector elem elems) => r.elements? elem slot = some elems ∧
    (elem = .u8 → r.bytes? slot = some elems)

def Stands (c : Content) (w : List UInt8) (off : Nat) : Prop :=
  match c with
  | scalar s bits => StandsAt w off (leBytes s.size bits)
  | object c => ∃ target, HoldsOffset w off target ∧ c.Stands w target

theorem Stands.prepend {c : Content} {w : List UInt8} {off : Nat} (h : c.Stands w off)
    (xs : List UInt8) : c.Stands (xs ++ w) off := by
  cases c with
  | scalar s bits => exact StandsAt.prepend h xs
  | object c =>
    obtain ⟨target, hoffset, hobject⟩ := h
    exact ⟨target, hoffset.prepend xs, hobject.prepend xs⟩

theorem Stands.le_length {c : Content} {w : List UInt8} {off : Nat} (h : c.Stands w off) :
    off ≤ w.length := by
  cases c with
  | scalar s bits => exact StandsAt.le_length h
  | object c =>
    obtain ⟨target, hoffset, -⟩ := h
    exact hoffset.2.2.le_length

section

variable {r : Reader} {slot : UInt16} {w : List UInt8} {off target : Nat}

theorem isRead_string {text : List UInt8} (hbytes : r.bytes = w.toArray)
    (hfield : r.field? slot 4 = some (w.length - off)) (hoffset : HoldsOffset w off target)
    (h : HoldsVector w target text.length text) : (object (.string text)).IsRead r slot := by
  show r.text? slot = _
  rw [Reader.text?_eq hbytes hfield hoffset h, Option.filter_some, Option.filter_some]
  simp only [Text.isUtf8_iff, decide_eq_true_eq]

theorem isRead_strings {texts : List (List UInt8)} (hbytes : r.bytes = w.toArray)
    (hfield : r.field? slot 4 = some (w.length - off)) (hoffset : HoldsOffset w off target)
    (h : HoldsTexts w target texts) : (object (.strings texts)).IsRead r slot := by
  have hreadable : ∀ text ∈ texts, readableText text = canonicalText text := by
    intro text _
    unfold readableText canonicalText
    simp only [Text.isUtf8_iff]
  show r.strings? slot = _
  rw [Reader.strings?_eq hbytes hfield hoffset h, List.map_congr_left hreadable]

theorem elements?_of_holds {s : Scalar} {elems : List Nat} (hbytes : r.bytes = w.toArray)
    (hfield : r.field? slot 4 = some (w.length - off)) (hoffset : HoldsOffset w off target)
    (helems : elems.all s.holds = true)
    (h : HoldsVector w target elems.length (elems.flatMap (leBytes s.size))) :
    r.elements? s slot = some elems := by
  rw [List.all_eq_true] at helems
  rw [Reader.elements?_eq hbytes hfield hoffset h fun x hx => Scalar.lt_of_holds (helems x hx),
    List.map_congr_left fun x hx => Scalar.ofStored_of_holds (helems x hx), List.map_id']

theorem bytes?_of_holds {s : Scalar} {elems : List Nat} (hs : s.size = 1)
    (hbytes : r.bytes = w.toArray) (hfield : r.field? slot 4 = some (w.length - off))
    (hoffset : HoldsOffset w off target) (helems : elems.all s.holds = true)
    (h : HoldsVector w target elems.length (elems.flatMap (leBytes s.size))) :
    r.bytes? slot = some elems := by
  rw [List.all_eq_true] at helems
  rw [hs, flatMap_leBytes_one] at h
  apply Reader.bytes?_eq hbytes hfield hoffset h
  intro x hx
  have := Scalar.lt_of_holds (helems x hx)
  rw [hs] at this
  exact this

theorem isRead_object {c : Creation} (hc : c.holds = true) (hbytes : r.bytes = w.toArray)
    (hfield : r.field? slot 4 = some (w.length - off)) (hoffset : HoldsOffset w off target)
    (h : c.Stands w target) : (object c).IsRead r slot := by
  cases c with
  | string text => exact isRead_string hbytes hfield hoffset h
  | strings texts => exact isRead_strings hbytes hfield hoffset h
  | codePoints codes =>
    unfold IsRead Reader.codePoints? keepCodePoints
    rw [elements?_of_holds hbytes hfield hoffset hc h, funext isCodePoint_eq]
    rfl
  | signedBytes elems => exact bytes?_of_holds rfl hbytes hfield hoffset hc h
  | vector elem elems =>
    obtain ⟨-, helems⟩ := Bool.and_eq_true_iff.1 hc
    refine ⟨elements?_of_holds hbytes hfield hoffset helems h, ?_⟩
    intro helem
    exact bytes?_of_holds (by rw [helem]; rfl) hbytes hfield hoffset helems h

theorem isRead_of_stands {c : Content} (hc : c.holds = true) (hbytes : r.bytes = w.toArray)
    (hfield : ∀ width ≤ off, r.field? slot width = some (w.length - off)) (h : c.Stands w off) :
    c.IsRead r slot := by
  cases c with
  | scalar s bits =>
    obtain ⟨-, hbits⟩ := Bool.and_eq_true_iff.1 hc
    refine ⟨FieldType.lookup?_of_stands hbytes hfield h hbits, ?_⟩
    intro hs
    subst hs
    exact FieldType.lookupChar?_of_stands hbytes hfield h hbits
  | object c =>
    obtain ⟨target, hoffset, hobject⟩ := h
    have hle := hoffset.2.2.length_le
    rw [length_leBytes] at hle
    exact isRead_object hc hbytes (hfield 4 hle) hoffset hobject

end

end Content

/--
A table to be written. First come the objects outside it, in order, then the commits of its fields,
in order. No field is committed twice.
-/
structure Draft where
  objects : List Creation
  count : Nat
  commits : List (Fin count × Entry objects.length)
  count_le : count ≤ Layout.maxFields
  objects_hold : objects.all Creation.holds = true
  commits_hold : (commits.all fun c => c.2.holds) = true
  nodup : (commits.map Prod.fst).Nodup

namespace Draft

/--
The calls that write the objects and the fields. They start with a reset, so it does not matter what
was written before.
-/
def fill (d : Draft) : Calls Unit := do
  Calls.perform .reset
  let offs ← d.objects.mapM Calls.make
  Calls.perform (.startObject d.count)
  d.commits.forM fun c => Calls.perform (c.2.action c.1 offs)

def build (d : Draft) (b : Builder) : Except BuilderError (List UInt8) := do
  let b ← d.fill.exec b
  let b ← b.finishObject
  b.finishedBytes

def content? (d : Draft) : Entry d.objects.length → Option Content
  | .scalar s bits default => if s.sameValue bits default then none else some (.scalar s bits)
  | .scalarAlways s bits => some (.scalar s bits)
  | .object ref => some (.object (d.objects.get ref))

def contentsOf (d : Draft) (commits : List (Fin d.count × Entry d.objects.length)) :
    List (Nat × Content) :=
  commits.filterMap fun c => (d.content? c.2).map fun content => (c.1.val, content)

def contents (d : Draft) : List (Nat × Content) :=
  d.contentsOf d.commits

structure ReadsBack (d : Draft) (r : Reader) : Prop where
  isValid : r.isValid = true
  present : ∀ i c, (i, c) ∈ d.contents →
    r.has (Layout.slot i) = true ∧ c.IsRead r (Layout.slot i)
  absent : ∀ i < d.count, (∀ c, (i, c) ∉ d.contents) →
    ∀ width, r.field? (Layout.slot i) width = none

theorem ReadsBack.of_perm {d d' : Draft} {r : Reader} (hcount : d.count = d'.count)
    (hperm : d.contents.Perm d'.contents) (h : d'.ReadsBack r) : d.ReadsBack r where
  isValid := h.isValid
  present := by
    intro i c hc
    exact h.present i c (hperm.mem_iff.1 hc)
  absent := by
    intro i hi hc
    apply h.absent i (by omega)
    intro c hmem
    exact hc c (hperm.mem_iff.2 hmem)

section

variable {d : Draft}

theorem mem_contentsOf {commits : List (Fin d.count × Entry d.objects.length)} {i : Nat}
    {c : Content} : (i, c) ∈ d.contentsOf commits ↔
      ∃ commit ∈ commits, commit.1.val = i ∧ d.content? commit.2 = some c := by
  unfold contentsOf
  rw [List.mem_filterMap]
  constructor
  · rintro ⟨commit, hmem, hcommit⟩
    obtain ⟨content, hcontent, heq⟩ := Option.map_eq_some_iff.1 hcommit
    cases heq
    exact ⟨commit, hmem, rfl, hcontent⟩
  · rintro ⟨commit, hmem, rfl, hcontent⟩
    refine ⟨commit, hmem, ?_⟩
    rw [hcontent]
    rfl

theorem contentsOf_append (done : List (Fin d.count × Entry d.objects.length))
    (commit : Fin d.count × Entry d.objects.length) :
    d.contentsOf (done ++ [commit]) = d.contentsOf done ++ d.contentsOf [commit] := by
  unfold contentsOf
  rw [List.filterMap_append]

theorem contentsOf_of_none {commit : Fin d.count × Entry d.objects.length}
    (h : d.content? commit.2 = none) : d.contentsOf [commit] = [] := by
  unfold contentsOf
  rw [List.filterMap_cons_none, List.filterMap_nil]
  rw [h]
  rfl

theorem contentsOf_of_some {commit : Fin d.count × Entry d.objects.length} {c : Content}
    (h : d.content? commit.2 = some c) : d.contentsOf [commit] = [(commit.1.val, c)] := by
  unfold contentsOf
  rw [List.filterMap_cons_some (b := (commit.1.val, c)), List.filterMap_nil]
  rw [h]
  rfl

theorem holds_of_content? {e : Entry d.objects.length} {c : Content} (he : e.holds = true)
    (h : d.content? e = some c) : c.holds = true := by
  cases e with
  | scalar s bits default =>
    rw [content?] at h
    split at h
    · contradiction
    · cases h
      exact he
  | scalarAlways s bits =>
    cases h
    exact he
  | object ref =>
    cases h
    exact List.all_eq_true.1 d.objects_hold _ (List.get_mem ..)

structure Filled (d : Draft) (offs : List Nat)
    (done : List (Fin d.count × Entry d.objects.length)) (b : Builder) : Prop where
  size : b.vtable.size = d.count
  isNested : b.isNested = true
  vtables : b.vtables = []
  minAlign : b.minAlign ∣ 8
  objectEnd_le : b.objectEnd ≤ b.offset
  objects : ∀ (i : Nat) c, d.objects[i]? = some c → c.Stands b.written (offs.getD i 0)
  present : ∀ i c, (i, c) ∈ d.contentsOf done →
    ∃ field, b.vtable[i]? = some field ∧ b.objectEnd < field ∧ c.Stands b.written field
  absent : ∀ i field, (∀ c, (i, c) ∉ d.contentsOf done) → b.vtable[i]? = some field → field = 0

variable {offs : List Nat} {done : List (Fin d.count × Entry d.objects.length)} {b : Builder}

theorem Filled.slotted {b' : Builder} {commit : Fin d.count × Entry d.objects.length} {c : Content}
    {width : Nat} (h : Filled d offs done b) (hnew : commit.1 ∉ done.map Prod.fst)
    (hcontent : d.content? commit.2 = some c) (hwidth : 0 < width) (hdvd : width ∣ 8)
    (hslotted : Slotted b b' commit.1 width) (hstands : c.Stands b'.written b'.offset) :
    Filled d offs (done ++ [commit]) b' := by
  obtain ⟨bytes, hwritten⟩ := hslotted.written
  have hoffset := hslotted.offset
  have hobjectEnd := hslotted.objectEnd
  have hle := h.objectEnd_le
  have hcommit : commit.1.val < b.vtable.size := by
    rw [h.size]
    exact commit.1.isLt
  -- another commit has another index, so its field is where it was
  have hother : ∀ i c', (i, c') ∈ d.contentsOf done → i ≠ commit.1.val := by
    intro i c' hmem heq
    obtain ⟨commit', hmem', hindex, -⟩ := mem_contentsOf.1 hmem
    apply hnew
    have hsame : commit'.1 = commit.1 := Fin.ext (hindex.trans heq)
    rw [← hsame]
    exact List.mem_map_of_mem hmem'
  refine ⟨?_, ?_, ?_, ?_, by omega, ?_, ?_, ?_⟩
  · rw [hslotted.vtable, Array.size_setIfInBounds, h.size]
  · rw [hslotted.isNested, h.isNested]
  · rw [hslotted.vtables, h.vtables]
  · rw [hslotted.minAlign]
    exact max_dvd h.minAlign hdvd
  · intro i c' hc'
    rw [hwritten]
    exact (h.objects i c' hc').prepend bytes
  · intro i c' hmem
    rw [contentsOf_append, contentsOf_of_some hcontent, List.mem_append, List.mem_singleton] at hmem
    rcases hmem with hmem | heq
    · obtain ⟨field, hfield, hlt, hholds⟩ := h.present i c' hmem
      refine ⟨field, ?_, by omega, ?_⟩
      · rw [hslotted.getElem?_of_ne (hother i c' hmem)]
        exact hfield
      · rw [hwritten]
        exact hholds.prepend bytes
    · cases heq
      exact ⟨b'.offset, hslotted.getElem?_self hcommit, by omega, hstands⟩
  · intro i field habsent hfield
    rw [contentsOf_append, contentsOf_of_some hcontent] at habsent
    have hne : i ≠ commit.1.val := by
      rintro rfl
      exact habsent c (List.mem_append_right _ (List.mem_singleton.2 rfl))
    rw [hslotted.getElem?_of_ne hne] at hfield
    apply h.absent i field _ hfield
    intro c' hmem
    exact habsent c' (List.mem_append_left _ hmem)

theorem Filled.skipped {commit : Fin d.count × Entry d.objects.length} (h : Filled d offs done b)
    (hcontent : d.content? commit.2 = none) : Filled d offs (done ++ [commit]) b := by
  have hsame : d.contentsOf (done ++ [commit]) = d.contentsOf done := by
    rw [contentsOf_append, contentsOf_of_none hcontent, List.append_nil]
  refine ⟨h.size, h.isNested, h.vtables, h.minAlign, h.objectEnd_le, h.objects, ?_, ?_⟩
  · rw [hsame]
    exact h.present
  · rw [hsame]
    exact h.absent

theorem Filled.slotAlways_reaches {s : Scalar} {bits : Nat}
    {commit : Fin d.count × Entry d.objects.length} (h : Filled d offs done b)
    (hnew : commit.1 ∉ done.map Prod.fst) (hs : s.isValid = true)
    (hcontent : d.content? commit.2 = some (.scalar s bits)) :
    Reaches 0x40000000 (b.slotAlways s commit.1.val bits)
      (Filled d offs (done ++ [commit])) := by
  have hcommit : commit.1.val < b.vtable.size := by
    rw [h.size]
    exact commit.1.isLt
  have hpos := Scalar.size_pos_of_isValid hs
  apply (Builder.slotAlways_reaches bits hpos hcommit).limit.mono (Nat.le_refl _)
  rintro b' ⟨hslotted, hstands⟩
  exact h.slotted hnew hcontent hpos (Scalar.size_dvd_of_isValid hs) hslotted hstands

theorem Filled.commit_reaches {commit : Fin d.count × Entry d.objects.length}
    (h : Filled d offs done b) (hnew : commit.1 ∉ done.map Prod.fst)
    (hholds : commit.2.holds = true) :
    Reaches 0x40000000 ((commit.2.action commit.1 offs).run b)
      (Filled d offs (done ++ [commit])) := by
  obtain ⟨i, e⟩ := commit
  cases e with
  | scalar s bits default =>
    unfold Entry.action Action.run Builder.slot
    dsimp only
    split
    · next hsame =>
      apply Reaches.ok
      apply h.skipped
      exact if_pos hsame
    · next hsame =>
      apply h.slotAlways_reaches hnew (Bool.and_eq_true_iff.1 hholds).1
      exact if_neg hsame
  | scalarAlways s bits =>
    exact h.slotAlways_reaches hnew (Bool.and_eq_true_iff.1 hholds).1 rfl
  | object ref =>
    have hobject := h.objects ref _ (List.getElem?_eq_getElem ref.isLt)
    have hi : i.val < b.vtable.size := by
      rw [h.size]
      exact i.isLt
    have hle : offs.getD ref 0 ≤ b.offset := by
      rw [b.offset_eq]
      exact hobject.le_length
    apply (Builder.offsetSlot_reaches hle hi).limit.mono (Nat.le_refl _)
    rintro b' ⟨hslotted, hoffset⟩
    obtain ⟨bytes, hwritten⟩ := hslotted.written
    apply h.slotted hnew rfl (by decide) (by decide) hslotted
    refine ⟨offs.getD ref 0, hoffset, ?_⟩
    rw [hwritten]
    exact hobject.prepend bytes

theorem Filled.commits_reaches (h : Filled d offs [] b) :
    Reaches 0x40000000
      (d.commits.foldlM (fun b commit => (commit.2.action commit.1 offs).run b) b)
      (Filled d offs d.commits) := by
  refine (Reaches.foldlM (fun rest b => ∃ done, done ++ rest = d.commits ∧ Filled d offs done b)
    ?step d.commits b ⟨[], rfl, h⟩).mono (Nat.le_refl _) ?all
  case all =>
    rintro b' ⟨done, hdone, hfilled⟩
    rw [List.append_nil] at hdone
    rw [← hdone]
    exact hfilled
  case step =>
    rintro commit rest b' ⟨done, hdone, hfilled⟩
    have hmem : commit ∈ d.commits := by
      rw [← hdone]
      exact List.mem_append_right _ (List.mem_cons_self ..)
    have hnew : commit.1 ∉ done.map Prod.fst := by
      have hnodup := d.nodup
      rw [← hdone, List.map_append, List.map_cons] at hnodup
      intro hmem'
      exact (List.nodup_append.1 hnodup).2.2 _ hmem' _ (List.mem_cons_self ..) rfl
    apply (hfilled.commit_reaches hnew (List.all_eq_true.1 d.commits_hold _ hmem)).mono
      (Nat.le_refl _)
    intro b'' hfilled'
    refine ⟨done ++ [commit], ?_, hfilled'⟩
    rw [List.append_assoc]
    exact hdone

theorem filled_startObject {b : Builder} (hnested : b.isNested = false) (hvtables : b.vtables = [])
    (halign : b.minAlign ∣ 8)
    (hobjects : ∀ (i : Nat) c, d.objects[i]? = some c → c.Stands b.written (offs.getD i 0)) :
    ∃ b', b.startObject d.count = .ok b' ∧ Filled d offs [] b' := by
  refine ⟨{ b with isNested := true, vtable := Array.replicate d.count 0, objectEnd := b.offset },
    ?_, ⟨Array.size_replicate, rfl, hvtables, halign, Nat.le_refl _, hobjects, ?_, ?_⟩⟩
  · unfold Builder.startObject
    rw [Builder.requireNotNested_eq hnested]
    rfl
  · intro i c hmem
    contradiction
  · intro i field _ hfield
    rw [Array.getElem?_replicate] at hfield
    split at hfield
    · cases hfield
      rfl
    · contradiction

theorem fill_reaches (d : Draft) (b : Builder) :
    Reaches 0x40000000 (d.fill.exec b) fun o => ∃ offs, Filled d offs d.commits o := by
  unfold fill
  rw [Calls.exec_perform_bind]
  apply Reaches.ok_bind
  rw [Calls.exec_bind]
  apply Reaches.bind (Creation.run_mapM_make_reaches (List.all_eq_true.1 d.objects_hold) rfl)
  rintro ⟨b₁, offs⟩ ⟨hextends, hobjects⟩
  obtain ⟨b₂, hstart, hfilled⟩ := filled_startObject hextends.isNested hextends.vtables
    (hextends.minAlign (Nat.one_dvd 8)) hobjects
  rw [Calls.exec_perform_bind, show Action.run (.startObject d.count) b₁ = .ok b₂ from hstart]
  apply Reaches.ok_bind
  rw [Calls.exec_forM fun commit b => Calls.exec_perform (commit.2.action commit.1 offs) b]
  apply hfilled.commits_reaches.mono (Nat.le_refl _)
  intro o ho
  exact ⟨offs, ho⟩

theorem Filled.readsBack {o b' : Builder} (h : Filled d offs d.commits o)
    (hinline : o.offset - o.objectEnd < 65528) (hfinished : Finished o b') :
    d.ReadsBack (finishedReader o b') where
  isValid := rfl
  present := by
    intro i c hmem
    obtain ⟨commit, hcommit, rfl, hcontent⟩ := mem_contentsOf.1 hmem
    obtain ⟨field, hfield, hlt, hstands⟩ := h.present _ c hmem
    have hle := hstands.le_length
    rw [← o.offset_eq] at hle
    have hpad := Layout.padding_lt o.offset (show 0 < 4 by decide)
    have hslot := Layout.toNat_slot (Nat.lt_of_lt_of_le commit.1.isLt d.count_le)
    -- the field is closer to the table than the inline region is long
    have hfound : ∀ width ≤ field, (finishedReader o b').field? (Layout.slot commit.1.val) width =
        some (b'.written.length - field) := by
      intro width hwidth
      rw [← b'.offset_eq]
      apply hfinished.field?_eq_some hslot hfield (by omega) hle _ hwidth
      unfold Builder.objectOffset
      omega
    obtain ⟨front, hwritten⟩ := hfinished.written_append
    have hholds := holds_of_content? (List.all_eq_true.1 d.commits_hold _ hcommit) hcontent
    constructor
    · unfold Reader.has
      rw [hfound 0 (Nat.zero_le _)]
      rfl
    · have hstands' : c.Stands b'.written field := by
        rw [hwritten]
        exact hstands.prepend front
      exact Content.isRead_of_stands hholds rfl hfound hstands'
  absent := by
    intro i hi habsent width
    apply hfinished.field?_eq_none (Layout.toNat_slot (Nat.lt_of_lt_of_le hi d.count_le))
    intro field hfield
    exact h.absent i field habsent hfield

theorem exists_readsBack {b : Builder} (hroom : d.build b ≠ .error .tooLarge)
    (hinline : ∀ o, d.fill.exec b = .ok o → o.offset - o.objectEnd < 65528) :
    ∃ bytes, d.build b = .ok bytes ∧ d.ReadsBack (Reader.ofBytes bytes.toArray) := by
  have hreaches : Reaches 0x40000000 (d.build b) fun bytes =>
      d.ReadsBack (Reader.ofBytes bytes.toArray) := by
    unfold build
    cases ho : d.fill.exec b with
    | error e =>
      have hfill := d.fill_reaches b
      rw [ho] at hfill
      exact hfill
    | ok o =>
      obtain ⟨offs, hfilled⟩ := (d.fill_reaches b).result ho
      apply Reaches.ok_bind
      apply Reaches.bind
        (Builder.finishObject_reaches hfilled.isNested hfilled.vtables hfilled.minAlign).limit
      intro b' hfinished
      unfold Builder.finishedBytes
      rw [hfinished.isFinished]
      apply Reaches.ok
      rw [hfinished.ofBytes (by rw [hfilled.size]; exact d.count_le)]
      exact hfilled.readsBack (hinline o ho) hfinished
  exact hreaches.exists_ok hroom

end

theorem readsBack_in_any_order {d d' : Draft} {b b' : Builder} (hcount : d.count = d'.count)
    (hperm : d.contents.Perm d'.contents)
    (hroom : d.build b ≠ .error .tooLarge)
    (hinline : ∀ o, d.fill.exec b = .ok o → o.offset - o.objectEnd < 65528)
    (hroom' : d'.build b' ≠ .error .tooLarge)
    (hinline' : ∀ o, d'.fill.exec b' = .ok o → o.offset - o.objectEnd < 65528) :
    ∃ bytes bytes', d.build b = .ok bytes ∧ d'.build b' = .ok bytes' ∧
      d.ReadsBack (Reader.ofBytes bytes.toArray) ∧ d.ReadsBack (Reader.ofBytes bytes'.toArray) := by
  obtain ⟨bytes, hbuild, hreads⟩ := exists_readsBack hroom hinline
  obtain ⟨bytes', hbuild', hreads'⟩ := exists_readsBack hroom' hinline'
  exact ⟨bytes, bytes', hbuild, hbuild', hreads, hreads'.of_perm hcount hperm⟩

def mixed : Draft where
  objects := [.string [0x68, 0x69], .strings [[0x61], [0xff]], .vector .u64 [1, 2]]
  count := 7
  commits := [(5, .scalar .u16 7 7), (0, .object 0), (4, .scalarAlways .char 0xd800),
    (2, .object 1), (6, .object 0), (1, .scalar .bool 1 0)]
  count_le := by decide
  objects_hold := by decide
  commits_hold := by decide
  nodup := by decide

def reordered : Draft where
  objects := [.strings [[0x61], [0xff]], .string [0x68, 0x69]]
  count := 7
  commits := [(1, .scalarAlways .bool 1), (6, .object 1), (2, .object 0), (0, .object 1),
    (4, .scalar .char 0xd800 0)]
  count_le := by decide
  objects_hold := by decide
  commits_hold := by decide
  nodup := by decide

theorem limits_of_check {d : Draft} {b : Builder} (hbuild : (d.build b).isOk = true)
    (hfill : ((d.fill.exec b).toOption.all fun o => o.offset - o.objectEnd < 65528) = true) :
    d.build b ≠ .error .tooLarge ∧
      ∀ o, d.fill.exec b = .ok o → o.offset - o.objectEnd < 65528 := by
  constructor
  · intro h
    rw [h] at hbuild
    contradiction
  · intro o ho
    rw [ho] at hfill
    simpa [Except.toOption] using hfill

theorem readsBack_mixed_reordered :
    ∃ bytes bytes', mixed.build (.new 0) = .ok bytes ∧ reordered.build (.new 3) = .ok bytes' ∧
      mixed.ReadsBack (Reader.ofBytes bytes.toArray) ∧
      mixed.ReadsBack (Reader.ofBytes bytes'.toArray) := by
  have hmixed := limits_of_check (d := mixed) (b := .new 0) (by decide +kernel) (by decide +kernel)
  have hreordered := limits_of_check (d := reordered) (b := .new 3) (by decide +kernel)
    (by decide +kernel)
  exact readsBack_in_any_order rfl (by decide) hmixed.1 hmixed.2 hreordered.1 hreordered.2

end Draft

end RecordCodec.Table
