import RecordCodec.Plan
import RecordCodec.Proofs.Planner.Optimality
import RecordCodec.Proofs.Planner.TypeText
import RecordCodec.Proofs.Mapping

/-!
This module contains what is true of every plan that `assemble` makes: `Plan.WellFormed` collects
it, so that nothing else has to look into `assemble`.
-/

namespace RecordCodec

theorem isKnown_of_leafType? {name : String} {t : FieldType} (h : leafType? name = some t) :
    t.isKnown = true := by
  have hall : canonicalTypes.all (·.2.isKnown) = true := by decide
  unfold leafType? at h
  obtain ⟨before, after, heq, -⟩ := List.lookup_eq_some_iff.1 h
  rw [List.all_eq_true] at hall
  apply hall ((aliases.lookup name).getD name, t)
  rw [heq]
  simp

theorem isKnown_sequence {t : FieldType} (h : t.isKnown = true) : t.sequence.isKnown = true := by
  unfold FieldType.sequence FieldType.isKnown
  simp [FieldType.isValid_of_isKnown h]

theorem isKnown_optional {t : FieldType} (h : t.isKnown = true) : t.optional.isKnown = true := by
  unfold FieldType.optional FieldType.isKnown
  simp [FieldType.isValid_of_isKnown h]

theorem isKnown_of_typeOfText {text : String} {t : FieldType} (h : typeOfText text = .ok t) :
    t.isKnown = true := by
  unfold typeOfText at h
  split at h
  · contradiction
  · split at h
    · contradiction
    · split at h
      · next hleaf =>
        cases h
        exact isKnown_of_leafType? hleaf
      · contradiction
  · split at h
    · contradiction
    · split at h
      · contradiction
      · next hleaf _ =>
        cases h
        exact isKnown_sequence (isKnown_of_leafType? hleaf)
      · next hleaf _ =>
        cases h
        exact isKnown_optional (isKnown_of_leafType? hleaf)
  · contradiction

theorem isKnown_of_classify {record field text : String} {t : FieldType}
    (h : classify record field text = .ok t) : t.isKnown = true := by
  unfold classify at h
  split at h
  · next htype =>
    cases h
    exact isKnown_of_typeOfText htype
  · contradiction

structure Field.IsPlaced (f : Field) (i : Nat) : Prop where
  index : f.index = i
  slot : f.slot = Layout.slot i
  isKnown : f.type.isKnown = true
  isIdentifier : Naming.isIdentifier f.name = true

theorem placeFields_cons_eq_ok {record : String} {index : Nat} {seen : Std.TreeSet String}
    {d : Declaration} {ds : List Declaration} {fields : List Field}
    (h : placeFields record index seen (d :: ds) = .ok fields) :
    ∃ t rest, Naming.isIdentifier d.name = true ∧ seen.contains d.name = false ∧
      classify record d.name d.type = .ok t ∧
      placeFields record (index + 1) (seen.insert d.name) ds = .ok rest ∧
      fields = Field.ofDeclaration d t index :: rest := by
  unfold placeFields at h
  dsimp only at h
  split at h
  · next hidentifier =>
    split at h
    · obtain ⟨_, hthrow, -⟩ := exists_of_bind_eq_ok h
      contradiction
    · next hseen =>
      obtain ⟨t, htype, h⟩ := exists_of_bind_eq_ok h
      obtain ⟨rest, hrest, h⟩ := exists_of_bind_eq_ok h
      cases h
      rw [Bool.not_eq_true] at hseen
      exact ⟨t, rest, hidentifier, hseen, htype, hrest, rfl⟩
  · obtain ⟨_, hthrow, -⟩ := exists_of_bind_eq_ok h
    contradiction

theorem placeFields_isPlaced {record : String} {index : Nat} {seen : Std.TreeSet String}
    {ds : List Declaration} {fields : List Field}
    (h : placeFields record index seen ds = .ok fields) :
    fields.length = ds.length ∧
    (∀ (i : Nat) f, fields[i]? = some f → f.IsPlaced (index + i)) ∧
    (fields.map (·.name)).Nodup ∧ ∀ f ∈ fields, seen.contains f.name = false := by
  induction ds generalizing index seen fields with
  | nil =>
    cases h
    simp
  | cons d ds ih =>
    obtain ⟨t, rest, hidentifier, hseen, htype, hrest, rfl⟩ := placeFields_cons_eq_ok h
    obtain ⟨hlength, hplaced, hnodup, hunseen⟩ := ih hrest
    -- a name of the rest is neither the name of this field nor an earlier one
    have hnames : ∀ f ∈ rest, f.name ≠ d.name ∧ seen.contains f.name = false := by
      intro f hf
      have := hunseen f hf
      rw [Std.TreeSet.contains_insert, Bool.or_eq_false_iff] at this
      refine ⟨?_, this.2⟩
      intro heq
      have hcompare := this.1
      rw [heq] at hcompare
      simp at hcompare
    refine ⟨by simp [hlength], ?_, ?_, ?_⟩
    · intro i f hf
      cases i with
      | zero =>
        cases hf
        exact ⟨rfl, rfl, isKnown_of_classify htype, hidentifier⟩
      | succ i =>
        have := hplaced i f hf
        rw [Nat.add_assoc, Nat.add_comm 1] at this
        exact this
    · rw [List.map_cons, List.nodup_cons]
      refine ⟨?_, hnodup⟩
      intro hmem
      obtain ⟨f, hf, heq⟩ := List.mem_map.1 hmem
      exact (hnames f hf).1 heq
    · intro f hf
      rcases List.mem_cons.1 hf with rfl | hf
      · exact hseen
      · exact (hnames f hf).2

theorem placeFields_declared {record : String} {index : Nat} {seen : Std.TreeSet String}
    {ds : List Declaration} {fields : List Field}
    (h : placeFields record index seen ds = .ok fields) {i : Nat} {d : Declaration}
    (hd : ds[i]? = some d) :
    ∃ t, typeOfText d.type = .ok t ∧ fields[i]? = some (Field.ofDeclaration d t (index + i)) := by
  induction ds generalizing index seen fields i with
  | nil => contradiction
  | cons e ds ih =>
    obtain ⟨t, rest, -, -, hclassify, hrest, rfl⟩ := placeFields_cons_eq_ok h
    cases i with
    | zero =>
      cases hd
      refine ⟨t, ?_, rfl⟩
      unfold classify at hclassify
      split at hclassify
      · next htype =>
        cases hclassify
        exact htype
      · contradiction
    | succ i =>
      obtain ⟨u, htype, hu⟩ := ih hrest hd
      refine ⟨u, htype, ?_⟩
      rw [Nat.add_assoc, Nat.add_comm 1] at hu
      exact hu

structure Plan.WellFormed (p : Plan) : Prop where
  eq_ofFields : p = Plan.ofFields p.record p.fields.toList
  size_le : p.fields.size ≤ Layout.maxFields
  isPlaced : ∀ (i : Nat) f, p.fields[i]? = some f → f.IsPlaced i
  nodup_names : (p.fields.toList.map (·.name)).Nodup

theorem exists_of_assemble_eq_ok {r : Record} {p : Plan} (h : assemble r = .ok p) :
    ∃ fields, r.fields.length ≤ Layout.maxFields ∧
      placeFields r.name 0 ∅ r.fields = .ok fields ∧ p = Plan.ofFields r.name fields := by
  unfold assemble at h
  dsimp only at h
  split at h
  · split at h
    · obtain ⟨_, hthrow, -⟩ := exists_of_bind_eq_ok h
      contradiction
    · next hcount =>
      obtain ⟨fields, hfields, h⟩ := exists_of_bind_eq_ok h
      cases h
      exact ⟨fields, by omega, hfields, rfl⟩
  · obtain ⟨_, hthrow, -⟩ := exists_of_bind_eq_ok h
    contradiction

theorem wellFormed_of_assemble {r : Record} {p : Plan} (h : assemble r = .ok p) :
    p.WellFormed := by
  obtain ⟨fields, hcount, hfields, rfl⟩ := exists_of_assemble_eq_ok h
  obtain ⟨hlength, hplaced, hnodup, -⟩ := placeFields_isPlaced hfields
  refine ⟨rfl, ?_, ?_, hnodup⟩
  · show fields.toArray.size ≤ _
    rw [List.size_toArray]
    omega
  · intro i f hf
    have hget : fields[i]? = some f := by
      rw [← hf]
      exact (List.getElem?_toArray ..).symm
    have := hplaced i f hget
    rw [Nat.zero_add] at this
    exact this

theorem declared_of_assemble {r : Record} {p : Plan} (h : assemble r = .ok p) :
    p.fields.size = r.fields.length ∧ ∀ (i : Nat) d, r.fields[i]? = some d →
      ∃ t, typeOfText d.type = .ok t ∧ p.fields[i]? = some (Field.ofDeclaration d t i) := by
  obtain ⟨fields, -, hfields, rfl⟩ := exists_of_assemble_eq_ok h
  refine ⟨(placeFields_isPlaced hfields).1, ?_⟩
  intro i d hd
  obtain ⟨t, htype, hget⟩ := placeFields_declared hfields hd
  rw [Nat.zero_add] at hget
  exact ⟨t, htype, (List.getElem?_toArray ..).trans hget⟩

def Plan.widthAt (p : Plan) (i : Nat) : Nat :=
  (p.fields[i]?.map (·.type.width)).getD 0

theorem Plan.widthAt_eq {p : Plan} {i : Nat} {f : Field} (h : p.fields[i]? = some f) :
    p.widthAt i = f.type.width := by
  unfold widthAt
  rw [h]
  rfl

def fieldsFrom (index : Nat) (ds : List Declaration) (types : List FieldType) : List Field :=
  ((ds.zip types).zipIdx index).map fun ((d, t), i) => Field.ofDeclaration d t i

theorem map_fieldsFrom (index : Nat) {ds : List Declaration} {types : List FieldType}
    (h : ds.length = types.length) :
    (fieldsFrom index ds types).map (·.name) = ds.map (·.name) ∧
      (fieldsFrom index ds types).map (·.type) = types := by
  induction ds generalizing index types with
  | nil =>
    cases types with
    | nil => exact ⟨rfl, rfl⟩
    | cons t types => contradiction
  | cons d ds ih =>
    cases types with
    | nil => contradiction
    | cons t types =>
      have hcons : fieldsFrom index (d :: ds) (t :: types) =
          Field.ofDeclaration d t index :: fieldsFrom (index + 1) ds types := rfl
      obtain ⟨hnames, htypes⟩ := ih (index + 1) (Nat.succ.inj h)
      rw [hcons, List.map_cons, List.map_cons, List.map_cons, hnames, htypes]
      exact ⟨rfl, rfl⟩

theorem placeFields_eq_ok {record : String} {index : Nat} {seen : Std.TreeSet String}
    {ds : List Declaration} {types : List FieldType}
    (hnames : ∀ d ∈ ds, Naming.isIdentifier d.name = true ∧ seen.contains d.name = false)
    (hnodup : (ds.map (·.name)).Nodup)
    (htypes : ds.map (fun d => typeOfText d.type) = types.map .ok) :
    placeFields record index seen ds = .ok (fieldsFrom index ds types) := by
  induction ds generalizing index seen types with
  | nil => rfl
  | cons d ds ih =>
    cases types with
    | nil => contradiction
    | cons t types =>
      rw [List.map_cons, List.map_cons, List.cons.injEq] at htypes
      rw [List.map_cons, List.nodup_cons] at hnodup
      obtain ⟨hidentifier, hseen⟩ := hnames d (List.mem_cons_self ..)
      have hclassify : classify record d.name d.type = .ok t := by
        unfold classify
        rw [htypes.1]
      have hrest : ∀ e ∈ ds, Naming.isIdentifier e.name = true ∧
          (seen.insert d.name).contains e.name = false := by
        intro e he
        obtain ⟨hidentifier, hseen⟩ := hnames e (List.mem_cons_of_mem _ he)
        refine ⟨hidentifier, ?_⟩
        have hne : d.name ≠ e.name := by
          intro heq
          apply hnodup.1
          rw [heq]
          exact List.mem_map_of_mem he
        rw [Std.TreeSet.contains_insert, hseen, Bool.or_false]
        simpa using hne
      unfold placeFields
      rw [hidentifier, hseen, hclassify]
      show (placeFields record (index + 1) (seen.insert d.name) ds >>= fun rest =>
        Except.ok (Field.ofDeclaration d t index :: rest)) = _
      rw [ih hrest hnodup.2 htypes.2]
      rfl

theorem assemble_eq_ok {r : Record} {types : List FieldType}
    (hrecord : Naming.isIdentifier r.name = true) (hcount : r.fields.length ≤ Layout.maxFields)
    (hnames : ∀ d ∈ r.fields, Naming.isIdentifier d.name = true)
    (hnodup : (r.fields.map (·.name)).Nodup)
    (htypes : r.fields.map (fun d => typeOfText d.type) = types.map .ok) :
    assemble r = .ok (Plan.ofFields r.name (fieldsFrom 0 r.fields types)) := by
  have hplace : placeFields r.name 0 ∅ r.fields = .ok (fieldsFrom 0 r.fields types) := by
    apply placeFields_eq_ok
    · intro d hd
      exact ⟨hnames d hd, Std.TreeSet.contains_emptyc⟩
    · exact hnodup
    · exact htypes
  unfold assemble
  rw [hrecord]
  simp only [↓reduceIte]
  rw [if_neg (by omega), hplace]
  rfl

theorem assemble_of_names {r : Record} {types : List FieldType}
    (h : Naming.isIdentifier r.name = true ∧ r.fields.length ≤ Layout.maxFields ∧
      (∀ d ∈ r.fields, Naming.isIdentifier d.name = true) ∧ (r.fields.map (·.name)).Nodup ∧
      r.fields.map (·.type) = types.map (·.name) ∧ ∀ t ∈ types, t.isNormal = true) :
    assemble r = .ok (Plan.ofFields r.name (fieldsFrom 0 r.fields types)) := by
  obtain ⟨hrecord, hcount, hnames, hnodup, htexts, hnormal⟩ := h
  exact assemble_eq_ok hrecord hcount hnames hnodup (map_typeOfText htexts hnormal)

namespace Plan.WellFormed

variable {p : Plan}

theorem isKnown (h : p.WellFormed) {i : Nat} {f : Field} (hf : p.fields[i]? = some f) :
    f.type.isKnown = true :=
  (h.isPlaced i f hf).isKnown

theorem slot_toNat (h : p.WellFormed) {i : Nat} {f : Field} (hf : p.fields[i]? = some f) :
    f.slot.toNat = 4 + 2 * i := by
  have hsize := h.size_le
  obtain ⟨hi, -⟩ := Array.getElem?_eq_some_iff.1 hf
  rw [(h.isPlaced i f hf).slot]
  apply Layout.toNat_slot
  omega

theorem getElem?_types (i : Nat) :
    (p.fields.toList.map (·.type))[i]? = p.fields[i]?.map (·.type) := by
  rw [List.getElem?_map, Array.getElem?_toList]

theorem commit_eq (h : p.WellFormed) :
    p.commit = Layout.commitOrder (p.fields.toList.map (·.type)) :=
  congrArg Plan.commit h.eq_ofFields

theorem order_eq (h : p.WellFormed) : p.order = List.range p.fields.size := by
  rw [← Array.length_toList]
  exact congrArg Plan.order h.eq_ofFields

theorem indirect_eq (h : p.WellFormed) : p.indirect =
    ((p.fields.toList.map (·.type)).zipIdx.filter (·.1.isIndirect)).map (·.2) :=
  congrArg Plan.indirect h.eq_ofFields

theorem length_indirect_le (h : p.WellFormed) : p.indirect.length ≤ p.fields.size := by
  have hle := List.length_filter_le (·.1.isIndirect) (p.fields.toList.map (·.type)).zipIdx
  rw [List.length_zipIdx, List.length_map, Array.length_toList] at hle
  rw [h.indirect_eq, List.length_map]
  exact hle

theorem mem_indirect (h : p.WellFormed) {i : Nat} :
    i ∈ p.indirect ↔ ∃ f, p.fields[i]? = some f ∧ f.type.isIndirect = true := by
  rw [h.indirect_eq]
  simp only [List.mem_map, List.mem_filter, List.mem_zipIdx_iff_getElem?, Prod.exists]
  constructor
  · rintro ⟨t, j, ⟨ht, hindirect⟩, rfl⟩
    rw [getElem?_types, Option.map_eq_some_iff] at ht
    obtain ⟨f, hf, rfl⟩ := ht
    exact ⟨f, hf, hindirect⟩
  · rintro ⟨f, hf, hindirect⟩
    refine ⟨f.type, i, ⟨?_, hindirect⟩, rfl⟩
    rw [getElem?_types, hf]
    rfl

theorem mem_commit (h : p.WellFormed) {i : Nat} : i ∈ p.commit ↔ i < p.fields.size := by
  rw [h.commit_eq, Layout.mem_commitOrder, List.length_map, Array.length_toList]

theorem nodup_commit (h : p.WellFormed) : p.commit.Nodup := by
  rw [h.commit_eq]
  apply Layout.nodup_commitOrder

theorem widthAt_pos (h : p.WellFormed) {i : Nat} (hi : i < p.fields.size) : 0 < p.widthAt i := by
  have hf := Array.getElem?_eq_getElem hi
  rw [widthAt_eq hf]
  exact FieldType.width_pos_of_isKnown (h.isKnown hf)

theorem widthAt_dvd (h : p.WellFormed) {i : Nat} (hi : i < p.fields.size) : p.widthAt i ∣ 8 := by
  have hf := Array.getElem?_eq_getElem hi
  rw [widthAt_eq hf]
  exact FieldType.width_dvd_of_isKnown (h.isKnown hf)

theorem pairwise_commit (h : p.WellFormed) :
    p.commit.Pairwise (fun i j => p.widthAt j ∣ p.widthAt i) := by
  have hpairwise := Layout.pairwise_commitOrder (p.fields.toList.map (·.type))
  rw [← h.commit_eq] at hpairwise
  apply hpairwise.imp_of_mem
  intro i j hi hj hbefore
  have hf := Array.getElem?_eq_getElem (h.mem_commit.1 hi)
  have hg := Array.getElem?_eq_getElem (h.mem_commit.1 hj)
  rw [widthAt_eq hf, widthAt_eq hg]
  apply Layout.width_dvd_of_before hbefore
  · rw [getElem?_types, hf]
    rfl
  · rw [getElem?_types, hg]
    rfl
  · exact FieldType.width_pos_of_isKnown (h.isKnown hf)
  · exact FieldType.width_pos_of_isKnown (h.isKnown hg)

section

variable {is js : List Nat} {i : Nat}

theorem lt_size_of_commit_eq (h : p.WellFormed) (hcommit : p.commit = is ++ i :: js) :
    i < p.fields.size := by
  apply h.mem_commit.1
  rw [hcommit]
  exact List.mem_append_right _ (List.mem_cons_self ..)

theorem widthAt_dvd_of_mem_left (h : p.WellFormed) (hcommit : p.commit = is ++ i :: js) :
    ∀ j ∈ is, p.widthAt i ∣ p.widthAt j := by
  have hpairwise := h.pairwise_commit
  rw [hcommit] at hpairwise
  intro j hj
  exact (List.pairwise_append.1 hpairwise).2.2 j hj i (List.mem_cons_self ..)

theorem widthAt_dvd_of_mem_right (h : p.WellFormed) (hcommit : p.commit = is ++ i :: js) :
    ∀ j ∈ js, p.widthAt j ∣ p.widthAt i := by
  have hpairwise := h.pairwise_commit
  rw [hcommit] at hpairwise
  exact (List.pairwise_cons.1 (List.pairwise_append.1 hpairwise).2.1).1

end

theorem widthAt_eq_widthAt_types :
    p.widthAt = Layout.widthAt (p.fields.toList.map (·.type)) := by
  funext i
  unfold widthAt Layout.widthAt
  rw [getElem?_types, Option.map_map]
  rfl

theorem commit_perm (h : p.WellFormed) : p.commit.Perm (List.range p.fields.size) := by
  have hperm := Layout.commitOrder_perm (p.fields.toList.map (·.type))
  rw [← h.commit_eq, List.length_map, Array.length_toList] at hperm
  exact hperm

theorem layout_eq (h : p.WellFormed) : p.layout = Layout.ofWidths (p.commit.map p.widthAt) := by
  have hlayout := congrArg Plan.layout h.eq_ofFields
  have hwidths : (fun i => ((p.fields.toList.map (·.type)).toArray[i]?.map FieldType.width).getD 0)
      = p.widthAt := by
    funext i
    rw [widthAt_eq_widthAt_types, List.getElem?_toArray]
    rfl
  rw [hlayout, ← hwidths, h.commit_eq]
  rfl

theorem layout_size (h : p.WellFormed) :
    p.layout.size = Layout.total (p.commit.map p.widthAt) := by
  rw [h.layout_eq]
  apply Layout.size_of_pairwise
  rw [List.pairwise_map]
  exact h.pairwise_commit

theorem layout_size_eq_total (h : p.WellFormed) :
    p.layout.size = Layout.total ((p.fields.toList.map (·.type)).map FieldType.width) := by
  rw [h.layout_size, widthAt_eq_widthAt_types, h.commit_eq,
    Layout.total_of_perm (Layout.commitOrder_perm _)]

theorem layout_align_of_cons (h : p.WellFormed) {i : Nat} {js : List Nat}
    (hcommit : p.commit = i :: js) : p.layout.align = p.widthAt i := by
  rw [← List.nil_append (i :: js)] at hcommit
  have hi := h.lt_size_of_commit_eq hcommit
  rw [h.layout_eq, hcommit, List.nil_append, List.map_cons]
  apply Layout.align_ofWidths_cons (h.widthAt_pos hi)
  intro width hwidth
  obtain ⟨j, hj, rfl⟩ := List.mem_map.1 hwidth
  exact Nat.le_of_dvd (h.widthAt_pos hi) (h.widthAt_dvd_of_mem_right hcommit j hj)

theorem length_commit (h : p.WellFormed) : p.commit.length = p.fields.size := by
  rw [h.commit_perm.length_eq, List.length_range]

theorem layout_size_le (h : p.WellFormed) : p.layout.size ≤ 8 * p.fields.size := by
  have hle : Layout.total (p.commit.map p.widthAt) ≤ 8 * (p.commit.map p.widthAt).length := by
    apply Layout.total_le
    intro width hwidth
    obtain ⟨i, hi, rfl⟩ := List.mem_map.1 hwidth
    exact Nat.le_of_dvd (by decide) (h.widthAt_dvd (h.mem_commit.1 hi))
  rw [List.length_map, h.length_commit] at hle
  rw [h.layout_size]
  exact hle

theorem index_eq_of_name_eq (h : p.WellFormed) {i j : Nat} {f g : Field}
    (hf : p.fields[i]? = some f) (hg : p.fields[j]? = some g) (hname : f.name = g.name) : i = j := by
  obtain ⟨hi, -⟩ := Array.getElem?_eq_some_iff.1 hf
  apply (List.getElem?_inj (by simpa using hi) h.nodup_names).1
  rw [List.getElem?_map, List.getElem?_map, Array.getElem?_toList, Array.getElem?_toList, hf, hg]
  simp [hname]

end Plan.WellFormed

end RecordCodec
