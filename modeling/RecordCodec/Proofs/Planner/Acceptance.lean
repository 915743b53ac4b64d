import RecordCodec.Proofs.Planner.Assembled
import RecordCodec.Proofs.Planner.TypeText

/-!
This module contains which record descriptions have a plan: `Record.defects` lists all that is wrong
with a description, `assemble` reports the first of them, and a description without any has a plan
that follows from its declarations.
-/

namespace RecordCodec

def Declaration.defects (record : String) (earlier : List Declaration) (d : Declaration) :
    List Fault :=
  (if Naming.isIdentifier d.name then [] else [.invalidName .plan record d.name]) ++
    (if d.name ∈ earlier.map (·.name) then [.duplicateField record d.name] else []) ++
    match classify record d.name d.type with
    | .ok _ => []
    | .error f => [f]

def declarationDefects (record : String) (earlier : List Declaration) :
    List Declaration → List Fault
  | [] => []
  | d :: ds => d.defects record earlier ++ declarationDefects record (earlier ++ [d]) ds

def Record.defects (r : Record) : List Fault :=
  (if Naming.isIdentifier r.name then [] else [.invalidName .plan r.name r.name]) ++
    (if r.fields.length ≤ 32765 then []
      else [{ phase := .plan, kind := .invalidInput, record := r.name,
              detail := toString r.fields.length ++ " fields exceed the limit of 32765" }]) ++
    declarationDefects r.name [] r.fields

structure Record.IsValid (r : Record) : Prop where
  isIdentifier : Naming.isIdentifier r.name = true
  count : r.fields.length ≤ 32765
  names : ∀ d ∈ r.fields, Naming.isIdentifier d.name = true
  nodup : (r.fields.map (·.name)).Nodup
  types : ∀ d ∈ r.fields, ∃ t, classify r.name d.name d.type = .ok t

def Plan.types (p : Plan) : List FieldType :=
  p.fields.toList.map (·.type)

structure Plan.IsPlanOf (p : Plan) (r : Record) : Prop where
  record : p.record = r.name
  size : p.fields.size = r.fields.length
  declared : ∀ (i : Nat) d, r.fields[i]? = some d → ∃ f, p.fields[i]? = some f ∧
    f.name = d.name ∧ f.typeText = d.type ∧ classify r.name d.name d.type = .ok f.type ∧
    f.index = i ∧ f.slot.toNat = 4 + 2 * i
  slots : (p.fields.toList.map (·.slot)).Pairwise (· < ·)
  commit_perm : p.commit.Perm (List.range r.fields.length)
  commit_sorted : p.commit.Pairwise (Layout.Before p.types)
  indirect_sorted : p.indirect.Pairwise (· < ·)
  mem_indirect : ∀ i, i ∈ p.indirect ↔ ∃ f, p.fields[i]? = some f ∧
    (f.type.encodeStrategy = .indirect ∨ f.type.encodeStrategy = .indirectPresent)
  order : p.order = List.range r.fields.length
  layout : Layout.calculate? p.types (p.commit.map Int.ofNat) = some p.layout

/-! What is reported. -/

theorem placeFields_cons (record : String) (index : Nat) (seen : Std.TreeSet String)
    (d : Declaration) (ds : List Declaration) :
    placeFields record index seen (d :: ds) =
      if Naming.isIdentifier d.name then
        if seen.contains d.name then .error (.duplicateField record d.name)
        else
          match classify record d.name d.type with
          | .error f => .error f
          | .ok t => (placeFields record (index + 1) (seen.insert d.name) ds).map
              (Field.ofDeclaration d t index :: ·)
      else .error (.invalidName .plan record d.name) := by
  rw [placeFields]
  split
  · split
    · rfl
    · cases classify record d.name d.type with
      | error f => rfl
      | ok t =>
        cases placeFields record (index + 1) (seen.insert d.name) ds with
        | error f => rfl
        | ok fields => rfl
  · rfl

theorem map_eq_error_iff {x : Except ε α} {g : α → β} {e : ε} :
    x.map g = .error e ↔ x = .error e := by
  cases x with
  | error f => simp [Except.map]
  | ok a => simp [Except.map]

theorem placeFields_eq_error_iff {record : String} {index : Nat} {seen : Std.TreeSet String}
    {earlier ds : List Declaration}
    (hseen : ∀ name, seen.contains name = true ↔ name ∈ earlier.map (·.name)) {f : Fault} :
    placeFields record index seen ds = .error f ↔
      (declarationDefects record earlier ds).head? = some f := by
  induction ds generalizing index seen earlier with
  | nil => simp [placeFields, declarationDefects]
  | cons d ds ih =>
    rw [placeFields_cons, declarationDefects, Declaration.defects]
    have hrest : ∀ name, (seen.insert d.name).contains name = true ↔
        name ∈ (earlier ++ [d]).map (·.name) := by
      intro name
      rw [Std.TreeSet.contains_insert, Bool.or_eq_true, hseen, List.map_append, List.mem_append,
        List.map_singleton, List.mem_singleton, beq_iff_eq, Std.LawfulEqCmp.compare_eq_iff_eq,
        or_comm, eq_comm]
    by_cases hidentifier : Naming.isIdentifier d.name = true
    · by_cases hmem : seen.contains d.name = true
      · simp [hidentifier, hmem, (hseen d.name).1 hmem]
      · have hnew : d.name ∉ earlier.map (·.name) := by
          rw [← hseen]
          exact hmem
        cases hclassify : classify record d.name d.type with
        | error g => simp [hidentifier, hmem, hnew]
        | ok t =>
          rw [if_pos hidentifier, if_neg hmem, if_pos hidentifier, if_neg hnew]
          rw [map_eq_error_iff]
          apply ih
          exact hrest
    · simp [hidentifier]

theorem assemble_eq (r : Record) :
    assemble r =
      if Naming.isIdentifier r.name then
        if r.fields.length ≤ 32765 then
          (placeFields r.name 0 ∅ r.fields).map (Plan.ofFields r.name)
        else .error { phase := .plan, kind := .invalidInput, record := r.name,
                      detail := toString r.fields.length ++ " fields exceed the limit of 32765" }
      else .error (.invalidName .plan r.name r.name) := by
  have hmax : Layout.maxFields = 32765 := rfl
  unfold assemble
  by_cases hname : Naming.isIdentifier r.name = true
  · by_cases hcount : r.fields.length ≤ 32765
    · simp only [hname, hcount, hmax, Nat.not_lt.2 hcount, ↓reduceIte]
      cases placeFields r.name 0 ∅ r.fields with
      | error f => rfl
      | ok fields => rfl
    · simp only [hname, hcount, hmax, Nat.lt_of_not_le hcount, ↓reduceIte, String.append_assoc]
      rfl
  · simp only [hname]
    rfl

theorem assemble_eq_error_iff {r : Record} {f : Fault} :
    assemble r = .error f ↔ r.defects.head? = some f := by
  rw [assemble_eq, Record.defects]
  split
  · split
    · rw [map_eq_error_iff]
      apply placeFields_eq_error_iff
      simp
    · simp
  · simp

/-! What is accepted. -/

theorem defects_eq_nil_iff {record : String} {earlier : List Declaration} {d : Declaration} :
    d.defects record earlier = [] ↔ Naming.isIdentifier d.name = true ∧
      d.name ∉ earlier.map (·.name) ∧ ∃ t, classify record d.name d.type = .ok t := by
  unfold Declaration.defects
  cases classify record d.name d.type with
  | error f => simp
  | ok t => simp

theorem declarationDefects_eq_nil_iff {record : String} {earlier ds : List Declaration} :
    declarationDefects record earlier ds = [] ↔
      (∀ d ∈ ds, Naming.isIdentifier d.name = true) ∧
      ((∀ d ∈ ds, d.name ∉ earlier.map (·.name)) ∧ (ds.map (·.name)).Nodup) ∧
      ∀ d ∈ ds, ∃ t, classify record d.name d.type = .ok t := by
  induction ds generalizing earlier with
  | nil => simp [declarationDefects]
  | cons d ds ih =>
    rw [declarationDefects, List.append_eq_nil_iff, defects_eq_nil_iff, ih]
    -- a name of the rest must be new after the earlier fields and this one
    have hnew : ((∀ e ∈ ds, e.name ∉ (earlier ++ [d]).map (·.name)) ↔
        (∀ e ∈ ds, e.name ∉ earlier.map (·.name)) ∧ d.name ∉ ds.map (·.name)) := by
      simp only [List.map_append, List.map_cons, List.map_nil, List.mem_append,
        List.mem_singleton, not_or, List.mem_map, not_exists, not_and]
      constructor
      · intro h
        exact ⟨fun e he => (h e he).1, fun e he => (h e he).2⟩
      · rintro ⟨h₁, h₂⟩ e he
        exact ⟨h₁ e he, h₂ e he⟩
    rw [hnew, List.map_cons, List.nodup_cons, List.forall_mem_cons, List.forall_mem_cons,
      List.forall_mem_cons]
    grind

theorem defects_eq_nil_iff_isValid {r : Record} : r.defects = [] ↔ r.IsValid := by
  unfold Record.defects
  rw [List.append_eq_nil_iff, List.append_eq_nil_iff, declarationDefects_eq_nil_iff]
  constructor
  · rintro ⟨⟨hname, hcount⟩, hnames, ⟨-, hnodup⟩, htypes⟩
    refine ⟨?_, ?_, hnames, hnodup, htypes⟩
    · simpa using hname
    · simpa using hcount
  · rintro ⟨hname, hcount, hnames, hnodup, htypes⟩
    refine ⟨by simp [hname, hcount], hnames, ⟨by simp, hnodup⟩, htypes⟩

theorem exists_assemble_iff {r : Record} : (∃ p, assemble r = .ok p) ↔ r.IsValid := by
  rw [← defects_eq_nil_iff_isValid, ← List.head?_eq_none_iff]
  cases hassemble : assemble r with
  | error f => simp [assemble_eq_error_iff.1 hassemble]
  | ok p =>
    cases hhead : r.defects.head? with
    | none => simp
    | some f =>
      rw [assemble_eq_error_iff.2 hhead] at hassemble
      contradiction

/-! What is planned. -/

theorem FieldType.isIndirect_iff {t : FieldType} : t.isIndirect = true ↔
    t.encodeStrategy = .indirect ∨ t.encodeStrategy = .indirectPresent := by
  rcases t with ⟨shape, scalar, text⟩
  cases shape with
  | optional => cases text <;> simp [isIndirect, encodeStrategy]
  | _ => simp [isIndirect, encodeStrategy]

theorem classify_eq_ok_iff {record field text : String} {t : FieldType} :
    classify record field text = .ok t ↔ typeOfText text = .ok t := by
  unfold classify
  cases typeOfText text with
  | error e => simp
  | ok u => simp

theorem pairwise_indirect (types : List FieldType) :
    ((types.zipIdx.filter (·.1.isIndirect)).map (·.2)).Pairwise (· < ·) := by
  have hsub : ((types.zipIdx.filter (·.1.isIndirect)).map (·.2)).Sublist
      (types.zipIdx.map (·.2)) := by
    apply List.Sublist.map
    apply List.filter_sublist
  rw [List.zipIdx_map_snd] at hsub
  exact (List.pairwise_lt_range' (s := 0) (n := types.length)).sublist hsub

theorem Plan.WellFormed.calculate?_commit {p : Plan} (h : p.WellFormed) :
    Layout.calculate? p.types (p.commit.map Int.ofNat) = some p.layout := by
  rw [Layout.calculate?_eq, h.layout_eq, widthAt_eq_widthAt_types]
  · rfl
  · intro i hi
    rw [Plan.types, List.length_map, Array.length_toList]
    exact h.mem_commit.1 hi

theorem isPlanOf_of_assemble {r : Record} {p : Plan} (h : assemble r = .ok p) : p.IsPlanOf r := by
  have hp := wellFormed_of_assemble h
  obtain ⟨hsize, hdeclared⟩ := declared_of_assemble h
  have hslot : ∀ (i : Nat) f, p.fields[i]? = some f → f.slot.toNat = 4 + 2 * i :=
    fun i f hf => hp.slot_toNat hf
  refine ⟨?_, hsize, ?_, ?_, ?_, ?_, ?_, ?_, ?_, hp.calculate?_commit⟩
  · obtain ⟨fields, -, -, rfl⟩ := exists_of_assemble_eq_ok h
    rfl
  · intro i d hd
    obtain ⟨t, htype, hf⟩ := hdeclared i d hd
    exact ⟨_, hf, rfl, rfl, classify_eq_ok_iff.2 htype, rfl, hslot i _ hf⟩
  · rw [List.pairwise_map, List.pairwise_iff_getElem]
    intro i j hi hj hlt
    have hf := hslot i _ (Array.getElem?_eq_getElem (by simpa using hi))
    have hg := hslot j _ (Array.getElem?_eq_getElem (by simpa using hj))
    rw [UInt16.lt_iff_toNat_lt, Array.getElem_toList, Array.getElem_toList, hf, hg]
    omega
  · rw [← hsize]
    exact hp.commit_perm
  · rw [hp.commit_eq]
    apply Layout.pairwise_commitOrder
  · rw [hp.indirect_eq]
    apply pairwise_indirect
  · intro i
    simp only [hp.mem_indirect, FieldType.isIndirect_iff]
  · rw [hp.order_eq, hsize]

theorem assemble_accepts_exactly (r : Record) :
    ((∃ p, assemble r = .ok p) ↔ r.IsValid) ∧
      (∀ f, assemble r = .error f ↔ r.defects.head? = some f) ∧
      ∀ p, assemble r = .ok p → p.IsPlanOf r := by
  refine ⟨exists_assemble_iff, ?_, ?_⟩
  · intro f
    exact assemble_eq_error_iff
  · intro p h
    exact isPlanOf_of_assemble h

def reportRecord : Record where
  name := "Report"
  fields := [⟨"open", "bool"⟩, ⟨"lines", "list<string>"⟩, ⟨"total", "u64"⟩,
    ⟨"owner", "option<string>"⟩, ⟨"rate", "option<f32>"⟩]

theorem assemble_accepts_exactly_report : ∃ p, assemble reportRecord = .ok p ∧
    p.IsPlanOf reportRecord ∧ p.commit = [2, 1, 3, 4, 0] ∧ p.indirect = [1, 3] := by
  have hassemble : assemble reportRecord = .ok (Plan.ofFields "Report" (fieldsFrom 0
      reportRecord.fields [.ofScalar .bool, .sequence .ofText, .ofScalar .u64, .optional .ofText,
        .optional (.ofScalar .f32)])) := by
    apply assemble_eq_ok
    · decide
    · decide
    · decide
    · decide
    · exact map_typeOfText (by decide) (by decide)
  exact ⟨_, hassemble, (assemble_accepts_exactly reportRecord).2.2 _ hassemble, by decide,
    by decide⟩

end RecordCodec
