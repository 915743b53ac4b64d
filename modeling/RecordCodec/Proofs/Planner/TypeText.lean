import RecordCodec.Plan

/-!
This module contains the reading of type texts: how a text without and one with brackets is taken
apart, and that every type is read back from its canonical text.
-/

namespace RecordCodec

open RecordCodec.Text

def isNamed (s : List Char) (name : String) : Bool :=
  s.take 2 != ['[', ']'] && !s.contains '<' && segmentName? s == some name

def isGeneric (s : List Char) (outer name : String) : Bool :=
  s.take 2 != ['[', ']'] && s.contains '<' && (openGeneric? s).any fun (before, inner) =>
    segmentName? before == some outer && isOneArgument (trim inner) && isNamed (trim inner) name

theorem segments_go_of_isNamed {s : List Char} {name : String} (h : isNamed s name = true) :
    segments.go s = some [name] := by
  unfold isNamed at h
  simp only [Bool.and_eq_true, bne_iff_ne, Bool.not_eq_true', beq_iff_eq] at h
  obtain ⟨⟨hslice, hgeneric⟩, hname⟩ := h
  rw [segments.go.eq_def]
  split
  · exact absurd rfl hslice
  · rw [hgeneric, if_neg (by decide), hname]
    rfl

theorem segments_go_of_isGeneric {s : List Char} {outer name : String}
    (h : isGeneric s outer name = true) : segments.go s = some [outer, name] := by
  unfold isGeneric at h
  simp only [Bool.and_eq_true, bne_iff_ne] at h
  obtain ⟨⟨hslice, hgeneric⟩, hopen⟩ := h
  rw [Option.any_eq_true_iff_get] at hopen
  obtain ⟨hsome, hopen⟩ := hopen
  simp only [Bool.and_eq_true, beq_iff_eq] at hopen
  obtain ⟨⟨houter, hone⟩, hname⟩ := hopen
  rw [segments.go.eq_def]
  split
  · exact absurd rfl hslice
  · rw [if_pos hgeneric]
    split
    · next hnone =>
      rw [hnone] at hsome
      contradiction
    · next before inner heq =>
      simp only [heq, Option.get_some] at houter hone hname
      rw [houter]
      simp only [hone, segments_go_of_isNamed hname]
      rfl

def FieldType.isNormal (t : FieldType) : Bool :=
  t.scalar.isValid && match t.shape with
    | .scalar => !t.text
    | .text => t.scalar == .bool && !t.text
    | .sequence | .optional => !t.text || t.scalar == .bool
    | .unknown _ => false

def leafNames : List String :=
  "string" :: Scalar.all.map (·.name)

theorem isNamed_leafNames : leafNames.all (fun name => isNamed (trim name.toList) name) = true := by
  decide

theorem isGeneric_leafNames : leafNames.all (fun name =>
    isGeneric (trim ("list<" ++ name ++ ">").toList) "list" name &&
    isGeneric (trim ("option<" ++ name ++ ">").toList) "option" name) = true := by
  decide

theorem mem_leafNames_of_isValid {s : Scalar} (h : s.isValid = true) : s.name ∈ leafNames := by
  cases s with
  | unknown code => contradiction
  | _ => decide

theorem segments_of_mem_leafNames {name : String} (h : name ∈ leafNames) :
    segments name = some [name] ∧ segments ("list<" ++ name ++ ">") = some ["list", name] ∧
      segments ("option<" ++ name ++ ">") = some ["option", name] := by
  have hnamed := List.all_eq_true.1 isNamed_leafNames name h
  have hgeneric := List.all_eq_true.1 isGeneric_leafNames name h
  rw [Bool.and_eq_true] at hgeneric
  unfold segments
  exact ⟨segments_go_of_isNamed hnamed, segments_go_of_isGeneric hgeneric.1,
    segments_go_of_isGeneric hgeneric.2⟩

theorem leafType?_name {s : Scalar} (h : s.isValid = true) :
    (wrappers.lookup s.name).isSome = false ∧ leafType? s.name = some (.ofScalar s) := by
  cases s with
  | unknown code => contradiction
  | _ => exact ⟨rfl, rfl⟩

theorem typeOfText_name {t : FieldType} (h : t.isNormal = true) : typeOfText t.name = .ok t := by
  rcases t with ⟨shape, scalar, text⟩
  unfold FieldType.isNormal at h
  rw [Bool.and_eq_true] at h
  obtain ⟨hvalid, hshape⟩ := h
  obtain ⟨hwrapper, hleaf⟩ := leafType?_name hvalid
  obtain ⟨hname, hlist, hoption⟩ := segments_of_mem_leafNames (mem_leafNames_of_isValid hvalid)
  have hstring := segments_of_mem_leafNames (show "string" ∈ leafNames by decide)
  unfold typeOfText FieldType.name FieldType.name.elemName
  cases shape with
  | unknown code => contradiction
  | text =>
    simp only [Bool.and_eq_true, beq_iff_eq, Bool.not_eq_true'] at hshape
    obtain ⟨rfl, rfl⟩ := hshape
    dsimp only
    rw [hstring.1]
    rfl
  | scalar =>
    simp only [Bool.not_eq_true'] at hshape
    subst hshape
    dsimp only
    rw [hname]
    dsimp only
    rw [hwrapper, hleaf]
    rfl
  | sequence =>
    cases text with
    | true =>
      simp only [Bool.not_true, Bool.false_or, beq_iff_eq] at hshape
      subst hshape
      dsimp only
      rw [if_pos rfl, hstring.2.1]
      rfl
    | false =>
      dsimp only
      rw [if_neg (by decide), hlist]
      dsimp only
      rw [show wrappers.lookup "list" = some .sequence from rfl, hleaf]
      rfl
  | optional =>
    cases text with
    | true =>
      simp only [Bool.not_true, Bool.false_or, beq_iff_eq] at hshape
      subst hshape
      dsimp only
      rw [if_pos rfl, hstring.2.2]
      rfl
    | false =>
      dsimp only
      rw [if_neg (by decide), hoption]
      dsimp only
      rw [show wrappers.lookup "option" = some .optional from rfl, hleaf]
      rfl

theorem map_typeOfText {fields : List Declaration} {types : List FieldType}
    (htexts : fields.map (·.type) = types.map (·.name))
    (hnormal : ∀ t ∈ types, t.isNormal = true) :
    fields.map (fun d => typeOfText d.type) = types.map .ok :=
  calc
    fields.map (fun d => typeOfText d.type)
    _ = (types.map (·.name)).map typeOfText := by
      rw [← htexts, List.map_map]
      rfl
    _ = types.map .ok := by
      rw [List.map_map]
      apply List.map_congr_left
      intro t ht
      exact typeOfText_name (hnormal t ht)

end RecordCodec
