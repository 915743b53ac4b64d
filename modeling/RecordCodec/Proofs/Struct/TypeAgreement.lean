import RecordCodec.Proofs.Struct.Discovery

/-!
This module contains the agreement of discovery and binding on types: the type text of a Go type is
accepted exactly if the type is supported, and a field type that is read from it fits the type and has
the same values.
-/

namespace RecordCodec

open RecordCodec.Text

theorem blankSpans_have_no_names : ∀ s ∈ blankSpans, ∀ k ∈ List.range (s.hi - s.lo + 1),
    Naming.isNameChar (Char.ofNat (s.lo + k)) = false := by
  decide +kernel

theorem Naming.isBlank_of_isNameChar {c : Char} (h : isNameChar c = true) : isBlank c = false := by
  rw [← Bool.not_eq_true]
  intro hblank
  obtain ⟨s, hs, hholds⟩ := List.any_eq_true.1 hblank
  have hbounds := Span.bounds_of_holds hholds
  have hnone := blankSpans_have_no_names s hs (c.toNat - s.lo) (List.mem_range.2 (by omega))
  rw [Nat.add_sub_cancel' hbounds.1, Char.ofNat_toNat, h] at hnone
  contradiction

namespace HostType

def IsQualified (s : String) : Prop :=
  ∃ package name, Naming.isIdentifier package = true ∧ Naming.isIdentifier name = true ∧
    s = package ++ "." ++ name

/--
The types that are built from the builtin types, where declared types are spelled with their package.
-/
inductive IsComposed : HostType → Prop
  | builtin (b : Builtin) : IsComposed (.builtin b)
  | slice {elem : HostType} (h : IsComposed elem) : IsComposed (.slice elem)
  | pointer {elem : HostType} (h : IsComposed elem) : IsComposed (.pointer elem)
  | array (length : Nat) {elem : HostType} (h : IsComposed elem) : IsComposed (.array length elem)
  | map {key value : HostType} (hkey : IsComposed key) (hvalue : IsComposed value) :
    IsComposed (.map key value)
  | struct {members : List (Member HostType)} (h : ∀ m ∈ members, IsComposed m.type) :
    IsComposed (.struct members)
  | named {name : String} {u : HostType} (hname : IsQualified name) (h : IsComposed u) :
    IsComposed (.named name u)

theorem isSpelled_of_isIdentifier {name : String} (h : Naming.isIdentifier name = true) :
    IsSpelled name.toList := by
  obtain ⟨hne, hall⟩ := Naming.all_of_isIdentifier h
  refine ⟨hne, ?_, ?_⟩
  · rw [trim_eq_self_iff]
    constructor
    · apply List.dropWhile_eq_self_iff.2
      intro hlength
      rw [Naming.isBlank_of_isNameChar (hall _ (List.getElem_mem hlength))]
      exact Bool.false_ne_true
    · apply List.rdropWhile_eq_self_iff.2
      intro hlast
      rw [Naming.isBlank_of_isNameChar (hall _ (List.getLast_mem hlast))]
      exact Bool.false_ne_true
  · have hrun : lastRun name.toList = name.toList := by
      apply (lastRun_suffix _).eq_of_length_le
      apply (suffix_lastRun List.suffix_rfl _).length_le
      intro c hc
      exact ⟨Naming.ne_of_isNameChar (hall c hc) (by decide),
        Naming.ne_of_isNameChar (hall c hc) (by decide)⟩
    rw [hrun]
    by_cases halnum : ∀ c ∈ name.toList, c.isAlphanum = true
    · exact .inl halnum
    · simp only [not_forall] at halnum
      obtain ⟨c, hc, hmark⟩ := halnum
      exact .inr (List.any_eq_true.2 ⟨c, hc, by simpa using hmark⟩)

theorem isHostSpelling_of_isQualified {s : String} (h : IsQualified s) :
    isHostSpelling s.toList = true := by
  obtain ⟨package, name, hpackage, hname, rfl⟩ := h
  obtain ⟨hne, hall⟩ := Naming.all_of_isIdentifier hpackage
  obtain ⟨c, cs, hcs⟩ := List.exists_cons_of_ne_nil hne
  have hc : Naming.isNameChar c = true := hall c (by rw [hcs]; exact List.mem_cons_self)
  have htext : (package ++ "." ++ name).toList = package.toList ++ '.' :: name.toList := by
    simp
  have hspelled : IsSpelled (package.toList ++ '.' :: name.toList) := by
    apply (isSpelled_of_isIdentifier hname).append package.toList (d := c) _
      (Naming.isBlank_of_isNameChar hc) (by decide) (by decide) (by decide)
    rw [hcs]
    rfl
  rw [htext]
  apply isHostSpelling_of_isSpelled hspelled
  · rw [hcs]
    intro hslice
    have hhead := congrArg List.head? hslice
    exact Naming.ne_of_isNameChar hc (by decide) (Option.some.inj hhead)
  · exact ⟨'.', by simp, by decide⟩

theorem IsComposed.isWellSpelled {t : HostType} (h : t.IsComposed) : t.isWellSpelled = true := by
  induction h with
  | builtin b => rfl
  | slice _ ih => rwa [HostType.isWellSpelled]
  | pointer _ ih => rwa [HostType.isWellSpelled]
  | array length _ ih => rwa [HostType.isWellSpelled]
  | map _ _ _ ih => rwa [HostType.isWellSpelled]
  | struct _ _ => rfl
  | named hname _ ih =>
    rw [HostType.isWellSpelled, isHostSpelling_of_isQualified hname, ih]
    rfl

end HostType

/-! Types that have a type text. -/

def Builtin.isSupported : Builtin → Bool
  | bool | int8 | int16 | int32 | int64 | uint8 | uint16 | uint32 | uint64 | float32 | float64
  | string => true
  | int | uint | uintptr | complex64 | complex128 | anything => false

def Builtin.fieldType (asChar : Bool) : Builtin → FieldType
  | string => .ofText
  | int32 => .ofScalar (if asChar then .char else .s32)
  | b => .ofScalar (b.scalar?.getD .bool)

/--
Whether values of a type can be fields: it holds what a supported builtin type holds, or it is a slice
or a pointer of such a type.
-/
def HostType.isSupported (t : HostType) : Bool :=
  match t.underlying with
  | .builtin b => b.isSupported
  | .slice elem | .pointer elem => elem.builtin?.any Builtin.isSupported
  | _ => false

namespace HostType

theorem exists_of_isSupported {b : Builtin} (h : b.isSupported = true) (asChar : Bool) :
    ∃ t : FieldType, builtinText asChar b = some t.name ∧ t.isNormal = true ∧
      (t.sequence.isNormal = true ∧ t.sequence.name = "list<" ++ t.name ++ ">") ∧
      t.optional.isNormal = true ∧ t.optional.name = "option<" ++ t.name ++ ">" := by
  refine ⟨Builtin.fieldType asChar b, ?_⟩
  cases b with
  | int | uint | uintptr | complex64 | complex128 | anything => contradiction
  | int32 =>
    cases asChar with
    | _ => exact ⟨rfl, rfl, ⟨rfl, rfl⟩, rfl, rfl⟩
  | _ => exact ⟨rfl, rfl, ⟨rfl, rfl⟩, rfl, rfl⟩

theorem go_underlying (asChar : Bool) (spelled : String) : ∀ t : HostType,
    typeText.go asChar spelled t = typeText.go asChar spelled t.underlying
  | named _ u => by
    rw [typeText.go, underlying]
    exact go_underlying asChar spelled u
  | builtin _ | slice _ | pointer _ | array _ _ | map _ _ | struct _ | other _ => rfl

theorem go_eq_name {t : HostType} {b : Builtin} {asChar : Bool} {name : String}
    (ht : t.builtin? = some b) (hname : builtinText asChar b = some name) (spelled : String) :
    typeText.go asChar spelled t = name := by
  unfold builtin? at ht
  split at ht
  · next hunderlying =>
    cases ht
    rw [go_underlying, hunderlying, typeText.go, hname, Option.getD_some]
  · contradiction

theorem exists_go_of_any {t : HostType} (h : t.builtin?.any Builtin.isSupported = true)
    (asChar : Bool) (spelled : String) :
    ∃ u : FieldType, typeText.go asChar spelled t = u.name ∧ u.isNormal = true ∧
      (u.sequence.isNormal = true ∧ u.sequence.name = "list<" ++ u.name ++ ">") ∧
      u.optional.isNormal = true ∧ u.optional.name = "option<" ++ u.name ++ ">" := by
  cases hb : t.builtin? with
  | none =>
    rw [hb] at h
    contradiction
  | some b =>
    rw [hb] at h
    obtain ⟨u, htext, hnormal⟩ := exists_of_isSupported h asChar
    exact ⟨u, go_eq_name hb htext spelled, hnormal⟩

theorem exists_typeText_of_isSupported {t : HostType} (h : t.isSupported = true) (asChar : Bool) :
    ∃ u : FieldType, u.isNormal = true ∧ t.typeText asChar = u.name := by
  unfold typeText
  unfold isSupported at h
  split at h
  · next b hunderlying =>
    have hany : t.builtin?.any Builtin.isSupported = true := by
      rw [builtin?, hunderlying]
      exact h
    obtain ⟨u, htext, hnormal, -⟩ := exists_go_of_any hany asChar t.spelling
    exact ⟨u, hnormal, htext⟩
  · next elem hunderlying =>
    obtain ⟨u, htext, -, ⟨hnormal, hname⟩, -⟩ := exists_go_of_any h asChar elem.spelling
    refine ⟨u.sequence, hnormal, ?_⟩
    rw [go_underlying, hunderlying, typeText.go, htext, hname]
  · next elem hunderlying =>
    obtain ⟨u, htext, -, -, hnormal, hname⟩ := exists_go_of_any h asChar elem.spelling
    refine ⟨u.optional, hnormal, ?_⟩
    rw [go_underlying, hunderlying, typeText.go, htext, hname]
  · contradiction

theorem Holding.isSupported {t : HostType} {u : FieldType} (h : t.Holding (some u)) :
    t.isSupported = true := by
  have hscalar {b : Builtin} {s : Scalar} (hs : b.scalar? = some s) : b.isSupported = true := by
    cases b with
    | string | int | uint | uintptr | complex64 | complex128 | anything => contradiction
    | _ => rfl
  unfold HostType.isSupported
  cases h with
  | scalar host scalar =>
    rw [host]
    exact hscalar scalar
  | text host =>
    rw [host]
    rfl
  | sequence host builtin scalar | optional host builtin scalar =>
    rw [host]
    dsimp only
    rw [builtin]
    exact hscalar scalar
  | texts host builtin | optionalText host builtin =>
    rw [host]
    dsimp only
    rw [builtin]
    rfl

end HostType

theorem typeText_agrees_with_fits {t : HostType} (ht : t.IsComposed) (asChar : Bool)
    (record field : String) :
    (∀ u, classify record field (t.typeText asChar) = .ok u → u.fits t = true ∧
      (∀ v, t.holds v = u.holds v) ∧
      ∀ members j m (f : Field), members[j]? = some m → m.type = t → f.type = u →
        members.findIdx? (·.isFor f.name) = some j → Binding.target record members f = .ok j) ∧
    ((∃ u, classify record field (t.typeText asChar) = .ok u) ↔ t.isSupported = true) := by
  have hfits {u : FieldType} (hu : classify record field (t.typeText asChar) = .ok u) :
      u.fits t = true :=
    HostType.fits_of_typeText ht.isWellSpelled asChar (classify_eq_ok_iff.1 hu)
  constructor
  · intro u hu
    obtain ⟨u', hholding, -, hvalues⟩ := FieldType.exists_of_fits (hfits hu)
    refine ⟨hfits hu, ?_, ?_⟩
    · intro v
      rw [hholding.holds_eq, hvalues]
    · rintro members j m f hm rfl rfl hfound
      exact Binding.target_of_findIdx? hfound hm (hfits hu)
  · constructor
    · rintro ⟨u, hu⟩
      obtain ⟨u', hholding, -⟩ := FieldType.exists_of_fits (hfits hu)
      exact hholding.isSupported
    · intro h
      obtain ⟨u, hnormal, htext⟩ := HostType.exists_typeText_of_isSupported h asChar
      refine ⟨u, classify_eq_ok_iff.2 ?_⟩
      rw [htext]
      exact typeOfText_name hnormal

def lettersType : HostType :=
  .slice (.named "main.Letter" (.builtin .int32))

def taggedMapType : HostType :=
  .map (.struct [⟨"A", .builtin .int, "list<std::", true⟩]) (.array 2 (.pointer (.builtin .uint8)))

theorem isComposed_letters : lettersType.IsComposed :=
  .slice (.named ⟨"main", "Letter", by decide, by decide, rfl⟩ (.builtin _))

theorem isComposed_taggedMap : taggedMapType.IsComposed := by
  refine .map (.struct ?_) (.array 2 (.pointer (.builtin _)))
  intro m hm
  obtain rfl := List.mem_singleton.1 hm
  exact .builtin .int

theorem typeText_agrees_with_fits_letters :
    lettersType.IsComposed ∧ taggedMapType.IsComposed ∧
    (∃ u, classify "Word" "letters" (lettersType.typeText true) = .ok u ∧
      u.fits lettersType = true ∧ ∀ v, lettersType.holds v = u.holds v) ∧
    ∀ u, classify "Word" "index" (taggedMapType.typeText false) ≠ .ok u := by
  refine ⟨isComposed_letters, isComposed_taggedMap, ?_, ?_⟩
  · obtain ⟨hagrees, hsupported⟩ :=
      typeText_agrees_with_fits isComposed_letters true "Word" "letters"
    obtain ⟨u, hu⟩ := hsupported.2 rfl
    exact ⟨u, hu, (hagrees u hu).1, (hagrees u hu).2.1⟩
  · intro u hu
    have := (typeText_agrees_with_fits isComposed_taggedMap false "Word" "index").2.1 ⟨u, hu⟩
    contradiction

end RecordCodec
