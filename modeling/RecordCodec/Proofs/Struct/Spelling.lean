import RecordCodec.Proofs.Codec.Bound
import RecordCodec.Proofs.Planner.Grammar
import RecordCodec.Struct.Discover

/-!
This module contains the type texts of struct fields: a field type that is read from the type text
of a Go type fits that type. What is spelled with a package or with brackets is never a type text.
-/

namespace RecordCodec

open RecordCodec.Text

/-! Spellings that are no type texts. -/

def lastRun (s : List Char) : List Char :=
  s.rtakeWhile fun c => c != ':' && c != '>'

/--
Whether a text is spelled as only types of the host language are, like `main.ID`, `chan int` or
`[2]string`: it does not start as a slice, it is trimmed, and after its last `:` and `>` it has a mark
or a blank, which names of leaf types do not have.
-/
def isHostSpelling (s : List Char) : Bool :=
  s.take 2 != ['[', ']'] && trim s == s && (lastRun s).any (!·.isAlphanum)

theorem lastRun_suffix (s : List Char) : lastRun s <:+ s :=
  List.rtakeWhile_suffix _ _

theorem ne_of_mem_lastRun {s : List Char} {c : Char} (h : c ∈ lastRun s) : c ≠ ':' ∧ c ≠ '>' := by
  have := List.mem_rtakeWhile_imp h
  simpa using this

theorem isAlphanum_of_isLeaf {name : String} {t : FieldType} (h : IsLeaf name t) :
    ∀ c ∈ name.toList, c.isAlphanum = true := by
  have hcanonical : ∀ entry ∈ canonicalTypes, entry.1.toList.all Char.isAlphanum = true := by
    decide
  have haliases : ∀ entry ∈ aliases, entry.1.toList.all Char.isAlphanum = true := by decide
  rw [← List.all_eq_true]
  rcases h with h | ⟨canonical, h, -⟩
  · exact hcanonical (name, t) h
  · exact haliases (name, canonical) h

theorem lastRun_suffix_of_isLastPart {s name : List Char} (h : IsLastPart s name) :
    lastRun s <:+ name := by
  rcases h with ⟨qualifier, hs, -⟩ | ⟨-, rfl⟩
  · have hname : ':' :: name <:+ s := ⟨qualifier ++ [':'], by rw [hs]; simp⟩
    have hcolon : ':' ∉ lastRun s := fun hmem => (ne_of_mem_lastRun hmem).1 rfl
    rcases List.suffix_or_suffix_of_suffix (lastRun_suffix s) hname with hsuffix | hsuffix
    · rcases List.suffix_cons_iff.1 hsuffix with heq | hsuffix
      · rw [heq] at hcolon
        exact absurd (List.mem_cons_self ..) hcolon
      · exact hsuffix
    · exact absurd (hsuffix.subset (List.mem_cons_self ..)) hcolon
  · exact lastRun_suffix name

theorem not_denotesType_of_isHostSpelling {s : List Char} (h : isHostSpelling s = true)
    (t : FieldType) : ¬ DenotesType s t := by
  simp only [isHostSpelling, Bool.and_eq_true, bne_iff_ne, beq_iff_eq] at h
  obtain ⟨⟨hslice, htrim⟩, hmark⟩ := h
  obtain ⟨c, hc, hmark⟩ := List.any_eq_true.1 hmark
  rintro (⟨-, -, name, hlast, hleaf⟩ | ⟨htext, -⟩ | ⟨-, htext, -, -, -, -, -⟩)
  · rw [htrim] at hlast
    have hname := (lastRun_suffix_of_isLastPart hlast).subset hc
    have := isAlphanum_of_isLeaf hleaf c (by rwa [String.toList_ofList])
    rw [this] at hmark
    contradiction
  · rw [htrim] at htext
    rw [htext] at hslice
    exact hslice rfl
  · next before inner outer w elem =>
    rw [htrim] at htext
    have hempty : lastRun s = [] := by
      unfold lastRun
      rw [htext, List.rtakeWhile_concat_neg _ _ _ (by decide)]
    rw [hempty] at hc
    contradiction

theorem typeOfText_ne_ok_of_isHostSpelling {s : String} (h : isHostSpelling s.toList = true)
    (t : FieldType) : typeOfText s ≠ .ok t := by
  intro htype
  rw [typeOfText_eq_ok_iff_denotesType] at htype
  exact not_denotesType_of_isHostSpelling h t htype

/-! Types whose names are spelled as in the host language. -/

/--
Whether the declared types in a type, and those that are known by their spelling only, are spelled as
only types of the host language are.
-/
def HostType.isWellSpelled : HostType → Bool
  | builtin _ => true
  | slice elem => elem.isWellSpelled
  | pointer elem => elem.isWellSpelled
  | array _ elem => elem.isWellSpelled
  | map _ value => value.isWellSpelled
  | named name u => isHostSpelling name.toList && u.isWellSpelled
  | struct _ => true
  | other s => isHostSpelling s.toList

structure IsSpelled (s : List Char) : Prop where
  ne_nil : s ≠ []
  trimmed : trim s = s
  run : (∀ c ∈ s, c.isAlphanum = true) ∨ (lastRun s).any (!·.isAlphanum) = true

theorem suffix_lastRun {s t : List Char} (h : t <:+ s) (ht : ∀ c ∈ t, c ≠ ':' ∧ c ≠ '>') :
    t <:+ lastRun s := by
  obtain ⟨front, rfl⟩ := h
  refine ⟨lastRun front, ?_⟩
  have hpass : ∀ c ∈ t.reverse, (c != ':' && c != '>') = true := by
    intro c hc
    simpa using ht c (List.mem_reverse.1 hc)
  unfold lastRun List.rtakeWhile
  rw [List.reverse_append, List.takeWhile_append_of_pos hpass, List.reverse_append,
    List.reverse_reverse]

theorem IsSpelled.any_lastRun {s : List Char} (h : IsSpelled s) (front : List Char) {c : Char}
    (hc : c.isAlphanum = false) (hcolon : c ≠ ':') (hclose : c ≠ '>') :
    (lastRun (front ++ c :: s)).any (!·.isAlphanum) = true := by
  have hsuffix : c :: s <:+ front ++ c :: s := List.suffix_append ..
  rw [List.any_eq_true]
  rcases h.run with hname | hrun
  · have hall : ∀ d ∈ c :: s, d ≠ ':' ∧ d ≠ '>' := by
      intro d hd
      rcases List.mem_cons.1 hd with rfl | hd
      · exact ⟨hcolon, hclose⟩
      · constructor <;> rintro rfl <;> exact absurd (hname _ hd) (by decide)
    refine ⟨c, (suffix_lastRun hsuffix hall).subset (List.mem_cons_self ..), ?_⟩
    rw [hc]
    rfl
  · obtain ⟨d, hd, hmark⟩ := List.any_eq_true.1 hrun
    have hrest : lastRun s <:+ front ++ c :: s :=
      (lastRun_suffix s).trans ((List.suffix_cons c s).trans hsuffix)
    exact ⟨d, (suffix_lastRun hrest fun _ => ne_of_mem_lastRun).subset hd, hmark⟩

theorem isSpelled_of_isHostSpelling {s : List Char} (h : isHostSpelling s = true) :
    IsSpelled s := by
  simp only [isHostSpelling, Bool.and_eq_true, beq_iff_eq] at h
  refine ⟨?_, h.1.2, .inr h.2⟩
  rintro rfl
  exact absurd h.2 (by decide)

theorem IsSpelled.append {s : List Char} (h : IsSpelled s) (front : List Char) {c d : Char}
    (hd : (front ++ [c]).head? = some d) (hblank : isBlank d = false) (hc : c.isAlphanum = false)
    (hcolon : c ≠ ':') (hclose : c ≠ '>') : IsSpelled (front ++ c :: s) where
  ne_nil := by simp
  trimmed := by
    rw [← List.singleton_append, ← List.append_assoc]
    exact trim_append hd hblank h.ne_nil h.trimmed
  run := .inr (h.any_lastRun front hc hcolon hclose)

theorem isHostSpelling_of_isSpelled {s : List Char} (h : IsSpelled s)
    (hslice : s.take 2 ≠ ['[', ']']) (hmark : ∃ c ∈ s, c.isAlphanum = false) :
    isHostSpelling s = true := by
  rw [isHostSpelling, h.trimmed, beq_self_eq_true, bne_iff_ne.2 hslice, Bool.true_and,
    Bool.true_and]
  rcases h.run with hname | hrun
  · obtain ⟨c, hc, hmark⟩ := hmark
    rw [hname c hc] at hmark
    contradiction
  · exact hrun

namespace HostType

theorem isSpelled_builtin (b : Builtin) : IsSpelled b.spelling.toList := by
  have hrun : b.spelling.toList.all Char.isAlphanum = true ∨
      (lastRun b.spelling.toList).any (!·.isAlphanum) = true := by
    cases b with
    | _ => decide
  refine ⟨?_, ?_, hrun.imp_left List.all_eq_true.1⟩
  · cases b with
    | _ => decide
  · cases b with
    | _ => decide

theorem isHostSpelling_struct (members : List (Member HostType)) :
    isHostSpelling (struct members).spelling.toList = true := by
  obtain ⟨inner, hinner⟩ : ∃ inner, (struct members).spelling.toList =
      ('s' :: 't' :: inner) ++ ['\x7d'] := by
    rw [spelling]
    cases memberSpellings members with
    | nil => exact ⟨"ruct \x7b".toList, by decide⟩
    | cons m ms => exact ⟨"ruct \x7b ".toList ++ ("; ".intercalate (m :: ms)).toList ++ [' '],
        by simp⟩
  have hrun : ['\x7d'] <:+ lastRun ('s' :: 't' :: inner ++ ['\x7d']) :=
    suffix_lastRun (List.suffix_append ..) (by simp)
  have htrim : trim ('s' :: 't' :: inner ++ ['\x7d']) = 's' :: 't' :: inner ++ ['\x7d'] :=
    trim_append rfl (by decide) (by decide) (by decide)
  rw [hinner, isHostSpelling, htrim, List.any_eq_true.2 ⟨'\x7d', hrun.subset (by simp), by decide⟩]
  simp

theorem isSpelled_spelling : ∀ {t : HostType}, t.isWellSpelled = true → IsSpelled t.spelling.toList
  | builtin b, _ => by
    rw [spelling]
    exact isSpelled_builtin b
  | slice elem, h => by
    have helem := isSpelled_spelling (t := elem) (by rwa [isWellSpelled] at h)
    rw [spelling, String.toList_append]
    exact helem.append ['['] (c := ']') rfl (by decide) (by decide) (by decide)
      (by decide)
  | pointer elem, h => by
    have helem := isSpelled_spelling (t := elem) (by rwa [isWellSpelled] at h)
    rw [spelling, String.toList_append]
    exact helem.append [] (c := '*') rfl (by decide) (by decide) (by decide) (by decide)
  | array length elem, h => by
    have helem := isSpelled_spelling (t := elem) (by rwa [isWellSpelled] at h)
    have hspelling : (array length elem).spelling.toList =
        '[' :: (toString length).toList ++ ']' :: elem.spelling.toList := by
      rw [spelling]
      simp
    rw [hspelling]
    exact helem.append _ rfl (by decide) (by decide) (by decide) (by decide)
  | map key value, h => by
    have hvalue := isSpelled_spelling (t := value) (by rwa [isWellSpelled] at h)
    have hspelling : (map key value).spelling.toList =
        'm' :: ("ap[".toList ++ key.spelling.toList) ++ ']' :: value.spelling.toList := by
      rw [spelling]
      simp
    rw [hspelling]
    exact hvalue.append _ rfl (by decide) (by decide) (by decide) (by decide)
  | named name u, h => by
    rw [isWellSpelled, Bool.and_eq_true] at h
    rw [spelling]
    exact isSpelled_of_isHostSpelling h.1
  | struct members, _ => isSpelled_of_isHostSpelling (isHostSpelling_struct members)
  | other s, h => by
    rw [spelling]
    exact isSpelled_of_isHostSpelling h

theorem isHostSpelling_array {length : Nat} {elem : HostType}
    (h : (array length elem).isWellSpelled = true) :
    isHostSpelling (array length elem).spelling.toList = true := by
  apply isHostSpelling_of_isSpelled (isSpelled_spelling h)
  · obtain ⟨d, ds, hds⟩ := List.exists_cons_of_ne_nil (Nat.toDigits_ne_nil (n := length) (b := 10))
    have hd : d ≠ ']' := by
      rintro rfl
      have hmem : ']' ∈ Nat.toDigits 10 length := by
        rw [hds]
        exact List.mem_cons_self ..
      exact absurd (Nat.isDigit_of_mem_toDigits (by decide) (by decide) hmem) (by decide)
    rw [spelling]
    simp [hds, hd]
  · refine ⟨'[', ?_, by decide⟩
    rw [spelling]
    simp

theorem isHostSpelling_map {key value : HostType} (h : (map key value).isWellSpelled = true) :
    isHostSpelling (map key value).spelling.toList = true := by
  apply isHostSpelling_of_isSpelled (isSpelled_spelling h)
  · rw [spelling]
    simp
  · refine ⟨'[', ?_, by decide⟩
    rw [spelling]
    simp

end HostType

/-! Type texts. -/

theorem typeOfText_ne_ok_of_isNamed {name : String} (h : isNamed (trim name.toList) name = true)
    (hleaf : leafType? name = none) (t : FieldType) : typeOfText name ≠ .ok t := by
  have hpath : segments name = some [name] := segments_go_of_isNamed h
  rw [Ne, typeOfText_eq_ok_iff, hpath]
  simp [hleaf]

theorem exists_of_typeOfText_generic (name : String) {w : Wrapper}
    (hname : (name, w) = ("list", .sequence) ∨ (name, w) = ("option", .optional)) {inner : String}
    {t : FieldType} (h : typeOfText (name ++ "<" ++ inner ++ ">") = .ok t) :
    ∃ elem, DenotesLeaf inner.toList elem ∧ t = w.around elem := by
  have hplain : '<' ∉ name.toList ∧ unqualified (trim name.toList) = name.toList ∧
      wrappers.lookup name = some w := by
    rcases hname with h | h <;> cases h <;> decide
  have hhead : ∃ c cs, name.toList = c :: cs ∧ isBlank c = false ∧ c ≠ '[' := by
    rcases hname with h | h <;> cases h
    · exact ⟨'l', _, rfl, by decide, by decide⟩
    · exact ⟨'o', _, rfl, by decide, by decide⟩
  obtain ⟨hopen, hlast, hlookup⟩ := hplain
  obtain ⟨c, cs, hcs, hblank, hslice⟩ := hhead
  have htext : (name ++ "<" ++ inner ++ ">").toList =
      name.toList ++ '<' :: inner.toList ++ ['>'] := by
    simp
  have htrim : trim (name.toList ++ '<' :: inner.toList ++ ['>']) =
      name.toList ++ '<' :: inner.toList ++ ['>'] := by
    apply trim_append (c := c) _ hblank (by decide) (by decide)
    rw [hcs]
    rfl
  rw [typeOfText_eq_ok_iff_denotesType, htext] at h
  rcases h with ⟨hgeneric, -, -⟩ | ⟨hrest, -⟩ | ⟨-, hsplit, hbefore, houter, hwrapper, -, helem⟩
  · rw [htrim] at hgeneric
    simp at hgeneric
  · rw [htrim, hcs] at hrest
    exact absurd (List.cons.inj hrest).1 hslice
  · next before inner' outer w' elem =>
    rw [htrim] at hsplit
    -- there is one way to open the brackets
    have hpair : some (before, inner') = some (name.toList, inner.toList) := by
      rw [← openGeneric?_eq_some_iff.2 ⟨hsplit, hbefore⟩,
        openGeneric?_eq_some_iff.2 ⟨rfl, hopen⟩]
    cases hpair
    rw [← unqualified_eq_iff, hlast] at houter
    subst houter
    rw [String.ofList_toList, ← lookup_wrappers_eq_some_iff, hlookup] at hwrapper
    cases hwrapper
    exact ⟨elem, helem, rfl⟩

theorem DenotesLeaf.typeOfText_eq {text : String} {t : FieldType} (h : DenotesLeaf text.toList t) :
    typeOfText text = .ok t :=
  typeOfText_eq_ok_iff_denotesType.2 (.leaf h)

theorem DenotesLeaf.eq_ofText_or_ofScalar {text : List Char} {t : FieldType}
    (h : DenotesLeaf text t) : t = .ofText ∨ t = .ofScalar t.scalar := by
  have hcanonical : ∀ entry ∈ canonicalTypes, entry.2 = .ofText ∨
      entry.2 = .ofScalar entry.2.scalar := by
    decide
  obtain ⟨name, -, hname | ⟨canonical, -, hname⟩⟩ := h.last
  · exact hcanonical (String.ofList name, t) hname
  · exact hcanonical (canonical, t) hname

theorem FieldType.builtin?_of_fits_ofText {host : HostType} (h : ofText.fits host = true) :
    host.builtin? = some .string := by
  unfold fits at h
  split at h
  · contradiction
  · next b _ hhost => rw [HostType.builtin?, hhost, beq_iff_eq.1 h]
  · contradiction
  · contradiction
  · contradiction

theorem FieldType.builtin?_of_fits_ofScalar {s : Scalar} {host : HostType}
    (h : (ofScalar s).fits host = true) : host.builtin? = s.builtin? ∧ s.builtin?.isSome := by
  unfold fits at h
  split at h
  · next b _ hhost =>
    have hs : s.builtin? = some b := beq_iff_eq.1 h
    rw [HostType.builtin?, hhost, hs]
    exact ⟨rfl, rfl⟩
  · contradiction
  · contradiction
  · contradiction
  · contradiction

theorem DenotesLeaf.holds {text : List Char} {t : FieldType} (h : DenotesLeaf text t)
    {host : HostType} (hfits : t.fits host = true) (w : Wrapper) :
    FieldType.fits.holds (w.around t) host = true := by
  unfold FieldType.fits.holds
  rcases h.eq_ofText_or_ofScalar with ht | ht
  · rw [ht] at hfits ⊢
    rw [FieldType.builtin?_of_fits_ofText hfits]
    cases w with
    | _ => rfl
  · rw [ht] at hfits ⊢
    obtain ⟨hhost, hsome⟩ := FieldType.builtin?_of_fits_ofScalar hfits
    have helem : (w.around (.ofScalar t.scalar)).elemBuiltin? = t.scalar.builtin? := by
      cases w with
      | _ => rfl
    rw [helem, hhost, hsome, beq_self_eq_true]
    rfl

theorem Builtin.fits_of_scalar? {b : Builtin} {s : Scalar} (h : b.scalar? = some s) :
    (FieldType.ofScalar s).isNormal = true ∧ (FieldType.ofScalar s).fits (.builtin b) = true := by
  cases b with
  | string | int | uint | uintptr | complex64 | complex128 | anything => contradiction
  | _ =>
    cases h
    exact ⟨rfl, rfl⟩

namespace HostType

theorem exists_of_builtinText {asChar : Bool} {b : Builtin} {text : String}
    (h : builtinText asChar b = some text) :
    ∃ t : FieldType, t.isNormal = true ∧ t.name = text ∧ t.fits (builtin b) = true := by
  unfold builtinText at h
  split at h
  · cases h
    exact ⟨.ofText, rfl, rfl, rfl⟩
  · cases h
    cases asChar with
    | true => exact ⟨.ofScalar .char, rfl, rfl, rfl⟩
    | false => exact ⟨.ofScalar .s32, rfl, rfl, rfl⟩
  · obtain ⟨s, hs, rfl⟩ := Option.map_eq_some_iff.1 h
    obtain ⟨hnormal, hfits⟩ := Builtin.fits_of_scalar? hs
    exact ⟨.ofScalar s, hnormal, rfl, hfits⟩

theorem typeOfText_spelling_builtin {asChar : Bool} {b : Builtin} (h : builtinText asChar b = none)
    (t : FieldType) : typeOfText b.spelling ≠ .ok t := by
  cases b with
  | int | uint | uintptr | complex64 | complex128 =>
    exact typeOfText_ne_ok_of_isNamed (by decide) (by decide) t
  | anything => exact typeOfText_ne_ok_of_isHostSpelling (by decide) t
  | _ => contradiction

theorem isHostSpelling_of_spelled {t : HostType} {spelled : String}
    (h : isHostSpelling spelled.toList = true ∨ spelled = t.spelling)
    (ht : isHostSpelling t.spelling.toList = true) : isHostSpelling spelled.toList = true := by
  rcases h with h | rfl
  · exact h
  · exact ht

theorem fits_go {asChar : Bool} : ∀ {t : HostType} {spelled : String} {u : FieldType},
    t.isWellSpelled = true → isHostSpelling spelled.toList = true ∨ spelled = t.spelling →
    typeOfText (typeText.go asChar spelled t) = .ok u → u.fits t = true
  | builtin b, spelled, u, _, hspelled, hu => by
    rw [typeText.go] at hu
    cases htext : builtinText asChar b with
    | some text =>
      obtain ⟨t, hnormal, hname, hfits⟩ := exists_of_builtinText htext
      rw [htext, Option.getD_some, ← hname, typeOfText_name hnormal] at hu
      cases hu
      exact hfits
    | none =>
      rw [htext, Option.getD_none] at hu
      rcases hspelled with hspelled | rfl
      · exact absurd hu (typeOfText_ne_ok_of_isHostSpelling hspelled u)
      · rw [spelling] at hu
        exact absurd hu (typeOfText_spelling_builtin htext u)
  | slice elem, _, u, h, _, hu => by
    rw [typeText.go] at hu
    rw [isWellSpelled] at h
    obtain ⟨v, hv, rfl⟩ := exists_of_typeOfText_generic "list" (.inl rfl) hu
    exact hv.holds (fits_go (t := elem) h (.inr rfl) hv.typeOfText_eq) .sequence
  | pointer elem, _, u, h, _, hu => by
    rw [typeText.go] at hu
    rw [isWellSpelled] at h
    obtain ⟨v, hv, rfl⟩ := exists_of_typeOfText_generic "option" (.inr rfl) hu
    exact hv.holds (fits_go (t := elem) h (.inr rfl) hv.typeOfText_eq) .optional
  | named name v, spelled, u, h, hspelled, hu => by
    rw [isWellSpelled, Bool.and_eq_true] at h
    have hspelling : isHostSpelling (named name v).spelling.toList = true := by
      rw [spelling]
      exact h.1
    rw [typeText.go] at hu
    exact fits_go (t := v) h.2 (.inl (isHostSpelling_of_spelled hspelled hspelling)) hu
  | array length elem, spelled, u, h, hspelled, hu => by
    have hspelling := isHostSpelling_of_spelled hspelled (isHostSpelling_array h)
    exact absurd hu (typeOfText_ne_ok_of_isHostSpelling hspelling u)
  | map key value, spelled, u, h, hspelled, hu => by
    have hspelling := isHostSpelling_of_spelled hspelled (isHostSpelling_map h)
    exact absurd hu (typeOfText_ne_ok_of_isHostSpelling hspelling u)
  | struct members, spelled, u, h, hspelled, hu => by
    have hspelling := isHostSpelling_of_spelled hspelled (isHostSpelling_struct members)
    exact absurd hu (typeOfText_ne_ok_of_isHostSpelling hspelling u)
  | other s, spelled, u, h, hspelled, hu => by
    have hspelling := isHostSpelling_of_spelled hspelled (by rw [spelling]; exact h)
    exact absurd hu (typeOfText_ne_ok_of_isHostSpelling hspelling u)

theorem fits_of_typeText {t : HostType} (h : t.isWellSpelled = true) (asChar : Bool)
    {u : FieldType} (hu : typeOfText (t.typeText asChar) = .ok u) : u.fits t = true :=
  fits_go h (.inr rfl) hu

end HostType

end RecordCodec
