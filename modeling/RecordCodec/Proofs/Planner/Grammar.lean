import RecordCodec.Proofs.Planner.Acceptance
import RecordCodec.Proofs.Text.Trim
import Mathlib.Data.List.Infix

/-!
This module contains the grammar of type texts: `DenotesType` says which texts denote which field
type, without the path of segments, and `classify` accepts exactly those.
-/

namespace RecordCodec

open RecordCodec.Text

/-! The last part of a qualified name. -/

def IsLastPart (s name : List Char) : Prop :=
  (∃ qualifier, s = qualifier ++ ':' :: ':' :: name ∧ ¬ [':', ':'] <:+: ':' :: name) ∨
    (¬ [':', ':'] <:+: s ∧ name = s)

theorem afterLast_eq_none_iff {s : List Char} :
    unqualified.afterLast s = none ↔ ¬ [':', ':'] <:+: s := by
  fun_induction unqualified.afterLast s with
  | case1 => simp
  | case2 c cs rest hrest ih =>
    rw [hrest] at ih
    simp [List.infix_cons_iff, Classical.not_not.1 (mt ih.2 (by simp))]
  | case3 rest hrest ih => simp [List.infix_cons_iff]
  | case4 c cs hrest hne ih =>
    simp only [List.infix_cons_iff, ih.1 hrest, or_false, true_iff, List.cons_prefix_cons]
    rintro ⟨rfl, rest, rfl⟩
    exact hne rest rfl rfl

theorem afterLast_qualified {qualifier rest : List Char} (h : ¬ [':', ':'] <:+: ':' :: rest) :
    unqualified.afterLast (qualifier ++ ':' :: ':' :: rest) = some rest := by
  induction qualifier with
  | nil =>
    rw [List.nil_append, unqualified.afterLast.eq_def]
    dsimp only
    rw [afterLast_eq_none_iff.2 h]
    rfl
  | cons c qualifier ih =>
    rw [List.cons_append, unqualified.afterLast.eq_def]
    dsimp only
    rw [ih]

theorem exists_of_afterLast_eq_some {s rest : List Char} (h : unqualified.afterLast s = some rest) :
    ∃ qualifier, s = qualifier ++ ':' :: ':' :: rest ∧ ¬ [':', ':'] <:+: ':' :: rest := by
  fun_induction unqualified.afterLast s with
  | case1 => contradiction
  | case2 c cs other hother ih =>
    obtain ⟨qualifier, rfl, hlast⟩ := ih (hother.trans h)
    exact ⟨c :: qualifier, rfl, hlast⟩
  | case3 other hother ih =>
    cases h
    exact ⟨[], rfl, afterLast_eq_none_iff.1 hother⟩
  | case4 => contradiction

theorem afterLast_eq_some_iff {s rest : List Char} :
    unqualified.afterLast s = some rest ↔
      ∃ qualifier, s = qualifier ++ ':' :: ':' :: rest ∧ ¬ [':', ':'] <:+: ':' :: rest := by
  constructor
  · exact exists_of_afterLast_eq_some
  · rintro ⟨qualifier, rfl, hlast⟩
    exact afterLast_qualified hlast

theorem unqualified_eq_iff {s name : List Char} : unqualified s = name ↔ IsLastPart s name := by
  have hcases : unqualified s = (unqualified.afterLast s).getD s := by
    cases s with
    | nil => rfl
    | cons c cs =>
      rw [unqualified]
      cases unqualified.afterLast (c :: cs) with
      | none => rfl
      | some rest => rfl
  unfold IsLastPart
  rw [hcases, ← afterLast_eq_some_iff, ← afterLast_eq_none_iff]
  cases unqualified.afterLast s with
  | none => simp [eq_comm]
  | some rest => simp

/-! The grammar. -/

def IsLeaf (name : String) (t : FieldType) : Prop :=
  (name, t) ∈ canonicalTypes ∨
    ∃ canonical, (name, canonical) ∈ aliases ∧ (canonical, t) ∈ canonicalTypes

def Wrapper.around : Wrapper → FieldType → FieldType
  | sequence, elem => elem.sequence
  | optional, elem => elem.optional

structure DenotesLeaf (text : List Char) (t : FieldType) : Prop where
  not_generic : '<' ∉ trim text
  not_slice : ¬ ['[', ']'] <+: trim text
  last : ∃ name, IsLastPart (trim text) name ∧ IsLeaf (String.ofList name) t

/--
Whether a text denotes a field type: a type without elements, or a sequence or an optional of one.
-/
inductive DenotesType (text : List Char) : FieldType → Prop where
  | leaf {t : FieldType} (h : DenotesLeaf text t) : DenotesType text t
  | slice {rest : List Char} {elem : FieldType} (htext : trim text = '[' :: ']' :: rest)
    (helem : DenotesLeaf rest elem) : DenotesType text elem.sequence
  | generic {before inner outer : List Char} {w : Wrapper} {elem : FieldType}
    (hslice : ¬ ['[', ']'] <+: trim text) (htext : trim text = before ++ '<' :: inner ++ ['>'])
    (hbefore : '<' ∉ before) (houter : IsLastPart (trim before) outer)
    (hwrapper : (String.ofList outer, w) ∈ wrappers)
    (hinner : ∀ c ∈ inner, c ≠ '<' ∧ c ≠ '>' ∧ c ≠ ',') (helem : DenotesLeaf inner elem) :
    DenotesType text (w.around elem)

/-! The tables. -/

theorem mem_of_lookup_eq_some {β : Type} {table : List (String × β)} {name : String} {b : β}
    (h : table.lookup name = some b) : (name, b) ∈ table := by
  obtain ⟨front, back, rfl, -⟩ := List.lookup_eq_some_iff.1 h
  simp

theorem leafType?_eq_some_iff {name : String} {t : FieldType} :
    leafType? name = some t ↔ IsLeaf name t := by
  constructor
  · intro h
    unfold leafType? at h
    cases halias : aliases.lookup name with
    | none =>
      rw [halias] at h
      exact .inl (mem_of_lookup_eq_some h)
    | some canonical =>
      rw [halias] at h
      exact .inr ⟨canonical, mem_of_lookup_eq_some halias, mem_of_lookup_eq_some h⟩
  · have hcanonical : ∀ entry ∈ canonicalTypes, leafType? entry.1 = some entry.2 := by decide
    have haliases : ∀ entry ∈ aliases, leafType? entry.1 = leafType? entry.2 := by decide
    rintro (h | ⟨canonical, halias, h⟩)
    · exact hcanonical (name, t) h
    · exact (haliases (name, canonical) halias).trans (hcanonical (canonical, t) h)

theorem lookup_wrappers_eq_some_iff {name : String} {w : Wrapper} :
    wrappers.lookup name = some w ↔ (name, w) ∈ wrappers := by
  constructor
  · exact mem_of_lookup_eq_some
  · have h : ∀ entry ∈ wrappers, wrappers.lookup entry.1 = some entry.2 := by decide
    exact h (name, w)

theorem lookup_wrappers_of_isLeaf {name : String} {t : FieldType} (h : IsLeaf name t) :
    wrappers.lookup name = none := by
  have hcanonical : ∀ entry ∈ canonicalTypes, wrappers.lookup entry.1 = none := by decide
  have haliases : ∀ entry ∈ aliases, wrappers.lookup entry.1 = none := by decide
  rcases h with h | ⟨canonical, h, -⟩
  · exact hcanonical (name, t) h
  · exact haliases (name, canonical) h

def isPlainName (name : String) : Bool :=
  !name.toList.isEmpty && !name.toList.any isReserved

theorem isPlainName_of_isLeaf {name : String} {t : FieldType} (h : IsLeaf name t) :
    isPlainName name = true := by
  have hcanonical : ∀ entry ∈ canonicalTypes, isPlainName entry.1 = true := by decide
  have haliases : ∀ entry ∈ aliases, isPlainName entry.1 = true := by decide
  rcases h with h | ⟨canonical, h, -⟩
  · exact hcanonical (name, t) h
  · exact haliases (name, canonical) h

theorem isPlainName_of_mem_wrappers {name : String} {w : Wrapper} (h : (name, w) ∈ wrappers) :
    isPlainName name = true := by
  have hwrappers : ∀ entry ∈ wrappers, isPlainName entry.1 = true := by decide
  exact hwrappers (name, w) h

theorem segmentName?_eq_some_iff {s : List Char} {name : String} (h : isPlainName name = true) :
    segmentName? s = some name ↔ IsLastPart (trim s) name.toList := by
  unfold segmentName?
  rw [← unqualified_eq_iff]
  unfold isPlainName at h
  constructor
  · intro hname
    dsimp only at hname
    split at hname
    · contradiction
    · cases hname
      rw [String.toList_ofList]
  · intro hlast
    rw [hlast]
    rw [Bool.and_eq_true, Bool.not_eq_true', Bool.not_eq_true'] at h
    simp [h]

/-! The path of a text. -/

theorem segments_go_slice (rest : List Char) :
    segments.go ('[' :: ']' :: rest) = (segments.go (trim rest)).map ("list" :: ·) := by
  rw [segments.go.eq_def]
  rfl

theorem segments_go_plain {s : List Char} (hslice : ¬ ['[', ']'] <+: s) (hgeneric : '<' ∉ s) :
    segments.go s = (segmentName? s).map ([·]) := by
  rw [segments.go.eq_def]
  split
  · next rest => exact absurd ⟨rest, rfl⟩ hslice
  · rw [if_neg (by simpa using hgeneric)]
    cases segmentName? s with
    | none => rfl
    | some name => rfl

theorem openGeneric?_eq_some_iff {s before inner : List Char} :
    openGeneric? s = some (before, inner) ↔
      s = before ++ '<' :: inner ++ ['>'] ∧ '<' ∉ before := by
  constructor
  · intro h
    unfold openGeneric? at h
    split at h
    · contradiction
    · next c rest hdrop =>
      split at h
      · next hlast =>
        cases h
        have hc : c = '<' := by
          have hhead := List.head_dropWhile_not (· != '<') (l := s) (by simp [hdrop])
          simpa [hdrop] using hhead
        have hrest : rest.dropLast ++ ['>'] = rest :=
          List.dropLast_append_getLast? _ (by simpa using hlast)
        constructor
        · calc
            s = s.takeWhile (· != '<') ++ s.dropWhile (· != '<') :=
              List.takeWhile_append_dropWhile.symm
            _ = s.takeWhile (· != '<') ++ '<' :: rest.dropLast ++ ['>'] := by
              rw [hdrop, hc, List.append_assoc, List.cons_append, hrest]
        · intro hmem
          have := List.mem_takeWhile_imp hmem
          contradiction
      · contradiction
  · rintro ⟨rfl, hbefore⟩
    have hpass : ∀ c ∈ before, (c != '<') = true := by
      intro c hc
      rw [bne_iff_ne]
      rintro rfl
      exact hbefore hc
    unfold openGeneric?
    rw [List.append_assoc, List.dropWhile_append_of_pos hpass, List.takeWhile_append_of_pos hpass]
    simp

theorem segments_go_generic {s before inner : List Char} (hslice : ¬ ['[', ']'] <+: s)
    (hopen : openGeneric? s = some (before, inner)) :
    segments.go s = (segmentName? before).bind fun name =>
      if isOneArgument (trim inner) then (segments.go (trim inner)).map (name :: ·) else none := by
  have hgeneric : '<' ∈ s := by
    rw [(openGeneric?_eq_some_iff.1 hopen).1]
    simp
  rw [segments.go.eq_def]
  split
  · next rest => exact absurd ⟨rest, rfl⟩ hslice
  · rw [if_pos (by simpa using hgeneric)]
    split
    · next hnone =>
      rw [hopen] at hnone
      contradiction
    · next hsome =>
      rw [hopen] at hsome
      cases hsome
      apply congrArg
      funext name
      split
      · cases segments.go (trim inner) with
        | none => rfl
        | some path => rfl
      · rfl

theorem exists_of_segments_go_generic {s : List Char} (hslice : ¬ ['[', ']'] <+: s)
    (hgeneric : '<' ∈ s) {path : List String} (h : segments.go s = some path) :
    ∃ before inner name rest, openGeneric? s = some (before, inner) ∧
      segmentName? before = some name ∧ isOneArgument (trim inner) = true ∧
      segments.go (trim inner) = some rest ∧ path = name :: rest := by
  cases hopen : openGeneric? s with
  | none =>
    rw [segments.go.eq_def] at h
    split at h
    · next rest => exact absurd ⟨rest, rfl⟩ hslice
    · rw [if_pos (by simpa using hgeneric)] at h
      split at h
      · contradiction
      · next hsome =>
        rw [hopen] at hsome
        contradiction
  | some opened =>
    obtain ⟨before, inner⟩ := opened
    rw [segments_go_generic hslice hopen] at h
    obtain ⟨name, hname, h⟩ := Option.bind_eq_some_iff.1 h
    split at h
    · next hone =>
      obtain ⟨rest, hrest, h⟩ := Option.map_eq_some_iff.1 h
      exact ⟨before, inner, name, rest, rfl, hname, hone, hrest, h.symm⟩
    · contradiction

theorem topLevelCommas?_eq_zero_iff {s : List Char} (h : '<' ∉ s) :
    topLevelCommas? s = some 0 ↔ '>' ∉ s ∧ ',' ∉ s := by
  unfold topLevelCommas?
  induction s with
  | nil => simp [topLevelCommas?.go]
  | cons c cs ih =>
    rw [List.mem_cons, not_or] at h
    have hc : (c == '<') = false := by simpa using Ne.symm h.1
    rw [topLevelCommas?.go, hc]
    by_cases hclose : c = '>'
    · simp [hclose]
    · by_cases hcomma : c = ','
      · simp [hcomma]
      · simp [hclose, hcomma, ih h.2, Ne.symm hclose, Ne.symm hcomma]

theorem segments_go_ne_nil (s : List Char) : segments.go s ≠ some [] := by
  intro h
  by_cases hslice : ['[', ']'] <+: s
  · obtain ⟨rest, rfl⟩ := hslice
    rw [List.cons_append, List.cons_append, List.nil_append, segments_go_slice] at h
    simp at h
  · by_cases hgeneric : '<' ∈ s
    · obtain ⟨_, _, _, _, -, -, -, -, h⟩ := exists_of_segments_go_generic hslice hgeneric h
      contradiction
    · rw [segments_go_plain hslice hgeneric] at h
      simp at h

theorem segments_go_eq_singleton_iff {s : List Char} {name : String} :
    segments.go s = some [name] ↔
      ¬ ['[', ']'] <+: s ∧ '<' ∉ s ∧ segmentName? s = some name := by
  constructor
  · intro h
    have hslice : ¬ ['[', ']'] <+: s := by
      rintro ⟨rest, rfl⟩
      rw [List.cons_append, List.cons_append, List.nil_append, segments_go_slice] at h
      obtain ⟨path, hpath, h⟩ := Option.map_eq_some_iff.1 h
      cases h
      exact segments_go_ne_nil _ hpath
    have hgeneric : '<' ∉ s := by
      intro hmem
      obtain ⟨_, inner, _, rest, -, -, -, hrest, h⟩ := exists_of_segments_go_generic hslice hmem h
      cases h
      exact segments_go_ne_nil _ hrest
    rw [segments_go_plain hslice hgeneric] at h
    refine ⟨hslice, hgeneric, ?_⟩
    simpa using h
  · rintro ⟨hslice, hgeneric, hname⟩
    rw [segments_go_plain hslice hgeneric, hname]
    rfl

theorem segments_go_leaf_iff {text : List Char} {t : FieldType} :
    (∃ name, segments.go (trim text) = some [name] ∧ leafType? name = some t) ↔
      DenotesLeaf text t := by
  constructor
  · rintro ⟨name, hpath, hleaf⟩
    rw [leafType?_eq_some_iff] at hleaf
    obtain ⟨hslice, hgeneric, hname⟩ := segments_go_eq_singleton_iff.1 hpath
    rw [segmentName?_eq_some_iff (isPlainName_of_isLeaf hleaf), trim_trim] at hname
    refine ⟨hgeneric, hslice, name.toList, hname, ?_⟩
    rw [String.ofList_toList]
    exact hleaf
  · rintro ⟨hgeneric, hslice, name, hlast, hleaf⟩
    refine ⟨String.ofList name, ?_, leafType?_eq_some_iff.2 hleaf⟩
    rw [segments_go_eq_singleton_iff, segmentName?_eq_some_iff (isPlainName_of_isLeaf hleaf),
      trim_trim, String.toList_ofList]
    exact ⟨hslice, hgeneric, hlast⟩

theorem DenotesLeaf.ne_nil {text : List Char} {t : FieldType} (h : DenotesLeaf text t) :
    trim text ≠ [] := by
  intro hnil
  obtain ⟨name, hlast, hleaf⟩ := h.last
  have hplain := isPlainName_of_isLeaf hleaf
  rw [hnil, ← unqualified_eq_iff] at hlast
  subst hlast
  contradiction

theorem isOneArgument_iff {inner : List Char} {t : FieldType} (h : DenotesLeaf inner t) :
    isOneArgument (trim inner) = true ↔ ∀ c ∈ inner, c ≠ '<' ∧ c ≠ '>' ∧ c ≠ ',' := by
  unfold isOneArgument
  rw [Bool.and_eq_true, beq_iff_eq, topLevelCommas?_eq_zero_iff h.not_generic]
  have hopen := h.not_generic
  rw [mem_trim_iff (by decide)] at hopen ⊢
  rw [mem_trim_iff (by decide)]
  constructor
  · rintro ⟨⟨hclose, hcomma⟩, -⟩ c hc
    refine ⟨?_, ?_, ?_⟩ <;> rintro rfl <;> contradiction
  · intro hnone
    refine ⟨⟨fun hmem => (hnone _ hmem).2.1 rfl, fun hmem => (hnone _ hmem).2.2 rfl⟩, ?_⟩
    simpa using h.ne_nil

theorem typeOfText_eq_ok_iff {text : String} {t : FieldType} : typeOfText text = .ok t ↔
    (∃ name, segments text = some [name] ∧ leafType? name = some t) ∨
      ∃ outer name w elem, segments text = some [outer, name] ∧ wrappers.lookup outer = some w ∧
        leafType? name = some elem ∧ t = w.around elem := by
  unfold typeOfText
  cases segments text with
  | none => simp
  | some path =>
    match path with
    | [] => simp
    | [name] =>
      cases hleaf : leafType? name with
      | none =>
        dsimp only
        split <;> simp [hleaf]
      | some u => simp [hleaf, lookup_wrappers_of_isLeaf (leafType?_eq_some_iff.1 hleaf)]
    | [outer, name] =>
      cases hwrapper : wrappers.lookup outer with
      | none => simp [hwrapper]
      | some w =>
        cases hleaf : leafType? name with
        | none => simp [hleaf, hwrapper]
        | some elem => cases w <;> simp [hleaf, hwrapper, Wrapper.around, eq_comm]
    | _ :: _ :: _ :: _ => simp

theorem typeOfText_eq_ok_iff_denotesType {text : String} {t : FieldType} :
    typeOfText text = .ok t ↔ DenotesType text.toList t := by
  rw [typeOfText_eq_ok_iff]
  unfold segments
  constructor
  · rintro (hleaf | ⟨outer, name, w, elem, hpath, hwrapper, hleaf, rfl⟩)
    · exact .leaf (segments_go_leaf_iff.1 hleaf)
    · by_cases hslice : ['[', ']'] <+: trim text.toList
      · obtain ⟨rest, hrest⟩ := hslice
        rw [List.cons_append, List.cons_append, List.nil_append] at hrest
        rw [← hrest, segments_go_slice] at hpath
        obtain ⟨path, hpath, h⟩ := Option.map_eq_some_iff.1 hpath
        cases h
        cases hwrapper
        exact .slice hrest.symm (segments_go_leaf_iff.1 ⟨name, hpath, hleaf⟩)
      · have hgeneric : '<' ∈ trim text.toList := by
          by_contra hnot
          rw [segments_go_plain hslice hnot] at hpath
          simp at hpath
        obtain ⟨before, inner, _, _, hopen, hname, hone, hrest, h⟩ :=
          exists_of_segments_go_generic hslice hgeneric hpath
        cases h
        have helem := segments_go_leaf_iff.1 ⟨name, hrest, hleaf⟩
        obtain ⟨htext, hbefore⟩ := openGeneric?_eq_some_iff.1 hopen
        rw [lookup_wrappers_eq_some_iff] at hwrapper
        rw [segmentName?_eq_some_iff (isPlainName_of_mem_wrappers hwrapper)] at hname
        refine .generic hslice htext hbefore hname ?_ ((isOneArgument_iff helem).1 hone) helem
        rw [String.ofList_toList]
        exact hwrapper
  · rintro (hleaf | ⟨htext, helem⟩ | ⟨hslice, htext, hbefore, houter, hwrapper, hinner, helem⟩)
    · exact .inl (segments_go_leaf_iff.2 hleaf)
    · obtain ⟨name, hpath, hleaf⟩ := segments_go_leaf_iff.2 helem
      refine .inr ⟨"list", name, .sequence, _, ?_, rfl, hleaf, rfl⟩
      rw [htext, segments_go_slice, hpath]
      rfl
    · next before inner outer w elem =>
      obtain ⟨name, hpath, hleaf⟩ := segments_go_leaf_iff.2 helem
      refine .inr ⟨_, name, w, elem, ?_, lookup_wrappers_eq_some_iff.2 hwrapper, hleaf, rfl⟩
      rw [segments_go_generic hslice (openGeneric?_eq_some_iff.2 ⟨htext, hbefore⟩),
        (segmentName?_eq_some_iff (isPlainName_of_mem_wrappers hwrapper)).2
          (by rwa [String.toList_ofList]), Option.bind_some,
        if_pos ((isOneArgument_iff helem).2 hinner), hpath]
      rfl

theorem classify_accepts_exactly (record field text : String) :
    (∀ t, classify record field text = .ok t ↔ DenotesType text.toList t) ∧
      ((∃ t, DenotesType text.toList t) ∨ ∃ f, classify record field text = .error f ∧
        f.phase = .classify ∧ f.kind = .unsupportedType ∧ f.record = record ∧ f.path = [field] ∧
        f.typeText = text) := by
  have haccepted : ∀ t, classify record field text = .ok t ↔ DenotesType text.toList t := by
    intro t
    rw [classify_eq_ok_iff, typeOfText_eq_ok_iff_denotesType]
  refine ⟨haccepted, ?_⟩
  cases hclassify : classify record field text with
  | ok t => exact .inl ⟨t, (haccepted t).1 hclassify⟩
  | error f =>
    unfold classify at hclassify
    split at hclassify
    · contradiction
    · cases hclassify
      exact .inr ⟨_, rfl, rfl, rfl, rfl, rfl, rfl⟩

end RecordCodec
