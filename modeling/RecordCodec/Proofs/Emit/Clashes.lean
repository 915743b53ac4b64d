import RecordCodec.Proofs.Codec.Synthesis
import RecordCodec.Proofs.Emit.Fragments
import Mathlib.Data.List.Induction
import Mathlib.Data.List.Nodup

/-!
This module contains when fragments are rendered. The names of fields in the struct are the only
thing that can go wrong with the plan of a record.
-/

namespace RecordCodec.Emit

structure HaveFreeNames (fields : List String) : Prop where
  nodup : (fields.map Naming.exported).Nodup
  notFlatten : ∀ field ∈ fields, Naming.exported field ≠ "Flatten"

instance (fields : List String) : Decidable (HaveFreeNames fields) :=
  decidable_of_iff
    ((fields.map Naming.exported).Nodup ∧ ∀ field ∈ fields, Naming.exported field ≠ "Flatten")
    ⟨fun h => ⟨h.1, h.2⟩, fun h => ⟨h.nodup, h.notFlatten⟩⟩

inductive Offends (record : String) (front : List String) (field : String) : Fault → Prop where
  | taken {earlier : String} (hearlier : earlier ∈ front)
    (heq : Naming.exported earlier = Naming.exported field) :
    Offends record front field (clash record earlier field (Naming.exported field))
  /-- The name is that of the method that writes the record. -/
  | reserved (heq : Naming.exported field = "Flatten") :
    Offends record front field (.invalidName .emit record field)

namespace HaveFreeNames

variable {record field : String} {front fields back : List String} {fault : Fault}

theorem nil : HaveFreeNames [] :=
  ⟨List.nodup_nil, nofun⟩

theorem left (h : HaveFreeNames (front ++ fields)) : HaveFreeNames front := by
  constructor
  · have hnodup := h.nodup
    rw [List.map_append, List.nodup_append] at hnodup
    exact hnodup.1
  · intro field hfield
    exact h.notFlatten field (List.mem_append_left _ hfield)

theorem ne_of_mem (h : HaveFreeNames (front ++ field :: back)) {earlier : String}
    (hearlier : earlier ∈ front) : Naming.exported earlier ≠ Naming.exported field := by
  have hnodup := h.nodup
  rw [List.map_append, List.nodup_append] at hnodup
  exact hnodup.2.2 _ (List.mem_map_of_mem hearlier) _ (List.mem_cons_self ..)

theorem not_offends (h : HaveFreeNames (front ++ field :: back)) :
    ¬ Offends record front field fault := by
  intro hoffends
  cases hoffends with
  | taken hearlier heq => exact h.ne_of_mem hearlier heq
  | reserved heq => exact h.notFlatten field (List.mem_append_right _ (List.mem_cons_self ..)) heq

theorem append_or_offends (record : String) (h : HaveFreeNames front) (field : String) :
    HaveFreeNames (front ++ [field]) ∨ ∃ fault, Offends record front field fault := by
  by_cases htaken : ∃ earlier ∈ front, Naming.exported earlier = Naming.exported field
  · obtain ⟨earlier, hearlier, heq⟩ := htaken
    exact .inr ⟨_, .taken hearlier heq⟩
  · by_cases hreserved : Naming.exported field = "Flatten"
    · exact .inr ⟨_, .reserved hreserved⟩
    · refine .inl ⟨?_, ?_⟩
      · rw [List.map_append, List.map_singleton, ← List.concat_eq_append, List.nodup_concat]
        refine ⟨?_, h.nodup⟩
        intro hmem
        exact htaken (List.mem_map.1 hmem)
      · intro other hother
        rcases List.mem_append.1 hother with hother | hother
        · exact h.notFlatten other hother
        · rw [List.mem_singleton.1 hother]
          exact hreserved

theorem exists_first_offending (record : String) (h : ¬ HaveFreeNames fields) :
    ∃ front field back fault, fields = front ++ field :: back ∧ HaveFreeNames front ∧
      Offends record front field fault := by
  -- by induction from the end: the last field counts only if all before it can have their names
  induction fields using List.reverseRecOn with
  | nil => exact absurd nil h
  | append_singleton fields field ih =>
    by_cases hfields : HaveFreeNames fields
    · obtain ⟨fault, hfault⟩ := (hfields.append_or_offends record field).resolve_left h
      exact ⟨fields, field, [], fault, rfl, hfields, hfault⟩
    · obtain ⟨front, first, back, fault, rfl, hfront, hfault⟩ := ih hfields
      exact ⟨front, first, back ++ [field], fault, by simp, hfront, hfault⟩

end HaveFreeNames

/-! The check of names. -/

def takenNames (fields : List String) : List (String × String) :=
  (fields.map fun field => (Naming.exported field, field)).reverse

theorem takenNames_append (fields : List String) (field : String) :
    takenNames (fields ++ [field]) = (Naming.exported field, field) :: takenNames fields := by
  simp [takenNames]

theorem lookup_takenNames_eq_some {fields : List String} {name earlier : String}
    (h : (takenNames fields).lookup name = some earlier) :
    earlier ∈ fields ∧ Naming.exported earlier = name := by
  obtain ⟨front, back, hsplit, -⟩ := List.lookup_eq_some_iff.1 h
  have hmem : (name, earlier) ∈ takenNames fields := by
    rw [hsplit]
    exact List.mem_append_right _ (List.mem_cons_self ..)
  obtain ⟨field, hfield, heq⟩ := List.mem_map.1 (List.mem_reverse.1 hmem)
  cases heq
  exact ⟨hfield, rfl⟩

theorem lookup_takenNames_eq_none {fields : List String} {name : String}
    (h : (takenNames fields).lookup name = none) :
    ∀ earlier ∈ fields, Naming.exported earlier ≠ name := by
  intro earlier hearlier heq
  have hmem : (name, earlier) ∈ takenNames fields := by
    rw [← heq]
    exact List.mem_reverse.2 (List.mem_map.2 ⟨earlier, hearlier, rfl⟩)
  have hne := List.lookup_eq_none_iff.1 h _ hmem
  exact absurd rfl (bne_iff_ne.1 hne)

section

variable {record field : String} {front fields : List String} {fault : Fault}

theorem checkNames_cons (h : HaveFreeNames (front ++ [field])) :
    checkNames record (takenNames front) (field :: fields) =
      checkNames record (takenNames (front ++ [field])) fields := by
  have hreserved : ¬ reservedNames.contains (Naming.exported field) = true := by
    have hne := h.notFlatten field (List.mem_append_right _ (List.mem_singleton_self _))
    simpa [reservedNames] using hne
  rw [checkNames, takenNames_append]
  cases hlookup : (takenNames front).lookup (Naming.exported field) with
  | some earlier =>
    obtain ⟨hearlier, heq⟩ := lookup_takenNames_eq_some hlookup
    exact absurd heq (h.ne_of_mem hearlier)
  | none => exact if_neg hreserved

theorem checkNames_append (record : String) {front fields : List String}
    (h : HaveFreeNames (front ++ fields)) (back : List String) :
    checkNames record (takenNames front) (fields ++ back) =
      checkNames record (takenNames (front ++ fields)) back := by
  induction fields generalizing front with
  | nil => rw [List.append_nil, List.nil_append]
  | cons field fields ih =>
    rw [List.append_cons] at h ⊢
    rw [List.cons_append, checkNames_cons h.left, ih h]

theorem checkNames_nil_append (record : String) {front : List String} (h : HaveFreeNames front)
    (back : List String) :
    checkNames record [] (front ++ back) = checkNames record (takenNames front) back := by
  rw [← List.nil_append front] at h
  exact checkNames_append record h back

theorem checkNames_of_offends (h : HaveFreeNames front)
    (hfault : Offends record front field fault) :
    checkNames record (takenNames front) (field :: fields) = .error fault := by
  rw [checkNames]
  cases hlookup : (takenNames front).lookup (Naming.exported field) with
  | some other =>
    obtain ⟨hother, heq⟩ := lookup_takenNames_eq_some hlookup
    cases hfault with
    | taken hearlier hname =>
      rw [List.inj_on_of_nodup_map h.nodup hother hearlier (heq.trans hname.symm)]
    | reserved hname => exact absurd (heq.trans hname) (h.notFlatten other hother)
  | none =>
    cases hfault with
    | taken hearlier hname => exact absurd hname (lookup_takenNames_eq_none hlookup _ hearlier)
    | reserved hname =>
      dsimp only
      rw [if_pos]
      rw [hname]
      rfl

theorem checkNames_eq_ok (h : HaveFreeNames fields) : checkNames record [] fields = .ok () := by
  have hall := checkNames_nil_append record h []
  rw [List.append_nil] at hall
  exact hall

theorem checkNames_eq_error_iff : checkNames record [] fields = .error fault ↔
    ∃ front field back, fields = front ++ field :: back ∧ HaveFreeNames front ∧
      Offends record front field fault := by
  constructor
  · intro herror
    have hclash : ¬ HaveFreeNames fields := by
      intro hfree
      rw [checkNames_eq_ok hfree] at herror
      cases herror
    obtain ⟨front, field, back, other, rfl, hfront, hother⟩ :=
      HaveFreeNames.exists_first_offending record hclash
    rw [checkNames_nil_append record hfront, checkNames_of_offends hfront hother] at herror
    cases herror
    exact ⟨front, field, back, rfl, hfront, hother⟩
  · rintro ⟨front, field, back, rfl, hfront, hfault⟩
    rw [checkNames_nil_append record hfront]
    exact checkNames_of_offends hfront hfault

end

theorem fragment_fails_only_for_names {r : Record} {p : Plan} {package : String}
    (hp : assemble r = .ok p) (hpackage : Naming.isIdentifier package = true)
    (hkeyword : Source.keywords.contains package = false) :
    (Source.File.parse? (fragmentText (.ofPlan p) package)).isSome = true ∧
    ((∃ source, fragment (some p) package = .ok source) ↔
      HaveFreeNames (p.fields.toList.map Field.name)) ∧
    ∀ fault, fragment (some p) package = .error fault ↔ ∃ front field back,
      p.fields.toList.map Field.name = front ++ field :: back ∧ HaveFreeNames front ∧
      Offends p.record front field fault := by
  have hparse := Codec.parse?_fragmentText_isSome (Codec.isProper_ofPlan hp) ⟨hpackage, hkeyword⟩
  refine ⟨hparse, ?_⟩
  by_cases hfree : HaveFreeNames (p.fields.toList.map Field.name)
  · obtain ⟨source, hsource⟩ := exists_fragment (checkNames_eq_ok hfree) hparse
    refine ⟨⟨fun _ => hfree, fun _ => ⟨source, hsource⟩⟩, ?_⟩
    intro fault
    rw [hsource]
    refine ⟨nofun, ?_⟩
    rintro ⟨front, field, back, hsplit, -, hfault⟩
    rw [hsplit] at hfree
    exact absurd hfault hfree.not_offends
  · obtain ⟨front, field, back, fault, hfirst⟩ :=
      HaveFreeNames.exists_first_offending p.record hfree
    have herror := checkNames_eq_error_iff.2 ⟨front, field, back, hfirst⟩
    have hfragment : fragment (some p) package = .error fault := by
      unfold fragment
      dsimp only
      rw [herror]
      rfl
    rw [hfragment]
    refine ⟨⟨nofun, fun h => absurd h hfree⟩, ?_⟩
    intro other
    rw [← checkNames_eq_error_iff, herror]
    exact ⟨congrArg _ ∘ Except.error.inj, congrArg _ ∘ Except.error.inj⟩

def stretchRecord : Record where
  name := "Stretch"
  fields := [⟨"ratio", "u32"⟩, ⟨"flatten", "bool"⟩, ⟨"Ratio", "u8"⟩]

def stretchPlan : Plan :=
  Plan.ofFields "Stretch" (fieldsFrom 0 stretchRecord.fields [.ofScalar .u32, .ofScalar .bool,
    .ofScalar .u8])

theorem assemble_stretchRecord : assemble stretchRecord = .ok stretchPlan :=
  assemble_of_names (by decide)

theorem fragment_fails_only_for_names_note_clash_stretch :
    (∃ source, fragment (some notePlan) "model" = .ok source) ∧
    fragment (some clashPlan) "model" = .error (clash "Clash" "t_vec" "tVec" "TVec") ∧
    fragment (some stretchPlan) "model" = .error (.invalidName .emit "Stretch" "flatten") := by
  have hpackage : Naming.isIdentifier "model" = true := by decide
  have hkeyword : Source.keywords.contains "model" = false := by decide
  refine ⟨?_, ?_, ?_⟩
  · obtain ⟨-, hrendered, -⟩ := fragment_fails_only_for_names assemble_noteRecord hpackage hkeyword
    exact hrendered.2 (by decide)
  · obtain ⟨-, -, hreported⟩ := fragment_fails_only_for_names assemble_clash hpackage hkeyword
    have htaken : Offends "Clash" ["t_vec", "x"] "tVec" (clash "Clash" "t_vec" "tVec" "TVec") :=
      .taken (by decide) (by decide)
    exact (hreported _).2 ⟨["t_vec", "x"], "tVec", ["x_"], rfl, by decide, htaken⟩
  · obtain ⟨-, -, hreported⟩ :=
      fragment_fails_only_for_names assemble_stretchRecord hpackage hkeyword
    have hreserved : Offends "Stretch" ["ratio"] "flatten"
        (.invalidName .emit "Stretch" "flatten") :=
      .reserved (by decide)
    exact (hreported _).2 ⟨["ratio"], "flatten", ["Ratio"], rfl, by decide, hreserved⟩

end RecordCodec.Emit
