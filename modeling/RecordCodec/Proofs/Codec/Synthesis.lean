import RecordCodec.Proofs.Codec.Dynamic
import RecordCodec.Proofs.Planner.Acceptance
import Mathlib.Data.List.Induction
import Mathlib.Data.List.Nodup
import Mathlib.Data.Set.Function

/-!
This module contains which plans can be bound to the struct types made for them: those whose fields
have different exported names. Otherwise the first field whose exported name is taken is reported.
-/

namespace RecordCodec

open RecordCodec.Table

theorem exists_first_repeated {key : α → β} {xs : List α} (h : ¬ (xs.map key).Nodup) :
    ∃ front x back, xs = front ++ x :: back ∧ (front.map key).Nodup ∧
      ∃ y ∈ front, key y = key x := by
  -- by induction from the end: the last element counts only if all before it differ
  induction xs using List.reverseRecOn with
  | nil => exact absurd List.nodup_nil h
  | append_singleton xs x ih =>
    by_cases hxs : (xs.map key).Nodup
    · rw [List.map_append, List.map_singleton, ← List.concat_eq_append, List.nodup_concat] at h
      have hmem : key x ∈ xs.map key := by
        by_contra hnew
        exact h ⟨hnew, hxs⟩
      obtain ⟨y, hy, heq⟩ := List.mem_map.1 hmem
      exact ⟨xs, x, [], rfl, hxs, y, hy, heq⟩
    · obtain ⟨front, z, back, rfl, hfront, hrepeated⟩ := ih hxs
      exact ⟨front, z, back ++ [x], by simp, hfront, hrepeated⟩

namespace Plan

def names (p : Plan) : Set String :=
  fun name => ∃ f ∈ p.fields, f.name = name

theorem WellFormed.nodup_exported_iff {p : Plan} (hp : p.WellFormed) :
    (p.fields.toList.map fun f => Naming.exported f.name).Nodup ↔
      Set.InjOn Naming.exported p.names := by
  have hmap : (p.fields.toList.map fun f => Naming.exported f.name) =
      (p.fields.toList.map (·.name)).map Naming.exported := by
    rw [List.map_map]
    rfl
  have hmem : ∀ name, name ∈ p.fields.toList.map (·.name) ↔ name ∈ p.names := by
    intro name
    rw [List.mem_map]
    constructor
    · rintro ⟨f, hf, rfl⟩
      exact ⟨f, Array.mem_toList_iff.1 hf, rfl⟩
    · rintro ⟨f, hf, rfl⟩
      exact ⟨f, Array.mem_toList_iff.2 hf, rfl⟩
  rw [hmap]
  constructor
  · intro hnodup a ha b hb heq
    exact List.inj_on_of_nodup_map hnodup ((hmem a).2 ha) ((hmem b).2 hb) heq
  · intro hinj
    apply List.Nodup.map_on _ hp.nodup_names
    intro a ha b hb heq
    exact hinj ((hmem a).1 ha) ((hmem b).1 hb) heq

theorem structMembers_eq_error {record : String} {seen : Std.TreeMap String String}
    {front back : List Field} {f : Field} {first : String}
    (hunseen : ∀ g ∈ front, seen[Naming.exported g.name]? = none)
    (hnodup : (front.map fun g => Naming.exported g.name).Nodup)
    (hfirst : seen[Naming.exported f.name]? = some first ∨
      ∃ g ∈ front, g.name = first ∧ Naming.exported g.name = Naming.exported f.name) :
    structMembers record seen (front ++ f :: back) =
      .error (sharedName record first f.name (Naming.exported f.name)) := by
  induction front generalizing seen with
  | nil =>
    rcases hfirst with hseen | ⟨g, hg, -⟩
    · rw [List.nil_append, structMembers]
      dsimp only
      rw [hseen]
      rfl
    · contradiction
  | cons g gs ih =>
    rw [List.map_cons, List.nodup_cons] at hnodup
    have hnew : ∀ h ∈ gs, Naming.exported g.name ≠ Naming.exported h.name := by
      intro h hh heq
      apply hnodup.1
      rw [heq]
      exact List.mem_map_of_mem hh
    have hrest : ∀ h ∈ gs,
        (seen.insert (Naming.exported g.name) g.name)[Naming.exported h.name]? = none := by
      intro h hh
      rw [Std.TreeMap.getElem?_insert, if_neg (by simpa using hnew h hh)]
      exact hunseen h (List.mem_cons_of_mem g hh)
    have hlater : (seen.insert (Naming.exported g.name) g.name)[Naming.exported f.name]? =
          some first ∨
        ∃ h ∈ gs, h.name = first ∧ Naming.exported h.name = Naming.exported f.name := by
      rw [Std.TreeMap.getElem?_insert]
      rcases hfirst with hseen | ⟨h, hh, hname, heq⟩
      · have hne : Naming.exported g.name ≠ Naming.exported f.name := by
          intro heq
          rw [← heq, hunseen g List.mem_cons_self] at hseen
          contradiction
        exact .inl (by rw [if_neg (by simpa using hne)]; exact hseen)
      · rcases List.mem_cons.1 hh with rfl | hh
        · exact .inl (by rw [if_pos (by simpa using heq), hname])
        · exact .inr ⟨h, hh, hname, heq⟩
    rw [List.cons_append, structMembers]
    dsimp only
    rw [hunseen g List.mem_cons_self, ih hrest hnodup.2 hlater]
    rfl

end Plan

theorem FieldType.exists_hostType? {t : FieldType} (h : t.isKnown = true) :
    ∃ type, t.hostType? = some type := by
  rcases t with ⟨shape, scalar, text⟩
  cases shape with
  | unknown code => simp [isKnown] at h
  | _ =>
    cases scalar with
    | unknown code =>
      cases text with
      | _ => simp [isKnown, Scalar.isValid] at h
    | _ =>
      cases text with
      | _ => exact ⟨_, rfl⟩

namespace Binding

theorem dynamic_eq_inOrder {p : Plan} {bd : Binding} (hp : p.WellFormed)
    (h : Binding.dynamic p = .ok bd) :
    bd = inOrder p (.struct (p.fields.toList.map Field.member)) := by
  unfold Binding.dynamic at h
  obtain ⟨type, htype, h⟩ := exists_of_bind_eq_ok h
  unfold Plan.structType at htype
  obtain ⟨members, hmembers, htype⟩ := exists_of_bind_eq_ok htype
  cases htype
  rw [Plan.structMembers_eq hmembers, ofPlan_eq_ok hp rfl] at h
  cases h
  rfl

theorem dynamic_eq_error {p : Plan}
    (h : ¬ (p.fields.toList.map fun f => Naming.exported f.name).Nodup) :
    ∃ front f back first, p.fields.toList = front ++ f :: back ∧
      (front.map fun g => Naming.exported g.name).Nodup ∧ first ∈ front ∧
      Naming.exported first.name = Naming.exported f.name ∧
      Binding.dynamic p =
        .error (Plan.sharedName p.record first.name f.name (Naming.exported f.name)) := by
  obtain ⟨front, f, back, hfields, hfront, first, hfirst, heq⟩ := exists_first_repeated h
  refine ⟨front, f, back, first, hfields, hfront, hfirst, heq, ?_⟩
  unfold Binding.dynamic Plan.structType
  rw [hfields, Plan.structMembers_eq_error (fun g _ => Std.TreeMap.getElem?_emptyc) hfront
    (.inr ⟨first, hfirst, rfl, heq⟩)]
  rfl

theorem dynamic_binds_iff {r : Record} {p : Plan} (hp : assemble r = .ok p) :
    ((∃ bd, Binding.dynamic p = .ok bd) ↔ Set.InjOn Naming.exported p.names) ∧
    (¬ Set.InjOn Naming.exported p.names → ∃ front f back first,
      p.fields.toList = front ++ f :: back ∧
      (front.map fun g => Naming.exported g.name).Nodup ∧ first ∈ front ∧
      Naming.exported first.name = Naming.exported f.name ∧
      Binding.dynamic p =
        .error (Plan.sharedName p.record first.name f.name (Naming.exported f.name))) ∧
    ∀ bd, Binding.dynamic p = .ok bd → bd.type = .struct bd.members ∧
      bd.members.length = p.fields.size ∧ ∀ (i : Nat) f, p.fields[i]? = some f →
        bd.targetOf i = i ∧ ∃ m, bd.members[i]? = some m ∧ m.name = Naming.exported f.name ∧
          m.isExported = true ∧ Tag.entry m.tag = ⟨f.name, []⟩ ∧
          f.type.hostType? = some m.type ∧ f.type.fits m.type = true := by
  have hwellFormed := wellFormed_of_assemble hp
  rw [← hwellFormed.nodup_exported_iff]
  refine ⟨⟨?_, exists_dynamic hwellFormed⟩, dynamic_eq_error, ?_⟩
  · rintro ⟨bd, hbd⟩
    by_contra hrepeated
    obtain ⟨_, _, _, _, -, -, -, -, herror⟩ := dynamic_eq_error hrepeated
    rw [hbd] at herror
    contradiction
  · intro bd hbd
    have hdynamic := isDynamic_of_dynamic hwellFormed hbd
    refine ⟨?_, ?_, ?_⟩
    · rw [dynamic_eq_inOrder hwellFormed hbd]
      rfl
    · rw [hdynamic.members, List.length_map, Array.length_toList]
    · intro i f hf
      obtain ⟨hi, -⟩ := Array.getElem?_eq_some_iff.1 hf
      have hplaced := hwellFormed.isPlaced i f hf
      obtain ⟨type, htype⟩ := FieldType.exists_hostType? hplaced.isKnown
      refine ⟨hdynamic.targetOf i hi, f.member, ?_, rfl, rfl,
        Tag.entry_of_isIdentifier hplaced.isIdentifier, ?_, fits_member hplaced.isKnown⟩
      · rw [hdynamic.members, List.getElem?_map, Array.getElem?_toList, hf]
        rfl
      · unfold Field.member
        rw [htype]
        rfl

end Binding

def glyphRecord : Record where
  name := "Glyph"
  fields := [⟨"_1", "u8"⟩, ⟨"été", "string"⟩, ⟨"日本", "list<char>"⟩, ⟨"t_vec", "option<u16>"⟩,
    ⟨"x9", "f64"⟩]

def glyphPlan : Plan :=
  Plan.ofFields "Glyph" (fieldsFrom 0 glyphRecord.fields [.ofScalar .u8, .ofText,
    .sequence (.ofScalar .char), .optional (.ofScalar .u16), .ofScalar .f64])

def clashRecord : Record where
  name := "Clash"
  fields := [⟨"t_vec", "u8"⟩, ⟨"x", "bool"⟩, ⟨"tVec", "string"⟩, ⟨"x_", "u8"⟩]

def clashPlan : Plan :=
  Plan.ofFields "Clash" (fieldsFrom 0 clashRecord.fields [.ofScalar .u8, .ofScalar .bool, .ofText,
    .ofScalar .u8])

theorem dynamicRecords_checked :
    (∀ d ∈ glyphRecord.fields, Naming.isIdentifier d.name = true) ∧
    glyphPlan.fields.toList.map (fun f => Naming.exported f.name) =
      ["F1", "Été", "日本", "TVec", "X9"] ∧
    clashPlan.fields.toList.map (fun f => Naming.exported f.name) = ["TVec", "X", "TVec", "X"] := by
  decide +kernel

theorem assemble_glyph : assemble glyphRecord = .ok glyphPlan := by
  apply assemble_eq_ok
  · decide
  · decide
  · exact dynamicRecords_checked.1
  · decide
  · exact map_typeOfText (by decide) (by decide)

theorem assemble_clash : assemble clashRecord = .ok clashPlan :=
  assemble_of_names (by decide)

theorem dynamic_binds_iff_glyph_clash :
    (∃ bd, assemble glyphRecord = .ok glyphPlan ∧ Binding.dynamic glyphPlan = .ok bd ∧
      bd.members.length = 5 ∧ ∀ (i : Nat) f, glyphPlan.fields[i]? = some f →
        bd.targetOf i = i ∧ ∃ m, bd.members[i]? = some m ∧ m.name = Naming.exported f.name) ∧
    assemble clashRecord = .ok clashPlan ∧ ∃ front f back first,
      clashPlan.fields.toList = front ++ f :: back ∧ first ∈ front ∧
      Binding.dynamic clashPlan =
        .error (Plan.sharedName "Clash" first.name f.name (Naming.exported f.name)) := by
  obtain ⟨-, hglyph, hclash⟩ := dynamicRecords_checked
  refine ⟨?_, assemble_clash, ?_⟩
  · obtain ⟨hiff, -, hbinds⟩ := Binding.dynamic_binds_iff assemble_glyph
    have hinj : Set.InjOn Naming.exported glyphPlan.names := by
      rw [← (wellFormed_of_assemble assemble_glyph).nodup_exported_iff, hglyph]
      decide
    obtain ⟨bd, hbd⟩ := hiff.2 hinj
    obtain ⟨-, hlength, hfields⟩ := hbinds bd hbd
    refine ⟨bd, assemble_glyph, hbd, hlength, ?_⟩
    intro i f hf
    obtain ⟨htarget, m, hm, hname, -⟩ := hfields i f hf
    exact ⟨htarget, m, hm, hname⟩
  · have hrepeated : ¬ Set.InjOn Naming.exported clashPlan.names := by
      rw [← (wellFormed_of_assemble assemble_clash).nodup_exported_iff, hclash]
      decide
    obtain ⟨front, f, back, first, hsplit, -, hfirst, -, herror⟩ :=
      (Binding.dynamic_binds_iff assemble_clash).2.1 hrepeated
    exact ⟨front, f, back, first, hsplit, hfirst, herror⟩

end RecordCodec
