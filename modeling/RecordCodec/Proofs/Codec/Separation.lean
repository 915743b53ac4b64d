import RecordCodec.Proofs.Struct.Discovery

/-!
This module contains when the fields of a plan are bound to struct fields of their own. The struct
field for a field is looked up without regard to the other fields, so one that answers to two names
is bound twice. Names that differ in more than case and separators are never answered to by the same
struct field.
-/

namespace RecordCodec

open RecordCodec.Table

theorem Member.folded_eq_of_isFor {m : Member HostType} {a b : String} (ha : m.isFor a = true)
    (hb : m.isFor b = true) : Naming.folded a.toList = Naming.folded b.toList := by
  unfold isFor at ha hb
  dsimp only at ha hb
  rw [Bool.and_eq_true] at ha hb
  cases htag : (Tag.entry m.tag).name == "" with
  | true =>
    rw [htag, if_pos rfl] at ha hb
    rw [← Naming.folded_eq_of_corresponds ha.2, ← Naming.folded_eq_of_corresponds hb.2]
  | false =>
    rw [htag, if_neg Bool.false_ne_true, beq_iff_eq] at ha hb
    rw [← ha.2, ← hb.2]

namespace Plan

def IsUnambiguous (p : Plan) : Prop :=
  ∀ (i j : Nat) f g, i ≠ j → p.fields[i]? = some f → p.fields[j]? = some g →
    ∀ m : Member HostType, m.isFor f.name = true → m.isFor g.name = true →
      f.type.fits m.type = true → g.type.fits m.type = false

theorem isUnambiguous_of_nodup {p : Plan}
    (h : (p.fields.toList.map fun f => Naming.folded f.name.toList).Nodup) : p.IsUnambiguous := by
  intro i j f g hij hf hg m hmf hmg
  rw [← Array.getElem?_toList] at hf hg
  obtain ⟨hi, rfl⟩ := List.getElem?_eq_some_iff.1 hf
  obtain ⟨hj, rfl⟩ := List.getElem?_eq_some_iff.1 hg
  have hfolded := Member.folded_eq_of_isFor hmf hmg
  rw [List.nodup_iff_injective_get] at h
  have hsame := @h ⟨i, by simpa using hi⟩ ⟨j, by simpa using hj⟩ (by simpa using hfolded)
  exact absurd (congrArg Fin.val hsame) hij

def fieldsBut (p : Plan) (a b : String) : List Field :=
  p.fields.toList.filter fun f => f.name != a && f.name != b

/--
Struct fields for a plan of which the last one is for two names, and each other one for the field
that it was made for.
-/
def membersSharing (p : Plan) (a b : String) (m : Member HostType) : List (Member HostType) :=
  (p.fieldsBut a b).map Field.member ++ [m]

variable {p : Plan} {a b : String} {m : Member HostType}

theorem mem_fieldsBut {f : Field} :
    f ∈ p.fieldsBut a b ↔ f ∈ p.fields ∧ f.name ≠ a ∧ f.name ≠ b := by
  simp [fieldsBut]

theorem WellFormed.isIdentifier_of_mem (hp : p.WellFormed) {f : Field} (hf : f ∈ p.fields) :
    Naming.isIdentifier f.name = true := by
  obtain ⟨i, hi⟩ := Array.getElem?_of_mem hf
  exact (hp.isPlaced i f hi).isIdentifier

theorem findIdx?_shared (hp : p.WellFormed) {name : String} (hname : name = a ∨ name = b)
    (hm : m.isFor name = true) :
    (p.membersSharing a b m).findIdx? (·.isFor name) = some (p.fieldsBut a b).length := by
  have hnone : ((p.fieldsBut a b).map Field.member).findIdx? (·.isFor name) = none := by
    rw [List.findIdx?_eq_none_iff]
    intro n hn
    obtain ⟨f, hf, rfl⟩ := List.mem_map.1 hn
    obtain ⟨hmem, hne⟩ := mem_fieldsBut.1 hf
    rw [Field.isFor_member (hp.isIdentifier_of_mem hmem), beq_eq_false_iff_ne]
    rcases hname with rfl | rfl
    · exact hne.1
    · exact hne.2
  unfold membersSharing
  rw [List.findIdx?_append, hnone]
  simp [hm]

theorem exists_findIdx?_of_mem (hp : p.WellFormed) {f : Field} (hf : f ∈ p.fieldsBut a b) :
    ∃ k, (p.membersSharing a b m).findIdx? (·.isFor f.name) = some k ∧
      (p.membersSharing a b m)[k]? = some f.member := by
  have hself : f.member.isFor f.name = true := by
    rw [Field.isFor_member (hp.isIdentifier_of_mem (mem_fieldsBut.1 hf).1), beq_self_eq_true]
  have hexists : ∃ n ∈ (p.fieldsBut a b).map Field.member, n.isFor f.name = true :=
    ⟨f.member, List.mem_map_of_mem hf, hself⟩
  have hfind := List.findIdx?_eq_some_of_exists hexists
  generalize ((p.fieldsBut a b).map Field.member).findIdx (·.isFor f.name) = k at hfind
  obtain ⟨hk, hfor, -⟩ := List.findIdx?_eq_some_iff_getElem.1 hfind
  refine ⟨k, ?_, ?_⟩
  · unfold membersSharing
    rw [List.findIdx?_append, hfind]
    rfl
  · unfold membersSharing
    rw [List.getElem?_append_left hk, List.getElem?_eq_getElem hk]
    obtain ⟨g, hg, hgk⟩ := List.mem_map.1 (List.getElem_mem hk)
    have hgmem := (mem_fieldsBut.1 hg).1
    rw [← hgk, Field.isFor_member (hp.isIdentifier_of_mem hgmem), beq_iff_eq] at hfor
    obtain ⟨i, hi⟩ := Array.getElem?_of_mem hgmem
    obtain ⟨j, hj⟩ := Array.getElem?_of_mem (mem_fieldsBut.1 hf).1
    have hij := hp.index_eq_of_name_eq hi hj hfor
    rw [hij, hj, Option.some_inj] at hi
    rw [← hgk, hi]

end Plan

namespace Binding

variable {p : Plan} {bd : Binding}

theorem Bound.exists_isFor (h : Bound p bd) {i : Nat} {f : Field} (hf : p.fields[i]? = some f) :
    ∃ m, bd.members[bd.targetOf i]? = some m ∧ m.isFor f.name = true ∧
      f.type.fits m.type = true := by
  obtain ⟨t, m, ht, hfind, hm, hfits⟩ := h.target i f hf
  have hfor := List.of_findIdx?_eq_some hfind
  rw [hm] at hfor
  refine ⟨m, ?_, hfor, hfits⟩
  unfold targetOf
  rw [ht]
  exact hm

theorem Bound.targetOf_of_findIdx? (h : Bound p bd) {i k : Nat} {f : Field}
    (hf : p.fields[i]? = some f) (hk : bd.members.findIdx? (·.isFor f.name) = some k) :
    bd.targetOf i = k := by
  obtain ⟨t, m, ht, hfind, -, -⟩ := h.target i f hf
  rw [hk, Option.some_inj] at hfind
  unfold targetOf
  rw [ht, hfind]
  rfl

theorem Bound.isSeparate_of_isUnambiguous (h : Bound p bd) (hp : p.IsUnambiguous) :
    bd.IsSeparate := by
  intro i hi j hj heq
  rw [h.plan] at hi hj
  by_contra hij
  have hf := Array.getElem?_eq_getElem hi
  have hg := Array.getElem?_eq_getElem hj
  obtain ⟨m, hm, hmf, hfitsf⟩ := h.exists_isFor hf
  obtain ⟨n, hn, hng, hfitsg⟩ := h.exists_isFor hg
  rw [← heq, hm, Option.some_inj] at hn
  subst hn
  rw [hp i j _ _ hij hf hg m hmf hng hfitsf] at hfitsg
  contradiction

theorem exists_ofPlan_shared (hp : p.WellFormed) {i j : Nat} {f g : Field} {m : Member HostType}
    (hf : p.fields[i]? = some f) (hg : p.fields[j]? = some g) (hmf : m.isFor f.name = true)
    (hmg : m.isFor g.name = true) (hfitsf : f.type.fits m.type = true)
    (hfitsg : g.type.fits m.type = true) :
    ∃ type bd, ofPlan (some p) (some type) = .ok bd ∧ bd.targetOf i = bd.targetOf j := by
  have hlast : (p.membersSharing f.name g.name m)[(p.fieldsBut f.name g.name).length]? =
      some m := by
    simp [Plan.membersSharing]
  have htarget : ∀ h ∈ p.fields.toList, ∃ k,
      target p.record (p.membersSharing f.name g.name m) h = .ok k := by
    intro h hh
    rw [Array.mem_toList_iff] at hh
    obtain ⟨k, hk⟩ := Array.getElem?_of_mem hh
    by_cases hnames : h.name = f.name ∨ h.name = g.name
    · have heq : h = f ∨ h = g := by
        rcases hnames with hname | hname
        · rw [hp.index_eq_of_name_eq hk hf hname, hf] at hk
          exact .inl (Option.some_inj.1 hk).symm
        · rw [hp.index_eq_of_name_eq hk hg hname, hg] at hk
          exact .inr (Option.some_inj.1 hk).symm
      rcases heq with rfl | rfl
      · exact ⟨_, target_of_findIdx? (Plan.findIdx?_shared hp (.inl rfl) hmf) hlast hfitsf⟩
      · exact ⟨_, target_of_findIdx? (Plan.findIdx?_shared hp (.inr rfl) hmg) hlast hfitsg⟩
    · rw [not_or] at hnames
      obtain ⟨l, hfind, hl⟩ := Plan.exists_findIdx?_of_mem hp (m := m)
        (Plan.mem_fieldsBut.2 ⟨hh, hnames⟩)
      exact ⟨l, target_of_findIdx? hfind hl (fits_member (hp.isPlaced k h hk).isKnown)⟩
  obtain ⟨targets, htargets⟩ := exists_mapM_eq_ok htarget
  have hbind := ofPlan_eq (t := .struct (p.membersSharing f.name g.name m)) rfl p
  rw [htargets] at hbind
  have hbound := bound_of_ofPlan hbind
  refine ⟨_, _, hbind, ?_⟩
  rw [hbound.targetOf_of_findIdx? hf (Plan.findIdx?_shared hp (.inl rfl) hmf),
    hbound.targetOf_of_findIdx? hg (Plan.findIdx?_shared hp (.inr rfl) hmg)]

end Binding

theorem bindings_are_separate_iff {r : Record} {p : Plan} (hp : assemble r = .ok p) :
    ((∀ type bd, Binding.ofPlan (some p) type = .ok bd → bd.IsSeparate ∧
        ∀ (bytes : Array UInt8) (k : Nat) f, p.fields[k]? = some f →
          bd.value (bd.inflate bytes) k =
            f.type.read (Reader.ofBytes bytes) f.slot f.type.default) ↔ p.IsUnambiguous) ∧
      ((p.fields.toList.map fun f => Naming.folded f.name.toList).Nodup → p.IsUnambiguous) := by
  have hwellFormed := wellFormed_of_assemble hp
  refine ⟨⟨?_, ?_⟩, Plan.isUnambiguous_of_nodup⟩
  · intro h i j f g hij hf hg m hmf hmg hfits
    rw [← Bool.not_eq_true]
    intro hfits'
    obtain ⟨type, bd, hbind, hshared⟩ :=
      Binding.exists_ofPlan_shared hwellFormed hf hg hmf hmg hfits hfits'
    obtain ⟨hi, -⟩ := Array.getElem?_eq_some_iff.1 hf
    obtain ⟨hj, -⟩ := Array.getElem?_eq_some_iff.1 hg
    rw [← (Binding.bound_of_ofPlan hbind).plan] at hi hj
    exact hij ((h _ bd hbind).1 i hi j hj hshared)
  · intro h type bd hbind
    have hbound := Binding.bound_of_ofPlan hbind
    have hseparate := hbound.isSeparate_of_isUnambiguous h
    exact ⟨hseparate, fun bytes k f hf => hbound.value_inflate hwellFormed hseparate bytes hf⟩

def vectorMember : Member HostType :=
  ⟨"TVec", .builtin .uint8, "", true⟩

theorem not_separate_twins : assemble twinRecord = .ok twinPlan ∧ ¬ twinPlan.IsUnambiguous ∧
    ¬ ∀ type bd, Binding.ofPlan (some twinPlan) type = .ok bd → bd.IsSeparate ∧
      ∀ (bytes : Array UInt8) (k : Nat) f, twinPlan.fields[k]? = some f →
        bd.value (bd.inflate bytes) k =
          f.type.read (Reader.ofBytes bytes) f.slot f.type.default := by
  have hambiguous : ¬ twinPlan.IsUnambiguous := by
    intro h
    have hfor : vectorMember.isFor "t_vec" = true ∧ vectorMember.isFor "tvec" = true := by
      decide +kernel
    exact Bool.noConfusion (h 0 1 _ _ (by decide) rfl rfl vectorMember hfor.1 hfor.2 rfl)
  exact ⟨assemble_twin, hambiguous,
    fun h => hambiguous ((bindings_are_separate_iff assemble_twin).1.1 h)⟩

end RecordCodec
