import RecordCodec.Proofs.Codec.Separation

/-!
This module contains the order in which struct fields are preferred for a declared name: one whose tag
has the name, then one with the same name up to case, then one with the same name without separators.
The struct field of a field is the first one that answers to its name in any of these ways, so it is
the preferred one if and only if no later struct field answers better.
-/

namespace RecordCodec

open RecordCodec.Text

namespace Member

def isTaggedWith (m : Member HostType) (name : String) : Bool :=
  let entry := Tag.entry m.tag
  m.isExported && !entry.isSkipped && entry.name != "" && entry.name == name

def isNamed (m : Member HostType) (name : String) : Bool :=
  m.isUntagged && equalFold m.name.toList name.toList

def isNamedJoined (m : Member HostType) (name : String) : Bool :=
  m.isUntagged && equalFold m.name.toList (name.toList.filter (!Naming.isSeparator ·))

def rank (m : Member HostType) (name : String) : Nat :=
  if m.isTaggedWith name then 0
  else if m.isNamed name then 1
  else if m.isNamedJoined name then 2
  else 3

theorem isFor_eq (m : Member HostType) (name : String) :
    m.isFor name = (m.isTaggedWith name || m.isNamed name || m.isNamedJoined name) := by
  unfold isFor isTaggedWith isNamed isNamedJoined isUntagged Naming.corresponds Tag.Entry.isSkipped
  dsimp only
  cases hempty : (Tag.entry m.tag).name == "" with
  | true =>
    -- a tag without a name skips nothing
    rw [beq_iff_eq.1 hempty]
    cases m.isExported with
    | true => simp
    | false => simp
  | false => simp [bne, hempty]

theorem isFor_iff_rank (m : Member HostType) (name : String) :
    m.isFor name = true ↔ m.rank name < 3 := by
  rw [isFor_eq]
  unfold rank
  cases m.isTaggedWith name with
  | true => simp
  | false =>
    cases m.isNamed name with
    | true => simp
    | false =>
      cases m.isNamedJoined name with
      | true => simp
      | false => simp

end Member

/--
The position of the struct field that is preferred for a name: the first one with the name in its tag,
else the first one with the name up to case, else the first one with the name without separators.
-/
def preferred (members : List (Member HostType)) (name : String) : Option Nat :=
  (members.findIdx? (·.isTaggedWith name)).or <|
    (members.findIdx? (·.isNamed name)).or (members.findIdx? (·.isNamedJoined name))

def IsUncontested (members : List (Member HostType)) (name : String) : Prop :=
  ∀ i m, members.findIdx? (·.isFor name) = some i → members[i]? = some m →
    ∀ n ∈ members, m.rank name ≤ n.rank name

/-! The preferred struct field has the best rank. -/

section

variable {members : List (Member HostType)} {name : String}

structure IsFirstBest (members : List (Member HostType)) (name : String) (i : Nat)
    (m : Member HostType) : Prop where
  member : members[i]? = some m
  answers : m.isFor name = true
  best : ∀ n ∈ members, m.rank name ≤ n.rank name
  first : ∀ j n, j < i → members[j]? = some n → m.rank name < n.rank name

theorem isFirstBest_of_findIdx? (level : Nat) {test : Member HostType → Bool} {i : Nat}
    (hlevel : level < 3)
    (hpass : ∀ n ∈ members, test n = true → n.rank name = level)
    (hfail : ∀ n ∈ members, test n = false → level < n.rank name)
    (h : members.findIdx? test = some i) : ∃ m, IsFirstBest members name i m := by
  obtain ⟨hi, htest, hbefore⟩ := List.findIdx?_eq_some_iff_getElem.1 h
  have hrank := hpass _ (List.getElem_mem hi) htest
  refine ⟨members[i], List.getElem?_eq_getElem hi, ?_, ?_, ?_⟩
  · rw [Member.isFor_iff_rank, hrank]
    exact hlevel
  · intro n hn
    rw [hrank]
    cases hn' : test n with
    | true => exact Nat.le_of_eq (hpass n hn hn').symm
    | false => exact Nat.le_of_lt (hfail n hn hn')
  · intro j n hj hn
    obtain ⟨hlt, rfl⟩ := List.getElem?_eq_some_iff.1 hn
    rw [hrank]
    exact hfail _ (List.getElem_mem hlt) (Bool.eq_false_iff.2 (hbefore j hj))

theorem exists_isFirstBest_of_preferred {i : Nat} (h : preferred members name = some i) :
    ∃ m, IsFirstBest members name i m := by
  unfold preferred at h
  rw [Option.or_eq_some_iff, Option.or_eq_some_iff] at h
  -- one case for each way of answering, in which nothing answers in a better way
  obtain htag | ⟨htag, hname | ⟨hname, hjoined⟩⟩ := h
  · apply isFirstBest_of_findIdx? 0 (by decide) _ _ htag
    · intro n _ hn
      simp [Member.rank, hn]
    · intro n _ hn
      unfold Member.rank
      grind
  · rw [List.findIdx?_eq_none_iff] at htag
    apply isFirstBest_of_findIdx? 1 (by decide) _ _ hname
    · intro n hmem hn
      simp [Member.rank, htag n hmem, hn]
    · intro n hmem hn
      unfold Member.rank
      grind
  · rw [List.findIdx?_eq_none_iff] at htag hname
    apply isFirstBest_of_findIdx? 2 (by decide) _ _ hjoined
    · intro n hmem hn
      simp [Member.rank, htag n hmem, hname n hmem, hn]
    · intro n hmem hn
      simp [Member.rank, htag n hmem, hname n hmem, hn]

theorem preferred_eq_none_iff :
    preferred members name = none ↔ members.findIdx? (·.isFor name) = none := by
  unfold preferred
  simp only [Option.or_eq_none_iff, List.findIdx?_eq_none_iff, Member.isFor_eq, Bool.or_eq_false_iff]
  constructor
  · rintro ⟨htag, hname, hjoined⟩ m hm
    exact ⟨⟨htag m hm, hname m hm⟩, hjoined m hm⟩
  · intro h
    exact ⟨fun m hm => (h m hm).1.1, fun m hm => (h m hm).1.2, fun m hm => (h m hm).2⟩

theorem IsFirstBest.eq {i j : Nat} {m n : Member HostType} (hi : IsFirstBest members name i m)
    (hj : IsFirstBest members name j n) : i = j := by
  rcases Nat.lt_trichotomy i j with hlt | heq | hlt
  · have := hj.first i m hlt hi.member
    have := hi.best n (List.mem_of_getElem? hj.member)
    omega
  · exact heq
  · have := hi.first j n hlt hj.member
    have := hj.best m (List.mem_of_getElem? hi.member)
    omega

theorem IsUncontested.isFirstBest (h : IsUncontested members name) {i : Nat}
    (hi : members.findIdx? (·.isFor name) = some i) : ∃ m, IsFirstBest members name i m := by
  obtain ⟨hlt, hfor, hbefore⟩ := List.findIdx?_eq_some_iff_getElem.1 hi
  have hm := List.getElem?_eq_getElem hlt
  refine ⟨members[i], hm, hfor, h i _ hi hm, ?_⟩
  intro j n hj hn
  obtain ⟨hjlt, rfl⟩ := List.getElem?_eq_some_iff.1 hn
  have hsilent := hbefore j hj
  rw [Member.isFor_iff_rank] at hfor hsilent
  omega

theorem findIdx?_eq_preferred_iff :
    members.findIdx? (·.isFor name) = preferred members name ↔ IsUncontested members name := by
  constructor
  · intro heq i m hi hm
    rw [hi] at heq
    obtain ⟨n, hbest⟩ := exists_isFirstBest_of_preferred heq.symm
    rw [hbest.member, Option.some_inj] at hm
    subst hm
    exact hbest.best
  · intro h
    cases hfound : members.findIdx? (·.isFor name) with
    | none => rw [preferred_eq_none_iff.2 hfound]
    | some i =>
      obtain ⟨m, hm⟩ := h.isFirstBest hfound
      cases hpreferred : preferred members name with
      | none =>
        rw [preferred_eq_none_iff.1 hpreferred] at hfound
        contradiction
      | some j =>
        obtain ⟨n, hn⟩ := exists_isFirstBest_of_preferred hpreferred
        rw [hm.eq hn]

end

namespace Binding

variable {p : Plan} {t : HostType} {members : List (Member HostType)}

theorem target_eq_fieldMissing {record name : String} {f : Field}
    (h : target record members f = .error (.fieldMissing .bind record name)) :
    f.name = name ∧ members.findIdx? (·.isFor f.name) = none := by
  have hpath {other : String} (heq : (Except.error (.fieldMissing .bind record other) :
      Except Fault Nat) = .error (.fieldMissing .bind record name)) : other = name := by
    have := congrArg Fault.path (Except.error.inj heq)
    exact (List.cons.inj this).1
  unfold target at h
  split at h
  · next hnone => exact ⟨hpath h, hnone⟩
  · next i hi =>
    obtain ⟨hlt, -⟩ := List.findIdx?_eq_some_iff_getElem.1 hi
    rw [List.getElem?_eq_getElem hlt] at h
    dsimp only at h
    split at h
    · contradiction
    · have hkind : FaultKind.typeMismatch = .fieldMissing :=
        congrArg Fault.kind (Except.error.inj h)
      contradiction

theorem target_of_findIdx?_eq_none {record : String} {f : Field}
    (h : members.findIdx? (·.isFor f.name) = none) :
    target record members f = .error (.fieldMissing .bind record f.name) := by
  unfold target
  rw [h]

theorem ofPlan_eq_fieldMissing_iff (hmembers : t.members? = some members) {front back : List Field}
    {f : Field} (hfields : p.fields.toList = front ++ f :: back)
    (hfront : ∃ targets, front.mapM (target p.record members) = .ok targets) :
    ofPlan (some p) (some t) = .error (.fieldMissing .bind p.record f.name) ↔
      members.findIdx? (·.isFor f.name) = none := by
  rw [ofPlan_eq hmembers]
  constructor
  · intro h
    cases htargets : p.fields.toList.mapM (target p.record members) with
    | ok targets =>
      rw [htargets] at h
      contradiction
    | error e =>
      rw [htargets] at h
      cases h
      obtain ⟨g, -, hg⟩ := exists_of_mapM_eq_error htargets
      obtain ⟨hname, hnone⟩ := target_eq_fieldMissing hg
      rwa [hname] at hnone
  · intro h
    obtain ⟨targets, htargets⟩ := hfront
    rw [hfields, List.mapM_append, htargets, List.mapM_cons, target_of_findIdx?_eq_none h]
    rfl

theorem members_of_ofPlan (hmembers : t.members? = some members) {bd : Binding}
    (h : ofPlan (some p) (some t) = .ok bd) : bd.members = members := by
  rw [ofPlan_eq hmembers] at h
  cases htargets : p.fields.toList.mapM (target p.record members) with
  | error e =>
    rw [htargets] at h
    contradiction
  | ok targets =>
    rw [htargets] at h
    cases h
    rfl

end Binding

theorem binding_follows_priority_iff {t : HostType} {members : List (Member HostType)}
    (hmembers : t.members? = some members) (p : Plan) :
    (∀ bd, Binding.ofPlan (some p) (some t) = .ok bd → ∀ (i : Nat) f, p.fields[i]? = some f →
      (preferred members f.name = some (bd.targetOf i) ↔ IsUncontested members f.name)) ∧
    ∀ front f back, p.fields.toList = front ++ f :: back →
      (∃ targets, front.mapM (Binding.target p.record members) = .ok targets) →
      (Binding.ofPlan (some p) (some t) = .error (.fieldMissing .bind p.record f.name) ↔
        preferred members f.name = none) := by
  constructor
  · intro bd hbind i f hf
    have hbound := Binding.bound_of_ofPlan hbind
    obtain ⟨k, -, -, hk, -, -⟩ := hbound.target i f hf
    rw [hbound.targetOf_of_findIdx? hf hk, ← findIdx?_eq_preferred_iff,
      ← Binding.members_of_ofPlan hmembers hbind, hk]
    exact eq_comm
  · intro front f back hfields hfront
    rw [preferred_eq_none_iff]
    exact Binding.ofPlan_eq_fieldMissing_iff hmembers hfields hfront

/-! Contested names. -/

def loginMembers : List (Member HostType) := [
  ⟨"Name", .builtin .uint8, "", true⟩, ⟨"Alias", .builtin .uint8, "lb:\"name\"", true⟩]

def loginPlan : Plan :=
  Plan.ofFields "Login" (fieldsFrom 0 [⟨"name", "u8"⟩] [.ofScalar .u8])

def spacedMembers : List (Member HostType) := [
  ⟨"TVec", .builtin .uint8, "", true⟩, ⟨"T_Vec", .builtin .uint8, "", true⟩]

def spacedPlan : Plan :=
  Plan.ofFields "Spaced" (fieldsFrom 0 [⟨"t_vec", "u8"⟩] [.ofScalar .u8])

theorem contestedMembers_checked :
    (loginMembers.findIdx? (·.isFor "name") = some 0 ∧ preferred loginMembers "name" = some 1) ∧
    spacedMembers.findIdx? (·.isFor "t_vec") = some 0 ∧
    preferred spacedMembers "t_vec" = some 1 := by
  decide +kernel

theorem ofPlan_of_single (record : String) {name : String} {members : List (Member HostType)}
    {m : Member HostType} (hfound : members.findIdx? (·.isFor name) = some 0)
    (hm : members[0]? = some m) (hfits : (FieldType.ofScalar .u8).fits m.type = true) :
    Binding.ofPlan (some (Plan.ofFields record (fieldsFrom 0 [⟨name, "u8"⟩] [.ofScalar .u8])))
      (some (.struct members)) = .ok ⟨Plan.ofFields record
        (fieldsFrom 0 [⟨name, "u8"⟩] [.ofScalar .u8]), .struct members, members, #[0]⟩ := by
  have htargets : (fieldsFrom 0 [⟨name, "u8"⟩] [.ofScalar .u8]).mapM
      (Binding.target record members) = .ok [0] := by
    apply mapM_eq_ok_iff.2
    exact .cons (Binding.target_of_findIdx? hfound hm hfits) .nil
  rw [Binding.ofPlan_eq rfl]
  exact congrArg (Except.map _) htargets

theorem not_isUncontested_login_spaced :
    (∃ bd, Binding.ofPlan (some loginPlan) (some (.struct loginMembers)) = .ok bd ∧
      bd.targetOf 0 = 0 ∧ preferred loginMembers "name" = some 1 ∧
      ¬ IsUncontested loginMembers "name") ∧
    ∃ bd, Binding.ofPlan (some spacedPlan) (some (.struct spacedMembers)) = .ok bd ∧
      bd.targetOf 0 = 0 ∧ preferred spacedMembers "t_vec" = some 1 ∧
      ¬ IsUncontested spacedMembers "t_vec" := by
  obtain ⟨⟨hlogin, hlogin'⟩, hspaced, hspaced'⟩ := contestedMembers_checked
  have hbind := ofPlan_of_single "Login" hlogin rfl rfl
  have hbind' := ofPlan_of_single "Spaced" hspaced rfl rfl
  refine ⟨⟨_, hbind, rfl, hlogin', ?_⟩, _, hbind', rfl, hspaced', ?_⟩
  · intro h
    have hfirst := ((binding_follows_priority_iff rfl loginPlan).1 _ hbind 0
      ⟨"name", "u8", .ofScalar .u8, 0, Layout.slot 0⟩ rfl).2 h
    exact absurd (hfirst.symm.trans hlogin') (by decide)
  · intro h
    have hfirst := ((binding_follows_priority_iff rfl spacedPlan).1 _ hbind' 0
      ⟨"t_vec", "u8", .ofScalar .u8, 0, Layout.slot 0⟩ rfl).2 h
    exact absurd (hfirst.symm.trans hspaced') (by decide)

end RecordCodec
