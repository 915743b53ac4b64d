import RecordCodec.Proofs.Codec.RoundTrip
import RecordCodec.Proofs.Struct.Spelling
import RecordCodec.Proofs.Text.Folding
import Mathlib.Data.List.Forall2
import Mathlib.Data.List.Nodup

/-!
This module contains the way from a struct type to its record and back: the plan of the record binds
each field to the struct field that it was declared by, as long as names resolve.
-/

namespace RecordCodec

open RecordCodec.Table

def Member.isUntagged (m : Member HostType) : Bool :=
  m.isExported && (Tag.entry m.tag).name == ""

namespace Record

def sources (members : List (Member HostType)) : List Nat :=
  (members.zipIdx.filter fun (m, _) => (declaration? m).isSome).map (·.2)

/--
Whether names lead back to the struct fields that they come from: an untagged struct field answers to
the name derived from its own, and not to the name of a later one.
-/
structure NamesResolve (members : List (Member HostType)) : Prop where
  own : ∀ m ∈ members, m.isUntagged = true →
    Naming.corresponds m.name (Naming.snake m.name) = true
  earlier : ∀ (i j : Nat) m n d, i < j → members[i]? = some m → members[j]? = some n →
    m.isUntagged = true → declaration? n = some d → Naming.corresponds m.name d.name = false

/--
Whether the names of a record are told apart without case and separators, and the names that they
are derived from have neither separators nor the letter whose lower case form is another letter's.
-/
structure HasPlainNames (r : Record) (members : List (Member HostType)) : Prop where
  distinct : (r.fields.map fun d => Naming.folded d.name.toList).Nodup
  letters : ∀ m ∈ members, m.isUntagged = true →
    ∀ c ∈ m.name.toList, Naming.isSeparator c = false ∧ c ≠ 'İ'

/-! Declarations. -/

theorem isExported_of_declaration? {m : Member HostType} {d : Declaration}
    (h : declaration? m = some d) : m.isExported = true ∧ (Tag.entry m.tag).isSkipped = false ∧
      d.name = (if (Tag.entry m.tag).name == "" then Naming.snake m.name
        else (Tag.entry m.tag).name) ∧
      ∃ asChar, d.type = m.type.typeText asChar := by
  unfold declaration? at h
  dsimp only at h
  split at h
  · contradiction
  · next hkept =>
    obtain rfl := Option.some.inj h
    rw [Bool.or_eq_true, not_or, Bool.not_eq_true', Bool.not_eq_false, Bool.not_eq_true] at hkept
    dsimp only
    exact ⟨hkept.1, hkept.2, rfl, (Tag.entry m.tag).options.contains "char", rfl⟩

theorem name_of_isUntagged {m : Member HostType} {d : Declaration} (h : declaration? m = some d)
    (htag : m.isUntagged = true) : d.name = Naming.snake m.name := by
  rw [Member.isUntagged, Bool.and_eq_true] at htag
  rw [(isExported_of_declaration? h).2.2.1, if_pos htag.2]

theorem isFor_of_declaration? {m : Member HostType} {d : Declaration} (h : declaration? m = some d)
    (name : String) : m.isFor name =
      if m.isUntagged then Naming.corresponds m.name name else d.name == name := by
  obtain ⟨hexported, hkept, hname, -⟩ := isExported_of_declaration? h
  unfold Member.isFor Member.isUntagged
  dsimp only
  rw [hexported, hkept, hname]
  cases (Tag.entry m.tag).name == "" with
  | true => rfl
  | false => rfl

theorem exists_declaration?_of_isFor {m : Member HostType} {name : String}
    (h : m.isFor name = true) : ∃ d, declaration? m = some d := by
  unfold Member.isFor at h
  dsimp only at h
  rw [Bool.and_eq_true, Bool.and_eq_true, Bool.not_eq_true'] at h
  unfold declaration?
  dsimp only
  rw [if_neg (by simp [h.1])]
  exact ⟨_, rfl⟩

theorem exists_declaration?_of_isUntagged {m : Member HostType} (h : m.isUntagged = true) :
    ∃ d, declaration? m = some d := by
  rw [Member.isUntagged, Bool.and_eq_true, beq_iff_eq] at h
  unfold declaration? Tag.Entry.isSkipped
  dsimp only
  rw [if_neg (by simp [h])]
  exact ⟨_, rfl⟩

theorem pairwise_sources (members : List (Member HostType)) :
    (sources members).Pairwise (· < ·) := by
  have hsub : (sources members).Sublist (members.zipIdx.map (·.2)) :=
    (List.filter_sublist).map _
  rw [List.zipIdx_map_snd] at hsub
  exact (List.pairwise_lt_range' (s := 0) (n := members.length)).sublist hsub

theorem forall₂_sources_from (members : List (Member HostType)) (start : Nat) :
    List.Forall₂ (fun j d => ∃ i m, j = start + i ∧ members[i]? = some m ∧ declaration? m = some d)
      (((members.zipIdx start).filter fun (m, _) => (declaration? m).isSome).map (·.2))
      (members.filterMap declaration?) := by
  induction members generalizing start with
  | nil => exact .nil
  | cons m ms ih =>
    have hrest := (ih (start + 1)).imp (S := fun j d => ∃ i n, j = start + i ∧
        (m :: ms)[i]? = some n ∧ declaration? n = some d) <| by
      rintro j d ⟨i, n, rfl, hn, hd⟩
      exact ⟨i + 1, n, by omega, hn, hd⟩
    rw [List.zipIdx_cons, List.filter_cons]
    cases hm : declaration? m with
    | none =>
      rw [if_neg (by simp [hm]), List.filterMap_cons_none hm]
      exact hrest
    | some e =>
      rw [if_pos (by simp [hm]), List.map_cons, List.filterMap_cons_some hm]
      exact .cons ⟨0, m, rfl, rfl, hm⟩ hrest

theorem forall₂_sources (members : List (Member HostType)) :
    List.Forall₂ (fun j d => ∃ m, members[j]? = some m ∧ declaration? m = some d)
      (sources members) (members.filterMap declaration?) := by
  apply (forall₂_sources_from members 0).imp
  rintro j d ⟨i, m, rfl, hm, hd⟩
  rw [Nat.zero_add]
  exact ⟨m, hm, hd⟩

/-! Names. -/

theorem name_ne_of_nodup {members : List (Member HostType)} (key : String → α)
    (h : ((members.filterMap declaration?).map fun d => key d.name).Nodup) {i j : Nat}
    {m n : Member HostType} {d e : Declaration} (hij : i < j) (hm : members[i]? = some m)
    (hn : members[j]? = some n) (hd : declaration? m = some d) (he : declaration? n = some e) :
    key d.name ≠ key e.name := by
  rw [List.Nodup, List.pairwise_map, List.pairwise_filterMap, List.pairwise_iff_getElem] at h
  obtain ⟨hi, rfl⟩ := List.getElem?_eq_some_iff.1 hm
  obtain ⟨hj, rfl⟩ := List.getElem?_eq_some_iff.1 hn
  exact h i j hi hj hij d hd e he

theorem HasPlainNames.namesResolve {r : Record} {members : List (Member HostType)}
    (h : r.HasPlainNames members) (hr : r.fields = members.filterMap declaration?) :
    NamesResolve members := by
  have hown : ∀ m ∈ members, m.isUntagged = true →
      Naming.corresponds m.name (Naming.snake m.name) = true := by
    intro m hm htag
    have hletters := h.letters m hm htag
    exact Naming.corresponds_snake (fun hmem => (hletters _ hmem).2 rfl)
      fun c hc => (hletters c hc).1
  refine ⟨hown, ?_⟩
  intro i j m n e hij hm hn htag he
  rw [← Bool.not_eq_true]
  intro hcorresponds
  have hself := hown m (List.mem_of_getElem? hm) htag
  obtain ⟨d, hd⟩ := exists_declaration?_of_isUntagged htag
  have hdistinct := h.distinct
  rw [hr] at hdistinct
  apply name_ne_of_nodup (fun name => Naming.folded name.toList) hdistinct hij hm hn hd he
  rw [name_of_isUntagged hd htag, ← Naming.folded_eq_of_corresponds hself,
    Naming.folded_eq_of_corresponds hcorresponds]

theorem NamesResolve.findIdx? {members : List (Member HostType)} (h : NamesResolve members)
    (hnodup : ((members.filterMap declaration?).map (·.name)).Nodup) {j : Nat}
    {m : Member HostType} {d : Declaration} (hm : members[j]? = some m)
    (hd : declaration? m = some d) : members.findIdx? (·.isFor d.name) = some j := by
  rw [List.findIdx?_eq_some_iff_getElem]
  obtain ⟨hj, hmj⟩ := List.getElem?_eq_some_iff.1 hm
  refine ⟨hj, ?_, ?_⟩
  · rw [hmj, isFor_of_declaration? hd]
    split
    · next htag =>
      rw [name_of_isUntagged hd htag]
      exact h.own m (List.mem_of_getElem? hm) htag
    · exact beq_self_eq_true _
  · intro i hij hfor
    have hi := List.getElem?_eq_getElem (Nat.lt_trans hij hj)
    obtain ⟨e, he⟩ := exists_declaration?_of_isFor hfor
    rw [isFor_of_declaration? he] at hfor
    split at hfor
    · next htag =>
      rw [h.earlier i j _ m d hij hi hm htag hd] at hfor
      contradiction
    · exact name_ne_of_nodup id hnodup hij hi hm he hd (beq_iff_eq.1 hfor)

end Record

namespace Binding

theorem target_of_findIdx? {record : String} {members : List (Member HostType)} {f : Field} {j : Nat}
    {m : Member HostType} (h : members.findIdx? (·.isFor f.name) = some j)
    (hm : members[j]? = some m) (hfits : f.type.fits m.type = true) :
    target record members f = .ok j := by
  unfold target
  rw [h]
  dsimp only
  rw [hm]
  dsimp only
  rw [if_pos hfits]

theorem ofPlan_eq {t : HostType} {members : List (Member HostType)}
    (hmembers : t.members? = some members) (p : Plan) :
    ofPlan (some p) (some t) = (p.fields.toList.mapM (target p.record members)).map
      fun targets => ⟨p, t, members, targets.toArray⟩ := by
  unfold ofPlan
  dsimp only
  rw [Option.bind_some, hmembers, Option.map_some]
  dsimp only
  cases p.fields.toList.mapM (target p.record members) with
  | error f => rfl
  | ok targets => rfl

theorem ofPlan_of_namesResolve {t : HostType} {r : Record} {p : Plan}
    {members : List (Member HostType)} (hmembers : t.members? = some members)
    (hspelled : ∀ m ∈ members, m.type.isWellSpelled = true)
    (hr : r.fields = members.filterMap Record.declaration?) (hp : assemble r = .ok p)
    (h : Record.NamesResolve members) :
    ofPlan (some p) (some t) = .ok ⟨p, t, members, (Record.sources members).toArray⟩ := by
  have hplan := isPlanOf_of_assemble hp
  have hnodup := (exists_assemble_iff.1 ⟨p, hp⟩).nodup
  rw [hr] at hnodup
  have htargets : p.fields.toList.mapM (target p.record members) =
      .ok (Record.sources members) := by
    apply mapM_eq_ok_iff.2
    obtain ⟨hlength, hsources⟩ := List.forall₂_iff_get.1 (Record.forall₂_sources members)
    rw [List.forall₂_iff_get]
    refine ⟨by rw [Array.length_toList, hplan.size, hlength, hr], ?_⟩
    intro k hk hsource
    have hdeclared := hlength ▸ hsource
    obtain ⟨m, hm, hd⟩ := hsources k hsource hdeclared
    obtain ⟨f, hf, hname, -, htype, -, -⟩ := hplan.declared k
      (members.filterMap Record.declaration?)[k] (by rw [hr, List.getElem?_eq_getElem hdeclared])
    have hfits : f.type.fits m.type = true := by
      obtain ⟨-, -, -, asChar, htext⟩ := Record.isExported_of_declaration? hd
      apply HostType.fits_of_typeText (hspelled m (List.mem_of_getElem? hm)) asChar
      rw [← htext]
      exact classify_eq_ok_iff.1 htype
    obtain ⟨_, hfield⟩ := Array.getElem?_eq_some_iff.1 hf
    rw [List.get_eq_getElem, Array.getElem_toList, hfield]
    apply target_of_findIdx? _ hm hfits
    rw [hname]
    exact h.findIdx? hnodup hm hd
  rw [ofPlan_eq hmembers, htargets]
  rfl

theorem targetOf_sources {p : Plan} {t : HostType} {members : List (Member HostType)} {k j : Nat}
    (hj : (Record.sources members)[k]? = some j) :
    targetOf ⟨p, t, members, (Record.sources members).toArray⟩ k = j := by
  unfold targetOf
  rw [List.getElem?_toArray, hj]
  rfl

theorem isSeparate_sources {p : Plan} {t : HostType} {members : List (Member HostType)}
    (hlength : p.fields.size = (Record.sources members).length) :
    IsSeparate ⟨p, t, members, (Record.sources members).toArray⟩ := by
  intro i hi j hj heq
  dsimp only at hi hj
  rw [hlength] at hi hj
  rw [targetOf_sources (List.getElem?_eq_getElem hi),
    targetOf_sources (List.getElem?_eq_getElem hj)] at heq
  have hnodup := (Record.pairwise_sources members).imp fun h => Nat.ne_of_lt h
  exact (List.Nodup.getElem_inj_iff hnodup).1 heq

end Binding

theorem Record.fields_of_ofHostType {t : HostType} {r : Record}
    {members : List (Member HostType)} (hmembers : t.pointee.members? = some members)
    (h : Record.ofHostType (some t) = .ok r) :
    r.fields = members.filterMap declaration? := by
  unfold ofHostType at h
  rw [Option.map_some] at h
  dsimp only at h
  rw [Option.bind_some, hmembers, Option.map_some] at h
  dsimp only at h
  split at h
  · cases h
    rfl
  · contradiction

theorem discovered_record_binds {t : HostType} {r : Record} {p : Plan}
    {members : List (Member HostType)} (hmembers : t.pointee.members? = some members)
    (hspelled : ∀ m ∈ members, m.type.isWellSpelled = true)
    (hr : Record.ofHostType (some t) = .ok r) (hp : assemble r = .ok p) :
    (r.HasPlainNames members → Record.NamesResolve members) ∧
      (Record.NamesResolve members → ∃ bd, Binding.ofPlan (some p) (some t.pointee) = .ok bd ∧
        bd.targets.toList = Record.sources members ∧
        (p.layout.size ≤ 65528 → ∀ struct b, bd.isStruct struct = true →
          bd.flatten struct b ≠ .error .tooLarge → ∃ b' bytes, bd.flatten struct b = .ok b' ∧
            b'.finishedBytes = .ok bytes ∧ ∀ (k : Nat) f j, p.fields[k]? = some f →
              (Record.sources members)[k]? = some j →
              (bd.inflate bytes.toArray)[j]? = struct[j]?.map f.type.canonical)) := by
  have hfields := Record.fields_of_ofHostType hmembers hr
  refine ⟨fun hplain => hplain.namesResolve hfields, ?_⟩
  intro hresolve
  have hbind := Binding.ofPlan_of_namesResolve hmembers hspelled hfields hp hresolve
  refine ⟨_, hbind, rfl, ?_⟩
  intro hsize struct b hstruct hgrowth
  have hwellFormed := wellFormed_of_assemble hp
  have hbound := Binding.bound_of_ofPlan hbind
  have hlength : p.fields.size = (Record.sources members).length := by
    rw [(isPlanOf_of_assemble hp).size, hfields, (Record.forall₂_sources members).length_eq]
  obtain ⟨b', bytes, hflatten, hbytes, hread, -⟩ :=
    hbound.exists_decodable hwellFormed hsize hstruct hgrowth
  refine ⟨b', bytes, hflatten, hbytes, ?_⟩
  intro k f j hf hj
  have hseparate := Binding.isSeparate_sources (t := t.pointee) hlength
  have hinflated := (hbound.filling_inflate hwellFormed hseparate bytes.toArray).isStruct
  have hnew := hbound.getElem?_target hinflated hf
  have hold := hbound.getElem?_target hstruct hf
  rw [Binding.targetOf_sources hj] at hnew hold
  rw [hnew, hold, Option.map_some, hbound.value_inflate hwellFormed hseparate _ hf, hread k f hf]

/-! Examples. -/

theorem Record.ofHostType_named (name : String) (members : List (Member HostType)) :
    Record.ofHostType (some (.named name (.struct members))) =
      .ok ⟨String.ofList (HostType.name?.unqualified name.toList),
        members.filterMap declaration?⟩ :=
  rfl

def accountMembers : List (Member HostType) := [
  ⟨"ID", .builtin .uint64, "", true⟩,
  ⟨"Secret", .builtin .bool, "lb:\"-\"", true⟩,
  ⟨"Tags", .slice (.builtin .string), "lb:\"labels\"", true⟩,
  ⟨"lock", .other "chan int", "", false⟩,
  ⟨"Initials", .slice (.named "main.Letter" (.builtin .int32)), "lb:\",char\"", true⟩,
  ⟨"HTTPCode", .pointer (.builtin .uint16), "", true⟩]

def accountRecord : Record where
  name := "Account"
  fields := [⟨"id", "u64"⟩, ⟨"labels", "list<string>"⟩, ⟨"initials", "list<char>"⟩,
    ⟨"http_code", "option<u16>"⟩]

theorem accountMembers_checked :
    accountMembers.filterMap Record.declaration? = accountRecord.fields ∧
    (∀ m ∈ accountMembers, m.isUntagged = true →
      m.name.toList.all (fun c => !Naming.isSeparator c && c != 'İ') = true) ∧
    (accountRecord.fields.map fun d => Naming.folded d.name.toList).Nodup ∧
    (∀ m ∈ accountMembers, m.type.isWellSpelled = true) ∧
    Record.sources accountMembers = [0, 2, 4, 5] := by
  decide +kernel

theorem ofHostType_account : Record.ofHostType (some (.named "main.Account" (.struct accountMembers))) =
    .ok accountRecord := by
  have hname : HostType.name?.unqualified "main.Account".toList = "Account".toList := by decide
  rw [Record.ofHostType_named, hname, accountMembers_checked.1]
  rfl

theorem assemble_account : assemble accountRecord = .ok (Plan.ofFields "Account" (fieldsFrom 0
    accountRecord.fields [.ofScalar .u64, .sequence .ofText, .sequence (.ofScalar .char),
      .optional (.ofScalar .u16)])) :=
  assemble_of_names (by decide)

theorem discovered_record_binds_account : ∃ p bd, assemble accountRecord = .ok p ∧
    Record.ofHostType (some (.named "main.Account" (.struct accountMembers))) =
      .ok accountRecord ∧ accountRecord.HasPlainNames accountMembers ∧
    Binding.ofPlan (some p) (some (.named "main.Account" (.struct accountMembers))) = .ok bd ∧
    bd.targets.toList = [0, 2, 4, 5] := by
  obtain ⟨-, hletters, hnodup, hspelled, hsources⟩ := accountMembers_checked
  have hplain : accountRecord.HasPlainNames accountMembers := by
    refine ⟨hnodup, fun m hm huntagged c hc => ?_⟩
    simpa using List.all_eq_true.1 (hletters m hm huntagged) c hc
  obtain ⟨hresolve, hbinds⟩ :=
    discovered_record_binds rfl hspelled ofHostType_account assemble_account
  obtain ⟨bd, hbind, htargets, -⟩ := hbinds (hresolve hplain)
  exact ⟨_, bd, assemble_account, ofHostType_account, hplain, hbind, htargets.trans hsources⟩

def twinMembers : List (Member HostType) := [
  ⟨"TVec", .builtin .uint8, "", true⟩, ⟨"Tvec", .builtin .uint8, "", true⟩]

def twinRecord : Record where
  name := "Twin"
  fields := [⟨"t_vec", "u8"⟩, ⟨"tvec", "u8"⟩]

def twinPlan : Plan :=
  Plan.ofFields "Twin" (fieldsFrom 0 twinRecord.fields [.ofScalar .u8, .ofScalar .u8])

def wordsMembers : List (Member HostType) := [⟨"Foo_BarBaz", .builtin .uint8, "", true⟩]

def wordsRecord : Record where
  name := "Words"
  fields := [⟨"foo_bar_baz", "u8"⟩]

def wordsPlan : Plan :=
  Plan.ofFields "Words" (fieldsFrom 0 wordsRecord.fields [.ofScalar .u8])

theorem strayMembers_checked :
    (twinMembers.filterMap Record.declaration? = twinRecord.fields ∧
      twinMembers.findIdx? (·.isFor "t_vec") = some 0 ∧
      twinMembers.findIdx? (·.isFor "tvec") = some 0 ∧ Record.sources twinMembers = [0, 1]) ∧
    wordsMembers.filterMap Record.declaration? = wordsRecord.fields ∧
    wordsMembers.findIdx? (·.isFor "foo_bar_baz") = none := by
  decide +kernel

theorem ofHostType_twin : Record.ofHostType (some (.named "main.Twin" (.struct twinMembers))) =
    .ok twinRecord := by
  have hname : HostType.name?.unqualified "main.Twin".toList = "Twin".toList := by decide
  rw [Record.ofHostType_named, hname, strayMembers_checked.1.1]
  rfl

theorem ofHostType_words : Record.ofHostType (some (.named "main.Words" (.struct wordsMembers))) =
    .ok wordsRecord := by
  have hname : HostType.name?.unqualified "main.Words".toList = "Words".toList := by decide
  rw [Record.ofHostType_named, hname, strayMembers_checked.2.1]
  rfl

theorem assemble_twin : assemble twinRecord = .ok twinPlan :=
  assemble_of_names (by decide)

theorem assemble_words : assemble wordsRecord = .ok wordsPlan :=
  assemble_of_names (by decide)

theorem ofPlan_twin :
    Binding.ofPlan (some twinPlan) (some (.named "main.Twin" (.struct twinMembers))) =
      .ok ⟨twinPlan, .named "main.Twin" (.struct twinMembers), twinMembers, #[0, 0]⟩ := by
  obtain ⟨-, hfirst, hsecond, -⟩ := strayMembers_checked.1
  have htargets : twinPlan.fields.toList.mapM (Binding.target "Twin" twinMembers) = .ok [0, 0] := by
    apply mapM_eq_ok_iff.2
    refine .cons ?_ (.cons ?_ .nil)
    · exact Binding.target_of_findIdx? hfirst rfl rfl
    · exact Binding.target_of_findIdx? hsecond rfl rfl
  rw [Binding.ofPlan_eq rfl]
  exact congrArg (Except.map _) htargets

theorem ofPlan_words :
    Binding.ofPlan (some wordsPlan) (some (.named "main.Words" (.struct wordsMembers))) =
      .error (.fieldMissing .bind "Words" "foo_bar_baz") := by
  have hnone := strayMembers_checked.2.2
  have htarget (f : Field) (hf : f.name = "foo_bar_baz") :
      Binding.target "Words" wordsMembers f = .error (.fieldMissing .bind "Words" f.name) := by
    unfold Binding.target
    rw [hf, hnone]
  have htargets : wordsPlan.fields.toList.mapM (Binding.target "Words" wordsMembers) =
      .error (.fieldMissing .bind "Words" "foo_bar_baz") := by
    change List.mapM _ [_] = _
    rw [List.mapM_cons, htarget _ rfl]
    rfl
  rw [Binding.ofPlan_eq rfl]
  exact congrArg (Except.map _) htargets

theorem discovered_names_astray :
    (∃ p bd, Record.ofHostType (some (.named "main.Twin" (.struct twinMembers))) =
        .ok twinRecord ∧ assemble twinRecord = .ok p ∧
      Binding.ofPlan (some p) (some (.named "main.Twin" (.struct twinMembers))) = .ok bd ∧
      Record.sources twinMembers = [0, 1] ∧ bd.targets.toList = [0, 0]) ∧
    ∃ p, Record.ofHostType (some (.named "main.Words" (.struct wordsMembers))) =
        .ok wordsRecord ∧ assemble wordsRecord = .ok p ∧
      Binding.ofPlan (some p) (some (.named "main.Words" (.struct wordsMembers))) =
        .error (.fieldMissing .bind "Words" "foo_bar_baz") :=
  ⟨⟨twinPlan, _, ofHostType_twin, assemble_twin, ofPlan_twin, strayMembers_checked.1.2.2.2, rfl⟩,
    wordsPlan, ofHostType_words, assemble_words, ofPlan_words⟩

end RecordCodec
