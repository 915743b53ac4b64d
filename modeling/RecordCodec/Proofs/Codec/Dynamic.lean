import RecordCodec.Codec.Dynamic
import RecordCodec.Proofs.Codec.Bound
import RecordCodec.Proofs.Text.Names
import RecordCodec.Proofs.Text.Quoting

/-!
This module contains the bindings to struct types made for plans: their tags name the declared
fields, so the struct fields are those of the plan, in the same order.
-/

namespace RecordCodec

open RecordCodec.Table RecordCodec.Text

namespace Tag

theorem closing?_of_all {name : List Char} (h : ∀ c ∈ name, c ≠ '"' ∧ c ≠ '\\') :
    closing? (name ++ ['"']) = some (name ++ ['"'], []) := by
  induction name with
  | nil => rfl
  | cons c cs ih =>
    have hc := h c (List.mem_cons_self ..)
    have hcs := ih (fun d hd => h d (List.mem_cons_of_mem _ hd))
    rw [List.cons_append, closing?]
    · rw [hcs]
      rfl
    · exact hc.1
    · intro _ _ hback
      exact absurd hback hc.2

theorem unquoteDouble?_of_all {name : List Char} {fuel : Nat} (hfuel : name.length < fuel)
    (h : ∀ c ∈ name, c ≠ '"' ∧ c ≠ '\\' ∧ c ≠ '\n') :
    unquoteDouble? fuel (name ++ ['"']) = some (name.flatMap utf8Char) := by
  induction name generalizing fuel with
  | nil =>
    cases fuel with
    | zero => exact absurd hfuel (Nat.not_lt_zero _)
    | succ fuel => rfl
  | cons c cs ih =>
    cases fuel with
    | zero => exact absurd hfuel (Nat.not_lt_zero _)
    | succ fuel =>
      have hc := h c (List.mem_cons_self ..)
      have hcs := ih (Nat.lt_of_succ_lt_succ hfuel) (fun d hd => h d (List.mem_cons_of_mem _ hd))
      rw [List.cons_append, unquoteDouble?, if_neg (by simpa using hc.1),
        if_neg (by simpa using hc.2.2), if_neg (by simpa using hc.2.1), hcs, List.flatMap_cons]
      rfl

theorem get_of_all {name : String} (h : ∀ c ∈ name.toList, c ≠ '"' ∧ c ≠ '\\' ∧ c ≠ '\n') :
    get (key ++ ":\"" ++ name ++ "\"") key = name := by
  have hclosing := closing?_of_all (fun c hc => ⟨(h c hc).1, (h c hc).2.1⟩)
  have htag : (key ++ ":\"" ++ name ++ "\"").toList =
      'l' :: 'b' :: ':' :: '"' :: (name.toList ++ ['"']) := by
    unfold key
    simp [String.toList_append]
  have hlength : name.toList.length < (name.toList ++ ['"']).length + 1 := by
    rw [List.length_append]
    omega
  have hunquote : unquote? (String.ofList ('"' :: (name.toList ++ ['"']))) = some name := by
    unfold unquote?
    rw [String.toList_ofList]
    dsimp only
    rw [if_pos (by decide), unquoteDouble?_of_all hlength h, Option.map_some, showBytes_flatMap,
      String.ofList_toList]
  have htake : ('l' :: 'b' :: ':' :: '"' :: (name.toList ++ ['"'])).takeWhile isKeyChar =
      key.toList := by
    rw [List.takeWhile_cons_of_pos (by decide), List.takeWhile_cons_of_pos (by decide),
      List.takeWhile_cons_of_neg (by decide)]
    rfl
  have hdrop : ('l' :: 'b' :: ':' :: '"' :: (name.toList ++ ['"'])).dropWhile isKeyChar =
      ':' :: '"' :: (name.toList ++ ['"']) := by
    rw [List.dropWhile_cons_of_pos (by decide), List.dropWhile_cons_of_pos (by decide),
      List.dropWhile_cons_of_neg (by decide)]
  unfold get
  rw [htag]
  unfold lookup?
  rw [List.dropWhile_cons_of_neg (by decide)]
  dsimp only
  rw [htake, hdrop]
  split
  · next cs heq =>
    cases heq
    rw [if_neg (by decide), hclosing]
    dsimp only
    rw [if_pos (beq_self_eq_true _), hunquote]
    rfl
  · next hother => exact absurd rfl (hother _)

theorem entry_of_isIdentifier {name : String} (h : Naming.isIdentifier name = true) :
    entry (key ++ ":\"" ++ name ++ "\"") = ⟨name, []⟩ := by
  obtain ⟨-, hall⟩ := Naming.all_of_isIdentifier h
  have hget : get (key ++ ":\"" ++ name ++ "\"") key = name := by
    apply get_of_all
    intro c hc
    have hchar := hall c hc
    exact ⟨Naming.ne_of_isNameChar hchar (by decide), Naming.ne_of_isNameChar hchar (by decide),
      Naming.ne_of_isNameChar hchar (by decide)⟩
  have hsplit : splitAtAll (· == ',') name.toList = [name.toList] := by
    apply splitAtAll_of_all
    intro c hc
    simpa using Naming.ne_of_isNameChar (hall c hc) (show Naming.isNameChar ',' = false by decide)
  unfold entry
  rw [hget, hsplit]
  simp

end Tag

def Field.member (f : Field) : Member HostType :=
  ⟨Naming.exported f.name, (f.type.hostType?).getD (.other "unknown"),
    Tag.key ++ ":\"" ++ f.name ++ "\"", true⟩

theorem Field.isFor_member {f : Field} (h : Naming.isIdentifier f.name = true) (name : String) :
    f.member.isFor name = (f.name == name) := by
  obtain ⟨hne, hall⟩ := Naming.all_of_isIdentifier h
  have hempty : (f.name == "") = false := by
    rw [beq_eq_false_iff_ne]
    intro heq
    rw [heq] at hne
    exact hne rfl
  have hskipped : (f.name == "-") = false := by
    rw [beq_eq_false_iff_ne]
    intro heq
    have hdash := hall '-' (by rw [heq]; decide)
    exact absurd hdash (by decide)
  unfold Member.isFor member
  dsimp only
  rw [Tag.entry_of_isIdentifier h]
  unfold Tag.Entry.isSkipped
  simp [hempty, hskipped]

theorem Plan.structMembers_eq {record : String} {seen : Std.TreeMap String String}
    {fields : List Field} {members : List (Member HostType)}
    (h : structMembers record seen fields = .ok members) : members = fields.map Field.member := by
  induction fields generalizing seen members with
  | nil =>
    cases h
    rfl
  | cons f fs ih =>
    unfold structMembers at h
    dsimp only at h
    split at h
    · obtain ⟨_, hthrow, -⟩ := exists_of_bind_eq_ok h
      contradiction
    · obtain ⟨rest, hrest, h⟩ := exists_of_bind_eq_ok h
      cases h
      rw [List.map_cons, ih hrest]
      rfl

namespace Binding

structure IsDynamic (p : Plan) (bd : Binding) : Prop where
  bound : Bound p bd
  members : bd.members = p.fields.toList.map Field.member
  targetOf : ∀ i, i < p.fields.size → bd.targetOf i = i

theorem exists_ofPlan_of_dynamic {p : Plan} {bd : Binding} (h : Binding.dynamic p = .ok bd) :
    ∃ type, ofPlan (some p) type = .ok bd := by
  unfold Binding.dynamic at h
  obtain ⟨type, -, h⟩ := exists_of_bind_eq_ok h
  exact ⟨some type, h⟩

theorem exists_structMembers {record : String} {seen : Std.TreeMap String String}
    {fields : List Field} (hnodup : (fields.map fun f => Naming.exported f.name).Nodup)
    (hunseen : ∀ f ∈ fields, seen[Naming.exported f.name]? = none) :
    ∃ members, Plan.structMembers record seen fields = .ok members := by
  induction fields generalizing seen with
  | nil => exact ⟨[], rfl⟩
  | cons f fs ih =>
    rw [List.map_cons, List.nodup_cons] at hnodup
    have hrest : ∀ g ∈ fs,
        (seen.insert (Naming.exported f.name) f.name)[Naming.exported g.name]? = none := by
      intro g hg
      have hne : Naming.exported f.name ≠ Naming.exported g.name := by
        intro heq
        apply hnodup.1
        rw [heq]
        exact List.mem_map_of_mem hg
      rw [Std.TreeMap.getElem?_insert, if_neg (by simpa using hne)]
      exact hunseen g (List.mem_cons_of_mem _ hg)
    obtain ⟨members, hmembers⟩ := ih hnodup.2 hrest
    refine ⟨f.member :: members, ?_⟩
    unfold Plan.structMembers
    dsimp only
    rw [hunseen f (List.mem_cons_self ..), hmembers]
    rfl

theorem fits_member {f : Field} (h : f.type.isKnown = true) : f.type.fits f.member.type = true := by
  rcases f with ⟨name, typeText, ⟨shape, scalar, text⟩, index, slot⟩
  unfold Field.member
  cases shape with
  | unknown code => simp [FieldType.isKnown] at h
  | text =>
    cases text with
    | true => rfl
    | false =>
      cases scalar with
      | unknown code => simp [FieldType.isKnown, Scalar.isValid] at h
      | _ => rfl
  | _ =>
    cases scalar with
    | unknown code => simp [FieldType.isKnown, Scalar.isValid] at h
    | _ =>
      cases text with
      | true => rfl
      | false => rfl

theorem target_eq {p : Plan} (hp : p.WellFormed) {i : Nat} {f : Field}
    (hi : p.fields[i]? = some f) :
    target p.record (p.fields.toList.map Field.member) f = .ok i := by
  have hplaced := hp.isPlaced i f hi
  have hf : f ∈ p.fields.toList := by
    rw [← Array.getElem?_toList] at hi
    exact List.mem_of_getElem? hi
  have hexists : ∃ m, m ∈ p.fields.toList.map Field.member ∧ m.isFor f.name = true := by
    refine ⟨f.member, List.mem_map_of_mem hf, ?_⟩
    rw [Field.isFor_member hplaced.isIdentifier, beq_self_eq_true]
  have hfind := List.findIdx?_eq_some_of_exists hexists
  have hlt := List.findIdx_lt_length_of_exists hexists
  generalize (p.fields.toList.map Field.member).findIdx (·.isFor f.name) = t at hfind hlt
  have hm := List.getElem?_eq_getElem hlt
  have hfor := List.of_findIdx?_eq_some hfind
  rw [hm] at hfor
  rw [List.getElem?_map, Option.map_eq_some_iff] at hm
  obtain ⟨g, hg, hgm⟩ := hm
  rw [Array.getElem?_toList] at hg
  have hname : g.name = f.name := by
    dsimp only at hfor
    rw [← hgm, Field.isFor_member (hp.isPlaced t g hg).isIdentifier, beq_iff_eq] at hfor
    exact hfor
  have hti := hp.index_eq_of_name_eq hg hi hname
  rw [hti, hi] at hg
  cases hg
  unfold target
  rw [hfind]
  dsimp only
  rw [List.getElem?_eq_getElem hlt, ← hgm]
  dsimp only
  rw [if_pos (fits_member hplaced.isKnown), hti]

def inOrder (p : Plan) (type : HostType) : Binding :=
  ⟨p, type, p.fields.toList.map Field.member, Array.range p.fields.size⟩

theorem ofPlan_eq_ok {p : Plan} {type : HostType} (hp : p.WellFormed)
    (htype : type.members? = some (p.fields.toList.map Field.member)) :
    ofPlan (some p) (some type) = .ok (inOrder p type) := by
  have htargets : p.fields.toList.mapM (target p.record (p.fields.toList.map Field.member)) =
      .ok (List.range' 0 p.fields.toList.length) := by
    apply mapM_eq_range'
    intro i f hf
    rw [Array.getElem?_toList] at hf
    rw [target_eq hp hf, Nat.zero_add]
  unfold ofPlan
  dsimp only
  rw [Option.bind_some, htype, Option.map_some]
  dsimp only
  rw [htargets, Array.length_toList, ← List.range_eq_range', ← Array.toList_range]
  rfl

theorem isDynamic_of_ofPlan {p : Plan} {type : HostType} {bd : Binding} (hp : p.WellFormed)
    (htype : type.members? = some (p.fields.toList.map Field.member))
    (h : ofPlan (some p) (some type) = .ok bd) : IsDynamic p bd := by
  have hbound := bound_of_ofPlan h
  rw [ofPlan_eq_ok hp htype] at h
  cases h
  refine ⟨hbound, rfl, ?_⟩
  intro i hi
  unfold targetOf inOrder
  simp [hi]

theorem isDynamic_of_dynamic {p : Plan} {bd : Binding} (hp : p.WellFormed)
    (h : Binding.dynamic p = .ok bd) : IsDynamic p bd := by
  unfold Binding.dynamic at h
  obtain ⟨type, htype, h⟩ := exists_of_bind_eq_ok h
  unfold Plan.structType at htype
  obtain ⟨members, hmembers, htype⟩ := exists_of_bind_eq_ok htype
  cases htype
  apply isDynamic_of_ofPlan hp _ h
  rw [← Plan.structMembers_eq hmembers]
  rfl

theorem exists_dynamic {p : Plan} (hp : p.WellFormed)
    (hnodup : (p.fields.toList.map fun f => Naming.exported f.name).Nodup) :
    ∃ bd, Binding.dynamic p = .ok bd := by
  obtain ⟨members, hmembers⟩ : ∃ members, Plan.structMembers p.record ∅ p.fields.toList =
      .ok members := by
    apply exists_structMembers hnodup
    intro f _
    apply Std.TreeMap.getElem?_emptyc
  have htype : (HostType.struct members).members? = some (p.fields.toList.map Field.member) := by
    rw [← Plan.structMembers_eq hmembers]
    rfl
  refine ⟨inOrder p (.struct members), ?_⟩
  unfold Binding.dynamic Plan.structType
  rw [hmembers]
  exact ofPlan_eq_ok hp htype

end Binding

end RecordCodec
