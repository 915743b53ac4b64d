import RecordCodec.Proofs.Codec.Calls
import RecordCodec.Proofs.Codec.RoundTrip
import RecordCodec.Proofs.Sample.Schema

/-!
This module contains the agreement of the codecs that are written out with the bindings of their
records: they make the same builder calls, and they read the same values from every buffer.
-/

namespace RecordCodec

open RecordCodec.Table

def Binding.ofRecord (r : Record) (type : HostType) : Except Fault Binding := do
  ofPlan (some (← assemble r)) (some type)

/--
A codec for values of a type, given by a function that flattens and one that inflates, agrees with a
binding for the structs of these values.
-/
structure Binding.Agrees (bd : Binding) (toStruct : α → Array Value)
    (flatten : α → Builder → Except BuilderError Builder) (inflate : Reader → α) : Prop where
  flatten_eq : ∀ v b, flatten v b = bd.flatten (toStruct v) b
  finishes : ∀ v, bd.isStruct (toStruct v) = true → ∀ b, flatten v b ≠ .error .tooLarge →
    ∃ b' bytes, flatten v b = .ok b' ∧ b'.finishedBytes = .ok bytes
  inflate_eq : ∀ bytes, toStruct (inflate (Reader.ofBytes bytes)) = bd.inflate bytes

theorem Binding.ofRecord_eq_ok {r : Record} {p : Plan} {type : HostType} (hp : assemble r = .ok p)
    (htype : type.members? = some (p.fields.toList.map Field.member)) :
    ofRecord r type = .ok (inOrder p type) := by
  unfold ofRecord
  rw [hp]
  exact ofPlan_eq_ok (wellFormed_of_assemble hp) htype

theorem Binding.agrees_of_calls {r : Record} {p : Plan} {type : HostType} (hp : assemble r = .ok p)
    (htype : type.members? = some (p.fields.toList.map Field.member)) {toStruct : α → Array Value}
    {flatten : α → Builder → Except BuilderError Builder} {inflate : Reader → α}
    {calls : α → Calls Unit} (hcalls : ∀ v, (inOrder p type).calls (toStruct v) = calls v)
    (hexec : ∀ v b, (calls v).exec b = flatten v b)
    (hread : ∀ reader, toStruct (inflate reader) =
      p.fields.map fun f => f.type.read reader f.slot f.type.default) :
    (inOrder p type).Agrees toStruct flatten inflate := by
  have hwellFormed := wellFormed_of_assemble hp
  have hdynamic := isDynamic_of_ofPlan hwellFormed htype (ofPlan_eq_ok hwellFormed htype)
  have hflatten : ∀ v b, flatten v b = (inOrder p type).flatten (toStruct v) b := by
    intro v b
    rw [← hexec, ← hcalls, exec_calls]
  refine ⟨hflatten, ?_, ?_⟩
  · intro v hv b hgrowth
    rw [hflatten] at hgrowth ⊢
    obtain ⟨b', -, -, hok, hbytes, -⟩ := exists_finished hwellFormed hdynamic.bound hv hgrowth
    exact ⟨b', _, hok, hbytes⟩
  · intro bytes
    rw [hdynamic.inflate_eq hwellFormed, hread]

namespace Sample

open Calls

/-! Entities. -/

theorem indirect_entityPlan : entityPlan.indirect = [2, 3, 6, 7, 8, 9, 10] := by decide

theorem commit_entityPlan :
    entityPlan.commit = [0, 4, 6, 7, 8, 9, 10, 2, 3, 5, 12, 11, 1, 13] := by decide

theorem members?_entityType :
    entityType.members? = some (entityPlan.fields.toList.map Field.member) := rfl

namespace Entity

def calls (e : Entity) : Calls Unit := do
  perform .reset
  let name ← make (.string e.name)
  let nick ← make? (e.nick.map .string)
  let tags ← make (.strings (e.tags.getD []))
  let deltas ← make (.signedBytes (e.deltas.getD []))
  let raw ← make (.vector .u8 (e.raw.getD []))
  let marks ← make (.codePoints (e.marks.getD []))
  let points ← make (.vector .s32 (e.points.getD []))
  perform (.startObject 14)
  perform (.slot .u64 0 e.id 0)
  perform? (e.score.map (.slotAlways .f64 4))
  perform (.offsetSlot 6 tags)
  perform (.offsetSlot 7 deltas)
  perform (.offsetSlot 8 raw)
  perform (.offsetSlot 9 marks)
  perform (.offsetSlot 10 points)
  perform (.offsetSlot 2 name)
  perform? (nick.map (.offsetSlot 3))
  perform (.slot .char 5 e.grade 0)
  perform? (e.alt.map (.slotAlways .char 12))
  perform? (e.level.map (.slotAlways .u16 11))
  perform (.slot .u8 1 e.flags 0)
  perform (.slot .bool 13 e.active 0)
  perform .finish

theorem exec_perform?_bind (x : Option α) (g : α → Action) (f : Unit → Calls Unit) (b : Builder) :
    (perform? (x.map g) >>= f).exec b =
      whenSome x b (fun b a => (g a).run b) >>= fun b => (f ()).exec b := by
  cases x with
  | none => rfl
  | some a => exact exec_perform_bind ..

theorem exec_make?_bind (e : Entity) (f : Option Nat → Calls Unit) (b : Builder) :
    (make? (e.nick.map .string) >>= f).exec b =
      e.buildNick b >>= fun r => (f (e.nick.map fun _ => r.2)).exec r.1 := by
  unfold buildNick
  cases e.nick with
  | none => rfl
  | some s => exact exec_make_bind ..

theorem exec_calls (e : Entity) (b : Builder) : e.calls.exec b = e.flatten b := by
  unfold calls flatten
  simp only [exec_perform_bind, exec_make_bind, exec_perform?_bind, exec_make?_bind, exec_perform,
    Option.map_map]
  rfl

def offsets (name : Nat) (nick : Option Nat) (tags deltas raw marks points : Nat) :
    Array (Option Nat) :=
  #[none, none, some name, nick, none, none, some tags, some deltas, some raw, some marks,
    some points, none, none, none]

theorem offsets_eq (name : Nat) (nick : Option Nat) (tags deltas raw marks points : Nat) :
    (((((((Array.replicate entityPlan.fields.size none).setIfInBounds 2 (some name)).setIfInBounds 3
      nick).setIfInBounds 6 (some tags)).setIfInBounds 7 (some deltas)).setIfInBounds 8
      (some raw)).setIfInBounds 9 (some marks)).setIfInBounds 10 (some points) =
    offsets name nick tags deltas raw marks points := by
  rw [← List.toArray_replicate]
  simp only [List.setIfInBounds_toArray]
  rfl

theorem buildCalls_bind (e : Entity) (next : Array (Option Nat) → Calls Unit) :
    ((Binding.inOrder entityPlan entityType).buildCalls e.toStruct >>= next) = (do
      let name ← make (.string e.name)
      let nick ← make? (e.nick.map .string)
      let tags ← make (.strings (e.tags.getD []))
      let deltas ← make (.signedBytes (e.deltas.getD []))
      let raw ← make (.vector .u8 (e.raw.getD []))
      let marks ← make (.codePoints (e.marks.getD []))
      let points ← make (.vector .s32 (e.points.getD []))
      next (offsets name nick tags deltas raw marks points)) := by
  have hplan : (Binding.inOrder entityPlan entityType).plan = entityPlan := rfl
  have hoptional : (FieldType.optional .ofText).creation? (.optionalText e.nick) =
      e.nick.map .string := by
    cases e.nick with
    | none => rfl
    | some s => rfl
  have step := @Binding.buildCalls.step_bind Unit (.inOrder entityPlan entityType) e.toStruct
  have hname := step 2 rfl (c := some (.string e.name)) rfl
  have hnick := step 3 rfl hoptional
  have htags := step 6 rfl (c := some (.strings (e.tags.getD []))) rfl
  have hdeltas := step 7 rfl (c := some (.signedBytes (e.deltas.getD []))) rfl
  have hraw := step 8 rfl (c := some (.vector .u8 (e.raw.getD []))) rfl
  have hmarks := step 9 rfl (c := some (.codePoints (e.marks.getD []))) rfl
  have hpoints := step 10 rfl (c := some (.vector .s32 (e.points.getD []))) rfl
  unfold Binding.buildCalls
  rw [hplan, indirect_entityPlan]
  simp only [List.foldlM_cons, List.foldlM_nil, bind_assoc, pure_bind, hname, hnick, htags, hdeltas,
    hraw, hmarks, hpoints, make?_some_bind, offsets_eq]

theorem commitCalls_eq (e : Entity) (name : Nat) (nick : Option Nat)
    (tags deltas raw marks points : Nat) :
    (Binding.inOrder entityPlan entityType).commitCalls e.toStruct
      (offsets name nick tags deltas raw marks points) = (do
        perform (.slot .u64 0 e.id 0)
        perform? (e.score.map (.slotAlways .f64 4))
        perform (.offsetSlot 6 tags)
        perform (.offsetSlot 7 deltas)
        perform (.offsetSlot 8 raw)
        perform (.offsetSlot 9 marks)
        perform (.offsetSlot 10 points)
        perform (.offsetSlot 2 name)
        perform? (nick.map (.offsetSlot 3))
        perform (.slot .char 5 e.grade 0)
        perform? (e.alt.map (.slotAlways .char 12))
        perform? (e.level.map (.slotAlways .u16 11))
        perform (.slot .u8 1 e.flags 0)
        perform (.slot .bool 13 e.active 0)) := by
  have hplan : (Binding.inOrder entityPlan entityType).plan = entityPlan := rfl
  unfold Binding.commitCalls
  rw [hplan, commit_entityPlan]
  rcases e with ⟨_, _, _, _, score, _, _, _, _, _, _, level, alt, _⟩
  cases nick <;> cases score <;> cases level <;> cases alt <;> rfl

theorem calls_eq (e : Entity) :
    (Binding.inOrder entityPlan entityType).calls e.toStruct = e.calls := by
  unfold Binding.calls calls
  rw [buildCalls_bind]
  simp only [commitCalls_eq, bind_assoc]
  rfl

theorem getD_map_some (g : Option α → β) (x d : Option α) :
    (x.map (g ∘ some)).getD (g d) = g (x.or d) := by
  cases x with
  | none => rfl
  | some a => rfl

theorem toStruct_inflate (reader : Reader) :
    (inflate reader).toStruct =
      entityPlan.fields.map fun f => f.type.read reader f.slot f.type.default := by
  have hfields : entityPlan.fields = (fieldsFrom 0 entityRecord.fields entityTypes).toArray := rfl
  rw [hfields, List.map_toArray]
  apply congrArg List.toArray
  -- one goal for each field: either it is read alike, or what is found is wrapped on both sides
  repeat' refine List.cons_eq_cons.2 ⟨?_, ?_⟩
  all_goals first
    | rfl
    | exact (Option.getD_map ..).symm
    | exact (getD_map_some ..).symm

end Entity

/-! Points. -/

def pointPlan : Plan :=
  Plan.ofFields pointRecord.name
    (fieldsFrom 0 pointRecord.fields [.ofScalar .f64, .ofScalar .f64])

theorem assemble_pointRecord : assemble pointRecord = .ok pointPlan :=
  assemble_of_names (by decide)

theorem members?_pointType :
    pointType.members? = some (pointPlan.fields.toList.map Field.member) := rfl

namespace Point

def calls (p : Point) : Calls Unit := do
  perform .reset
  perform (.startObject 2)
  perform (.slot .f64 0 p.x 0)
  perform (.slot .f64 1 p.y 0)
  perform .finish

theorem exec_calls (p : Point) (b : Builder) : p.calls.exec b = p.flatten b := by
  unfold calls flatten
  simp only [exec_perform_bind, exec_perform]
  rfl

theorem calls_eq (p : Point) :
    (Binding.inOrder pointPlan pointType).calls p.toStruct = p.calls := rfl

theorem toStruct_inflate (reader : Reader) :
    (inflate reader).toStruct =
      pointPlan.fields.map fun f => f.type.read reader f.slot f.type.default := by
  have hfields : pointPlan.fields =
      (fieldsFrom 0 pointRecord.fields [.ofScalar .f64, .ofScalar .f64]).toArray := rfl
  rw [hfields, List.map_toArray]
  rfl

end Point

theorem codecs_agree :
    ∃ schema entityBinding pointBinding,
      Schema.parse .yaml schemaText = .ok schema ∧ schema.records = [entityRecord, pointRecord] ∧
      Binding.ofRecord entityRecord entityType = .ok entityBinding ∧
      entityBinding.Agrees Entity.toStruct Entity.flatten Entity.inflate ∧
      Binding.ofRecord pointRecord pointType = .ok pointBinding ∧
      pointBinding.Agrees Point.toStruct Point.flatten Point.inflate :=
  ⟨_, _, _, parse_schemaText, rfl,
    Binding.ofRecord_eq_ok assemble_entityRecord members?_entityType,
    Binding.agrees_of_calls assemble_entityRecord members?_entityType Entity.calls_eq
      Entity.exec_calls Entity.toStruct_inflate,
    Binding.ofRecord_eq_ok assemble_pointRecord members?_pointType,
    Binding.agrees_of_calls assemble_pointRecord members?_pointType Point.calls_eq
      Point.exec_calls Point.toStruct_inflate⟩

end Sample

end RecordCodec
