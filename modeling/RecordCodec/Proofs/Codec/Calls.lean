import RecordCodec.Codec.Binding
import RecordCodec.Proofs.Table.Calls

/-!
This module contains the builder calls of a binding: which object a value is made into, which call
writes its field, and the whole program by which a struct is flattened.
-/

namespace RecordCodec

open RecordCodec.Table

namespace FieldType

def creation? (t : FieldType) (v : Value) : Option Creation :=
  match t.decodeStrategy, v with
  | .text, .text s => some (.string s)
  | .textOptional, .optionalText (some s) => some (.string s)
  | .textSequence, .texts ss => some (.strings (ss.getD []))
  | .charSequence, .sequence xs => some (.codePoints (xs.getD []))
  | .signedBytes, .sequence xs => some (.signedBytes (xs.getD []))
  | .sequence, .sequence xs => some (.vector t.scalar (xs.getD []))
  | _, _ => none

def action? (t : FieldType) (index : Nat) (v : Value) (off : Option Nat) : Option Action :=
  match t.encodeStrategy, v, off with
  | .inline, .scalar x, _ => some (.slot t.scalar index x 0)
  | .inlinePresent, .optional (some x), _ => some (.slotAlways t.scalar index x)
  | .indirect, _, some off | .indirectPresent, _, some off => some (.offsetSlot index off)
  | _, _, _ => none

end FieldType

namespace Table.Calls

def make? : Option Creation → Calls (Option Nat)
  | some c => some <$> make c
  | none => pure none

theorem make?_some_bind (c : Creation) (f : Option Nat → Calls α) :
    (make? (some c) >>= f) = make c >>= fun off => f (some off) :=
  bind_map_left ..

def perform? : Option Action → Calls Unit
  | some c => perform c
  | none => pure ()

end Table.Calls

namespace FieldType

theorem run_make? (t : FieldType) (v : Value) (b : Builder) :
    (Calls.make? (t.creation? v)).run b = t.build v b := by
  have hmade : ∀ {c}, t.creation? v = some c →
      (Calls.make? (t.creation? v)).run b = c.run b >>= build.referred := by
    intro c hc
    rw [hc, ← Calls.run_make]
    exact Calls.run_map ..
  unfold build
  split
  case h_7 =>
    unfold creation?
    split
    case h_7 => rfl
    all_goals simp_all
  all_goals
    rename_i hstrategy
    exact hmade (by unfold creation?; rw [hstrategy])

theorem exec_perform? (t : FieldType) (index : Nat) (v : Value) (off : Option Nat) (b : Builder) :
    (Calls.perform? (t.action? index v off)).exec b = t.commit index v off b := by
  have hperformed : ∀ {c}, t.action? index v off = some c →
      (Calls.perform? (t.action? index v off)).exec b = c.run b := by
    intro c hc
    rw [hc]
    exact Calls.exec_perform ..
  unfold commit
  split
  case h_5 =>
    unfold action?
    split
    case h_5 => rfl
    all_goals simp_all
  all_goals
    rename_i hstrategy
    exact hperformed (by unfold action?; rw [hstrategy])

end FieldType

namespace Binding

def buildCalls (bd : Binding) (struct : Array Value) : Calls (Array (Option Nat)) :=
  bd.plan.indirect.foldlM step (Array.replicate bd.plan.fields.size none)
where
  step (offs : Array (Option Nat)) (i : Nat) : Calls (Array (Option Nat)) := do
    let some f := bd.plan.fields[i]? | return offs
    let off ← Calls.make? (f.type.creation? (bd.value struct i))
    return offs.setIfInBounds i off

def commitCalls (bd : Binding) (struct : Array Value) (offs : Array (Option Nat)) : Calls Unit :=
  bd.plan.commit.forM step
where
  step (i : Nat) : Calls Unit := do
    let some f := bd.plan.fields[i]? | return
    Calls.perform? (f.type.action? i (bd.value struct i) ((offs[i]?).getD none))

def calls (bd : Binding) (struct : Array Value) : Calls Unit := do
  Calls.perform .reset
  let offs ← bd.buildCalls struct
  Calls.perform (.startObject bd.plan.fields.size)
  bd.commitCalls struct offs
  Calls.perform .finish

theorem run_buildCalls (bd : Binding) (struct : Array Value) (b : Builder) :
    (bd.buildCalls struct).run b = bd.buildObjects struct b := by
  unfold buildCalls buildObjects
  apply Calls.run_foldlM
  intro offs i b
  unfold buildCalls.step buildObjects.step
  cases bd.plan.fields[i]? with
  | none => rfl
  | some f =>
    dsimp only
    rw [Calls.run_bind, FieldType.run_make?]
    rfl

theorem exec_commitCalls (bd : Binding) (struct : Array Value) (offs : Array (Option Nat))
    (b : Builder) : (bd.commitCalls struct offs).exec b = bd.commitFields struct offs b := by
  unfold commitCalls commitFields
  apply Calls.exec_forM
  intro i b
  unfold commitCalls.step commitFields.step
  cases bd.plan.fields[i]? with
  | none => rfl
  | some f => exact FieldType.exec_perform? ..

theorem buildCalls.step_bind {bd : Binding} {struct : Array Value} (i : Nat) {f : Field}
    {c : Option Creation} (hf : bd.plan.fields[i]? = some f)
    (hc : f.type.creation? (bd.value struct i) = c) (offs : Array (Option Nat))
    (next : Array (Option Nat) → Calls α) :
    (buildCalls.step bd struct offs i >>= next) =
      Calls.make? c >>= fun off => next (offs.setIfInBounds i off) := by
  unfold buildCalls.step
  rw [hf]
  dsimp only
  rw [hc, bind_assoc]
  rfl

theorem exec_calls (bd : Binding) (struct : Array Value) (b : Builder) :
    (bd.calls struct).exec b = bd.flatten struct b := by
  unfold calls flatten
  rw [Calls.exec_perform_bind]
  show (bd.buildCalls struct >>= _).exec b.reset = _
  rw [Calls.exec_bind, run_buildCalls]
  apply bind_congr
  rintro ⟨b₁, offs⟩
  rw [Calls.exec_perform_bind]
  apply bind_congr
  intro b₂
  rw [Calls.exec_seq, exec_commitCalls]
  apply bind_congr
  intro b₃
  exact Calls.exec_perform ..

end Binding

end RecordCodec
