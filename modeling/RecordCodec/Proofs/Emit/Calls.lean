import RecordCodec.Emit.Codec
import RecordCodec.Proofs.Codec.Calls

/-!
This module contains the builder calls of emitted codecs: the object that a statement makes, the call
by which a statement writes a field, and the whole program of the emitted statements.
-/

namespace RecordCodec.Emit

open RecordCodec.Table

def Creator.creation? (c : Creator) (v : Value) : Option Creation :=
  match c, v with
  | .string, .text s => some (.string s)
  | .string, .optionalText (some s) => some (.string s)
  | .stringVector, .texts ss => some (.strings (ss.getD []))
  | .codePointVector, .sequence xs => some (.codePoints (xs.getD []))
  | .signedByteVector, .sequence xs => some (.signedBytes (xs.getD []))
  | .vector elem, .sequence xs => some (.vector elem (xs.getD []))
  | _, _ => none

def Build.creation? (s : Build) (o : Object) : Option Creation :=
  let v := o.get s.name
  if s.isGuarded && v == .optionalText none then none else s.creator.creation? v

def Commit.action? (s : Commit) (o : Object) (offs : Nat → Option Nat) : Option Action :=
  match s with
  | slot scalar index name =>
    match o.get name with
    | .scalar x => some (.slot scalar index x 0)
    | _ => none
  | slotIfPresent scalar index name =>
    match o.get name with
    | .optional (some x) => some (.slotAlways scalar index x)
    | _ => none
  | offset index handle => (offs handle).map (.offsetSlot index)
  | offsetIfPresent index handle name =>
    match o.get name, offs handle with
    | .optionalText (some _), some off => some (.offsetSlot index off)
    | _, _ => none

theorem Creator.run_make? (c : Creator) (v : Value) (b : Builder) :
    (Calls.make? (c.creation? v)).run b = c.run v b := by
  unfold run
  split
  case h_7 =>
    unfold creation?
    split
    case h_7 => rfl
    all_goals simp_all
  all_goals exact (Calls.run_map ..).trans (by rw [Calls.run_make]; rfl)

theorem Build.run_make? (s : Build) (o : Object) (b : Builder) :
    (Calls.make? (s.creation? o)).run b = s.run o b := by
  unfold creation? run
  dsimp only
  split
  · rfl
  · exact Creator.run_make? ..

theorem Commit.exec_perform? (s : Commit) (o : Object) (offs : Nat → Option Nat) (b : Builder) :
    (Calls.perform? (s.action? o offs)).exec b = s.run o offs b := by
  unfold action? run
  cases s with
  | slot scalar index name =>
    dsimp only
    cases o.get name with
    | scalar x => exact Calls.exec_perform ..
    | _ => rfl
  | slotIfPresent scalar index name =>
    dsimp only
    rcases o.get name with _ | _ | _ | _ | (_ | x) | _ | _
    case optional.some => exact Calls.exec_perform ..
    all_goals rfl
  | offset index handle =>
    dsimp only
    cases offs handle with
    | none => rfl
    | some off => exact Calls.exec_perform ..
  | offsetIfPresent index handle name =>
    dsimp only
    rcases o.get name with _ | _ | _ | _ | _ | (_ | s) | _
    case optionalText.some =>
      cases offs handle with
      | none => rfl
      | some off => exact Calls.exec_perform ..
    all_goals rfl

namespace Codec

def buildCalls (c : Codec) (o : Object) : Calls (Nat → Option Nat) :=
  c.builds.foldlM step fun _ => none
where
  step (offs : Nat → Option Nat) (s : Build) : Calls (Nat → Option Nat) := do
    let off ← Calls.make? (s.creation? o)
    return fun h => if h == s.handle then off else offs h

def calls (c : Codec) (o : Object) : Calls Unit := do
  Calls.perform .reset
  let offs ← c.buildCalls o
  Calls.perform (.startObject c.fields.length)
  c.commits.forM fun s => Calls.perform? (s.action? o offs)
  Calls.perform .finish

theorem run_buildCalls (c : Codec) (o : Object) (b : Builder) :
    (c.buildCalls o).run b = c.runBuilds o b := by
  unfold buildCalls runBuilds
  apply Calls.run_foldlM
  intro offs s b
  unfold buildCalls.step
  rw [Calls.run_bind, Build.run_make?]
  rfl

theorem exec_calls (c : Codec) (o : Object) (b : Builder) :
    (c.calls o).exec b = c.flatten o b := by
  unfold calls flatten
  rw [Calls.exec_perform_bind]
  show (c.buildCalls o >>= _).exec b.reset = _
  rw [Calls.exec_bind, run_buildCalls]
  apply bind_congr
  rintro ⟨b₁, offs⟩
  rw [Calls.exec_perform_bind]
  apply bind_congr
  intro b₂
  rw [Calls.exec_seq, Calls.exec_forM (fun s => Commit.exec_perform? s o offs)]
  apply bind_congr
  intro b₃
  exact Calls.exec_perform ..

end Codec

end RecordCodec.Emit
