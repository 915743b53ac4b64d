import RecordCodec.Emit.Fragment
import RecordCodec.Proofs.Codec.RoundTrip
import RecordCodec.Proofs.Emit.Calls
import RecordCodec.Proofs.Source.Pieces

/-!
This module contains the agreement of emitted codecs with bindings: for every plan that a fragment is
rendered for, the emitted statements make the calls that the binding makes, and they construct and
read the values that the binding constructs and reads.
-/

namespace RecordCodec

open RecordCodec.Table

namespace Emit

/-! Names. -/

theorem exists_fragment {p : Plan} {package : String}
    (hnames : checkNames p.record [] (p.fields.toList.map Field.name) = .ok ())
    (hparse : (Source.File.parse? (fragmentText (.ofPlan p) package)).isSome = true) :
    ∃ source, fragment (some p) package = .ok source := by
  obtain ⟨file, hfile⟩ := Option.isSome_iff_exists.1 hparse
  refine ⟨(file.sortImports Source.Import.le).print true, ?_⟩
  unfold fragment Source.format?
  dsimp only
  rw [hnames, hfile]
  rfl

namespace Object

def ofFields (fs : List Field) (v : Field → Value) : Object :=
  fs.map fun f => (Naming.exported f.name, v f)

variable {fs : List Field} {v : Field → Value} {f : Field}

end Object

/-! Statements. -/

namespace Codec

def structType (c : Codec) (package : String) : HostType :=
  .named (package ++ "." ++ c.name) <| .struct <| c.fields.map fun f =>
    ⟨f.name, (f.type.hostType?).getD (.other "unknown"), Tag.key ++ ":\"" ++ f.declared ++ "\"", true⟩

variable {p : Plan}

end Codec

end Emit

namespace Binding

def object (bd : Binding) (struct : Array Value) : Emit.Object :=
  .ofFields bd.plan.fields.toList fun f => bd.value struct f.index

theorem structName_eq {p : Plan} {i : Nat} {f : Field} (hf : p.fields[i]? = some f) :
    Emit.structName p i = Naming.exported f.name := by
  unfold Emit.structName
  rw [hf]
  rfl

/--
The offsets that a binding keeps by field are those that the emitted statements keep by handle, and
there is none for a field without an object.
-/
structure SameOffsets (bd : Binding) (struct : Array Value) (offs : Array (Option Nat))
    (handles : Nat → Option Nat) : Prop where
  size : offs.size = bd.plan.fields.size
  eq : ∀ i, (offs[i]?).getD none = handles i
  absent : ∀ (i : Nat) f, bd.plan.fields[i]? = some f →
    f.type.creation? (bd.value struct i) = none → handles i = none

theorem SameOffsets.start (bd : Binding) (struct : Array Value) :
    bd.SameOffsets struct (Array.replicate bd.plan.fields.size none) fun _ => none where
  size := Array.size_replicate
  eq := by
    intro i
    rw [Array.getElem?_replicate]
    split <;> rfl
  absent := fun _ _ _ _ => rfl

theorem SameOffsets.set {bd : Binding} {struct : Array Value} {offs : Array (Option Nat)}
    {handles : Nat → Option Nat} (h : bd.SameOffsets struct offs handles) {i : Nat} {f : Field}
    (hf : bd.plan.fields[i]? = some f) {off : Option Nat}
    (hoff : f.type.creation? (bd.value struct i) = none → off = none) :
    bd.SameOffsets struct (offs.setIfInBounds i off) fun j => if j == i then off else handles j where
  size := by rw [Array.size_setIfInBounds, h.size]
  eq := by
    intro j
    obtain ⟨hi, -⟩ := Array.getElem?_eq_some_iff.1 hf
    have hsize : i < offs.size := by
      rw [h.size]
      exact hi
    by_cases hji : j = i
    · subst hji
      rw [Array.getElem?_setIfInBounds_self_of_lt hsize, if_pos (beq_self_eq_true _)]
      rfl
    · rw [Array.getElem?_setIfInBounds_ne (Ne.symm hji), if_neg (by simpa using hji), h.eq]
  absent := by
    intro j g hg hnone
    split
    · next hji =>
      rw [eq_of_beq hji, hf] at hg
      cases hg
      rw [eq_of_beq hji] at hnone
      exact hoff hnone
    · exact h.absent j g hg hnone

end Binding

namespace Emit

def noteRecord : Record where
  name := "Note"
  fields := [⟨"by", "option<string>"⟩, ⟨"to", "list<char>"⟩]

def notePlan : Plan :=
  Plan.ofFields noteRecord.name
    (fieldsFrom 0 noteRecord.fields [.optional .ofText, .sequence (.ofScalar .char)])

theorem assemble_noteRecord : assemble noteRecord = .ok notePlan :=
  assemble_of_names (by decide)

def note : Array Value :=
  #[.optionalText (some [0x61, 0xff]), .sequence none]

end Emit

end RecordCodec
