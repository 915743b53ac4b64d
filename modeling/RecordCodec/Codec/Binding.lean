import RecordCodec.Log
import RecordCodec.Plan
import RecordCodec.Struct.HostType
import RecordCodec.Struct.Tag
import RecordCodec.Value

/-!
This module contains bindings: a plan together with the fields of a struct type that hold the fields
of its record. A binding writes structs as tables and reads them back.
-/

namespace RecordCodec

open RecordCodec.Table

structure Binding where
  plan : Plan
  type : HostType
  members : List (Member HostType)
  /-- The position of the struct field of each field of the plan. -/
  targets : Array Nat
  deriving Repr, Inhabited

/--
Whether a struct field is the one for a declared name: its tag names the field, or its tag has no
name and its own name corresponds.
-/
def Member.isFor (m : Member HostType) (name : String) : Bool :=
  let entry := Tag.entry m.tag
  m.isExported && !entry.isSkipped &&
    if entry.name == "" then Naming.corresponds m.name name else entry.name == name

def HostType.zero (t : HostType) : Value :=
  match t.underlying with
  | .builtin .string => .text []
  | .builtin b => if b.scalar?.isSome then .scalar 0 else .other
  | .slice elem =>
    match elem.builtin? with
    | some .string => .texts none
    | some b => if b.scalar?.isSome then .sequence none else .other
    | none => .other
  | .pointer elem =>
    match elem.builtin? with
    | some .string => .optionalText none
    | some b => if b.scalar?.isSome then .optional none else .other
    | none => .other
  | _ => .other

/--
The default of a field together with the type that holds it. Optional fields have none, because
nothing is held by default.
-/
def FieldType.typedDefault? (t : FieldType) : Option (HostType × Value) :=
  match t.shape with
  | .scalar | .text | .sequence => hostType.map (·, t.default)
  | _ => none
where
  hostType : Option HostType :=
    match t.shape with
    | .text => some (.builtin .string)
    | .sequence => t.elemBuiltin?.map (.slice ∘ .builtin)
    | _ => t.scalar.builtin?.map .builtin

namespace Binding

def missingPlan : Fault where
  phase := .bind
  kind := .nilPointer
  detail := "plan cannot be nil"

def notStruct (record : String) (type : Option HostType) : Fault where
  phase := .bind
  kind := .typeMismatch
  record := record
  hostType := (type.map HostType.spelling).getD "<nil>"
  detail := "expected a struct"

def target (record : String) (members : List (Member HostType)) (f : Field) :
    Except Fault Nat :=
  match members.findIdx? (·.isFor f.name) with
  | none => .error (.fieldMissing .bind record f.name)
  | some i =>
    match members[i]? with
    | none => .error (.fieldMissing .bind record f.name)
    | some m =>
      if f.type.fits m.type then .ok i
      else .error (.typeMismatch .bind record [f.name] m.type.spelling f.type.name)

def ofPlan (plan : Option Plan) (type : Option HostType) : Except Fault Binding := do
  let some plan := plan | throw missingPlan
  let some (host, members) := type.bind fun t => t.members?.map (t, ·)
    | throw (notStruct plan.record type)
  let targets ← plan.fields.toList.mapM (target plan.record members)
  return ⟨plan, host, members, targets.toArray⟩

def log (bd : Binding) : LogEntry :=
  ⟨"codec", "plan bound",
    [("record", .text bd.plan.record), ("go_type", .text bd.type.spelling)]⟩

def targetOf (bd : Binding) (index : Nat) : Nat :=
  (bd.targets[index]?).getD bd.members.length

def new (bd : Binding) : Array Value :=
  bd.plan.fields.foldl init (bd.members.map (·.type.zero)).toArray
where
  init (struct : Array Value) (f : Field) : Array Value :=
    match f.type.shape with
    | .sequence => struct.setIfInBounds (bd.targetOf f.index) f.type.default
    | _ => struct

def value (bd : Binding) (struct : Array Value) (index : Nat) : Value :=
  (struct[bd.targetOf index]?).getD .other

/--
Write the objects of a struct that live outside the table, in declaration order. The result has
their offsets by field.
-/
def buildObjects (bd : Binding) (struct : Array Value) (b : Builder) :
    Except BuilderError (Builder × Array (Option Nat)) :=
  bd.plan.indirect.foldlM step (b, Array.replicate bd.plan.fields.size none)
where
  step (state : Builder × Array (Option Nat)) (i : Nat) :
      Except BuilderError (Builder × Array (Option Nat)) := do
    let some f := bd.plan.fields[i]? | return state
    let (b, off) ← f.type.build (bd.value struct i) state.1
    return (b, state.2.setIfInBounds i off)

def commitFields (bd : Binding) (struct : Array Value) (offs : Array (Option Nat)) (b : Builder) :
    Except BuilderError Builder :=
  bd.plan.commit.foldlM step b
where
  step (b : Builder) (i : Nat) : Except BuilderError Builder := do
    let some f := bd.plan.fields[i]? | return b
    f.type.commit i (bd.value struct i) ((offs[i]?).getD none) b

def flatten (bd : Binding) (struct : Array Value) (b : Builder) : Except BuilderError Builder := do
  let (b, offs) ← bd.buildObjects struct b.reset
  let b ← b.startObject bd.plan.fields.size
  let b ← bd.commitFields struct offs b
  b.finishObject

def readFields (bd : Binding) (r : Reader) (struct : Array Value) : Array Value :=
  bd.plan.order.foldl step struct
where
  step (struct : Array Value) (i : Nat) : Array Value :=
    match bd.plan.fields[i]? with
    | none => struct
    | some f =>
      struct.setIfInBounds (bd.targetOf i) (f.type.read r f.slot (bd.value struct i))

def inflate (bd : Binding) (bytes : Array UInt8) : Array Value :=
  bd.readFields (Reader.ofBytes bytes) bd.new

end Binding

/--
What is passed where a pointer to a struct is wanted: its type, if it has one, and the struct that it
points to, if it points to one.
-/
structure Argument where
  type : Option HostType
  struct : Option (Array Value)

def Binding.require (bd : Binding) (phase : Phase) (arg : Argument) :
    Except Fault (Array Value) :=
  let wanted := (HostType.pointer bd.type).spelling
  let given := (arg.type.map HostType.spelling).getD "<nil>"
  if given != wanted then .error (.typeMismatch phase bd.plan.record [] given wanted)
  else match arg.struct with
    | none => .error (.nilPointer phase given)
    | some struct => .ok struct

end RecordCodec
