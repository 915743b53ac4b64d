import RecordCodec.Emit.Statement

/-!
This module contains emitted codecs: the statements that write a record value and read it back,
together with what they do when they are run.
-/

namespace RecordCodec.Emit

open RecordCodec.Table

structure StructField where
  name : String
  type : FieldType
  declared : String
  deriving DecidableEq, Repr

structure Codec where
  record : String
  fields : List StructField
  inits : List Init
  builds : List Build
  commits : List Commit
  decodes : List Decode
  deriving DecidableEq, Repr

def structName (p : Plan) (i : Nat) : String :=
  (p.fields[i]?.map fun f => Naming.exported f.name).getD ""

namespace Codec

def ofPlan (p : Plan) : Codec :=
  let fields := p.fields.toList
  { record := p.record
    fields := fields.map fun f => ⟨Naming.exported f.name, f.type, f.name⟩
    inits := (fields.filter fun f => f.type.shape == .sequence).map fun f =>
      ⟨Naming.exported f.name, f.type⟩
    builds := p.indirect.filterMap fun i => p.fields[i]?.map fun f => .ofField f (structName p i)
    commits := p.commit.filterMap fun i => p.fields[i]?.map fun f => .ofField f (structName p i)
    decodes := fields.map fun f => .ofField f (Naming.exported f.name) }

def name (c : Codec) : String :=
  Naming.exported c.record

def new (c : Codec) : Object :=
  c.inits.foldl (fun o s => s.run o) (c.fields.map fun f => (f.name, zeroValue f.type))

def runBuilds (c : Codec) (o : Object) (b : Builder) :
    Except BuilderError (Builder × (Nat → Option Nat)) :=
  c.builds.foldlM (fun (b, offs) s => do
    let (b, off) ← s.run o b
    return (b, fun h => if h == s.handle then off else offs h)) (b, fun _ => none)

def flatten (c : Codec) (o : Object) (b : Builder) : Except BuilderError Builder := do
  let (b, offs) ← c.runBuilds o b.reset
  let b ← b.startObject c.fields.length
  let b ← c.commits.foldlM (fun b s => s.run o offs b) b
  b.finishObject

def inflate (c : Codec) (r : Reader) : Object :=
  c.decodes.foldl (fun o s => s.run r o) c.new

end Codec

end RecordCodec.Emit
