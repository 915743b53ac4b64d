import RecordCodec.Plan
import RecordCodec.Struct.HostType
import RecordCodec.Value

/-!
This module contains the codec of one small record, written out call by call.
-/

namespace RecordCodec.Sample

open RecordCodec.Table

def pointRecord : Record where
  name := "Point"
  fields := [⟨"x", "f64"⟩, ⟨"y", "f64"⟩]

def pointType : HostType :=
  .named "model.Point" <| .struct [
    ⟨"X", .builtin .float64, "lb:\"x\"", true⟩,
    ⟨"Y", .builtin .float64, "lb:\"y\"", true⟩]

structure Point where
  x : Nat := 0
  y : Nat := 0
  deriving DecidableEq, Repr, Inhabited

namespace Point

def new : Point := {}

def toStruct (p : Point) : Array Value :=
  #[.scalar p.x, .scalar p.y]

def ofStruct? : Array Value → Option Point
  | #[.scalar x, .scalar y] => some ⟨x, y⟩
  | _ => none

def flatten (p : Point) (b : Builder) : Except BuilderError Builder := do
  let b ← b.reset.startObject 2
  let b ← b.slot .f64 0 p.x 0
  let b ← b.slot .f64 1 p.y 0
  b.finishObject

def inflate (r : Reader) : Point :=
  ⟨r.get .f64 4 new.x, r.get .f64 6 new.y⟩

end Point

end RecordCodec.Sample
