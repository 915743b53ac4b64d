import RecordCodec.Plan
import RecordCodec.Struct.HostType
import RecordCodec.Value

/-!
This module contains the codec of one record, written out call by call: `Entity` has a field of
every shape. It is what the emitter renders for the record, as opposed to a binding, which follows
the plan at run time.
-/

namespace RecordCodec.Sample

open RecordCodec.Table

def entityRecord : Record where
  name := "Entity"
  fields := [⟨"id", "u64"⟩, ⟨"flags", "u8"⟩, ⟨"name", "string"⟩, ⟨"nick", "option<string>"⟩,
    ⟨"score", "option<f64>"⟩, ⟨"grade", "char"⟩, ⟨"tags", "list<string>"⟩, ⟨"deltas", "list<s8>"⟩,
    ⟨"raw", "list<u8>"⟩, ⟨"marks", "list<char>"⟩, ⟨"points", "list<s32>"⟩, ⟨"level", "option<u16>"⟩,
    ⟨"alt", "option<char>"⟩, ⟨"active", "bool"⟩]

def entityType : HostType :=
  .named "model.Entity" <| .struct [
    ⟨"Id", .builtin .uint64, "lb:\"id\"", true⟩,
    ⟨"Flags", .builtin .uint8, "lb:\"flags\"", true⟩,
    ⟨"Name", .builtin .string, "lb:\"name\"", true⟩,
    ⟨"Nick", .pointer (.builtin .string), "lb:\"nick\"", true⟩,
    ⟨"Score", .pointer (.builtin .float64), "lb:\"score\"", true⟩,
    ⟨"Grade", .builtin .int32, "lb:\"grade\"", true⟩,
    ⟨"Tags", .slice (.builtin .string), "lb:\"tags\"", true⟩,
    ⟨"Deltas", .slice (.builtin .int8), "lb:\"deltas\"", true⟩,
    ⟨"Raw", .slice (.builtin .uint8), "lb:\"raw\"", true⟩,
    ⟨"Marks", .slice (.builtin .int32), "lb:\"marks\"", true⟩,
    ⟨"Points", .slice (.builtin .int32), "lb:\"points\"", true⟩,
    ⟨"Level", .pointer (.builtin .uint16), "lb:\"level\"", true⟩,
    ⟨"Alt", .pointer (.builtin .int32), "lb:\"alt\"", true⟩,
    ⟨"Active", .builtin .bool, "lb:\"active\"", true⟩]

structure Entity where
  id : Nat := 0
  flags : Nat := 0
  name : List UInt8 := []
  nick : Option (List UInt8) := none
  score : Option Nat := none
  grade : Nat := 0
  tags : Option (List (List UInt8)) := some []
  deltas : Option (List Nat) := some []
  raw : Option (List Nat) := some []
  marks : Option (List Nat) := some []
  points : Option (List Nat) := some []
  level : Option Nat := none
  alt : Option Nat := none
  active : Nat := 0
  deriving DecidableEq, Repr, Inhabited

namespace Entity

def new : Entity := {}

def toStruct (e : Entity) : Array Value :=
  #[.scalar e.id, .scalar e.flags, .text e.name, .optionalText e.nick, .optional e.score,
    .scalar e.grade, .texts e.tags, .sequence e.deltas, .sequence e.raw, .sequence e.marks,
    .sequence e.points, .optional e.level, .optional e.alt, .scalar e.active]

def ofStruct? : Array Value → Option Entity
  | #[.scalar id, .scalar flags, .text name, .optionalText nick, .optional score, .scalar grade,
      .texts tags, .sequence deltas, .sequence raw, .sequence marks, .sequence points,
      .optional level, .optional alt, .scalar active] =>
    some ⟨id, flags, name, nick, score, grade, tags, deltas, raw, marks, points, level, alt, active⟩
  | _ => none

def buildNick (e : Entity) (b : Builder) : Except BuilderError (Builder × Nat) :=
  match e.nick with
  | some nick => b.createString nick
  | none => .ok (b, 0)

def whenSome (x : Option α) (b : Builder) (f : Builder → α → Except BuilderError Builder) :
    Except BuilderError Builder :=
  match x with
  | some a => f b a
  | none => .ok b

def flatten (e : Entity) (b : Builder) : Except BuilderError Builder := do
  let b := b.reset
  let (b, name) ← b.createString e.name
  let (b, nick) ← e.buildNick b
  let (b, tags) ← b.createStringVector (e.tags.getD [])
  let (b, deltas) ← b.createSignedBytes (e.deltas.getD [])
  let (b, raw) ← b.createVector .u8 (e.raw.getD [])
  let (b, marks) ← b.createCodePoints (e.marks.getD [])
  let (b, points) ← b.createVector .s32 (e.points.getD [])
  let b ← b.startObject 14
  let b ← b.slot .u64 0 e.id 0
  let b ← whenSome e.score b fun b score => b.slotAlways .f64 4 score
  let b ← b.offsetSlot 6 tags
  let b ← b.offsetSlot 7 deltas
  let b ← b.offsetSlot 8 raw
  let b ← b.offsetSlot 9 marks
  let b ← b.offsetSlot 10 points
  let b ← b.offsetSlot 2 name
  let b ← whenSome e.nick b fun b _ => b.offsetSlot 3 nick
  let b ← b.slot .char 5 e.grade 0
  let b ← whenSome e.alt b fun b alt => b.slotAlways .char 12 alt
  let b ← whenSome e.level b fun b level => b.slotAlways .u16 11 level
  let b ← b.slot .u8 1 e.flags 0
  let b ← b.slot .bool 13 e.active 0
  b.finishObject

def inflate (r : Reader) : Entity :=
  let e := new
  { id := r.get .u64 4 e.id
    flags := r.get .u8 6 e.flags
    name := (r.text? 8).getD e.name
    nick := (r.text? 10).or e.nick
    score := (r.lookup? .f64 12).or e.score
    grade := r.char 14 e.grade
    tags := (r.strings? 16).or e.tags
    deltas := (r.signedBytes? 18).or e.deltas
    raw := (r.bytes? 20).or e.raw
    marks := (r.codePoints? 22).or e.marks
    points := (r.elements? .s32 24).or e.points
    level := (r.lookup? .u16 26).or e.level
    alt := (r.lookupChar? 28).or e.alt
    active := r.get .bool 30 e.active }

end Entity

end RecordCodec.Sample
