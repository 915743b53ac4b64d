import RecordCodec.Kind

/-!
This module contains the placement of fields: the slot of a field in the vtable, the order in which
fields are committed, and the size of the inline region that an order produces.
-/

namespace RecordCodec

namespace Layout

def metadataSize : Nat := 4

def slotSize : Nat := 2

def maxFields : Nat := (0xffff - metadataSize) / slotSize

def slot (i : Int) : UInt16 :=
  UInt16.ofInt (metadataSize + slotSize * i)

def scalarPriority (s : Scalar) : Nat :=
  match s.size with
  | 8 => 1
  | 4 => 5
  | 2 => 6
  | _ => 7

def priority (t : FieldType) : Nat :=
  match t.shape with
  | .sequence => 2
  | .text => 4
  | .optional => if t.text then 4 else scalarPriority t.scalar
  | _ => scalarPriority t.scalar

def priorities : List Nat := [1, 2, 4, 5, 6, 7]

def commitOrder (types : List FieldType) : List Nat :=
  priorities.flatMap fun p => (types.zipIdx.filter (priority ·.1 == p)).map (·.2)

def alignPad (used width : Int64) : Int64 :=
  (-used) &&& (width - 1)

def padding (used width : Nat) : Nat :=
  (width - used % width) % width

structure Info where
  size : Nat
  padding : Nat
  align : Nat
  deriving DecidableEq, Repr, Inhabited

def Info.commit (info : Info) (width : Nat) : Info :=
  if width == 0 then info
  else
    let pad := Layout.padding info.size width
    { size := info.size + pad + width
      padding := info.padding + pad
      align := max info.align width }

def ofWidths (widths : List Nat) : Info :=
  widths.foldl Info.commit ⟨0, 0, 1⟩

/--
The inline region when the fields of `types` are committed in the given order, which may name a
field several times or not at all. There is none if the order names a field that does not exist.
-/
def calculate? (types : List FieldType) (order : List Int) : Option Info :=
  (order.mapM fun i => if i < 0 then none else types[i.toNat]?).map fun ts =>
    ofWidths (ts.map FieldType.width)

end Layout

end RecordCodec
