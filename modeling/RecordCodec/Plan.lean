import RecordCodec.Classify
import RecordCodec.Layout
import RecordCodec.Naming
import RecordCodec.Strategy
import Std.Data.TreeSet

/-!
This module contains plans: `assemble` turns a record description into the slots, the commit order
and the layout that its codec follows, or reports the first thing wrong with it.
-/

namespace RecordCodec

structure Declaration where
  name : String
  type : String
  deriving DecidableEq, Repr, Inhabited

structure Record where
  name : String
  fields : List Declaration
  deriving DecidableEq, Repr, Inhabited

structure Field where
  name : String
  typeText : String
  type : FieldType
  index : Nat
  slot : UInt16
  deriving DecidableEq, Repr, Inhabited

structure Plan where
  record : String
  fields : Array Field
  /-- The fields with an object outside the table, in declaration order. -/
  indirect : List Nat
  /-- All fields, in the order in which they are committed. -/
  commit : List Nat
  order : List Nat
  layout : Layout.Info
  deriving DecidableEq, Repr, Inhabited

namespace Plan

def find? (p : Plan) (name : String) : Option Nat :=
  p.fields.findIdx? (·.name == name)

def commitPosition? (p : Plan) (index : Int) : Option Nat :=
  if index < 0 then none else p.commit.findIdx? (· == index.toNat)

def vtableSize (p : Plan) : Nat :=
  Layout.metadataSize + Layout.slotSize * p.fields.size

def describe (p : Plan) : String :=
  p.record ++ " \x7b" ++ ",".intercalate (p.fields.toList.map field) ++ " \x7d"
where
  field (f : Field) : String := " " ++ f.name ++ "@" ++ toString f.slot.toNat ++ ":" ++ f.type.name

end Plan

def Field.ofDeclaration (d : Declaration) (t : FieldType) (index : Nat) : Field :=
  ⟨d.name, d.type, t, index, Layout.slot index⟩

def Plan.ofFields (record : String) (fields : List Field) : Plan :=
  let types := fields.map (·.type)
  let commit := Layout.commitOrder types
  let table := types.toArray
  { record := record
    fields := fields.toArray
    indirect := (types.zipIdx.filter (·.1.isIndirect)).map (·.2)
    commit := commit
    order := List.range fields.length
    layout := Layout.ofWidths (commit.map fun i => (table[i]?.map FieldType.width).getD 0) }

/--
Classify and place the declared fields, the first of which has the given index. Each needs an
identifier for its name that no earlier field has, and a supported type.
-/
def placeFields (record : String) (index : Nat) (seen : Std.TreeSet String) :
    List Declaration → Except Fault (List Field)
  | [] => .ok []
  | d :: ds => do
    unless Naming.isIdentifier d.name do
      throw (.invalidName .plan record d.name)
    if seen.contains d.name then
      throw (.duplicateField record d.name)
    let t ← classify record d.name d.type
    let rest ← placeFields record (index + 1) (seen.insert d.name) ds
    return Field.ofDeclaration d t index :: rest

/--
The plan of a record description. The record needs an identifier for its name and at most as many
fields as there are slots; the first field that is wrong is reported.
-/
def assemble (r : Record) : Except Fault Plan := do
  unless Naming.isIdentifier r.name do
    throw (.invalidName .plan r.name r.name)
  if Layout.maxFields < r.fields.length then
    throw { phase := .plan, kind := .invalidInput, record := r.name,
            detail := toString r.fields.length ++ " fields exceed the limit of "
              ++ toString Layout.maxFields }
  let fields ← placeFields r.name 0 ∅ r.fields
  return Plan.ofFields r.name fields

end RecordCodec
