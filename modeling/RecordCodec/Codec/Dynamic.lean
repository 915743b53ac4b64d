import RecordCodec.Codec.Binding
import Std.Data.TreeMap

/-!
This module contains struct types made for plans, for records that no struct type exists for.
-/

namespace RecordCodec

namespace Plan

def sharedName (record first second name : String) : Fault where
  phase := .bind
  kind := .duplicateField
  record := record
  path := [second]
  detail := Text.quote first ++ " and " ++ Text.quote second ++ " both map to Go field " ++ name

/--
The fields of the struct type of a plan: each has the exported name of a field and a tag with its
declared name. `seen` has the declared names by their exported names.
-/
def structMembers (record : String) (seen : Std.TreeMap String String) :
    List Field → Except Fault (List (Member HostType))
  | [] => .ok []
  | f :: fs => do
    let name := Naming.exported f.name
    if let some first := seen[name]? then
      throw (sharedName record first f.name name)
    let rest ← structMembers record (seen.insert name f.name) fs
    let tag := Tag.key ++ ":\"" ++ f.name ++ "\""
    return ⟨name, (f.type.hostType?).getD (.other "unknown"), tag, true⟩ :: rest

def structType (p : Plan) : Except Fault HostType := do
  return .struct (← structMembers p.record ∅ p.fields.toList)

end Plan

def Binding.dynamic (p : Plan) : Except Fault Binding := do
  Binding.ofPlan (some p) (some (← p.structType))

end RecordCodec
