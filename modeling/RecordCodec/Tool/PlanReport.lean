import RecordCodec.Plan
import RecordCodec.Text.Width

/-!
This module contains the reports on plans: as lines with tabs between the cells, and as tables.
-/

namespace RecordCodec.Tool

open RecordCodec.Text

def headings : List String :=
  ["field", "type", "slot", "priority", "commit", "encode", "decode"]

def cells (p : Plan) (f : Field) : List String :=
  [f.name, f.type.name, toString f.slot.toNat, toString (Layout.priority f.type),
    toString ((p.commitPosition? f.index).getD 0), f.type.encodeStrategy.name,
    f.type.decodeStrategy.name]

def rows (p : Plan) : List (List String) :=
  p.fields.toList.map (cells p)

def summary (p : Plan) : String :=
  p.record ++ ": " ++ toString p.fields.size ++ " fields, vtable " ++ toString p.vtableSize ++
    " bytes, inline " ++ toString p.layout.size ++ " bytes, padding " ++ toString p.layout.padding

def plainReport (plans : List Plan) : String :=
  let line (cells : List String) : String := "\t".intercalate cells ++ "\n"
  line ("record" :: headings) ++
    String.join (plans.flatMap fun p => (rows p).map fun row => line (p.record :: row))

/-! Tables. -/

def rule (left joint right : String) (widths : List Nat) : String :=
  left ++ joint.intercalate (widths.map fun n => String.join (List.replicate n "─")) ++ right

def tableLine (widths : List Nat) (cells : List String) : String :=
  "│" ++ "│".intercalate (List.zipWith (fun n cell => padTo n (" " ++ cell ++ " ")) widths cells)
    ++ "│"

def table (headings : List String) (rows : List (List String)) : String :=
  let widths := headings.zipIdx.map fun (heading, i) =>
    ((heading :: rows.map fun row => row[i]?.getD "").map width).foldl max 0 + 2
  "\n".intercalate ([rule "╭" "┬" "╮" widths, tableLine widths headings, rule "├" "┼" "┤" widths] ++
    rows.map (tableLine widths) ++ [rule "╰" "┴" "╯" widths])

def styledReport (plans : List Plan) : String :=
  "\n".intercalate (plans.map fun p =>
    " " ++ p.record ++ " \n" ++ table headings (rows p) ++ "\n" ++ summary p ++ "\n")

end RecordCodec.Tool
