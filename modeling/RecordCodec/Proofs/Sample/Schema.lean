import RecordCodec.Sample.Entity
import RecordCodec.Sample.Point
import RecordCodec.Schema.Load

/-!
This module contains the schema text of the records whose codecs are written out, and that it
describes these records.
-/

namespace RecordCodec

namespace Schema

theorem parse_yaml_eq_ok {text : String} {l : List Char} {s : Schema} (h : text.toList = l)
    (hallowed : l.all Yaml.isAllowed = true)
    (hnode : ((Yaml.firstDocument.run
      (Yaml.Scanner.run (l.length + 1) { cursor := { rest := l } }).toList).map Prod.fst).join.bind
        Yaml.Node.schema? = some s) (hrecords : s.records ≠ []) :
    parse .yaml text = .ok s := by
  have htokens : Yaml.tokenize text =
      (Yaml.Scanner.run (l.length + 1) { cursor := { rest := l } }).toList := by
    unfold Yaml.tokenize
    rw [h]
    simp only [hallowed, if_true]
  have hschema : Yaml.schema? text = some s := by
    unfold Yaml.schema? Yaml.parse?
    rw [htokens]
    generalize (Yaml.firstDocument.run _).map Prod.fst = document at hnode ⊢
    rcases document with _ | _ | node
    · contradiction
    · contradiction
    · exact hnode
  have hempty : s.records.isEmpty = false := by
    rw [List.isEmpty_eq_false_iff]
    exact hrecords
  unfold parse
  dsimp only
  rw [hschema]
  dsimp only
  rw [pure_bind, hempty]
  rfl

end Schema

namespace Sample

def schemaText : String :=
  "package: model\n" ++
  "output: leanbuffer_gen.go\n" ++
  "records:\n" ++
  "  - name: Entity\n" ++
  "    fields:\n" ++
  "      - \x7bname: id, type: u64\x7d\n" ++
  "      - \x7bname: flags, type: u8\x7d\n" ++
  "      - \x7bname: name, type: string\x7d\n" ++
  "      - \x7bname: nick, type: option<string>\x7d\n" ++
  "      - \x7bname: score, type: option<f64>\x7d\n" ++
  "      - \x7bname: grade, type: char\x7d\n" ++
  "      - \x7bname: tags, type: list<string>\x7d\n" ++
  "      - \x7bname: deltas, type: list<s8>\x7d\n" ++
  "      - \x7bname: raw, type: list<u8>\x7d\n" ++
  "      - \x7bname: marks, type: list<char>\x7d\n" ++
  "      - \x7bname: points, type: list<s32>\x7d\n" ++
  "      - \x7bname: level, type: option<u16>\x7d\n" ++
  "      - \x7bname: alt, type: option<char>\x7d\n" ++
  "      - \x7bname: active, type: bool\x7d\n" ++
  "  - name: Point\n" ++
  "    fields:\n" ++
  "      - \x7bname: x, type: f64\x7d\n" ++
  "      - \x7bname: y, type: f64\x7d\n"

theorem parse_schemaText :
    Schema.parse .yaml schemaText =
      .ok ⟨"model", "leanbuffer_gen.go", [entityRecord, pointRecord]⟩ := by
  refine Schema.parse_yaml_eq_ok (l := ?l) ?chars ?allowed ?node (by simp)
  case chars =>
    unfold schemaText
    simp only [String.toList_append, -String.reduceAppend, -String.reduceToList]
    repeat rewrite [String.toList_ofList]
    rfl
  case allowed => decide +kernel
  case node => decide +kernel

end Sample

end RecordCodec
