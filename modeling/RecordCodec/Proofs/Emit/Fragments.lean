import RecordCodec.Proofs.Emit.Agreement
import RecordCodec.Proofs.Emit.Rendering
import RecordCodec.Proofs.Planner.Acceptance

/-!
This module contains the code of emitted fragments. The text of a fragment renders the code of its
codec, so it is a source file.
-/

namespace RecordCodec.Emit

open RecordCodec.Source Code

/-! Lines. -/

theorem join_append (xs : List α) (f : α → String) (rest : String) :
    String.join (xs.map fun x => "\n" ++ f x) ++ ("\n" ++ rest) =
      "\n" ++ (String.join (xs.map fun x => f x ++ "\n") ++ rest) := by
  induction xs with
  | nil => simp
  | cons x xs ih =>
    simp only [List.map_cons, String.join_cons, String.append_assoc]
    rw [ih]

def lines (statements : List String) : String :=
  String.join (statements.map fun s => "\t" ++ (s ++ "\n"))

theorem indented_append (statements : List String) (rest : String) :
    indented statements ++ ("\n" ++ rest) = "\n" ++ (lines statements ++ rest) := by
  have hsplit := append_of_eq (by decide : "\n\t" = "\n" ++ "\t")
  simp only [indented, lines, hsplit, join_append, String.append_assoc]

theorem renders_lines {xs : List α} {f : α → String} {g : α → List Lexeme}
    (h : ∀ x ∈ xs, Renders (f x ++ "\n") (g x)) :
    Renders (lines (xs.map f)) (xs.map g).flatten := by
  unfold lines
  rw [List.map_map]
  apply Renders.join
  intro x hx
  exact renders_tab (h x hx)

theorem isInner_of_isNameChar {c : Char} (h : Naming.isNameChar c = true) :
    Piece.isInner c = true := by
  unfold Piece.isInner
  simp only [Bool.and_eq_true, bne_iff_ne]
  refine ⟨⟨⟨⟨?_, ?_⟩, ?_⟩, ?_⟩, Piece.isLegal_of_isNameChar h⟩ <;>
    exact Naming.ne_of_isNameChar h (by decide)

theorem all_isInner {x : String} (h : Naming.isIdentifier x = true) :
    x.toList.all Piece.isInner = true := by
  rw [List.all_eq_true]
  intro c hc
  exact isInner_of_isNameChar ((Naming.all_of_isIdentifier h).2 c hc)

theorem renders_comment {body : String} (h : body.toList.all Piece.isInner = true) :
    Renders ("// " ++ body ++ "\n") [] := by
  have hcomment : Spells ("// " ++ body) [.comment body] := by
    constructor
    · simp [Piece.text]
    · simpa [Piece.isProper] using h
  exact ⟨_, hcomment.append spells_line, fun _ h => h, fun _ => rfl⟩

/-! Types. -/

def typeForm (t : FieldType) : TypeForm :=
  match t.shape with
  | .sequence =>
    .sequence (if !t.text && t.scalar == .u8 then "byte" else FieldType.spelling.elemSpelling t)
  | .optional => .optional (FieldType.spelling.elemSpelling t)
  | .text => .value "string"
  | _ => .value t.scalar.spelling

def Code.TypeForm.name : TypeForm → String
  | value x | sequence x | optional x => x

def Code.TypeForm.pieces : TypeForm → List Piece
  | value x => [.name x]
  | sequence x => [.operator "[", .operator "]", .name x]
  | optional x => [.operator "*", .name x]

theorem spells_spelling {t : FieldType} (h : t.isKnown = true) :
    Spells t.spelling (typeForm t).pieces := by
  have hscalar := IsName.scalar (FieldType.isValid_of_isKnown h)
  have helem : IsName (FieldType.spelling.elemSpelling t) := by
    unfold FieldType.spelling.elemSpelling
    split
    · decide
    · exact hscalar
  have hslice : Spells "[]" [.operator "[", .operator "]"] := by decide
  have hpointer : Spells "*" [.operator "*"] := by decide
  unfold FieldType.spelling typeForm
  cases hshape : t.shape with
  | unknown code => simp [FieldType.isKnown, hshape] at h
  | scalar => exact hscalar.spells
  | text => exact (by decide : Spells "string" [.name "string"])
  | optional => exact hpointer.append helem.spells
  | sequence =>
    dsimp only
    split
    · exact (by decide : Spells "[]byte" [.operator "[", .operator "]", .name "byte"])
    · exact hslice.append helem.spells

/-! Structs. -/

def StructField.code (f : StructField) : FieldSpec where
  name := f.name
  type := typeForm f.type
  tag := (Piece.raw ("lb:\"" ++ f.declared ++ "\"")).text

def StructField.text (f : StructField) : String :=
  f.name ++ " " ++ f.type.spelling ++ " `lb:\"" ++ f.declared ++ "\"`"

structure StructField.IsProper (f : StructField) : Prop where
  isName : IsName f.name
  isKnown : f.type.isKnown = true
  isIdentifier : Naming.isIdentifier f.declared = true

theorem StructField.renders {f : StructField} (h : f.IsProper) :
    Renders (f.text ++ "\n") f.code.lexemes := by
  obtain ⟨name, type, declared⟩ := f
  obtain ⟨hname, hknown, hdeclared⟩ := h
  have hspace : Spells " " [.space] := by decide
  have htag : Spells (Piece.raw ("lb:\"" ++ declared ++ "\"")).text
      [.raw ("lb:\"" ++ declared ++ "\"")] := by
    constructor
    · exact (List.append_nil _).symm
    · have hinner := all_isInner hdeclared
      simp only [List.all_cons, List.all_nil, Bool.and_true, Piece.isProper, String.toList_append,
        List.all_append, hinner]
      decide
  have htext : text ⟨name, type, declared⟩ ++ "\n" = name ++ " " ++ type.spelling ++ " " ++
      (Piece.raw ("lb:\"" ++ declared ++ "\"")).text ++ "\n" := by
    have hopen := append_of_eq (by decide : " `lb:\"" = " " ++ "`lb:\"")
    have hlb := append_of_eq (by decide : "`lb:\"" = "`" ++ "lb:\"")
    have hclose := append_of_eq (by decide : "\"`" = "\"" ++ "`")
    simp only [text, Piece.text, String.append_assoc, hopen, hlb, hclose]
  have hspelling : Spells type.spelling (typeForm type).pieces := spells_spelling hknown
  rw [htext]
  unfold code FieldSpec.lexemes
  dsimp only
  generalize typeForm type = form at hspelling ⊢
  have hspells := ((((hname.spells.append hspace).append hspelling).append hspace).append
    htag).append spells_line
  cases form <;> exact ⟨_, hspells, fun _ h => h, fun _ => rfl⟩

def Init.code (s : Init) : Filler where
  field := s.name
  type := (typeForm s.type).name

structure Init.IsProper (s : Init) : Prop where
  isName : IsName s.name
  isKnown : s.type.isKnown = true
  isSequence : s.type.shape = .sequence

theorem Init.renders {s : Init} (h : s.IsProper) :
    Renders (s.text ++ "," ++ "\n") s.code.lexemes := by
  obtain ⟨name, type⟩ := s
  obtain ⟨hname, hknown, hsequence⟩ := h
  have hcolon : Spells ": " [.operator ":", .space] := by decide
  have hbraces : Spells "\x7b\x7d" [.operator "\x7b", .operator "\x7d"] := by decide
  have hcomma : Spells "," [.operator ","] := by decide
  have hspelling : Spells type.spelling (typeForm type).pieces := spells_spelling hknown
  obtain ⟨x, hx⟩ : ∃ x, typeForm type = .sequence x := by
    unfold typeForm
    rw [show type.shape = .sequence from hsequence]
    exact ⟨_, rfl⟩
  unfold code Filler.lexemes
  dsimp only
  rw [hx] at hspelling ⊢
  have hspells := ((((hname.spells.append hcolon).append hspelling).append hbraces).append
    hcomma).append spells_line
  exact ⟨_, hspells, fun _ h => h, fun _ => rfl⟩

/-! Declarations. -/

theorem spells_type : Spells "type " [.word "type", .space] := by decide

theorem spells_receiver : Spells "func (" [.word "func", .space, .operator "("] := by decide

theorem spells_openBlock : Spells " \x7b\n" [.space, .operator "\x7b", .line] := by decide

namespace Codec

structure IsProper (c : Codec) : Prop where
  record : Naming.isIdentifier c.record = true
  fields : ∀ f ∈ c.fields, f.IsProper
  inits : ∀ s ∈ c.inits, s.IsProper
  builds : ∀ s ∈ c.builds, IsName s.name
  commits : ∀ s ∈ c.commits, s.IsProper
  decodes : ∀ s ∈ c.decodes, s.IsProper

variable {c : Codec}

namespace IsProper

theorem isName (h : c.IsProper) : IsName c.name :=
  .exported h.record

theorem isName_factory (h : c.IsProper) : IsName (c.name ++ "Factory") :=
  .factory h.record

theorem isName_constructor (h : c.IsProper) : IsName ("New" ++ c.name) :=
  .constructor h.record

end IsProper

def structCode (c : Codec) : Code.Decl :=
  .struct c.name (c.fields.map StructField.code)

theorem renders_structText (h : c.IsProper) : Renders (structText c) c.structCode.lexemes := by
  have hcomment : Renders ("// " ++ (c.name ++ (" is the " ++ (c.record ++ " record."))) ++ "\n")
      [] := by
    apply renders_comment
    simp only [String.toList_append, List.all_append, all_isInner h.isName.isIdentifier,
      all_isInner h.record]
    decide
  have hopen : Renders ("type " ++ c.name ++ " struct \x7b\n")
      [.key "type", .ident c.name, .key "struct", .op "\x7b"] := by
    have hstruct : Spells " struct \x7b\n"
        [.space, .word "struct", .space, .operator "\x7b", .line] := by
      decide
    exact ⟨_, (spells_type.append h.isName.spells).append hstruct, fun _ h => h, fun _ => rfl⟩
  have hfields := renders_lines fun f hf => StructField.renders (h.fields f hf)
  have htext : structText c =
      "// " ++ (c.name ++ (" is the " ++ (c.record ++ " record."))) ++ "\n" ++
        ("type " ++ c.name ++ " struct \x7b\n" ++
          (lines (c.fields.map StructField.text) ++ "\x7d\n")) := by
    have hrecord := append_of_eq (by decide : " record.\ntype " = " record." ++ "\ntype ")
    have htype := append_of_eq (by decide : "\ntype " = "\n" ++ "type ")
    have hstruct := append_of_eq (by decide : " struct \x7b\n" = " struct \x7b" ++ "\n")
    have hclose : "\n\x7d\n" = "\n" ++ "\x7d\n" := by decide
    change "// " ++ c.name ++ " is the " ++ c.record ++ " record.\ntype " ++ c.name ++
      " struct \x7b" ++ indented (c.fields.map StructField.text) ++ "\n\x7d\n" = _
    simp only [String.append_assoc, hrecord, htype, hstruct, hclose, indented_append,
      -String.reduceAppend]
  have hrenders := hcomment.append (hopen.append (hfields.append renders_close))
  rw [htext]
  simpa [structCode, Decl.lexemes, structLexemes, Function.comp_def] using hrenders

def constructorCode (c : Codec) : Code.Decl :=
  .function (.constructor ("New" ++ c.name) c.name)
    (.statements [.giveBack (.record c.name (c.inits.map Init.code))])

def newText (c : Codec) : String :=
  c.name ++ (if c.inits.isEmpty then "\x7b\x7d"
    else "\x7b" ++ String.join (c.inits.map fun s => "\n\t\t" ++ s.text ++ ",") ++ "\n\t\x7d")

theorem renders_newText (h : c.IsProper) : Renders ("\treturn " ++ (c.newText ++ "\n"))
    (Statement.giveBack (.record c.name (c.inits.map Init.code))).lexemes := by
  have hreturn : Spells "\treturn " [.tab, .word "return", .space] := by decide
  have hname := h.isName.spells
  unfold newText
  cases hinits : c.inits with
  | nil =>
    have hbraces : Spells "\x7b\x7d" [.operator "\x7b", .operator "\x7d"] := by decide
    have hspells := hreturn.append ((hname.append hbraces).append spells_line)
    exact ⟨_, hspells, fun _ h => h, fun _ => rfl⟩
  | cons s ss =>
    rw [← hinits]
    have hopen : Renders ("\treturn " ++ (c.name ++ "\x7b\n"))
        [.key "return", .ident c.name, .op "\x7b"] := by
      have hbrace : Spells "\x7b\n" [.operator "\x7b", .line] := by decide
      exact ⟨_, hreturn.append (hname.append hbrace), fun _ h => h, fun _ => rfl⟩
    have hfillers := Renders.join fun s hs =>
      renders_tab (renders_tab (Init.renders (h.inits s hs)))
    have hclose : Renders "\t\x7d\n" [.op "\x7d", .lineEnd] :=
      ⟨[.tab, .operator "\x7d", .line], by decide, fun _ h => h, fun _ => rfl⟩
    have htext : "\treturn " ++ (c.name ++ ("\x7b" ++ String.join (c.inits.map fun s =>
        "\n\t\t" ++ s.text ++ ",") ++ "\n\t\x7d") ++ "\n") = "\treturn " ++ (c.name ++ "\x7b\n") ++
          (String.join (c.inits.map fun s => "\t" ++ ("\t" ++ (s.text ++ "," ++ "\n"))) ++
            "\t\x7d\n") := by
      have hsplit := append_of_eq (by decide : "\n\t\t" = "\n" ++ "\t\t")
      have htabs := append_of_eq (by decide : "\t\t" = "\t" ++ "\t")
      have hends : "\n\t\x7d" ++ "\n" = "\n" ++ "\t\x7d\n" := by decide
      have hbrace := append_of_eq (by decide : "\x7b\n" = "\x7b" ++ "\n")
      simp only [String.append_assoc, hsplit, hends, hbrace, join_append, htabs,
        -String.reduceAppend]
    have hrenders := hopen.append (hfillers.append hclose)
    rw [if_neg (by simp [hinits]), htext]
    simpa [Statement.lexemes, Result.lexemes, Function.comp_def] using hrenders

theorem renders_constructorText (h : c.IsProper) :
    Renders (constructorText c) c.constructorCode.lexemes := by
  have hcomment : Renders ("// " ++ ("New" ++ (c.name ++ (" returns a " ++ (c.name ++
      " holding every field default.")))) ++ "\n") [] := by
    apply renders_comment
    simp only [String.toList_append, List.all_append, all_isInner h.isName.isIdentifier]
    decide
  have hopen : Renders ("func " ++ ("New" ++ c.name) ++ "() " ++ c.name ++ " \x7b\n")
      [.key "func", .ident ("New" ++ c.name), .op "(", .op ")", .ident c.name, .op "\x7b"] := by
    have hfunc : Spells "func " [.word "func", .space] := by decide
    have hparens : Spells "() " [.operator "(", .operator ")", .space] := by decide
    have hspells := (((hfunc.append h.isName_constructor.spells).append hparens).append
      h.isName.spells).append spells_openBlock
    exact ⟨_, hspells, fun _ h => h, fun _ => rfl⟩
  have htext : constructorText c = "// " ++ ("New" ++ (c.name ++ (" returns a " ++ (c.name ++
      " holding every field default.")))) ++ "\n" ++ ("func " ++ ("New" ++ c.name) ++ "() " ++
        c.name ++ " \x7b\n" ++ ("\treturn " ++ (c.newText ++ "\n") ++ "\x7d\n")) := by
    have hnew := append_of_eq (by decide : "// New" = "// " ++ "New")
    have hholding := append_of_eq (by decide : " holding every field default.\nfunc New" =
      " holding every field default." ++ "\nfunc New")
    have hfunc := append_of_eq (by decide : "\nfunc New" = "\n" ++ "func New")
    have hfuncNew := append_of_eq (by decide : "func New" = "func " ++ "New")
    have hreturn := append_of_eq (by decide : " \x7b\n\treturn " = " \x7b\n" ++ "\treturn ")
    have hclose : "\n\x7d\n" = "\n" ++ "\x7d\n" := by decide
    unfold constructorText newText
    simp only [String.append_assoc, hnew, hholding, hfunc, hfuncNew, hreturn, hclose,
      -String.reduceAppend]
  have hrenders := hcomment.append (hopen.append ((renders_newText h).append renders_close))
  rw [htext]
  simpa [constructorCode, Decl.lexemes, Head.lexemes, Body.lexemes, blockLexemes] using hrenders

def flattenCode (c : Codec) : Code.Decl :=
  .function (.writer "o" c.name "Flatten" "b" "flatbuffers" "Builder") (.statements
    ([Statement.act (.call ⟨.method "b" "Reset", []⟩)] ++ c.builds.flatMap Build.code ++
      [Statement.act (.call ⟨.method "b" "StartObject", [.number c.fields.length]⟩)] ++
      c.commits.map Commit.code ++
      [Statement.act (.call ⟨.method "b" "Finish", [.result "b" "EndObject"]⟩)]))

theorem renders_flattenText (h : c.IsProper) :
    Renders (flattenText c) c.flattenCode.lexemes := by
  have hcomment : Renders "// Flatten resets b and encodes o as a finished table.\n" [] :=
    ⟨[.comment "Flatten resets b and encodes o as a finished table.", .line], by decide,
      fun _ h => h, fun _ => rfl⟩
  have hopen : Renders ("func (o *" ++ c.name ++ ") Flatten(b *flatbuffers.Builder) \x7b\n")
      ((Head.writer "o" c.name "Flatten" "b" "flatbuffers" "Builder").lexemes ++ [.op "\x7b"]) := by
    have hreceiver : Spells "func (o *"
        [.word "func", .space, .operator "(", .name "o", .space, .operator "*"] := by
      decide
    have hmethod : Spells ") Flatten(b *flatbuffers.Builder) \x7b\n"
        [.operator ")", .space, .name "Flatten", .operator "(", .name "b", .space, .operator "*",
          .name "flatbuffers", .operator ".", .name "Builder", .operator ")", .space,
          .operator "\x7b", .line] := by
      decide
    exact ⟨_, (hreceiver.append h.isName.spells).append hmethod, fun _ h => h, fun _ => rfl⟩
  have hreset : Renders "\tb.Reset()\n"
      (Statement.act (.call ⟨.method "b" "Reset", []⟩)).lexemes :=
    ⟨[.tab, .name "b", .operator ".", .name "Reset", .operator "(", .operator ")", .line],
      by decide, fun _ h => h, fun _ => rfl⟩
  have hstart : Renders ("\tb.StartObject(" ++ toString c.fields.length ++ ")\n")
      (Statement.act (.call ⟨.method "b" "StartObject", [.number c.fields.length]⟩)).lexemes := by
    have hcall : Spells "\tb.StartObject("
        [.tab, .name "b", .operator ".", .name "StartObject", .operator "("] := by
      decide
    have hend : Spells ")\n" [.operator ")", .line] := by decide
    exact ⟨_, (hcall.append (.number _)).append hend, fun _ h => h, fun _ => rfl⟩
  have hfinish : Renders "\tb.Finish(b.EndObject())\n"
      (Statement.act (.call ⟨.method "b" "Finish", [.result "b" "EndObject"]⟩)).lexemes :=
    ⟨[.tab, .name "b", .operator ".", .name "Finish", .operator "(", .name "b", .operator ".",
      .name "EndObject", .operator "(", .operator ")", .operator ")", .line],
      by decide, fun _ h => h, fun _ => rfl⟩
  have hbuilds : Renders (lines (c.builds.map Build.text)) _ :=
    renders_lines fun s hs => Build.renders (h.builds s hs)
  have hcommits : Renders (lines (c.commits.map Commit.text)) _ :=
    renders_lines fun s hs => Commit.renders (h.commits s hs)
  have htext : flattenText c = "// Flatten resets b and encodes o as a finished table.\n" ++
      ("func (o *" ++ c.name ++ ") Flatten(b *flatbuffers.Builder) \x7b\n" ++
        ("\tb.Reset()\n" ++ (lines (c.builds.map Build.text) ++
          ("\tb.StartObject(" ++ toString c.fields.length ++ ")\n" ++
            (lines (c.commits.map Commit.text) ++
              ("\tb.Finish(b.EndObject())\n" ++ "\x7d\n")))))) := by
    have hfunc := append_of_eq (by decide :
      "// Flatten resets b and encodes o as a finished table.\nfunc (o *" =
        "// Flatten resets b and encodes o as a finished table.\n" ++ "func (o *")
    have hmethod := append_of_eq (by decide :
      ") Flatten(b *flatbuffers.Builder) \x7b\n\tb.Reset()" =
        ") Flatten(b *flatbuffers.Builder) \x7b\n" ++ "\tb.Reset()")
    have hreset := append_of_eq (by decide : "\tb.Reset()\n" = "\tb.Reset()" ++ "\n")
    have hstart := append_of_eq (by decide : "\n\tb.StartObject(" = "\n" ++ "\tb.StartObject(")
    have hparen := append_of_eq (by decide : ")\n" = ")" ++ "\n")
    have hfinish : "\n\tb.Finish(b.EndObject())\n\x7d\n" =
        "\n" ++ ("\tb.Finish(b.EndObject())\n" ++ "\x7d\n") := by
      decide
    unfold flattenText
    simp only [String.append_assoc, hfunc, hmethod, hreset, hstart, hparen, hfinish,
      indented_append, -String.reduceAppend]
  have hrenders := hcomment.append (hopen.append (hreset.append (hbuilds.append (hstart.append
    (hcommits.append (hfinish.append renders_close))))))
  rw [htext]
  simpa [flattenCode, Decl.lexemes, Body.lexemes, blockLexemes, Function.comp_def,
    List.map_flatMap, List.flatMap_def, List.flatten_flatten] using hrenders

def factoryCode (c : Codec) : List Code.Decl :=
  [.struct (c.name ++ "Factory") [],
    .function (.creator (c.name ++ "Factory") "New" c.name) (.result ("New" ++ c.name)),
    .function (.reader (c.name ++ "Factory") "Inflate" "r" "table" "Reader" c.name) (.statements
      ([Statement.act (.set (.name "o") .define (.call ⟨.function ("New" ++ c.name), []⟩))] ++
        c.decodes.map Decode.code ++ [Statement.giveBack (.value (.arg (.name "o")))]))]

theorem renders_factoryType (h : c.IsProper) :
    Renders ("// " ++ (c.name ++ ("Factory creates and decodes " ++ (c.name ++ " records."))) ++
      "\n" ++ ("type " ++ (c.name ++ "Factory") ++ " struct\x7b\x7d\n" ++ "\n"))
      (Code.Decl.struct (c.name ++ "Factory") []).lexemes := by
  have hcomment : Renders ("// " ++ (c.name ++ ("Factory creates and decodes " ++ (c.name ++
      " records."))) ++ "\n") [] := by
    apply renders_comment
    simp only [String.toList_append, List.all_append, all_isInner h.isName.isIdentifier]
    decide
  have hstruct : Spells " struct\x7b\x7d\n"
      [.space, .word "struct", .operator "\x7b", .operator "\x7d", .line] := by
    decide
  have hspells := ((spells_type.append h.isName_factory.spells).append hstruct).append spells_line
  exact hcomment.append ⟨_, hspells, fun _ h => h, fun _ => rfl⟩

theorem renders_factoryNew (h : c.IsProper) :
    Renders ("// " ++ ("New returns New" ++ (c.name ++ "().")) ++ "\n" ++ ("func (" ++
      (c.name ++ "Factory") ++ ") New() " ++ c.name ++ " \x7b return " ++ ("New" ++ c.name) ++
        "() \x7d\n" ++ "\n"))
      (Code.Decl.function (.creator (c.name ++ "Factory") "New" c.name)
        (.result ("New" ++ c.name))).lexemes := by
  have hcomment : Renders ("// " ++ ("New returns New" ++ (c.name ++ "().")) ++ "\n") [] := by
    apply renders_comment
    simp only [String.toList_append, List.all_append, all_isInner h.isName.isIdentifier]
    decide
  have hnew : Spells ") New() " [.operator ")", .space, .name "New", .operator "(", .operator ")",
      .space] := by
    decide
  have hreturn : Spells " \x7b return "
      [.space, .operator "\x7b", .space, .word "return", .space] := by
    decide
  have hclose : Spells "() \x7d\n"
      [.operator "(", .operator ")", .space, .operator "\x7d", .line] := by
    decide
  have hspells := ((((((spells_receiver.append h.isName_factory.spells).append hnew).append
    h.isName.spells).append hreturn).append h.isName_constructor.spells).append hclose).append
      spells_line
  exact hcomment.append ⟨_, hspells, fun _ h => h, fun _ => rfl⟩

theorem renders_factoryInflate (h : c.IsProper) :
    Renders ("// Inflate decodes the table r points at. Missing or invalid fields keep\n" ++
      ("// their defaults.\n" ++ ("func (" ++ (c.name ++ "Factory") ++
        ") Inflate(r table.Reader) " ++ c.name ++ " \x7b\n" ++ ("\to := " ++ ("New" ++ c.name) ++
          "()\n" ++ (lines (c.decodes.map Decode.text) ++ ("\treturn o\n" ++ "\x7d\n"))))))
      (Code.Decl.function (.reader (c.name ++ "Factory") "Inflate" "r" "table" "Reader" c.name)
        (.statements ([Statement.act (.set (.name "o") .define
          (.call ⟨.function ("New" ++ c.name), []⟩))] ++ c.decodes.map Decode.code ++
            [Statement.giveBack (.value (.arg (.name "o")))]))).lexemes := by
  have hcomment : Renders
      "// Inflate decodes the table r points at. Missing or invalid fields keep\n" [] :=
    ⟨[.comment "Inflate decodes the table r points at. Missing or invalid fields keep", .line],
      by decide, fun _ h => h, fun _ => rfl⟩
  have hdefaults : Renders "// their defaults.\n" [] :=
    ⟨[.comment "their defaults.", .line], by decide, fun _ h => h, fun _ => rfl⟩
  have hopen : Renders ("func (" ++ (c.name ++ "Factory") ++ ") Inflate(r table.Reader) " ++
      c.name ++ " \x7b\n") ((Head.reader (c.name ++ "Factory") "Inflate" "r" "table" "Reader"
        c.name).lexemes ++ [.op "\x7b"]) := by
    have hmethod : Spells ") Inflate(r table.Reader) "
        [.operator ")", .space, .name "Inflate", .operator "(", .name "r", .space, .name "table",
          .operator ".", .name "Reader", .operator ")", .space] := by
      decide
    have hspells := (((spells_receiver.append h.isName_factory.spells).append hmethod).append
      h.isName.spells).append spells_openBlock
    exact ⟨_, hspells, fun _ h => h, fun _ => rfl⟩
  have hnew : Renders ("\to := " ++ ("New" ++ c.name) ++ "()\n") (Statement.act (.set (.name "o")
      .define (.call ⟨.function ("New" ++ c.name), []⟩))).lexemes := by
    have hdefine : Spells "\to := " [.tab, .name "o", .space, .operator ":=", .space] := by decide
    have hparens : Spells "()\n" [.operator "(", .operator ")", .line] := by decide
    have hspells := (hdefine.append h.isName_constructor.spells).append hparens
    exact ⟨_, hspells, fun _ h => h, fun _ => rfl⟩
  have hdecodes : Renders (lines (c.decodes.map Decode.text)) _ :=
    renders_lines fun s hs => Decode.renders (h.decodes s hs)
  have hreturn : Renders "\treturn o\n"
      (Statement.giveBack (.value (.arg (.name "o")))).lexemes :=
    ⟨[.tab, .word "return", .space, .name "o", .line], by decide, fun _ h => h, fun _ => rfl⟩
  have hrenders := hcomment.append (hdefaults.append (hopen.append (hnew.append (hdecodes.append
    (hreturn.append renders_close)))))
  simpa [Decl.lexemes, Body.lexemes, blockLexemes, Function.comp_def] using hrenders

theorem renders_factoryText (h : c.IsProper) :
    Renders (factoryText c) (c.factoryCode.map Decl.lexemes).flatten := by
  have htext : factoryText c =
      "// " ++ (c.name ++ ("Factory creates and decodes " ++ (c.name ++ " records."))) ++ "\n" ++
        ("type " ++ (c.name ++ "Factory") ++ " struct\x7b\x7d\n" ++ "\n") ++
      ("// " ++ ("New returns New" ++ (c.name ++ "().")) ++ "\n" ++ ("func (" ++
        (c.name ++ "Factory") ++ ") New() " ++ c.name ++ " \x7b return " ++ ("New" ++ c.name) ++
          "() \x7d\n" ++ "\n") ++
      ("// Inflate decodes the table r points at. Missing or invalid fields keep\n" ++
        ("// their defaults.\n" ++ ("func (" ++ (c.name ++ "Factory") ++
          ") Inflate(r table.Reader) " ++ c.name ++ " \x7b\n" ++ ("\to := " ++ ("New" ++ c.name) ++
            "()\n" ++ (lines (c.decodes.map Decode.text) ++ ("\treturn o\n" ++ "\x7d\n"))))))) := by
    have hrecords := append_of_eq (by decide : " records.\ntype " = " records." ++ "\ntype ")
    have htype := append_of_eq (by decide : "\ntype " = "\n" ++ "type ")
    have hstruct := append_of_eq (by decide : "Factory struct\x7b\x7d\n\n// New returns New" =
      "Factory" ++ " struct\x7b\x7d\n\n// New returns New")
    have hbraces := append_of_eq (by decide : " struct\x7b\x7d\n\n// New returns New" =
      " struct\x7b\x7d\n" ++ "\n// New returns New")
    have hnew := append_of_eq (by decide : "\n// New returns New" = "\n" ++ "// New returns New")
    have hreturns := append_of_eq (by decide : "// New returns New" = "// " ++ "New returns New")
    have hparens := append_of_eq (by decide : "().\nfunc (" = "()." ++ "\nfunc (")
    have hfunc := append_of_eq (by decide : "\nfunc (" = "\n" ++ "func (")
    have hmethod := append_of_eq (by decide : "Factory) New() " = "Factory" ++ ") New() ")
    have hreturn := append_of_eq (by decide : " \x7b return New" = " \x7b return " ++ "New")
    have hclose := append_of_eq (by decide : "() \x7d\n\n" = "() \x7d\n" ++ "\n")
    have hdefaults := append_of_eq (by decide : "// their defaults.\nfunc (" =
      "// their defaults.\n" ++ "func (")
    have hinflate := append_of_eq (by decide : "Factory) Inflate(r table.Reader) " =
      "Factory" ++ ") Inflate(r table.Reader) ")
    have hdefine := append_of_eq (by decide : " \x7b\n\to := New" = " \x7b\n" ++ "\to := New")
    have hname := append_of_eq (by decide : "\to := New" = "\to := " ++ "New")
    have hcall := append_of_eq (by decide : "()\n" = "()" ++ "\n")
    have hends : "\n\treturn o\n\x7d\n" = "\n" ++ ("\treturn o\n" ++ "\x7d\n") := by decide
    unfold factoryText
    simp only [String.append_assoc, hrecords, htype, hstruct, hbraces, hnew, hreturns, hparens,
      hfunc, hmethod, hreturn, hclose, hdefaults, hinflate, hdefine, hname, hcall, hends,
      indented_append, -String.reduceAppend]
  have hrenders := (renders_factoryType h).append ((renders_factoryNew h).append
    (renders_factoryInflate h))
  rw [htext]
  simpa only [factoryCode, List.map_cons, List.map_nil, List.flatten_cons, List.flatten_nil,
    List.append_nil] using hrenders

def assertionCode (c : Codec) : Code.Decl :=
  .assertions "leanbuffer" "Adapter" "Factory" c.name (c.name ++ "Factory")

theorem renders_assertionText (h : c.IsProper) :
    Renders (assertionText c) c.assertionCode.lexemes := by
  have hadapter : Renders ("var (\n\t_ leanbuffer.Adapter = (*" ++ c.name ++ ")(nil)\n")
      [.key "var", .op "(", .ident "_", .ident "leanbuffer", .op ".", .ident "Adapter", .op "=",
        .op "(", .op "*", .ident c.name, .op ")", .op "(", .ident "nil", .op ")", .lineEnd] := by
    have hvar : Spells "var (\n\t_ leanbuffer.Adapter = (*"
        [.word "var", .space, .operator "(", .line, .tab, .name "_", .space, .name "leanbuffer",
          .operator ".", .name "Adapter", .space, .operator "=", .space, .operator "(",
          .operator "*"] := by
      decide
    have hnil : Spells ")(nil)\n"
        [.operator ")", .operator "(", .name "nil", .operator ")", .line] := by
      decide
    exact ⟨_, (hvar.append h.isName.spells).append hnil, fun _ h => h, fun _ => rfl⟩
  have hfactory : Renders ("\t_ leanbuffer.Factory[" ++ c.name ++ "] = " ++ (c.name ++ "Factory") ++
      "\x7b\x7d\n)\n") [.ident "_", .ident "leanbuffer", .op ".", .ident "Factory", .op "[",
        .ident c.name, .op "]", .op "=", .ident (c.name ++ "Factory"), .op "\x7b", .op "\x7d",
        .lineEnd, .op ")", .lineEnd] := by
    have hgeneric : Spells "\t_ leanbuffer.Factory[" [.tab, .name "_", .space, .name "leanbuffer",
        .operator ".", .name "Factory", .operator "["] := by
      decide
    have hassign : Spells "] = " [.operator "]", .space, .operator "=", .space] := by decide
    have hclose : Spells "\x7b\x7d\n)\n" [.operator "\x7b", .operator "\x7d", .line, .operator ")",
        .line] := by
      decide
    have hspells := (((hgeneric.append h.isName.spells).append hassign).append
      h.isName_factory.spells).append hclose
    exact ⟨_, hspells, fun _ h => h, fun _ => rfl⟩
  have htext : assertionText c = "var (\n\t_ leanbuffer.Adapter = (*" ++ c.name ++ ")(nil)\n" ++
      ("\t_ leanbuffer.Factory[" ++ c.name ++ "] = " ++ (c.name ++ "Factory") ++
        "\x7b\x7d\n)\n") := by
    have hsplit := append_of_eq (by decide : ")(nil)\n\t_ leanbuffer.Factory[" =
      ")(nil)\n" ++ "\t_ leanbuffer.Factory[")
    have hfactory : "Factory\x7b\x7d\n)\n" = "Factory" ++ "\x7b\x7d\n)\n" := by decide
    unfold assertionText
    simp only [String.append_assoc, hsplit, hfactory, -String.reduceAppend]
  rw [htext]
  exact hadapter.append hfactory

end Codec

/-! Files. -/

theorem isImportPath_paths :
    isImportPath "\"github.com/google/flatbuffers/go\"" = true ∧
      isImportPath "\"github.com/wippyai/leanbuffer\"" = true ∧
      isImportPath "\"github.com/wippyai/leanbuffer/table\"" = true := by
  decide +kernel

def imports : List Code.Import :=
  [⟨some "flatbuffers", "\"github.com/google/flatbuffers/go\"", isImportPath_paths.1⟩,
    ⟨none, "\"github.com/wippyai/leanbuffer\"", isImportPath_paths.2.1⟩,
    ⟨none, "\"github.com/wippyai/leanbuffer/table\"", isImportPath_paths.2.2⟩]

theorem renders_preambleText {package : String} (h : IsName package) :
    Renders (preambleText package)
      ([Lexeme.key "package", .ident package, .lineEnd] ++ importsLexemes imports) := by
  have hheader : Renders (header ++ "\n") [] :=
    ⟨[.comment "Code generated by leangen. DO NOT EDIT.", .line], by decide, fun _ h => h,
      fun _ => rfl⟩
  have hclause : Renders ("\npackage " ++ package ++ "\n\n")
      [.key "package", .ident package, .lineEnd] := by
    have hpackage : Spells "\npackage " [.line, .word "package", .space] := by decide
    have hlines : Spells "\n\n" [.line, .line] := by decide
    exact ⟨_, (hpackage.append h.spells).append hlines, fun _ h => h, fun _ => rfl⟩
  have himport : Renders "import (\n\tflatbuffers \"github.com/google/flatbuffers/go\"\n\n"
      [.key "import", .op "(", .ident "flatbuffers",
        (.string, "\"github.com/google/flatbuffers/go\""), .lineEnd] :=
    ⟨[.word "import", .space, .operator "(", .line, .tab, .name "flatbuffers", .space,
      .quoted "github.com/google/flatbuffers/go", .line, .line], by decide, fun _ h => h,
      fun _ => rfl⟩
  have hothers : Renders ("\t\"github.com/wippyai/leanbuffer\"\n" ++
      "\t\"github.com/wippyai/leanbuffer/table\"\n)\n")
      [(.string, "\"github.com/wippyai/leanbuffer\""), .lineEnd,
        (.string, "\"github.com/wippyai/leanbuffer/table\""), .lineEnd, .op ")", .lineEnd] :=
    ⟨[.tab, .quoted "github.com/wippyai/leanbuffer", .line, .tab,
      .quoted "github.com/wippyai/leanbuffer/table", .line, .operator ")", .line], by decide,
      fun _ h => h, fun _ => rfl⟩
  have htext : preambleText package = header ++ "\n" ++ ("\npackage " ++ package ++ "\n\n" ++
      ("import (\n\tflatbuffers \"github.com/google/flatbuffers/go\"\n\n" ++
        ("\t\"github.com/wippyai/leanbuffer\"\n" ++
          "\t\"github.com/wippyai/leanbuffer/table\"\n)\n"))) := by
    have hpackage := append_of_eq (by decide : "\n\npackage " = "\n" ++ "\npackage ")
    have himport := append_of_eq (by decide :
      "\n\nimport (\n\tflatbuffers \"github.com/google/flatbuffers/go\"\n\n" =
        "\n\n" ++ "import (\n\tflatbuffers \"github.com/google/flatbuffers/go\"\n\n")
    have hothers :
        "\t\"github.com/wippyai/leanbuffer\"\n\t\"github.com/wippyai/leanbuffer/table\"\n)\n" =
          "\t\"github.com/wippyai/leanbuffer\"\n" ++
            "\t\"github.com/wippyai/leanbuffer/table\"\n)\n" := by
      decide
    unfold preambleText
    simp only [String.append_assoc, hpackage, himport, hothers, -String.reduceAppend]
  rw [htext]
  exact hheader.append (hclause.append (himport.append hothers))

namespace Codec

variable {c : Codec} {package : String}

def code (c : Codec) (package : String) : Code.File where
  package := package
  imports := imports
  decls := [c.structCode, c.constructorCode, c.flattenCode] ++ c.factoryCode ++ [c.assertionCode]

theorem renders_fragmentText (h : c.IsProper) (hpackage : IsName package) :
    Renders (fragmentText c package) (c.code package).lexemes := by
  have hline : Renders "\n" [] := ⟨[.line], spells_line, fun _ h => h, fun _ => rfl⟩
  have hrenders := (renders_preambleText hpackage).append (hline.append
    ((renders_structText h).append (hline.append ((renders_constructorText h).append (hline.append
      ((renders_flattenText h).append (hline.append ((renders_factoryText h).append (hline.append
        (renders_assertionText h))))))))))
  have htext : fragmentText c package = preambleText package ++ ("\n" ++ (structText c ++ ("\n" ++
      (constructorText c ++ ("\n" ++ (flattenText c ++ ("\n" ++ (factoryText c ++ ("\n" ++
        assertionText c))))))))) := by
    unfold fragmentText
    simp only [String.intercalate_cons_cons, String.intercalate_singleton, String.append_assoc]
  rw [htext]
  simpa [code, File.lexemes] using hrenders

theorem parse?_fragmentText_isSome (h : c.IsProper) (hpackage : IsName package) :
    (Source.File.parse? (fragmentText c package)).isSome = true :=
  Code.File.parse?_isSome (renders_fragmentText h hpackage) (List.cons_ne_nil _ _)

end Codec

theorem Build.name_ofField (f : Field) (name : String) : (ofField f name).name = name := by
  unfold ofField
  split <;> rfl

theorem Commit.isProper_ofField (f : Field) {name : String} (h : IsName name) :
    (ofField f name).IsProper := by
  unfold ofField
  cases f.type.encodeStrategy with
  | indirect => trivial
  | _ => exact h

theorem Decode.isProper_ofField {f : Field} {name : String} (h : IsName name)
    (hknown : f.type.isKnown = true) : (ofField f name).IsProper := by
  have hvalid := FieldType.isValid_of_isKnown hknown
  have hname : (ofField f name).name = name := by
    unfold ofField
    split
    case h_10 => split <;> rfl
    all_goals rfl
  refine ⟨hname.symm ▸ h, ?_⟩
  intro scalar hscalar
  have heq : scalar = f.type.scalar := by
    unfold ofField at hscalar
    split at hscalar
    case h_10 => split at hscalar <;> simp_all
    all_goals simp_all
  rw [heq]
  exact hvalid

theorem Codec.isProper_ofPlan {r : Record} {p : Plan} (hp : assemble r = .ok p) :
    (Codec.ofPlan p).IsProper := by
  have hwellFormed := wellFormed_of_assemble hp
  have hfield : ∀ f ∈ p.fields.toList, IsName (Naming.exported f.name) ∧
      f.type.isKnown = true ∧ Naming.isIdentifier f.name = true := by
    intro f hf
    obtain ⟨i, hi⟩ := List.getElem?_of_mem hf
    rw [Array.getElem?_toList] at hi
    have hplaced := hwellFormed.isPlaced i f hi
    exact ⟨.exported hplaced.isIdentifier, hplaced.isKnown, hplaced.isIdentifier⟩
  have hstructName : ∀ {i : Nat} {f}, p.fields[i]? = some f → IsName (structName p i) := by
    intro i f hf
    rw [Binding.structName_eq hf]
    rw [← Array.getElem?_toList] at hf
    exact (hfield f (List.mem_of_getElem? hf)).1
  constructor
  · have hrecord : p.record = r.name := (isPlanOf_of_assemble hp).record
    show Naming.isIdentifier p.record = true
    rw [hrecord]
    exact (exists_assemble_iff.1 ⟨p, hp⟩).isIdentifier
  · intro s hs
    obtain ⟨f, hf, rfl⟩ := List.mem_map.1 hs
    obtain ⟨hname, hknown, hidentifier⟩ := hfield f hf
    exact ⟨hname, hknown, hidentifier⟩
  · intro s hs
    obtain ⟨f, hf, rfl⟩ := List.mem_map.1 hs
    obtain ⟨hf, hshape⟩ := List.mem_filter.1 hf
    obtain ⟨hname, hknown, -⟩ := hfield f hf
    exact ⟨hname, hknown, eq_of_beq hshape⟩
  · intro s hs
    obtain ⟨i, -, hs⟩ := List.mem_filterMap.1 hs
    obtain ⟨f, hf, rfl⟩ := Option.map_eq_some_iff.1 hs
    rw [Build.name_ofField]
    exact hstructName hf
  · intro s hs
    obtain ⟨i, -, hs⟩ := List.mem_filterMap.1 hs
    obtain ⟨f, hf, rfl⟩ := Option.map_eq_some_iff.1 hs
    exact Commit.isProper_ofField f (hstructName hf)
  · intro s hs
    obtain ⟨f, hf, rfl⟩ := List.mem_map.1 hs
    obtain ⟨hname, hknown, -⟩ := hfield f hf
    exact Decode.isProper_ofField hname hknown

end RecordCodec.Emit
