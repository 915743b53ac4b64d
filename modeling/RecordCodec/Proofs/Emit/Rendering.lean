import RecordCodec.Emit.Fragment
import RecordCodec.Proofs.Emit.FileSyntax
import RecordCodec.Proofs.Text.Names

/-!
This module contains the code of emitted statements. The text of every statement spells the lexemes
of its code, as long as the names in it are identifiers and no keywords.
-/

namespace RecordCodec

open RecordCodec.Source

/-! Names. -/

namespace Text

def isPlainLower (c : Char) : Bool :=
  97 ≤ c.toNat && c.toNat ≤ 122

theorem upperShifts_leave_lower :
    (upperShifts.all fun s => 122 < s.lo + s.delta || s.hi + s.delta < 97) = true := by
  decide +kernel

theorem isPlainLower_toUpper (c : Char) : isPlainLower (toUpper c) = false := by
  unfold toUpper
  split
  · next hascii =>
    exact of_ascii (fun c => isPlainLower c.toUpper = false) (by decide) hascii
  · next hascii =>
    unfold isPlainLower
    rw [← Bool.not_eq_true, Bool.and_eq_true, decide_eq_true_eq, decide_eq_true_eq]
    rcases shiftBy_eq_or upperShifts c with heq | ⟨s, hs, hholds, heq⟩
    · rw [heq]
      omega
    · have hbounds : s.lo ≤ c.toNat ∧ c.toNat ≤ s.hi := Span.bounds_of_holds hholds
      have hleave := List.all_eq_true.1 upperShifts_leave_lower s hs
      rw [Bool.or_eq_true, decide_eq_true_eq, decide_eq_true_eq] at hleave
      have hcode := toNat_ofNat_or (c.toNat + s.delta).toNat
      rw [heq]
      omega

end Text

namespace Naming

open RecordCodec.Text

theorem isPlainLower_exported {name : String} {c : Char} {cs : List Char}
    (h : (exported name).toList = c :: cs) : isPlainLower c = false := by
  unfold exported at h
  rw [String.toList_ofList] at h
  cases hruns : runs isSeparator name.toList with
  | nil =>
    rw [hruns] at h
    cases h
    decide
  | cons run rest =>
    have hrun : run ∈ runs isSeparator name.toList := by
      rw [hruns]
      exact List.mem_cons_self ..
    have hne : run ≠ [] := by
      rintro rfl
      exact absurd (List.mem_filter.1 hrun).2 (by decide)
    obtain ⟨d, ds, rfl⟩ := List.exists_cons_of_ne_nil hne
    rw [hruns] at h
    change (if isLetter (toUpper d) = true then _ else _) = _ at h
    split at h
    · cases h
      exact isPlainLower_toUpper d
    · cases h
      decide

end Naming

namespace Emit

theorem toList_handleName (i : Nat) : (handleName i).toList = 'f' :: Nat.toDigits 10 i := by
  unfold handleName
  rw [String.toList_append, toList_toString]
  rfl

theorem isIdentifier_handleName (i : Nat) : Naming.isIdentifier (handleName i) = true := by
  unfold Naming.isIdentifier
  rw [toList_handleName]
  dsimp only
  rw [Bool.and_eq_true, List.all_eq_true]
  refine ⟨by decide, ?_⟩
  intro c hc
  have hdigit := isPlainDigit_of_mem_toDigits hc
  simp only [isPlainDigit, Bool.and_eq_true] at hdigit
  exact hdigit.2

end Emit

namespace Emit.Code

structure IsName (x : String) : Prop where
  isIdentifier : Naming.isIdentifier x = true
  notKeyword : keywords.contains x = false

namespace IsName

instance (x : String) : Decidable (IsName x) :=
  decidable_of_iff (Naming.isIdentifier x = true ∧ keywords.contains x = false)
    ⟨fun h => ⟨h.1, h.2⟩, fun h => ⟨h.isIdentifier, h.notKeyword⟩⟩

theorem spells {x : String} (h : IsName x) : Spells x [.name x] :=
  .name h.isIdentifier h.notKeyword

theorem keywords_checked : (keywords.all fun x => x.toList.head?.any Text.isPlainLower &&
    x.toList.tail.head?.all (!isPlainDigit ·)) = true := by
  decide

theorem of_start {x : String} (h : Naming.isIdentifier x = true)
    (hstart : ∀ c cs, x.toList = c :: cs → Text.isPlainLower c = false) : IsName x := by
  refine ⟨h, ?_⟩
  rw [← Bool.not_eq_true, List.contains_iff_mem]
  intro hmem
  have hlower := (Bool.and_eq_true_iff.1 (List.all_eq_true.1 keywords_checked x hmem)).1
  obtain ⟨hne, -⟩ := Naming.all_of_isIdentifier h
  obtain ⟨c, cs, hcs⟩ := List.exists_cons_of_ne_nil hne
  rw [hcs, List.head?_cons, Option.any_some, hstart c cs hcs] at hlower
  contradiction

theorem exported {x : String} (h : Naming.isIdentifier x = true) : IsName (Naming.exported x) :=
  of_start (Naming.isIdentifier_exported h) fun _ _ => Naming.isPlainLower_exported

theorem isIdentifier_append {x y : String} (hx : Naming.isIdentifier x = true)
    (hy : ∀ c ∈ y.toList, Naming.isNameChar c = true) : Naming.isIdentifier (x ++ y) = true := by
  obtain ⟨hne, -⟩ := Naming.all_of_isIdentifier hx
  obtain ⟨c, cs, hcs⟩ := List.exists_cons_of_ne_nil hne
  obtain ⟨hstarts, hall⟩ := Naming.isIdentifier_cons hcs hx
  unfold Naming.isIdentifier
  rw [String.toList_append, hcs, List.cons_append]
  dsimp only
  rw [hstarts, Bool.true_and, List.all_append, Bool.and_eq_true, List.all_eq_true, List.all_eq_true]
  exact ⟨hall, hy⟩

theorem constructor {x : String} (h : Naming.isIdentifier x = true) :
    IsName ("New" ++ Naming.exported x) := by
  obtain ⟨-, hall⟩ := Naming.all_of_isIdentifier (Naming.isIdentifier_exported h)
  apply of_start (isIdentifier_append (by decide) hall)
  intro c cs hcs
  rw [String.toList_append] at hcs
  cases hcs
  decide

theorem factory {x : String} (h : Naming.isIdentifier x = true) :
    IsName (Naming.exported x ++ "Factory") := by
  have hexported := Naming.isIdentifier_exported h
  obtain ⟨hne, -⟩ := Naming.all_of_isIdentifier hexported
  obtain ⟨d, ds, hds⟩ := List.exists_cons_of_ne_nil hne
  have hfactory : "Factory".toList.all Naming.isNameChar = true := by decide
  apply of_start (isIdentifier_append hexported (List.all_eq_true.1 hfactory))
  intro c cs hcs
  rw [String.toList_append, hds] at hcs
  cases hcs
  exact Naming.isPlainLower_exported hds

theorem handleName (i : Nat) : IsName (handleName i) := by
  refine ⟨isIdentifier_handleName i, ?_⟩
  rw [← Bool.not_eq_true, List.contains_iff_mem]
  intro hmem
  have hkeyword := (Bool.and_eq_true_iff.1 (List.all_eq_true.1 keywords_checked _ hmem)).2
  obtain ⟨c, cs, hcs⟩ := List.exists_cons_of_ne_nil (Nat.toDigits_ne_nil (b := 10) (n := i))
  have hdigit : isPlainDigit c = true := by
    apply isPlainDigit_of_mem_toDigits (n := i)
    rw [hcs]
    exact List.mem_cons_self ..
  rw [toList_handleName, hcs, List.tail_cons, List.head?_cons, Option.all_some, hdigit] at hkeyword
  contradiction

theorem scalar {s : Scalar} (h : s.isValid = true) : IsName s.spelling := by
  cases s with
  | unknown code => simp [Scalar.isValid] at h
  | _ => decide

end IsName

end Emit.Code

namespace Emit

open Code

/-! Statements. -/

theorem append_of_eq {s t u : String} (h : s = t ++ u) (rest : String) :
    s ++ rest = t ++ (u ++ rest) := by
  rw [h, String.append_assoc]

theorem renders_tab {text : String} {ls : List Lexeme} (h : Renders text ls) :
    Renders ("\t" ++ text) ls := by
  have htab : Renders "\t" [] := ⟨[.tab], by decide, fun _ h => h, fun _ => rfl⟩
  exact htab.append h

theorem spells_member {name : String} (h : IsName name) :
    Spells (fieldText name) [.name "o", .operator ".", .name name] := by
  have hobject : Spells "o." [.name "o", .operator "."] := by decide
  exact hobject.append h.spells

theorem spells_line : Spells "\n" [.line] := by decide

theorem spells_close : Spells ")" [.operator ")"] := by decide

theorem spells_comma : Spells ", " [.operator ",", .space] := by decide

theorem spells_assign : Spells " = " [.space, .operator "=", .space] := by decide

theorem renders_close : Renders "\x7d\n" [.op "\x7d", .lineEnd] :=
  ⟨[.operator "\x7d", .line], by decide, fun _ h => h, fun _ => rfl⟩

def tableCall (callee : String) : List Piece :=
  [.name "table", .operator ".", .name callee, .operator "(", .name "b", .operator ",", .space]

theorem renders_guarded {name statement : String} {a : Action} (hname : IsName name)
    (h : Renders (statement ++ "\n") (a.lexemes ++ [.lineEnd])) :
    Renders (Commit.guarded name statement ++ "\n") (Statement.guarded "o" name a).lexemes := by
  have hopen : Renders ("if " ++ fieldText name ++ " != nil \x7b\n")
      [.key "if", .ident "o", .op ".", .ident name, .op "!=", .ident "nil", .op "\x7b"] := by
    have hif : Spells "if " [.word "if", .space] := by decide
    have htest : Spells " != nil \x7b\n"
        [.space, .operator "!=", .space, .name "nil", .space, .operator "\x7b", .line] := by
      decide
    exact ⟨_, (hif.append (spells_member hname)).append htest, fun _ h => h, fun _ => rfl⟩
  have htext : Commit.guarded name statement ++ "\n" =
      "if " ++ fieldText name ++ " != nil \x7b\n" ++ (statement ++ "\n" ++ "\x7d\n") := by
    have hends : "\n\x7d" ++ "\n" = "\n" ++ "\x7d\n" := by decide
    simp only [Commit.guarded, String.append_assoc, hends]
  have hlexemes : (Statement.guarded "o" name a).lexemes =
      [Lexeme.key "if", .ident "o", .op ".", .ident name, .op "!=", .ident "nil", .op "\x7b"] ++
        (a.lexemes ++ [Lexeme.lineEnd] ++ [Lexeme.op "\x7d", .lineEnd]) := by
    simp [Statement.lexemes, blockLexemes]
  rw [htext, hlexemes]
  exact hopen.append (h.append renders_close)

/-! Objects outside the table. -/

def Creator.code (c : Creator) (value : Arg) : Call :=
  match c with
  | .string => ⟨.method "b" "CreateString", [value]⟩
  | .stringVector => ⟨.method "table" "CreateStringVector", [.name "b", value]⟩
  | .codePointVector => ⟨.method "table" "CreateRuneVector", [.name "b", value]⟩
  | .signedByteVector => ⟨.method "table" "CreateInt8Vector", [.name "b", value]⟩
  | .vector _ => ⟨.method "table" "CreateVector", [.name "b", value]⟩

def Creator.opening : Creator → List Piece
  | .string => [.name "b", .operator ".", .name "CreateString", .operator "("]
  | .stringVector => tableCall "CreateStringVector"
  | .codePointVector => tableCall "CreateRuneVector"
  | .signedByteVector => tableCall "CreateInt8Vector"
  | .vector _ => tableCall "CreateVector"

theorem Creator.spells_text (c : Creator) {value : String} {ps : List Piece}
    (h : Spells value ps) : Spells (c.text value) (c.opening ++ ps ++ [.operator ")"]) := by
  cases c with
  | string =>
    exact ((by decide : Spells "b.CreateString(" (opening .string)).append h).append spells_close
  | stringVector =>
    exact ((by decide : Spells "table.CreateStringVector(b, "
      (opening .stringVector)).append h).append spells_close
  | codePointVector =>
    exact ((by decide : Spells "table.CreateRuneVector(b, "
      (opening .codePointVector)).append h).append spells_close
  | signedByteVector =>
    exact ((by decide : Spells "table.CreateInt8Vector(b, "
      (opening .signedByteVector)).append h).append spells_close
  | vector elem =>
    exact ((by decide : Spells "table.CreateVector(b, "
      (tableCall "CreateVector")).append h).append spells_close

def Build.code (s : Build) : List Statement :=
  let handle := handleName s.handle
  if s.isGuarded then
    [.declare handle "flatbuffers" "UOffsetT",
      .guarded "o" s.name (.set (.name handle) .assign
        (.call (s.creator.code (.content "o" s.name))))]
  else
    [.act (.set (.name handle) .define (.call (s.creator.code (.member "o" s.name))))]

theorem Build.renders {s : Build} (h : IsName s.name) :
    Renders (s.text ++ "\n") (s.code.map Statement.lexemes).flatten := by
  obtain ⟨handle, creator, name, isGuarded⟩ := s
  have hhandle := (IsName.handleName handle).spells
  have hfield := spells_member h
  cases isGuarded with
  | false =>
    have hdefine : Spells " := " [.space, .operator ":=", .space] := by decide
    have hspells :=
      ((hhandle.append hdefine).append (creator.spells_text hfield)).append spells_line
    cases creator <;> exact ⟨_, hspells, fun _ h => h, fun _ => rfl⟩
  | true =>
    have hdeclare : Renders ("var " ++ handleName handle ++ " flatbuffers.UOffsetT\n")
        (Statement.declare (handleName handle) "flatbuffers" "UOffsetT").lexemes := by
      have hvar : Spells "var " [.word "var", .space] := by decide
      have htype : Spells " flatbuffers.UOffsetT\n"
          [.space, .name "flatbuffers", .operator ".", .name "UOffsetT", .line] := by
        decide
      exact ⟨_, (hvar.append hhandle).append htype, fun _ h => h, fun _ => rfl⟩
    have hassign : Renders
        (handleName handle ++ " = " ++ creator.text ("*" ++ fieldText name) ++ "\n")
        ((Action.set (.name (handleName handle)) .assign
          (.call (creator.code (.content "o" name)))).lexemes ++ [.lineEnd]) := by
      have hcontent := (by decide : Spells "*" [.operator "*"]).append hfield
      have hspells :=
        ((hhandle.append spells_assign).append (creator.spells_text hcontent)).append spells_line
      cases creator <;> exact ⟨_, hspells, fun _ h => h, fun _ => rfl⟩
    have htext : text ⟨handle, creator, name, true⟩ ++ "\n" =
        "var " ++ handleName handle ++ " flatbuffers.UOffsetT\n" ++ (Commit.guarded name
          (handleName handle ++ " = " ++ creator.text ("*" ++ fieldText name)) ++ "\n") := by
      have hsplit := append_of_eq
        (by decide : " flatbuffers.UOffsetT\nif " = " flatbuffers.UOffsetT\n" ++ "if ")
      simp only [text, if_true, Commit.guarded, String.append_assoc, hsplit]
    have hguarded := renders_guarded h hassign
    rw [← List.append_nil (Statement.lexemes _)] at hguarded
    rw [htext]
    exact hdeclare.append hguarded

/-! Fields of the table. -/

namespace Commit

def zero (s : Scalar) : Arg :=
  if s == .bool then .name "false" else .number 0

def call : Commit → Call
  | slot scalar index name =>
    let callee := if scalar == .char then "PrependCharSlot" else "PrependSlot"
    ⟨.method "table" callee, [.name "b", .number index, .member "o" name, zero scalar]⟩
  | slotIfPresent scalar index name =>
    let callee := if scalar == .char then "PrependCharSlotAlways" else "PrependSlotAlways"
    ⟨.method "table" callee, [.name "b", .number index, .content "o" name]⟩
  | offset index handle | offsetIfPresent index handle _ =>
    ⟨.method "table" "PrependOffsetSlot", [.name "b", .number index, .name (handleName handle)]⟩

def code (s : Commit) : Statement :=
  match s with
  | slotIfPresent _ _ name | offsetIfPresent _ _ name => .guarded "o" name (.call s.call)
  | _ => .act (.call s.call)

def IsProper : Commit → Prop
  | slot _ _ name | slotIfPresent _ _ name | offsetIfPresent _ _ name => IsName name
  | offset .. => True

variable {scalar : Scalar} {index handle : Nat} {name : String}

theorem renders_slot (h : IsName name) :
    Renders ((slot scalar index name).text ++ "\n") (slot scalar index name).code.lexemes := by
  have hargs {opening callee : String} (hopening : Spells opening (tableCall callee)) :=
    ((hopening.append (.number index)).append spells_comma).append (spells_member h)
  have hprepend : Spells "table.PrependSlot(b, " (tableCall "PrependSlot") := by decide
  by_cases hchar : (scalar == .char) = true
  · have hprependChar : Spells "table.PrependCharSlot(b, " (tableCall "PrependCharSlot") := by
      decide
    have hzero : Spells ", 0)" [.operator ",", .space, .number 0, .operator ")"] := by decide
    have hspells := ((hargs hprependChar).append hzero).append spells_line
    cases eq_of_beq hchar
    exact ⟨_, hspells, fun _ h => h, fun _ => rfl⟩
  · by_cases hbool : (scalar == .bool) = true
    · have hfalse : Spells "false" [.name "false"] := by decide
      have hspells := ((((hargs hprepend).append spells_comma).append hfalse).append
        spells_close).append spells_line
      cases eq_of_beq hbool
      exact ⟨_, hspells, fun _ h => h, fun _ => rfl⟩
    · have hzero : Spells "0" [.number 0] := by decide
      have hspells := ((((hargs hprepend).append spells_comma).append hzero).append
        spells_close).append spells_line
      simp only [text, code, call, zeroText, zero, hchar, hbool, Bool.false_eq_true, if_false]
      exact ⟨_, hspells, fun _ h => h, fun _ => rfl⟩

theorem renders_slotIfPresent (h : IsName name) :
    Renders ((slotIfPresent scalar index name).text ++ "\n")
      (slotIfPresent scalar index name).code.lexemes := by
  have hspells {opening callee : String}
      (hopening : Spells (opening ++ "(b, ") (tableCall callee)) := by
    have hstar : Spells ", *" [.operator ",", .space, .operator "*"] := by decide
    exact ((((hopening.append (.number index)).append hstar).append (spells_member h)).append
      spells_close).append spells_line
  apply renders_guarded h
  by_cases hchar : (scalar == .char) = true
  · have hopening : Spells ("table.PrependCharSlotAlways" ++ "(b, ")
        (tableCall "PrependCharSlotAlways") := by decide
    simp only [call, hchar, if_true]
    exact ⟨_, hspells hopening, fun _ h => h, fun _ => rfl⟩
  · have hopening : Spells ("table.PrependSlotAlways" ++ "(b, ")
        (tableCall "PrependSlotAlways") := by decide
    simp only [call, hchar, Bool.false_eq_true, if_false]
    exact ⟨_, hspells hopening, fun _ h => h, fun _ => rfl⟩

theorem renders_offset :
    Renders ((offset index handle).text ++ "\n") (offset index handle).code.lexemes := by
  have hopening : Spells "table.PrependOffsetSlot(b, " (tableCall "PrependOffsetSlot") := by decide
  have hspells := ((((hopening.append (.number index)).append spells_comma).append
    (IsName.handleName handle).spells).append spells_close).append spells_line
  exact ⟨_, hspells, fun _ h => h, fun _ => rfl⟩

theorem renders {s : Commit} (h : s.IsProper) : Renders (s.text ++ "\n") s.code.lexemes := by
  cases s with
  | slot scalar index name => exact renders_slot h
  | slotIfPresent scalar index name => exact renders_slotIfPresent h
  | offset index handle => exact renders_offset
  | offsetIfPresent index handle name => exact renders_guarded h renders_offset

end Commit

/-! Reading. -/

namespace Decode

def call (s : Decode) : Call :=
  let slot := Arg.number s.slot.toNat
  match s.access with
  | .get _ => ⟨.method "table" "Get", [.name "r", slot, .member "o" s.name]⟩
  | .char => ⟨.method "r" "Char", [slot, .member "o" s.name]⟩
  | .lookup scalar => ⟨.generic "table" "Lookup" scalar.spelling, [.name "r", slot]⟩
  | .lookupChar => ⟨.method "r" "LookupChar", [slot]⟩
  | .text => ⟨.method "r" "Text", [slot]⟩
  | .strings => ⟨.method "r" "Strings", [slot]⟩
  | .codePoints => ⟨.method "r" "Runes", [slot]⟩
  | .signedBytes => ⟨.method "r" "Int8s", [slot]⟩
  | .bytes => ⟨.method "r" "Bytes", [slot]⟩
  | .vector elem => ⟨.generic "table" "Vector" elem.spelling, [.name "r", slot]⟩

def code (s : Decode) : Statement :=
  match s.access with
  | .get _ | .char => .act (.set (.member "o" s.name) .assign (.call s.call))
  | _ => .found (.set (.names "v" "ok") .define (.call s.call)) "ok"
    (.set (.member "o" s.name) .assign (.arg (if s.byAddress then .address "v" else .name "v")))

structure IsProper (s : Decode) : Prop where
  isName : IsName s.name
  isValid : ∀ scalar, s.access = .lookup scalar ∨ s.access = .vector scalar → scalar.isValid = true

theorem renders_method {opening callee : String} (slot : Nat)
    (h : Spells opening [.name "r", .operator ".", .name callee, .operator "("]) :
    Renders (opening ++ toString slot ++ ")" ++ "; ")
      (Call.lexemes ⟨.method "r" callee, [.number slot]⟩ ++ [.semicolon]) := by
  have hend : Spells "; " [.semicolon, .space] := by decide
  have hspells := ((h.append (.number slot)).append spells_close).append hend
  exact ⟨_, hspells, fun _ h => h, fun _ => rfl⟩

theorem renders_generic {opening callee type : String} (slot : Nat) (htype : IsName type)
    (h : Spells opening [.name "table", .operator ".", .name callee, .operator "["]) :
    Renders (opening ++ type ++ "](r, " ++ toString slot ++ ")" ++ "; ")
      (Call.lexemes ⟨.generic "table" callee type, [.name "r", .number slot]⟩ ++ [.semicolon]) := by
  have hmiddle : Spells "](r, "
      [.operator "]", .operator "(", .name "r", .operator ",", .space] := by
    decide
  have hend : Spells "; " [.semicolon, .space] := by decide
  have hspells := ((((h.append htype.spells).append hmiddle).append (.number slot)).append
    spells_close).append hend
  exact ⟨_, hspells, fun _ h => h, fun _ => rfl⟩

theorem renders_found (s : Decode) (hname : IsName s.name) {call : String} {c : Call}
    (h : Renders (call ++ "; ") (c.lexemes ++ [.semicolon])) :
    Renders (text.found s call (fieldText s.name) ++ "\n")
      (Statement.found (.set (.names "v" "ok") .define (.call c)) "ok" (.set (.member "o" s.name)
        .assign (.arg (if s.byAddress then .address "v" else .name "v")))).lexemes := by
  have hopen : Renders "if v, ok := "
      [.key "if", .ident "v", .op ",", .ident "ok", .op ":="] :=
    ⟨[.word "if", .space, .name "v", .operator ",", .space, .name "ok", .space, .operator ":=",
      .space], by decide, fun _ h => h, fun _ => rfl⟩
  have htest : Renders "ok \x7b\n" [.ident "ok", .op "\x7b"] :=
    ⟨[.name "ok", .space, .operator "\x7b", .line], by decide, fun _ h => h, fun _ => rfl⟩
  have hstore : Renders (fieldText s.name ++ " = " ++ (if s.byAddress then "&" else "") ++ "v\n")
      ((Action.set (.member "o" s.name) .assign
        (.arg (if s.byAddress then .address "v" else .name "v"))).lexemes ++ [.lineEnd]) := by
    have htarget := (spells_member hname).append spells_assign
    have hvalue : Spells "v\n" [.name "v", .line] := by decide
    cases s.byAddress with
    | false =>
      have hspells := (htarget.append (by decide : Spells "" [])).append hvalue
      exact ⟨_, hspells, fun _ h => h, fun _ => rfl⟩
    | true =>
      have hspells := (htarget.append (by decide : Spells "&" [.operator "&"])).append hvalue
      exact ⟨_, hspells, fun _ h => h, fun _ => rfl⟩
  have htext : text.found s call (fieldText s.name) ++ "\n" =
      "if v, ok := " ++ (call ++ "; " ++ ("ok \x7b\n" ++ (fieldText s.name ++ " = " ++
        (if s.byAddress then "&" else "") ++ "v\n" ++ "\x7d\n"))) := by
    have hsplit := append_of_eq (by decide : "; ok \x7b\n" = "; " ++ "ok \x7b\n")
    have hends : "v\n\x7d" ++ "\n" = "v\n" ++ "\x7d\n" := by decide
    unfold text.found
    simp only [String.append_assoc, hsplit, hends]
  have hrenders := hopen.append (h.append (htest.append (hstore.append renders_close)))
  rw [htext]
  simpa [Statement.lexemes, blockLexemes, Action.lexemes, Value.lexemes, Target.lexemes,
    Sign.lexeme] using hrenders

theorem renders {s : Decode} (h : s.IsProper) : Renders (s.text ++ "\n") s.code.lexemes := by
  obtain ⟨access, slot, name, byAddress⟩ := s
  obtain ⟨hname, hvalid⟩ := h
  have hfield := spells_member hname
  cases access with
  | get scalar =>
    have hget : Spells " = table.Get(r, " [.space, .operator "=", .space, .name "table",
        .operator ".", .name "Get", .operator "(", .name "r", .operator ",", .space] := by
      decide
    have hspells := (((((hfield.append hget).append (.number slot.toNat)).append
      spells_comma).append hfield).append spells_close).append spells_line
    exact ⟨_, hspells, fun _ h => h, fun _ => rfl⟩
  | char =>
    have hget : Spells " = r.Char(" [.space, .operator "=", .space, .name "r", .operator ".",
        .name "Char", .operator "("] := by
      decide
    have hspells := (((((hfield.append hget).append (.number slot.toNat)).append
      spells_comma).append hfield).append spells_close).append spells_line
    exact ⟨_, hspells, fun _ h => h, fun _ => rfl⟩
  | lookup scalar =>
    exact renders_found _ hname
      (renders_generic slot.toNat (.scalar (hvalid scalar (.inl rfl))) (by decide))
  | vector elem =>
    exact renders_found _ hname
      (renders_generic slot.toNat (.scalar (hvalid elem (.inr rfl))) (by decide))
  | _ => exact renders_found _ hname (renders_method slot.toNat (by decide))

end Decode

end Emit

end RecordCodec
