import RecordCodec.Proofs.Emit.Syntax

/-!
This module contains the syntax of emitted files: imports, and the declarations of a codec. The
parser reads the lexemes of every such file as a source file.
-/

namespace RecordCodec.Emit.Code

open RecordCodec.Source RecordCodec.Source.Grammar

/-! Imports. -/

structure Import where
  alias? : Option String
  path : String
  isImportPath : isImportPath path = true

def Import.lexemes (i : Import) : List Lexeme :=
  match i.alias? with
  | none => [(.string, i.path), .lineEnd]
  | some x => [.ident x, (.string, i.path), .lineEnd]

theorem Import.reads (i : Import) (level : Int) :
    Reads importSpec level i.lexemes Anything fun _ => True := by
  intro is js his _
  obtain ⟨e, rfl⟩ := exists_dress his
  obtain ⟨alias?, path, h⟩ := i
  have hcheck : ¬ (!Source.isImportPath path) = true := by simp [h]
  cases alias? with
  | none =>
    show ∃ a, True ∧ (if (!Source.isImportPath path) = true then _ else _ : Parse (Spec Expr))
      ⟨dress (fun i => e (i + 1)) [.lineEnd] ++ js, level⟩ = some (a, _)
    rw [if_neg hcheck]
    exact ⟨_, trivial, rfl⟩
  | some x =>
    show ∃ a, True ∧ (if (!Source.isImportPath path) = true then _ else _ : Parse (Spec Expr))
      ⟨dress (fun i => e (i + 2)) [.lineEnd] ++ js, level⟩ = some (a, _)
    rw [if_neg hcheck]
    exact ⟨_, trivial, rfl⟩

def importsLexemes (imports : List Import) : List Lexeme :=
  [Lexeme.key "import", .op "("] ++
    ((imports.map Import.lexemes).flatten ++ [Lexeme.op ")", .lineEnd])

theorem reads_imports (imports : List Import) (g : Grammar) (level : Int) :
    Reads (decl g) level (importsLexemes imports) Anything fun d => d.isImport = true := by
  intro is js his _
  obtain ⟨first, rest, rfl, hfirst, hrest⟩ := List.map_eq_append_iff.1 his
  obtain ⟨e, rfl⟩ := exists_dress hfirst
  obtain ⟨e', e'', rfl⟩ := exists_dress_append hrest
  have hspecs : Reads (Parse.many do
      if ← Parse.isAt ")" then return none
      return some (← spec g "import")) level (imports.map Import.lexemes).flatten (IsAt [.op ")"])
        fun xs => ∀ x ∈ xs, True := by
    apply Parse.reads_many
    · intro s hs is js his _
      obtain ⟨i, -, rfl⟩ := List.mem_map.1 hs
      obtain ⟨x, -, hx⟩ := i.reads level is js his trivial
      obtain ⟨e, rfl⟩ := exists_dress his
      obtain ⟨_ | _, path, h⟩ := i <;> exact exists_of_bind hx ⟨_, ⟨x, rfl, trivial⟩, rfl⟩
    · intro s hs
      obtain ⟨⟨_ | _, path, h⟩, -, rfl⟩ := List.mem_map.1 hs <;> exact List.cons_ne_nil _ _
    · rintro _ ⟨e, js, rfl⟩
      rfl
  obtain ⟨xs, -, hxs⟩ := hspecs (dress e' _) (dress e'' [.op ")", .lineEnd] ++ js)
    (map_lexeme_dress ..) ⟨e'', _, rfl⟩
  simp only [List.append_assoc]
  obtain ⟨x, hx, hgroup⟩ : ∃ x, x.keyword = "import" ∧ (group g).run
      ⟨dress e [.key "import", .op "("] ++ (dress e' (imports.map Import.lexemes).flatten ++
        (dress e'' [.op ")", .lineEnd] ++ js)), level⟩ = some (x, ⟨js, level⟩) :=
    exists_of_bind hxs ⟨_, rfl, rfl⟩
  refine exists_of_bind hgroup ⟨.group x, ?_, rfl⟩
  show (x.keyword == "import") = true
  rw [hx]
  rfl

/-! Structs. -/

inductive TypeForm where
  | value (x : String)
  | sequence (x : String)
  | optional (x : String)

def TypeForm.lexemes : TypeForm → List Lexeme
  | value x => [.ident x]
  | sequence x => [.op "[", .op "]", .ident x]
  | optional x => [.op "*", .ident x]

structure FieldSpec where
  name : String
  type : TypeForm
  tag : String

def FieldSpec.lexemes (f : FieldSpec) : List Lexeme :=
  .ident f.name :: f.type.lexemes ++ [(.string, f.tag), Lexeme.lineEnd]

def structLexemes (fields : List FieldSpec) : List Lexeme :=
  [Lexeme.key "struct", .op "\x7b"] ++
    ((fields.map FieldSpec.lexemes).flatten ++ [Lexeme.op "\x7d"])

theorem reads_structLexemes (fields : List FieldSpec) (d : Nat) (level : Int) :
    Reads (structType (upTo (d + 3))) level (structLexemes fields) Anything fun _ => True := by
  intro is js his _
  obtain ⟨first, rest, rfl, hfirst, hrest⟩ := List.map_eq_append_iff.1 his
  obtain ⟨e, rfl⟩ := exists_dress hfirst
  obtain ⟨e', e'', rfl⟩ := exists_dress_append hrest
  have hmany : Reads (Parse.many do
      if (← Parse.isKind .ident) || (← Parse.isAt "*") then return some (← field (upTo (d + 3)))
      return none) level (fields.map FieldSpec.lexemes).flatten (IsAt [.op "\x7d"])
        fun xs => ∀ x ∈ xs, True := by
    apply Parse.reads_many
    · intro s hs is js his _
      obtain ⟨⟨x, type, tag⟩, -, rfl⟩ := List.mem_map.1 hs
      obtain ⟨e, rfl⟩ := exists_dress his
      cases type <;> exact ⟨_, ⟨_, rfl, trivial⟩, rfl⟩
    · intro s hs
      obtain ⟨f, -, rfl⟩ := List.mem_map.1 hs
      exact List.cons_ne_nil _ _
    · rintro _ ⟨e, js, rfl⟩
      rfl
  obtain ⟨xs, -, hxs⟩ := hmany (dress e' _) (dress e'' [.op "\x7d"] ++ js) (map_lexeme_dress ..)
    ⟨e'', js, rfl⟩
  simp only [List.append_assoc]
  exact exists_of_bind hxs ⟨_, trivial, rfl⟩

theorem reads_type (x : String) (fields : List FieldSpec) (d : Nat) (level : Int) :
    Reads (decl (upTo (d + 4))) level
      ([Lexeme.key "type", .ident x] ++ (structLexemes fields ++ [Lexeme.lineEnd])) Anything
      fun r => r.isImport = false := by
  intro is js his _
  obtain ⟨first, rest, rfl, hfirst, hrest⟩ := List.map_eq_append_iff.1 his
  obtain ⟨e, rfl⟩ := exists_dress hfirst
  obtain ⟨e', e'', rfl⟩ := exists_dress_append hrest
  obtain ⟨t, -, ht⟩ := reads_structLexemes fields d level (dress e' _) (dress e'' [.lineEnd] ++ js)
    (map_lexeme_dress ..) trivial
  rw [List.append_assoc, List.append_assoc]
  obtain ⟨_, ⟨t, rfl⟩, hstep⟩ : ∃ r, (∃ t, r = some t) ∧ (typeStep (upTo (d + 3))).run
      ⟨dress e' (structLexemes fields) ++ (dress e'' [.lineEnd] ++ js), level⟩ =
        some (r, ⟨dress e'' [.lineEnd] ++ js, level⟩) :=
    exists_of_bind ht ⟨_, ⟨_, rfl⟩, rfl⟩
  obtain ⟨t, -, htype⟩ : ∃ r, True ∧ (upTo (d + 4)).type.run
      ⟨dress e' (structLexemes fields) ++ (dress e'' [.lineEnd] ++ js), level⟩ =
        some (r, ⟨dress e'' [.lineEnd] ++ js, level⟩) :=
    exists_of_bind hstep ⟨_, trivial, rfl⟩
  obtain ⟨y, -, htypeSpec⟩ : ∃ y, True ∧ (typeSpec (upTo (d + 4))).run
      ⟨dress (fun i => e (i + 1)) [.ident x] ++ (dress e' (structLexemes fields) ++
        (dress e'' [.lineEnd] ++ js)), level⟩ = some (y, ⟨dress e'' [.lineEnd] ++ js, level⟩) :=
    exists_of_bind htype ⟨_, trivial, rfl⟩
  obtain ⟨z, -, hspec⟩ : ∃ z, True ∧ (spec (upTo (d + 4)) "type").run
      ⟨dress (fun i => e (i + 1)) [.ident x] ++ (dress e' (structLexemes fields) ++
        (dress e'' [.lineEnd] ++ js)), level⟩ = some (z, ⟨js, level⟩) :=
    exists_of_bind htypeSpec ⟨_, trivial, rfl⟩
  obtain ⟨r, hr, hgroup⟩ : ∃ r, r.keyword = "type" ∧ (group (upTo (d + 4))).run
      ⟨dress e [.key "type", .ident x] ++ (dress e' (structLexemes fields) ++
        (dress e'' [.lineEnd] ++ js)), level⟩ = some (r, ⟨js, level⟩) :=
    exists_of_bind hspec ⟨_, rfl, rfl⟩
  refine exists_of_bind hgroup ⟨.group r, ?_, rfl⟩
  show (r.keyword == "import") = false
  rw [hr]
  rfl

/-! Functions. -/

inductive Head where
  | constructor (f result : String)
  | creator (type f result : String)
  | writer (x type f y package param : String)
  | reader (type f y package param result : String)

def Head.lexemes : Head → List Lexeme
  | constructor f result => [.key "func", .ident f, .op "(", .op ")", .ident result]
  | creator type f result =>
    [.key "func", .op "(", .ident type, .op ")", .ident f, .op "(", .op ")", .ident result]
  | writer x type f y package param =>
    [.key "func", .op "(", .ident x, .op "*", .ident type, .op ")", .ident f, .op "(", .ident y,
      .op "*", .ident package, .op ".", .ident param, .op ")"]
  | reader type f y package param result =>
    [.key "func", .op "(", .ident type, .op ")", .ident f, .op "(", .ident y, .ident package,
      .op ".", .ident param, .op ")", .ident result]

inductive Body where
  | statements (ss : List Statement)
  | result (f : String)

def Body.lexemes : Body → List Lexeme
  | statements ss => blockLexemes (ss.map Statement.lexemes)
  | result f => [.op "\x7b", .key "return", .ident f, .op "(", .op ")", .op "\x7d"]

theorem Body.reads (b : Body) (d : Nat) :
    Reads (blockStep (upTo (d + 8))) 0 b.lexemes Anything fun _ => True := by
  cases b with
  | statements ss =>
    apply reads_blockLexemes
    intro s hs
    obtain ⟨s, -, rfl⟩ := List.mem_map.1 hs
    exact s.isReadable d
  | result f =>
    intro is js his _
    obtain ⟨e, rfl⟩ := exists_dress his
    exact ⟨_, trivial, rfl⟩

theorem reads_function (head : Head) (body : Body) (d : Nat) :
    Reads (decl (upTo (d + 8))) 0 (head.lexemes ++ (body.lexemes ++ [Lexeme.lineEnd])) Anything
      fun r => r.isImport = false := by
  intro is js his _
  obtain ⟨first, rest, rfl, hfirst, hrest⟩ := List.map_eq_append_iff.1 his
  obtain ⟨e, rfl⟩ := exists_dress hfirst
  obtain ⟨block, ends, rfl, hblock, hends⟩ := List.map_eq_append_iff.1 hrest
  obtain ⟨e', rfl⟩ := exists_dress hends
  obtain ⟨b, -, hb⟩ := body.reads d block (dress e' [.lineEnd] ++ js) hblock trivial
  obtain ⟨e'', more, hmore⟩ : IsAt [.op "\x7b"] (block ++ (dress e' [.lineEnd] ++ js)) := by
    obtain ⟨e'', rfl⟩ := exists_dress hblock
    cases body <;> exact ⟨e'', _, rfl⟩
  simp only [List.append_assoc]
  rw [hmore] at hb ⊢
  cases head <;> exact exists_of_bind hb ⟨_, rfl, rfl⟩

/-! Files. -/

inductive Decl where
  | struct (x : String) (fields : List FieldSpec)
  | function (head : Head) (body : Body)
  /-- The assertions that the types of a codec have the methods that they need. -/
  | assertions (package adapter factory x y : String)

def Decl.lexemes : Decl → List Lexeme
  | struct x fields => [Lexeme.key "type", .ident x] ++ (structLexemes fields ++ [Lexeme.lineEnd])
  | function head body => head.lexemes ++ (body.lexemes ++ [Lexeme.lineEnd])
  | assertions package adapter factory x y =>
    [.key "var", .op "(", .ident "_", .ident package, .op ".", .ident adapter, .op "=", .op "(",
      .op "*", .ident x, .op ")", .op "(", .ident "nil", .op ")", .lineEnd, .ident "_",
      .ident package, .op ".", .ident factory, .op "[", .ident x, .op "]", .op "=", .ident y,
      .op "\x7b", .op "\x7d", .lineEnd, .op ")", .lineEnd]

theorem Decl.reads (r : Decl) (d : Nat) :
    Reads (decl (upTo (d + 8))) 0 r.lexemes Anything fun r => r.isImport = false := by
  cases r with
  | struct x fields => exact reads_type x fields (d + 4) 0
  | function head body => exact reads_function head body d
  | assertions package adapter factory x y =>
    intro is js his _
    obtain ⟨e, rfl⟩ := exists_dress his
    exact ⟨_, rfl, rfl⟩

theorem Decl.exists_key (r : Decl) : ∃ x ls, r.lexemes = .key x :: ls := by
  cases r with
  | struct => exact ⟨_, _, rfl⟩
  | function head => cases head <;> exact ⟨_, _, rfl⟩
  | assertions => exact ⟨_, _, rfl⟩

theorem importsFirst_cons {d : Source.Decl} {ds : List Source.Decl} (hd : d.isImport = true)
    (hds : ∀ x ∈ ds, x.isImport = false) : importsFirst (d :: ds) = true := by
  unfold importsFirst
  rw [List.dropWhile_cons_of_pos hd, List.all_eq_true]
  intro x hx
  rw [hds x ((List.dropWhile_sublist _).subset hx)]
  rfl

def declStep (g : Grammar) : Parse (Option Source.Decl) := do
  if ← Parse.isKind .eof then return none
  return some (← decl g)

theorem run_declStep {g : Grammar} {key : String} {ls : List Lexeme} {e : Nat → Item}
    {js : List Item} {level : Int} {x : Source.Decl} {s : ParseState}
    (h : (decl g).run ⟨dress e (.key key :: ls) ++ js, level⟩ = some (x, s)) :
    (declStep g).run ⟨dress e (.key key :: ls) ++ js, level⟩ = some (some x, s) := by
  show ((decl g).run _ >>= _) = _
  rw [h]
  rfl

theorem reads_decls (decls : List Decl) (d : Nat) :
    Reads (Parse.many (declStep (upTo (d + 8)))) 0 (decls.map Decl.lexemes).flatten
      (IsAt [(.eof, "")]) fun ds => ∀ x ∈ ds, x.isImport = false := by
  apply Parse.reads_many
  · intro s hs is js his _
    obtain ⟨r, -, rfl⟩ := List.mem_map.1 hs
    obtain ⟨x, hx, hrun⟩ := r.reads d is js his trivial
    obtain ⟨key, ls, hls⟩ := r.exists_key
    rw [hls] at his
    obtain ⟨e, rfl⟩ := exists_dress his
    exact ⟨some x, ⟨x, rfl, hx⟩, run_declStep hrun⟩
  · intro s hs
    obtain ⟨r, -, rfl⟩ := List.mem_map.1 hs
    obtain ⟨key, ls, hls⟩ := r.exists_key
    rw [hls]
    exact List.cons_ne_nil _ _
  · rintro _ ⟨e, js, rfl⟩
    rfl

structure File where
  package : String
  imports : List Import
  decls : List Decl

def File.lexemes (f : File) : List Lexeme :=
  [Lexeme.key "package", .ident f.package, .lineEnd] ++
    (importsLexemes f.imports ++ (f.decls.map Decl.lexemes).flatten)

theorem File.reads (f : File) (d : Nat) :
    Reads (file (upTo (d + 8))) 0 f.lexemes (IsAt [(.eof, "")]) fun _ => True := by
  intro is js his hjs
  obtain ⟨clause, rest, rfl, hclause, hrest⟩ := List.map_eq_append_iff.1 his
  obtain ⟨e, rfl⟩ := exists_dress hclause
  obtain ⟨group, others, rfl, hgroup, hothers⟩ := List.map_eq_append_iff.1 hrest
  obtain ⟨ds, hds, hmore⟩ := reads_decls f.decls d others js hothers hjs
  obtain ⟨x, hx, hrun⟩ := reads_imports f.imports (upTo (d + 8)) 0 group (others ++ js) hgroup
    trivial
  obtain ⟨e', rfl⟩ := exists_dress hgroup
  have hmany := Parse.run_many_some (run_declStep hrun) (List.cons_ne_nil _ _) hmore
  have hcheck : ¬ (!importsFirst (x :: ds)) = true := by simp [importsFirst_cons hx hds]
  simp only [List.append_assoc]
  refine exists_of_bind hmany ?_
  show ∃ a, True ∧ (if (!importsFirst (x :: ds)) = true then _ else _ : Parse Source.File) ⟨js, 0⟩ =
    some (a, _)
  rw [if_neg hcheck]
  exact ⟨_, trivial, rfl⟩

theorem File.parse?_isSome {f : File} {text : String} (h : Renders text f.lexemes)
    (hdecls : f.decls ≠ []) : (Source.File.parse? text).isSome = true := by
  apply h.parse?_isSome _ f.reads
  obtain ⟨r, rest, hrest⟩ := List.exists_cons_of_ne_nil hdecls
  obtain ⟨key, ls, hls⟩ := r.exists_key
  simp only [lexemes, importsLexemes, hrest, List.map_cons, List.flatten_cons, hls,
    List.length_append, List.length_cons, List.length_nil]
  omega

end RecordCodec.Emit.Code
