import RecordCodec.Proofs.Source.Parsing

/-!
This module contains the syntax of emitted statements. A value or statement is data that has
lexemes, and the parser reads the lexemes of every one of them.
-/

namespace RecordCodec.Emit.Code

open RecordCodec.Source RecordCodec.Source.Grammar

/-! Values. -/

inductive Arg where
  | name (x : String)
  | number (n : Nat)
  | member (x y : String)
  | content (x y : String)
  | address (x : String)
  | result (x y : String)

def Arg.lexemes : Arg → List Lexeme
  | name x => [.ident x]
  | number n => [.number n]
  | member x y => [.ident x, .op ".", .ident y]
  | content x y => [.op "*", .ident x, .op ".", .ident y]
  | address x => [.op "&", .ident x]
  | result x y => [.ident x, .op ".", .ident y, .op "(", .op ")"]

inductive Stops : List Item → Prop where
  | comma (d : Nat → Item) (js : List Item) : Stops (dress d [.op ","] ++ js)
  | paren (d : Nat → Item) (js : List Item) : Stops (dress d [.op ")"] ++ js)
  | semicolon (text : String) (d : Nat → Item) (js : List Item) :
    Stops (dress d [(.semicolon, text)] ++ js)

theorem Arg.reads (a : Arg) (d : Nat) (level : Int) :
    Reads (binaryStep (upTo (d + 4)) 1) level a.lexemes Stops fun _ => True := by
  intro is js his hjs
  obtain ⟨e, rfl⟩ := exists_dress his
  cases hjs <;> cases a <;> exact ⟨_, trivial, rfl⟩

def argsLexemes : List Arg → List Lexeme
  | [] => []
  | [a] => a.lexemes
  | a :: as => a.lexemes ++ .op "," :: argsLexemes as

def argument (g : Grammar) : Parse (Expr × Pos) := do
  let x ← g.expr
  if ← Parse.isAt "..." then
    let pos := (← Parse.take).pos
    if ← Parse.isAt "," then
      Parse.advance
      if ← Parse.isAt ")" then return (x, pos) else failure
    return (x, pos)
  return (x, Pos.unknown)

theorem calling_eq (g : Grammar) (f : Expr) :
    calling g f = (do
      let opening ← Parse.expect "("
      let args ← Parse.nested (Parse.listUpTo ")" (argument g))
      let closing ← Parse.expect ")"
      let dots := ((args.getLast?).map (·.2)).getD .unknown
      return .call f opening (args.map (·.1)) dots closing) := by
  rfl

namespace Arg

theorem isAt_paren (a : Arg) (e : Nat → Item) (js : List Item) (level : Int) :
    (Parse.isAt ")").run ⟨dress e a.lexemes ++ js, level⟩ =
      some (false, ⟨dress e a.lexemes ++ js, level⟩) := by
  cases a <;> rfl

theorem run_argument (a : Arg) (d : Nat) (level : Int) (e : Nat → Item) {js : List Item}
    (hjs : Stops js) :
    ∃ x, (argument (upTo (d + 5))).run ⟨dress e a.lexemes ++ js, level⟩ =
      some (x, ⟨js, level⟩) := by
  obtain ⟨x, -, hx⟩ := a.reads d level (dress e a.lexemes) js (map_lexeme_dress ..) hjs
  have hexpr : ((upTo (d + 5)).expr).run ⟨dress e a.lexemes ++ js, level⟩ =
      some (x, ⟨js, level⟩) := hx
  unfold argument
  rw [StateT.run_bind, hexpr]
  cases hjs <;> exact ⟨_, rfl⟩

theorem run_listStep (a : Arg) (d : Nat) (level : Int) (e : Nat → Item) {js rest : List Item}
    (hjs : Stops js)
    (hrest : ∀ x, (do
      if ← Parse.isAtComma ")" then Parse.advance
      return some x : Parse (Option (Expr × Pos))).run ⟨js, level⟩ = some (some x, ⟨rest, level⟩)) :
    ∃ x, (Parse.listStep ")" (argument (upTo (d + 5)))).run ⟨dress e a.lexemes ++ js, level⟩ =
      some (some x, ⟨rest, level⟩) := by
  obtain ⟨x, hx⟩ := a.run_argument d level e hjs
  unfold Parse.listStep
  rw [StateT.run_bind, a.isAt_paren]
  simp only [Option.bind_eq_bind, Option.bind_some, Bool.false_eq_true, if_false, StateT.run_bind,
    hx]
  exact ⟨x, hrest x⟩

theorem dress_ne_nil (a : Arg) (e : Nat → Item) : dress e a.lexemes ≠ [] := by
  cases a <;> exact List.cons_ne_nil _ _

end Arg

theorem reads_args (args : List Arg) (d : Nat) (level : Int) :
    Reads (Parse.listUpTo ")" (argument (upTo (d + 5)))) level (argsLexemes args) (IsAt [.op ")"])
      fun _ => True := by
  rintro is _ his ⟨e', js, rfl⟩
  obtain ⟨e, rfl⟩ := exists_dress his
  have hend : (Parse.listStep ")" (argument (upTo (d + 5)))).run ⟨dress e' [.op ")"] ++ js, level⟩ =
      some (none, ⟨dress e' [.op ")"] ++ js, level⟩) := rfl
  rw [Parse.listUpTo_eq]
  clear his
  induction args generalizing e with
  | nil => exact ⟨[], trivial, Parse.run_many_none hend⟩
  | cons a args ih =>
    cases args with
    | nil =>
      obtain ⟨x, hx⟩ := a.run_listStep d level e (.paren e' js) fun _ => rfl
      exact ⟨[x], trivial, Parse.run_many_some hx (a.dress_ne_nil e) (Parse.run_many_none hend)⟩
    | cons b args =>
      obtain ⟨xs, -, hxs⟩ := ih (fun i => e (a.lexemes.length + (i + 1)))
      obtain ⟨x, hx⟩ := a.run_listStep d level e (.comma (fun i => e (a.lexemes.length + i))
        (dress (fun i => e (a.lexemes.length + (i + 1))) (argsLexemes (b :: args)) ++
          (dress e' [.op ")"] ++ js))) fun _ => rfl
      rw [← List.append_assoc] at hx
      have hrun := Parse.run_many_some hx
        (List.append_ne_nil_of_left_ne_nil (a.dress_ne_nil e) _) hxs
      refine ⟨x :: xs, trivial, ?_⟩
      rw [argsLexemes, dress_append, List.append_assoc]
      · rw [List.append_assoc] at hrun
        exact hrun
      · nofun

theorem reads_calling (f : Expr) (args : List Arg) (d : Nat) (level : Int) :
    Reads (calling (upTo (d + 5)) f) level (.op "(" :: argsLexemes args ++ [.op ")"]) Anything
      fun _ => True := by
  intro is js his _
  obtain ⟨e, e', rfl⟩ := exists_dress_append his
  obtain ⟨xs, -, hxs⟩ := Parse.reads_nested (reads_args args d (level + 1))
    (dress (fun i => e (i + 1)) (argsLexemes args)) _ (map_lexeme_dress ..) ⟨e', js, rfl⟩
  rw [calling_eq, List.append_assoc]
  exact exists_of_bind hxs ⟨_, trivial, rfl⟩

inductive Callee where
  | function (x : String)
  | method (x y : String)
  | generic (x y type : String)

def Callee.lexemes : Callee → List Lexeme
  | function x => [.ident x]
  | method x y => [.ident x, .op ".", .ident y]
  | generic x y type => [.ident x, .op ".", .ident y, .op "[", .ident type, .op "]"]

structure Call where
  callee : Callee
  args : List Arg

def Call.lexemes (c : Call) : List Lexeme :=
  c.callee.lexemes ++ (.op "(" :: argsLexemes c.args ++ [.op ")"])

def primaryStep (g : Grammar) (x : Expr) : Parse (Option Expr) := do
  if ← Parse.accept "." then return some (← selection g x)
  else if ← Parse.isAt "[" then return some (← indexing g x)
  else if ← Parse.isAt "(" then return some (← calling g x)
  else if ← Parse.isAt "\x7b" then
    if ← startsLiteral x then return some (← literalStep g (some x)) else return none
  else return none

theorem Callee.run_unaryStep (f : Callee) (d : Nat) (level : Int) (e e' : Nat → Item)
    (js : List Item) :
    ∃ fuel x, (unaryStep (upTo (d + 5))).run
        ⟨dress e f.lexemes ++ (dress e' [.op "("] ++ js), level⟩ =
      (Parse.iterateUpTo (fuel + 2) (primaryStep (upTo (d + 5))) x).run
        ⟨dress e' [.op "("] ++ js, level⟩ := by
  cases f with
  | function => exact ⟨js.length, _, rfl⟩
  | method => exact ⟨js.length + 1, _, rfl⟩
  | generic => exact ⟨js.length + 3, _, rfl⟩

theorem run_iterateUpTo_last {g : Grammar} {x y : Expr} {s : ParseState} {js : List Item}
    {level : Int} (h : (primaryStep g x).run s = some (some y, ⟨js, level⟩)) (hjs : Stops js)
    (fuel : Nat) :
    (Parse.iterateUpTo (fuel + 2) (primaryStep g) x).run s = some (y, ⟨js, level⟩) := by
  unfold Parse.iterateUpTo
  rw [StateT.run_bind, h]
  cases hjs <;> rfl

theorem Call.reads (c : Call) (d : Nat) (level : Int) :
    Reads (binaryStep (upTo (d + 5)) 1) level c.lexemes Stops fun _ => True := by
  intro is js his hjs
  obtain ⟨f, args⟩ := c
  obtain ⟨e, e', rfl⟩ := exists_dress_append his
  obtain ⟨fuel, x, hunary⟩ := f.run_unaryStep d level e e'
    (dress (fun i => e' (i + 1)) (argsLexemes args ++ [.op ")"]) ++ js)
  obtain ⟨y, -, hcalling⟩ := reads_calling x args d level
    (dress e' (.op "(" :: argsLexemes args ++ [.op ")"])) js (map_lexeme_dress ..) trivial
  have hstep : (primaryStep (upTo (d + 5)) x).run
      ⟨dress e' (.op "(" :: argsLexemes args ++ [.op ")"]) ++ js, level⟩ =
        some (some y, ⟨js, level⟩) := by
    show ((calling (upTo (d + 5)) x).run _ >>= _) = _
    rw [hcalling]
    rfl
  rw [List.append_assoc]
  refine exists_of_bind (hunary.trans (run_iterateUpTo_last hstep hjs fuel)) ?_
  cases hjs <;> exact ⟨_, trivial, rfl⟩

inductive Value where
  | arg (a : Arg)
  | call (c : Call)

def Value.lexemes : Value → List Lexeme
  | arg a => a.lexemes
  | call c => c.lexemes

theorem Value.reads (v : Value) (d : Nat) (level : Int) :
    Reads (binaryStep (upTo (d + 5)) 1) level v.lexemes Stops fun _ => True := by
  cases v with
  | arg a => exact a.reads (d + 1) level
  | call c => exact c.reads d level

/-! Literals. -/

structure Filler where
  field : String
  type : String

def Filler.lexemes (f : Filler) : List Lexeme :=
  [.ident f.field, .op ":", .op "[", .op "]", .ident f.type, .op "\x7b", .op "\x7d", .op ","]

def element (g : Grammar) : Parse Expr := do
  let x ← literalValue g
  if ← Parse.isAt ":" then
    let colon := (← Parse.take).pos
    return .pair x colon (← literalValue g)
  return x

theorem literalStep_eq (g : Grammar) (type : Option Expr) :
    literalStep g type = (do
      let opening ← Parse.expect "\x7b"
      let elems ← Parse.nested (Parse.listUpTo "\x7d" (element g))
      let closing ← Parse.expect "\x7d"
      return .composite type opening elems closing) := by
  rfl

theorem reads_literalStep (type : Option Expr) (fillers : List Filler) (d : Nat) (level : Int) :
    Reads (literalStep (upTo (d + 5)) type) level
      (.op "\x7b" :: (fillers.map Filler.lexemes).flatten ++ [.op "\x7d"]) Anything
      fun _ => True := by
  intro is js his _
  obtain ⟨e, e', rfl⟩ := exists_dress_append his
  have hmany : Reads (Parse.listUpTo "\x7d" (element (upTo (d + 5)))) (level + 1)
      (fillers.map Filler.lexemes).flatten (IsAt [.op "\x7d"]) fun xs => ∀ x ∈ xs, True := by
    rw [Parse.listUpTo_eq]
    apply Parse.reads_many
    · intro part hpart is js his _
      obtain ⟨f, -, rfl⟩ := List.mem_map.1 hpart
      obtain ⟨e, rfl⟩ := exists_dress his
      exact ⟨_, ⟨_, rfl, trivial⟩, rfl⟩
    · intro part hpart
      obtain ⟨f, -, rfl⟩ := List.mem_map.1 hpart
      exact List.cons_ne_nil _ _
    · rintro _ ⟨e, js, rfl⟩
      rfl
  obtain ⟨xs, -, hxs⟩ := Parse.reads_nested hmany (dress (fun i => e (i + 1)) _) _
    (map_lexeme_dress ..) ⟨e', js, rfl⟩
  rw [literalStep_eq, List.append_assoc]
  exact exists_of_bind hxs ⟨_, trivial, rfl⟩

inductive Result where
  | value (v : Value)
  | record (type : String) (fillers : List Filler)

def Result.lexemes : Result → List Lexeme
  | value v => v.lexemes
  | record type fillers =>
    [.ident type] ++ (.op "\x7b" :: (fillers.map Filler.lexemes).flatten ++ [.op "\x7d"])

theorem reads_record (type : String) (fillers : List Filler) (d : Nat) :
    Reads (binaryStep (upTo (d + 5)) 1) 0 (Result.record type fillers).lexemes Stops
      fun _ => True := by
  intro is js his hjs
  obtain ⟨e, e', rfl⟩ := exists_dress_append his
  obtain ⟨y, -, hliteral⟩ := reads_literalStep (some (.name ⟨(e 0).token.pos, type⟩)) fillers d 0
    (dress e' _) js (map_lexeme_dress ..) trivial
  have hstep : (primaryStep (upTo (d + 5)) (.name ⟨(e 0).token.pos, type⟩)).run
      ⟨dress e' (.op "\x7b" :: (fillers.map Filler.lexemes).flatten ++ [.op "\x7d"]) ++ js, 0⟩ =
        some (some y, ⟨js, 0⟩) := by
    show ((literalStep (upTo (d + 5)) (some (.name ⟨(e 0).token.pos, type⟩))).run _ >>= _) = _
    rw [hliteral]
    rfl
  have hlast := run_iterateUpTo_last hstep hjs (dress (fun i => e' (i + 1))
    ((fillers.map Filler.lexemes).flatten ++ [.op "\x7d"]) ++ js).length
  rw [List.append_assoc]
  refine exists_of_bind hlast ?_
  cases hjs <;> exact ⟨_, trivial, rfl⟩

theorem Result.reads (r : Result) (d : Nat) :
    Reads (binaryStep (upTo (d + 5)) 1) 0 r.lexemes Stops fun _ => True := by
  cases r with
  | value v => exact v.reads d 0
  | record type fillers => exact reads_record type fillers d

/-! Statements. -/

inductive IsAtEnd : List Item → Prop where
  | mk (text : String) (d : Nat → Item) (js : List Item) :
    IsAtEnd (dress d [(.semicolon, text)] ++ js)

theorem IsAtEnd.stops {js : List Item} (h : IsAtEnd js) : Stops js := by
  obtain ⟨text, d, js⟩ := h
  exact .semicolon text d js

theorem reads_exprs {g : Grammar} {v : List Lexeme} {level : Int}
    (h : Reads (binaryStep g 1) level v Stops fun _ => True) :
    Reads (exprs g) level v IsAtEnd fun xs => ∃ x, xs = [x] := by
  intro is js his hjs
  obtain ⟨x, -, hx⟩ := h is js his hjs.stops
  refine exists_of_bind hx ?_
  cases hjs
  exact ⟨_, ⟨_, rfl⟩, rfl⟩

inductive Target where
  | name (x : String)
  | member (x y : String)
  | names (x y : String)

def Target.lexemes : Target → List Lexeme
  | name x => [.ident x]
  | member x y => [.ident x, .op ".", .ident y]
  | names x y => [.ident x, .op ",", .ident y]

inductive Sign where
  | define
  | assign

def Sign.lexeme : Sign → Lexeme
  | define => .op ":="
  | assign => .op "="

theorem Target.reads (t : Target) (sign : Sign) (d : Nat) (level : Int) :
    Reads (exprs (upTo (d + 5))) level t.lexemes (IsAt [sign.lexeme]) fun _ => True := by
  rintro is _ his ⟨e, js, rfl⟩
  obtain ⟨e', rfl⟩ := exists_dress his
  cases sign <;> cases t <;> exact ⟨_, trivial, rfl⟩

inductive Action where
  | call (c : Call)
  | set (t : Target) (sign : Sign) (v : Value)

def Action.lexemes : Action → List Lexeme
  | call c => c.lexemes
  | set t sign v => t.lexemes ++ sign.lexeme :: v.lexemes

inductive IsPlain : Simple → Prop where
  | assign (lhs : List Expr) (pos : Pos) (sign : String) (rhs : List Expr) :
    IsPlain (.stmt (.assign lhs pos sign rhs))
  | expr (x : Expr) : IsPlain (.stmt (.expr x))

namespace Action

theorem reads (a : Action) (d : Nat) (level : Int) {place : Place} (hplace : place ≠ .loopHeader) :
    Reads (simple (upTo (d + 5)) place) level a.lexemes IsAtEnd IsPlain := by
  intro is js his hjs
  cases a with
  | call c =>
    obtain ⟨_, ⟨x, rfl⟩, hx⟩ := reads_exprs (c.reads d level) is js his hjs
    refine exists_of_bind hx ?_
    cases hjs
    exact ⟨_, .expr x, rfl⟩
  | set t sign v =>
    obtain ⟨e, e', rfl⟩ := exists_dress_append his
    obtain ⟨ys, -, hys⟩ := reads_exprs (v.reads d level) (dress (fun i => e' (i + 1)) v.lexemes) js
      (map_lexeme_dress ..) hjs
    generalize hitems : dress (fun i => e' (i + 1)) v.lexemes ++ js = items at hys
    obtain ⟨xs, -, hxs⟩ := t.reads sign d level (dress e t.lexemes)
      (dress e' [sign.lexeme] ++ items) (map_lexeme_dress ..) ⟨e', items, rfl⟩
    have hsplit : dress e t.lexemes ++ dress e' (sign.lexeme :: v.lexemes) ++ js =
        dress e t.lexemes ++ (dress e' [sign.lexeme] ++ items) := by
      rw [List.append_assoc, ← hitems]
      rfl
    rw [hsplit]
    refine exists_of_bind hxs ?_
    cases place with
    | loopHeader => contradiction
    | header => cases sign <;> exact exists_of_bind hys ⟨_, .assign .., rfl⟩
    | body => cases sign <;> exact exists_of_bind hys ⟨_, .assign .., rfl⟩

theorem exists_ident (a : Action) : ∃ x ls, a.lexemes = .ident x :: ls := by
  cases a with
  | call c =>
    obtain ⟨f, args⟩ := c
    cases f <;> exact ⟨_, _, rfl⟩
  | set t => cases t <;> exact ⟨_, _, rfl⟩

theorem reads_stmt (a : Action) (d : Nat) (level : Int) :
    Reads (stmtStep (upTo (d + 5))) level (a.lexemes ++ [.lineEnd]) Anything fun _ => True := by
  intro is js his _
  obtain ⟨e, e', rfl⟩ := exists_dress_append his
  obtain ⟨_, hplain, hrun⟩ := a.reads d level (by decide : Place.body ≠ .loopHeader)
    (dress e a.lexemes) _ (map_lexeme_dress ..) (.mk impliedSemicolon e' js)
  obtain ⟨x, ls, hls⟩ := a.exists_ident
  rw [hls] at hrun ⊢
  rw [List.append_assoc]
  refine exists_of_bind hrun ?_
  cases hplain <;> exact ⟨_, trivial, rfl⟩

theorem reads_inHeader (a : Action) (x : String) (d : Nat) (level : Int) :
    Reads (inHeader (chooseHeader (upTo (d + 5)))) level (a.lexemes ++ [.semicolon, .ident x])
      (IsAt [.op "\x7b"]) fun _ => True := by
  rintro is _ his ⟨e'', js, rfl⟩
  obtain ⟨e, e', rfl⟩ := exists_dress_append his
  rw [List.append_assoc]
  obtain ⟨_, hplain, hrun⟩ := a.reads d (-1) (by decide : Place.header ≠ .loopHeader)
    (dress e a.lexemes) (dress e' [.semicolon, .ident x] ++ (dress e'' [.op "\x7b"] ++ js))
    (map_lexeme_dress ..) (.mk ";" e' _)
  obtain ⟨s, -, hheader⟩ : ∃ s, True ∧ (headerStmt (upTo (d + 5))).run ⟨dress e a.lexemes ++
      (dress e' [.semicolon, .ident x] ++ (dress e'' [.op "\x7b"] ++ js)), -1⟩ =
        some (s, ⟨dress e' [.semicolon, .ident x] ++ (dress e'' [.op "\x7b"] ++ js), -1⟩) :=
    exists_of_bind hrun (by cases hplain <;> exact ⟨_, trivial, rfl⟩)
  obtain ⟨y, ls, hls⟩ := a.exists_ident
  rw [hls] at hheader ⊢
  obtain ⟨r, -, hr⟩ : ∃ r, True ∧ (chooseHeader (upTo (d + 5))).run ⟨dress e (.ident y :: ls) ++
      (dress e' [.semicolon, .ident x] ++ (dress e'' [.op "\x7b"] ++ js)), -1⟩ =
        some (r, ⟨dress e'' [.op "\x7b"] ++ js, -1⟩) :=
    exists_of_bind hheader ⟨_, trivial, rfl⟩
  exact exists_of_bind hr ⟨_, trivial, rfl⟩

end Action

inductive StartsStatement : Lexeme → Prop where
  | name (x : String) : StartsStatement (.ident x)
  | choose : StartsStatement (.key "if")
  | declare : StartsStatement (.key "var")
  | giveBack : StartsStatement (.key "return")

structure IsReadable (g : Grammar) (level : Int) (s : List Lexeme) : Prop where
  start : ∃ x ls, s = x :: ls ∧ StartsStatement x
  reads : Reads g.stmt level s Anything fun _ => True

def blockLexemes (ss : List (List Lexeme)) : List Lexeme :=
  .op "\x7b" :: ss.flatten ++ [.op "\x7d"]

theorem reads_blockLexemes (g : Grammar) (level : Int) (ss : List (List Lexeme))
    (h : ∀ s ∈ ss, IsReadable g level s) :
    Reads (blockStep g) level (blockLexemes ss) Anything fun _ => True := by
  intro is js his _
  obtain ⟨e, e', rfl⟩ := exists_dress_append his
  have hstmts : Reads (stmts g) level ss.flatten (IsAt [.op "\x7d"]) fun as => ∀ a ∈ as, True := by
    apply Parse.reads_many
    · intro s hs is js his _
      obtain ⟨x, hx, hrun⟩ := (h s hs).reads is js his trivial
      obtain ⟨y, ls, rfl, hstart⟩ := (h s hs).start
      obtain ⟨e, rfl⟩ := exists_dress his
      cases hstart <;> exact exists_of_bind hrun ⟨_, ⟨x, rfl, trivial⟩, rfl⟩
    · intro s hs
      obtain ⟨y, ls, rfl, -⟩ := (h s hs).start
      exact List.cons_ne_nil y ls
    · rintro _ ⟨e, js, rfl⟩
      rfl
  obtain ⟨xs, -, hxs⟩ := hstmts (dress (fun i => e (i + 1)) ss.flatten) _ (map_lexeme_dress ..)
    ⟨e', js, rfl⟩
  rw [List.append_assoc]
  exact exists_of_bind hxs ⟨_, trivial, rfl⟩

inductive Statement where
  | act (a : Action)
  | declare (x y type : String)
  | guarded (x y : String) (a : Action)
  /-- Something is done if a first action was successful. -/
  | found (test : Action) (x : String) (a : Action)
  | giveBack (r : Result)

def Statement.lexemes : Statement → List Lexeme
  | act a => a.lexemes ++ [.lineEnd]
  | declare x y type => [.key "var", .ident x, .ident y, .op ".", .ident type, .lineEnd]
  | guarded x y a => [.key "if", .ident x, .op ".", .ident y, .op "!=", .ident "nil"] ++
    (blockLexemes [a.lexemes ++ [.lineEnd]] ++ [.lineEnd])
  | found test x a => [.key "if"] ++ ((test.lexemes ++ [.semicolon, .ident x]) ++
    (blockLexemes [a.lexemes ++ [.lineEnd]] ++ [.lineEnd]))
  | giveBack r => .key "return" :: r.lexemes ++ [.lineEnd]

inductive StartsResult : Lexeme → Prop where
  | name (x : String) : StartsResult (.ident x)
  | number (n : Nat) : StartsResult (.number n)
  | content : StartsResult (.op "*")
  | address : StartsResult (.op "&")

theorem Result.exists_start (r : Result) : ∃ x ls, r.lexemes = x :: ls ∧ StartsResult x := by
  cases r with
  | value v =>
    cases v with
    | arg a => cases a <;> exact ⟨_, _, rfl, by constructor⟩
    | call c =>
      obtain ⟨f, args⟩ := c
      cases f <;> exact ⟨_, _, rfl, .name _⟩
  | record type => exact ⟨_, _, rfl, .name type⟩

theorem Action.isReadable (a : Action) (d : Nat) (level : Int) :
    IsReadable (upTo (d + 6)) level (a.lexemes ++ [.lineEnd]) where
  start := by
    obtain ⟨x, ls, hls⟩ := a.exists_ident
    rw [hls]
    exact ⟨.ident x, _, rfl, .name x⟩
  reads := a.reads_stmt d level

namespace Statement

theorem reads (s : Statement) (d : Nat) :
    Reads (stmtStep (upTo (d + 7))) 0 s.lexemes Anything fun _ => True := by
  intro is js his _
  cases s with
  | act a => exact a.reads_stmt (d + 2) 0 is js his trivial
  | declare x y type =>
    obtain ⟨e, rfl⟩ := exists_dress his
    exact ⟨_, trivial, rfl⟩
  | guarded x y a =>
    obtain ⟨first, rest, rfl, hfirst, hrest⟩ := List.map_eq_append_iff.1 his
    obtain ⟨e, rfl⟩ := exists_dress hfirst
    obtain ⟨e', e'', rfl⟩ := exists_dress_append hrest
    obtain ⟨b, -, hb⟩ := reads_blockLexemes (upTo (d + 6)) 0 [a.lexemes ++ [.lineEnd]]
      (List.forall_mem_singleton.2 (a.isReadable d 0)) (dress e' _) (dress e'' [.lineEnd] ++ js)
      (map_lexeme_dress ..) trivial
    simp only [List.append_assoc]
    exact exists_of_bind hb ⟨_, trivial, rfl⟩
  | found test x a =>
    obtain ⟨first, rest, rfl, hfirst, hrest⟩ := List.map_eq_append_iff.1 his
    obtain ⟨header, body, rfl, hheader, hbody⟩ := List.map_eq_append_iff.1 hrest
    obtain ⟨e, e', rfl⟩ := exists_dress_append hbody
    obtain ⟨e'', rfl⟩ := exists_dress hfirst
    obtain ⟨b, -, hb⟩ := reads_blockLexemes (upTo (d + 6)) 0 [a.lexemes ++ [.lineEnd]]
      (List.forall_mem_singleton.2 (a.isReadable d 0)) (dress e _) (dress e' [.lineEnd] ++ js)
      (map_lexeme_dress ..) trivial
    obtain ⟨r, -, hr⟩ := test.reads_inHeader x (d + 2) 0 header _ hheader ⟨e, _, rfl⟩
    simp only [List.append_assoc]
    refine exists_of_bind hr ?_
    exact exists_of_bind hb ⟨_, trivial, rfl⟩
  | giveBack r =>
    obtain ⟨e, e', rfl⟩ := exists_dress_append his
    obtain ⟨xs, -, hxs⟩ := reads_exprs (r.reads (d + 2)) (dress (fun i => e (i + 1)) r.lexemes) _
      (map_lexeme_dress ..) (.mk impliedSemicolon e' js)
    obtain ⟨x, ls, hls, hstart⟩ := r.exists_start
    rw [hls] at hxs ⊢
    rw [List.append_assoc]
    cases hstart <;> exact exists_of_bind hxs ⟨_, trivial, rfl⟩

theorem isReadable (s : Statement) (d : Nat) : IsReadable (upTo (d + 8)) 0 s.lexemes where
  start := by
    cases s with
    | act a => exact (a.isReadable d 0).start
    | declare => exact ⟨_, _, rfl, .declare⟩
    | guarded => exact ⟨_, _, rfl, .choose⟩
    | found => exact ⟨_, _, rfl, .choose⟩
    | giveBack => exact ⟨_, _, rfl, .giveBack⟩
  reads := s.reads d

end Statement

end RecordCodec.Emit.Code
