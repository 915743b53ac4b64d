import RecordCodec.Proofs.Source.Pieces
import RecordCodec.Source.Grammar.File

/-!
This module contains how parsers meet the tokens of a text. Comments are taken from between the
tokens without a loss, and a parser reads some lexemes if it steps over all tokens that have them,
wherever they stand.
-/

namespace RecordCodec.Source

/-! Comments. -/

def SkipsTo (ts rest : List Token) : Prop :=
  ∃ cs, (∀ c ∈ cs, c.kind = .comment) ∧ ts = cs ++ rest

namespace SkipsTo

theorem refl (ts : List Token) : SkipsTo ts ts :=
  ⟨[], nofun, rfl⟩

theorem trans {ts us vs : List Token} (h : SkipsTo ts us) (h' : SkipsTo us vs) : SkipsTo ts vs := by
  obtain ⟨cs, hcs, rfl⟩ := h
  obtain ⟨ds, hds, rfl⟩ := h'
  refine ⟨cs ++ ds, ?_, (List.append_assoc ..).symm⟩
  intro c hc
  exact (List.mem_append.1 hc).elim (hcs c) (hds c)

theorem cons {t : Token} {ts rest : List Token} (ht : t.kind = .comment) (h : SkipsTo ts rest) :
    SkipsTo (t :: ts) rest := by
  obtain ⟨cs, hcs, rfl⟩ := h
  exact ⟨t :: cs, List.forall_mem_cons.2 ⟨ht, hcs⟩, rfl⟩

theorem takeGroup (gap endLine : Nat) (ts : List Token) :
    SkipsTo ts (takeGroup gap endLine ts).2.2 := by
  induction ts generalizing endLine with
  | nil => exact refl []
  | cons t ts ih =>
    unfold Source.takeGroup
    split
    · next h =>
      rw [Bool.and_eq_true] at h
      exact cons (eq_of_beq h.1) (ih _)
    · exact refl _

end SkipsTo

theorem length_takeGroup_lt {t : Token} (ht : t.kind = .comment) (ts : List Token) :
    (takeGroup 1 t.pos.line (t :: ts)).2.2.length < (t :: ts).length := by
  obtain ⟨cs, -, hcs⟩ := SkipsTo.takeGroup 1 t.stop.line ts
  have hlength := congrArg List.length hcs
  rw [List.length_append] at hlength
  have hfirst : (t.kind == .comment && decide (t.pos.line ≤ t.pos.line + 1)) = true := by
    rw [ht, decide_eq_true (Nat.le_succ _)]
    rfl
  unfold takeGroup
  rw [if_pos hfirst, List.length_cons]
  show (takeGroup 1 t.stop.line ts).2.2.length < ts.length + 1
  omega

theorem skipsTo_takeGroups {fuel : Nat} {ts : List Token} (hfuel : ts.length ≤ fuel) :
    SkipsTo ts (takeGroups fuel ts).2.2 ∧
      ∀ t ∈ (takeGroups fuel ts).2.2.head?, t.kind ≠ .comment := by
  induction fuel generalizing ts with
  | zero =>
    cases List.length_eq_zero_iff.1 (Nat.le_zero.1 hfuel)
    exact ⟨.refl _, nofun⟩
  | succ fuel ih =>
    unfold takeGroups
    split
    · next t ts =>
      split
      · next h =>
        have hlength := length_takeGroup_lt (eq_of_beq h) ts
        obtain ⟨hskips, hhead⟩ := @ih (takeGroup 1 t.pos.line (t :: ts)).2.2 (by omega)
        have hgroup := (SkipsTo.takeGroup 1 t.pos.line (t :: ts)).trans hskips
        dsimp only
        split
        · next heq =>
          rw [heq] at hhead hgroup
          exact ⟨hgroup, hhead⟩
        · next heq =>
          rw [heq] at hhead hgroup
          exact ⟨hgroup, hhead⟩
      · next h =>
        refine ⟨.refl _, ?_⟩
        rintro _ ⟨⟩
        simpa using h
    · exact ⟨.refl _, nofun⟩

def EndsInToken (ts : List Token) : Prop :=
  ∀ t ∈ ts.getLast?, t.kind ≠ .comment

theorem EndsInToken.of_append {cs ts : List Token} (h : EndsInToken (cs ++ ts)) :
    EndsInToken ts := by
  intro t ht
  apply h
  rw [List.getLast?_append, ht]
  rfl

theorem SkipsTo.ne_nil {ts rest : List Token} (h : SkipsTo ts rest) (hends : EndsInToken ts)
    (hne : ts ≠ []) : rest ≠ [] := by
  rintro rfl
  obtain ⟨cs, hcs, rfl⟩ := h
  rw [List.append_nil] at hends hne
  have hlast := List.getLast?_eq_some_getLast hne
  exact hends _ hlast (hcs _ (List.getLast_mem hne))

theorem exists_nextItem? {ts : List Token} (hends : EndsInToken ts) (hne : ts ≠ []) (line : Nat) :
    ∃ item groups rest, nextItem? line ts = some (item, groups, rest) ∧
      SkipsTo ts (item.token :: rest) ∧ item.token.kind ≠ .comment := by
  unfold nextItem?
  dsimp only
  generalize (ts.head?.any fun t => t.kind == .comment && t.pos.line == line) = isSame
  have hothers : SkipsTo ts (if isSame then takeGroup 0 line ts else ([], 0, ts)).2.2 := by
    split
    · exact .takeGroup 0 line ts
    · exact .refl ts
  generalize (if isSame then takeGroup 0 line ts else ([], 0, ts)) = split at hothers ⊢
  obtain ⟨own, ownEnd, others⟩ := split
  obtain ⟨hrest, hhead⟩ := skipsTo_takeGroups (Nat.le_refl others.length)
  dsimp only at hothers ⊢
  generalize takeGroups others.length others = taken at hrest hhead ⊢
  obtain ⟨groups, last, rest⟩ := taken
  have hskips := hothers.trans hrest
  obtain ⟨follower, others, rfl⟩ := List.exists_cons_of_ne_nil (hothers.ne_nil hends hne)
  obtain ⟨token, rest, rfl⟩ := List.exists_cons_of_ne_nil (hskips.ne_nil hends hne)
  exact ⟨⟨token, _, _⟩, _, rest, rfl, hskips, hhead token rfl⟩

def Token.isCode (t : Token) : Bool :=
  t.kind != .comment

theorem SkipsTo.filter_isCode {ts rest : List Token} (h : SkipsTo ts rest) :
    ts.filter Token.isCode = rest.filter Token.isCode := by
  obtain ⟨cs, hcs, rfl⟩ := h
  have hnone : cs.filter Token.isCode = [] := by
    rw [List.filter_eq_nil_iff]
    intro c hc
    simp [Token.isCode, hcs c hc]
  rw [List.filter_append, hnone, List.nil_append]

theorem map_token_attachFrom {fuel : Nat} {ts : List Token} (hends : EndsInToken ts)
    (hfuel : ts.length ≤ fuel) (line : Nat) :
    (attachFrom fuel line ts).1.map Item.token = ts.filter Token.isCode := by
  induction fuel generalizing ts line with
  | zero =>
    cases List.length_eq_zero_iff.1 (Nat.le_zero.1 hfuel)
    rfl
  | succ fuel ih =>
    by_cases hne : ts = []
    · subst hne
      rfl
    · obtain ⟨item, groups, rest, hnext, hskips, hkind⟩ := exists_nextItem? hends hne line
      have hfilter := hskips.filter_isCode
      obtain ⟨cs, -, rfl⟩ := hskips
      have hrest : EndsInToken rest := (List.append_cons cs item.token rest ▸ hends).of_append
      have hlength : rest.length ≤ fuel := by
        simp only [List.length_append, List.length_cons] at hfuel
        omega
      have hcode : item.token.isCode = true := bne_iff_ne.2 hkind
      rw [attachFrom, hnext, hfilter, List.filter_cons_of_pos hcode,
        ← ih hrest hlength item.token.pos.line]
      rfl

theorem map_token_attach {ts : List Token} (h : EndsInToken ts) :
    (attach ts).1.map Item.token = ts.filter Token.isCode :=
  map_token_attachFrom h (Nat.le_refl _) 0

/-! Lexemes. -/

abbrev Lexeme :=
  TokenKind × String

namespace Lexeme

def ident (text : String) : Lexeme :=
  (.ident, text)

def key (text : String) : Lexeme :=
  (.keyword, text)

def op (text : String) : Lexeme :=
  (.operator, text)

def number (n : Nat) : Lexeme :=
  (.int, toString n)

def semicolon : Lexeme :=
  (.semicolon, ";")

def lineEnd : Lexeme :=
  (.semicolon, impliedSemicolon)

end Lexeme

def Item.lexeme (i : Item) : Lexeme :=
  i.token.lexeme

def dress (d : Nat → Item) : List Lexeme → List Item
  | [] => []
  | (kind, text) :: ls =>
    { d 0 with token := { (d 0).token with kind := kind, text := text } } ::
      dress (fun i => d (i + 1)) ls

theorem map_lexeme_dress (d : Nat → Item) (ls : List Lexeme) :
    (dress d ls).map Item.lexeme = ls := by
  induction ls generalizing d with
  | nil => rfl
  | cons l ls ih =>
    rw [dress, List.map_cons, ih]
    rfl

theorem dress_append (d : Nat → Item) (ls more : List Lexeme) :
    dress d (ls ++ more) = dress d ls ++ dress (fun i => d (ls.length + i)) more := by
  induction ls generalizing d with
  | nil =>
    simp only [List.nil_append, List.length_nil, Nat.zero_add, dress]
  | cons l ls ih =>
    rw [List.cons_append, dress, ih, dress, List.cons_append]
    simp only [List.length_cons, Nat.add_right_comm]

theorem exists_dress {is : List Item} {ls : List Lexeme} (h : is.map Item.lexeme = ls) :
    ∃ d, is = dress d ls := by
  subst h
  induction is with
  | nil => exact ⟨fun _ => default, rfl⟩
  | cons i is ih =>
    obtain ⟨d, hd⟩ := ih
    refine ⟨fun n => n.casesOn i d, ?_⟩
    conv => lhs; rw [hd]
    rfl

theorem exists_dress_append {is : List Item} {ls more : List Lexeme}
    (h : is.map Item.lexeme = ls ++ more) : ∃ d e, is = dress d ls ++ dress e more := by
  obtain ⟨d, rfl⟩ := exists_dress h
  exact ⟨d, _, dress_append d ls more⟩

/--
A parser steps over all items with given lexemes at a level, if what follows them is as it must be.
Its result has a property.
-/
def Reads (m : Parse α) (level : Int) (ls : List Lexeme) (next : List Item → Prop)
    (good : α → Prop) : Prop :=
  ∀ is js, is.map Item.lexeme = ls → next js →
    ∃ a, good a ∧ m.run ⟨is ++ js, level⟩ = some (a, ⟨js, level⟩)

theorem exists_of_bind {x : Option β} {f : β → Option (α × ParseState)} {good : α → Prop} {b : β}
    {s : ParseState} (h : x = some b) (hf : ∃ a, good a ∧ f b = some (a, s)) :
    ∃ a, good a ∧ (x >>= f) = some (a, s) := by
  rw [h]
  exact hf

def Anything (_ : List Item) : Prop :=
  True

namespace Parse

variable {step : Parse (Option α)} {level : Int} {s : ParseState}

theorem run_repeatUpTo_none {s s' : ParseState} (h : step.run s = some (none, s')) (fuel : Nat) :
    (repeatUpTo (fuel + 1) step).run s = some ([], s') := by
  unfold repeatUpTo
  rw [StateT.run_bind, h]
  rfl

theorem run_repeatUpTo_some {s s' s'' : ParseState} {a : α} {as : List α} {fuel : Nat}
    (h : step.run s = some (some a, s')) (hmore : (repeatUpTo fuel step).run s' = some (as, s'')) :
    (repeatUpTo (fuel + 1) step).run s = some (a :: as, s'') := by
  unfold repeatUpTo
  rw [StateT.run_bind, h]
  show (StateT.run (repeatUpTo fuel step) s' >>= _) = _
  rw [hmore]
  rfl

theorem run_repeatUpTo_add {fuel : Nat} {r : List α × ParseState}
    (h : (repeatUpTo fuel step).run s = some r) (more : Nat) :
    (repeatUpTo (fuel + more) step).run s = some r := by
  induction fuel generalizing s r with
  | zero => contradiction
  | succ fuel ih =>
    unfold repeatUpTo at h
    rw [StateT.run_bind] at h
    obtain ⟨⟨result, s'⟩, hstep, h⟩ := Option.bind_eq_some_iff.1 h
    rw [Nat.add_right_comm]
    cases result with
    | none =>
      cases h
      exact run_repeatUpTo_none hstep _
    | some a =>
      obtain ⟨⟨as, s''⟩, hmore, h⟩ := Option.bind_eq_some_iff.1 h
      cases h
      exact run_repeatUpTo_some hstep (ih hmore)

theorem run_many_none {js : List Item} (h : step.run ⟨js, level⟩ = some (none, s)) :
    (many step).run ⟨js, level⟩ = some ([], s) :=
  run_repeatUpTo_none h js.length

theorem run_many_some {is js : List Item} {a : α} {as : List α}
    (h : step.run ⟨is ++ js, level⟩ = some (some a, ⟨js, level⟩)) (hne : is ≠ [])
    (hmore : (many step).run ⟨js, level⟩ = some (as, s)) :
    (many step).run ⟨is ++ js, level⟩ = some (a :: as, s) := by
  have hlength : (is ++ js).length = js.length + 1 + (is.length - 1) := by
    have hpos := List.length_pos_iff.2 hne
    rw [List.length_append]
    omega
  show (repeatUpTo ((is ++ js).length + 1) step).run _ = _
  rw [hlength]
  exact run_repeatUpTo_some h (run_repeatUpTo_add hmore _)

theorem reads_many {good : α → Prop} {parts : List (List Lexeme)} {next : List Item → Prop}
    (h : ∀ part ∈ parts, Reads step level part Anything fun r => ∃ a, r = some a ∧ good a)
    (hne : ∀ part ∈ parts, part ≠ [])
    (hend : ∀ js, next js → step.run ⟨js, level⟩ = some (none, ⟨js, level⟩)) :
    Reads (many step) level parts.flatten next fun as => ∀ a ∈ as, good a := by
  intro is js his hjs
  induction parts generalizing is with
  | nil =>
    rw [List.map_eq_nil_iff.1 his]
    exact ⟨[], nofun, run_many_none (hend js hjs)⟩
  | cons part parts ih =>
    obtain ⟨hpart, hparts⟩ := List.forall_mem_cons.1 h
    obtain ⟨hfull, hfulls⟩ := List.forall_mem_cons.1 hne
    obtain ⟨first, others, rfl, hfirst, hothers⟩ := List.map_eq_append_iff.1 his
    obtain ⟨as, hgood, hrun⟩ := ih hparts hfulls others hothers
    obtain ⟨_, ⟨a, rfl, ha⟩, hstep⟩ := hpart first (others ++ js) hfirst trivial
    refine ⟨a :: as, List.forall_mem_cons.2 ⟨ha, hgood⟩, ?_⟩
    rw [List.append_assoc]
    apply run_many_some hstep _ hrun
    rintro rfl
    exact hfull hfirst.symm

theorem reads_nested {m : Parse α} {ls : List Lexeme} {next : List Item → Prop} {good : α → Prop}
    (h : Reads m (level + 1) ls next good) : Reads (nested m) level ls next good := by
  intro is js his hjs
  obtain ⟨a, ha, hrun⟩ := h is js his hjs
  exact exists_of_bind hrun ⟨a, ha, rfl⟩

def listStep (closing : String) (p : Parse α) : Parse (Option α) := do
  if ← isAt closing then return none
  let a ← p
  if ← isAtComma closing then advance
  return some a

theorem listUpTo_eq (closing : String) (p : Parse α) :
    listUpTo closing p = many (listStep closing p) := by
  rfl

end Parse

def IsAt (ls : List Lexeme) (js : List Item) : Prop :=
  ∃ d rest, js = dress d ls ++ rest

/-! Texts. -/

def Piece.code (wantsSemicolon : Bool) : List Piece → List Lexeme
  | [] => ending wantsSemicolon
  | p :: ps =>
    match p with
    | space | tab | comment _ => code wantsSemicolon ps
    | line => bif wantsSemicolon then .lineEnd :: code false ps else code false ps
    | name x => .ident x :: code true ps
    | p => (p.kind, p.text) :: code (endsStatement p.kind p.text) ps

theorem Piece.filter_lexemes (wantsSemicolon : Bool) (ps : List Piece) :
    (lexemes wantsSemicolon ps).filter (·.1 != .comment) = code wantsSemicolon ps := by
  induction ps generalizing wantsSemicolon with
  | nil => cases wantsSemicolon <;> rfl
  | cons p ps ih =>
    cases p with
    | line =>
      cases wantsSemicolon with
      | false => exact ih false
      | true => exact congrArg (Lexeme.lineEnd :: ·) (ih false)
    | space => exact ih wantsSemicolon
    | tab => exact ih wantsSemicolon
    | comment => exact ih wantsSemicolon
    | word text =>
      have hkind : (wordKind text != .comment) = true := by
        unfold wordKind
        split <;> rfl
      exact (List.filter_cons_of_pos (a := (wordKind text, text)) hkind).trans
        (congrArg (_ :: ·) (ih _))
    | _ => exact congrArg (_ :: ·) (ih _)

def Renders (text : String) (ls : List Lexeme) : Prop :=
  ∃ ps, Spells text ps ∧ (∀ qs, Piece.areApart qs = true → Piece.areApart (ps ++ qs) = true) ∧
    ∀ qs, Piece.code false (ps ++ qs) = ls ++ Piece.code false qs

namespace Renders

theorem nil : Renders "" [] :=
  ⟨[], ⟨rfl, rfl⟩, fun _ h => h, fun _ => rfl⟩

theorem append {s t : String} {ls more : List Lexeme} (hs : Renders s ls) (ht : Renders t more) :
    Renders (s ++ t) (ls ++ more) := by
  obtain ⟨ps, hps, hapart, hcode⟩ := hs
  obtain ⟨qs, hqs, hapart', hcode'⟩ := ht
  refine ⟨ps ++ qs, hps.append hqs, ?_, ?_⟩
  · intro rs hrs
    rw [List.append_assoc]
    exact hapart _ (hapart' rs hrs)
  · intro rs
    rw [List.append_assoc, hcode, hcode', List.append_assoc]

theorem join {xs : List β} {f : β → String} {g : β → List Lexeme}
    (h : ∀ x ∈ xs, Renders (f x) (g x)) : Renders (String.join (xs.map f)) (xs.map g).flatten := by
  induction xs with
  | nil => exact nil
  | cons x xs ih =>
    obtain ⟨hx, hxs⟩ := List.forall_mem_cons.1 h
    rw [List.map_cons, String.join_cons, List.map_cons, List.flatten_cons]
    exact hx.append (ih hxs)

end Renders

theorem getLast?_lexemes (wantsSemicolon : Bool) (ps : List Piece) :
    (Piece.lexemes wantsSemicolon ps).getLast? = some (.eof, "") := by
  fun_induction Piece.lexemes wantsSemicolon ps with
  | case1 wantsSemicolon => cases wantsSemicolon <;> rfl
  | case2 => assumption
  | case3 => assumption
  | case4 => assumption
  | case5 ps ih => rw [List.getLast?_cons, ih]; rfl
  | case6 _ _ _ ih => rw [List.getLast?_cons, ih]; rfl
  | case7 _ _ _ _ _ _ _ _ ih => rw [List.getLast?_cons, ih]; rfl

theorem Renders.exists_tokens {text : String} {ls : List Lexeme} (h : Renders text ls) :
    ∃ tokens, tokenize? text = some tokens ∧ EndsInToken tokens ∧
      (tokens.filter Token.isCode).map Token.lexeme = ls ++ [(.eof, "")] := by
  obtain ⟨ps, hspells, hapart, hcode⟩ := h
  have hclosed := hapart [] rfl
  rw [List.append_nil] at hclosed
  obtain ⟨tokens, hscan, hlexemes⟩ := Piece.lexes_of_areApart false hspells.isProper hclosed
    ((ps.flatMap (·.text.toList)).length + 1) .start (Nat.lt_succ_self _)
  refine ⟨tokens, ?_, ?_, ?_⟩
  · rw [tokenize?_eq hspells.toList (Piece.all_isLegal hspells.isProper), hscan]
  · intro t ht
    have hlast := getLast?_lexemes false ps
    rw [← hlexemes, List.getLast?_map, ht] at hlast
    have hkind : t.kind = .eof := congrArg Prod.fst (Option.some.inj hlast)
    rw [hkind]
    decide
  · have hfilter : (tokens.filter Token.isCode).map Token.lexeme = Piece.code false ps := by
      rw [← Piece.filter_lexemes, ← hlexemes, List.filter_map]
      rfl
    have hall := hcode []
    rw [List.append_nil] at hall
    rw [hfilter, hall]
    rfl

theorem Renders.parse?_isSome {text : String} {ls : List Lexeme} (h : Renders text ls) {depth : Nat}
    (hdepth : depth ≤ ls.length)
    (hfile : ∀ d, Reads (Grammar.file (Grammar.upTo (d + depth))) 0 ls (IsAt [(.eof, "")])
      fun _ => True) : (File.parse? text).isSome = true := by
  obtain ⟨tokens, htokens, hends, hlexemes⟩ := h.exists_tokens
  have hitems : (attach tokens).1.map Item.lexeme = ls ++ [(.eof, "")] := by
    rw [← hlexemes, ← map_token_attach hends, List.map_map]
    rfl
  obtain ⟨d, e, hdress⟩ := exists_dress_append hitems
  have hlength : depth ≤ (attach tokens).1.length + 1 := by
    have hlengths := congrArg List.length hitems
    rw [List.length_map, List.length_append] at hlengths
    omega
  obtain ⟨more, hmore⟩ := Nat.exists_eq_add_of_le' hlength
  obtain ⟨file, -, hrun⟩ := hfile more (dress d ls) (dress e [(.eof, "")] ++ [])
    (map_lexeme_dress ..) ⟨e, [], rfl⟩
  rw [List.append_nil, ← hdress, ← hmore] at hrun
  unfold File.parse? File.ofTokens?
  rw [htokens, Option.bind_eq_bind, Option.bind_some]
  dsimp only
  rw [hrun]
  rfl

end RecordCodec.Source
