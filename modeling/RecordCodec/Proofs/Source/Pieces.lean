import RecordCodec.Proofs.Source.Lexing

/-!
This module contains texts that are put together from pieces. Such a text has those pieces as its
tokens, if none of them runs into the next one.
-/

namespace RecordCodec.Source

open RecordCodec.Text RecordCodec.Number

def brackets : List String :=
  ["(", ")", "[", "]", "\x7b", "\x7d"]

theorem brackets_closed : ∀ text ∈ brackets, ∀ op ∈ operators,
    text.toList.isPrefixOf op.toList = true → op = text := by
  decide

inductive Piece where
  | space
  | tab
  | line
  | semicolon
  | word (text : String)
  | name (text : String)
  | number (n : Nat)
  | operator (text : String)
  | quoted (body : String)
  | raw (body : String)
  | comment (body : String)
  deriving DecidableEq, Repr

namespace Piece

def text : Piece → String
  | space => " "
  | tab => "\t"
  | line => "\n"
  | semicolon => ";"
  | word text | name text | operator text => text
  | number n => toString n
  | quoted body => "\"" ++ body ++ "\""
  | raw body => "`" ++ body ++ "`"
  | comment body => "// " ++ body

def kind : Piece → TokenKind
  | word text => wordKind text
  | name _ => .ident
  | number _ => .int
  | operator _ => .operator
  | quoted _ | raw _ => .string
  | comment _ => .comment
  | space | tab | line | semicolon => .semicolon

def lexemes : Bool → List Piece → List (TokenKind × String)
  | wantsSemicolon, [] => ending wantsSemicolon
  | wantsSemicolon, space :: ps | wantsSemicolon, tab :: ps => lexemes wantsSemicolon ps
  | false, line :: ps => lexemes false ps
  | true, line :: ps => (.semicolon, impliedSemicolon) :: lexemes false ps
  | wantsSemicolon, comment body :: ps =>
    ((comment body).kind, (comment body).text) :: lexemes wantsSemicolon ps
  | _, p :: ps => (p.kind, p.text) :: lexemes (endsStatement p.kind p.text) ps

def isToken : Piece → Bool
  | space | tab | line => false
  | _ => true

def isWord : Piece → Bool
  | word _ | name _ | number _ => true
  | _ => false

def isGap : Piece → Bool
  | space | tab | line | word _ | name _ => true
  | _ => false

def isStop : Piece → Bool
  | space | tab | line | semicolon => true
  | operator text => text == "," || brackets.contains text
  | _ => false

def isInner (c : Char) : Bool :=
  c != '\n' && c != '\r' && c != '\\' && c != backQuote && isLegal c

def isProper : Piece → Bool
  | space | tab | line | semicolon | number _ => true
  | word text => Naming.isIdentifier text
  | name text => Naming.isIdentifier text && !keywords.contains text
  | operator text => operators.contains text && text.toList.head? != some '/'
  | quoted body => body.toList.all fun c => isInner c && c != '"'
  | raw body | comment body => body.toList.all isInner

def isApart (p : Piece) (next : Option Piece) : Bool :=
  match p with
  | word _ | name _ => next.all (!·.isWord)
  | number _ => next.all isStop
  | operator text => brackets.contains text || next.all isGap
  | comment _ => next.all (· == line)
  | _ => true

def areApart : List Piece → Bool
  | [] => true
  | p :: ps => p.isApart ps.head? && areApart ps

variable {p : Piece} {ps : List Piece}

theorem mem_operators {text : String} (h : (operator text).isProper = true) :
    text ∈ operators := by
  simp only [isProper, Bool.and_eq_true, List.contains_eq_mem, decide_eq_true_eq] at h
  exact h.1

theorem toList_quoted (body : String) :
    (quoted body).text.toList = '"' :: (body.toList ++ ['"']) := by
  rw [text, String.toList_append, String.toList_append]
  rfl

theorem toList_raw (body : String) :
    (raw body).text.toList = backQuote :: (body.toList ++ [backQuote]) := by
  rw [text, String.toList_append, String.toList_append]
  rfl

theorem toList_comment (body : String) :
    (comment body).text.toList = '/' :: '/' :: ' ' :: body.toList := by
  rw [text, String.toList_append]
  rfl

theorem isIdentifier_of_name {text : String} (h : (name text).isProper = true) :
    Naming.isIdentifier text = true :=
  (Bool.and_eq_true_iff.1 h).1

theorem wordKind_of_name {text : String} (h : (name text).isProper = true) :
    wordKind text = .ident := by
  have hkeyword := (Bool.and_eq_true_iff.1 h).2
  rw [Bool.not_eq_true'] at hkeyword
  rw [wordKind, hkeyword]
  rfl

theorem exists_text_eq_cons (h : p.isProper = true) : ∃ c cs, p.text.toList = c :: cs := by
  cases p with
  | word text =>
    obtain ⟨hne, -⟩ := Naming.all_of_isIdentifier h
    exact List.exists_cons_of_ne_nil hne
  | name text =>
    obtain ⟨hne, -⟩ := Naming.all_of_isIdentifier (isIdentifier_of_name h)
    exact List.exists_cons_of_ne_nil hne
  | number n =>
    apply List.exists_cons_of_ne_nil
    show (toString n).toList ≠ []
    rw [toList_toString]
    exact Nat.toDigits_ne_nil
  | operator text =>
    apply List.exists_cons_of_ne_nil
    intro hnil
    have hempty : text = "" := String.toList_eq_nil_iff.1 hnil
    have hmem := mem_operators h
    rw [hempty] at hmem
    contradiction
  | quoted body => exact ⟨_, _, toList_quoted body⟩
  | raw body => exact ⟨_, _, toList_raw body⟩
  | comment body => exact ⟨_, _, toList_comment body⟩
  | _ => exact ⟨_, _, rfl⟩

theorem mem_head_chars {c : Char} (h : ps.all isProper = true)
    (hc : c ∈ (ps.flatMap (·.text.toList)).head?) :
    ∃ p, ps.head? = some p ∧ p.isProper = true ∧ ∃ cs, p.text.toList = c :: cs := by
  cases ps with
  | nil => contradiction
  | cons p ps =>
    have hp : p.isProper = true := List.all_eq_true.1 h p (List.mem_cons_self ..)
    obtain ⟨d, cs, hd⟩ := exists_text_eq_cons hp
    rw [List.flatMap_cons, hd] at hc
    cases hc
    exact ⟨p, rfl, hp, cs, hd⟩

theorem not_isNameChar_of_not_isWord {c : Char} {cs : List Char} (h : p.isProper = true)
    (hp : p.isWord = false) (hc : p.text.toList = c :: cs) : isNameChar c = false := by
  cases p with
  | word => contradiction
  | name => contradiction
  | number => contradiction
  | operator text =>
    apply not_isNameChar_of_mem (mem_operators h)
    show c ∈ (operator text).text.toList
    rw [hc]
    exact List.mem_cons_self ..
  | quoted body =>
    rw [toList_quoted] at hc
    cases hc
    decide
  | raw body =>
    rw [toList_raw] at hc
    cases hc
    decide
  | comment body =>
    rw [toList_comment] at hc
    cases hc
    decide
  | _ =>
    cases hc
    decide

theorem endsNumber_of_isStop {c : Char} {cs : List Char} (hp : p.isStop = true)
    (hc : p.text.toList = c :: cs) : endsNumber c = true := by
  cases p with
  | word => contradiction
  | name => contradiction
  | number => contradiction
  | quoted => contradiction
  | raw => contradiction
  | comment => contradiction
  | operator text =>
    have hall : ∀ text ∈ "," :: brackets, text.toList.head?.all endsNumber = true := by
      decide
    have hmem : text ∈ "," :: brackets := by simpa [isStop] using hp
    have htext : text.toList = c :: cs := hc
    have hends := hall text hmem
    rw [htext] at hends
    exact hends
  | _ =>
    cases hc
    decide

theorem not_mem_operator_of_isNameStart {c : Char} (hstart : isNameStart c = true) :
    (∀ op ∈ operators, c ∉ op.toList) ∧ isDecimal c = false := by
  constructor
  · intro op hop hmem
    have hnot := not_isNameChar_of_mem hop hmem
    unfold isNameChar at hnot
    rw [hstart] at hnot
    contradiction
  · cases hdecimal : isDecimal c with
    | false => rfl
    | true =>
      have hplain := isPlainDigit_of_isDecimal hdecimal
      simp only [isPlainDigit, hstart, Bool.not_true, Bool.and_false, Bool.false_and,
        Bool.false_eq_true] at hplain

theorem not_mem_operator_of_isGap {c : Char} {cs : List Char} (h : p.isProper = true)
    (hp : p.isGap = true) (hc : p.text.toList = c :: cs) :
    (∀ op ∈ operators, c ∉ op.toList) ∧ isDecimal c = false := by
  cases p with
  | word text => exact not_mem_operator_of_isNameStart (Naming.isIdentifier_cons hc h).1
  | name text =>
    exact not_mem_operator_of_isNameStart (Naming.isIdentifier_cons hc (isIdentifier_of_name h)).1
  | space =>
    cases hc
    exact ⟨by decide, rfl⟩
  | tab =>
    cases hc
    exact ⟨by decide, rfl⟩
  | line =>
    cases hc
    exact ⟨by decide, rfl⟩
  | _ => contradiction

theorem not_isPrefixOf_of_isApart {text : String} (h : (operator text).isApart ps.head? = true)
    (hps : ps.all isProper = true) : ∀ op ∈ operators, ∀ c ∈ (ps.flatMap (·.text.toList)).head?,
      (text.toList ++ [c]).isPrefixOf op.toList = false := by
  intro op hop c hc
  rw [← Bool.not_eq_true, List.isPrefixOf_iff_prefix]
  intro hprefix
  rw [isApart, Bool.or_eq_true] at h
  rcases h with hbracket | hgap
  · have hshort := List.isPrefixOf_iff_prefix.2 ((List.prefix_append ..).trans hprefix)
    have hlength := hprefix.length_le
    rw [brackets_closed text (List.contains_iff_mem.1 hbracket) op hop hshort, List.length_append,
      List.length_singleton] at hlength
    omega
  · obtain ⟨p, hp, hproper, cs, hcs⟩ := mem_head_chars hps hc
    rw [hp] at hgap
    apply (not_mem_operator_of_isGap hproper hgap hcs).1 op hop
    exact hprefix.subset (List.mem_append_right _ (List.mem_singleton.2 rfl))

theorem isSpace_of_isNameChar {c : Char} (hc : isNameChar c = true) : isSpace false c = false := by
  have hne : ∀ {d : Char}, isNameChar d = false → (c == d) = false := by
    intro d hd
    exact beq_eq_false_iff_ne.2 (Naming.ne_of_isNameChar hc hd)
  unfold isSpace
  rw [hne (by decide), hne (by decide), hne (by decide), hne (by decide)]
  rfl

theorem isSpace_of_isToken {c : Char} {cs : List Char} (h : p.isProper = true)
    (hp : p.isToken = true) (hc : p.text.toList = c :: cs) : isSpace false c = false := by
  have hmem : c ∈ p.text.toList := by
    rw [hc]
    exact List.mem_cons_self ..
  cases p with
  | space => contradiction
  | tab => contradiction
  | line => contradiction
  | semicolon =>
    cases hc
    rfl
  | quoted body =>
    rw [toList_quoted] at hc
    cases hc
    rfl
  | raw body =>
    rw [toList_raw] at hc
    cases hc
    rfl
  | comment body =>
    rw [toList_comment] at hc
    cases hc
    rfl
  | word text =>
    apply isSpace_of_isNameChar
    exact (Naming.all_of_isIdentifier h).2 c hmem
  | name text =>
    apply isSpace_of_isNameChar
    exact (Naming.all_of_isIdentifier (isIdentifier_of_name h)).2 c hmem
  | number n =>
    have hdigit := isPlainDigit_of_mem_toDigits (toList_toString n ▸ hmem)
    simp only [isPlainDigit, Bool.and_eq_true] at hdigit
    exact isSpace_of_isNameChar hdigit.2
  | operator text =>
    have hplain := List.all_eq_true.1 operators_plain text (mem_operators h)
    have hchar := List.all_eq_true.1 hplain c hmem
    simp only [Bool.and_eq_true, Bool.not_eq_true'] at hchar
    exact hchar.1.2

theorem ne_of_isInner {c : Char} (h : isInner c = true) :
    c ≠ '\n' ∧ c ≠ '\r' ∧ c ≠ '\\' ∧ c ≠ backQuote ∧ isLegal c = true := by
  simp only [isInner, Bool.and_eq_true, bne_iff_ne] at h
  exact ⟨h.1.1.1.1, h.1.1.1.2, h.1.1.2, h.1.2, h.2⟩

theorem scanQuoted?_inner {body : List Char} (fuel count : Nat) (rest : List Char)
    (h : ∀ c ∈ body, isInner c = true ∧ c ≠ '"') (hfuel : body.length < fuel) :
    ∃ count', scanQuoted? '"' fuel count (body ++ '"' :: rest) =
      some (body ++ ['"'], count', rest) := by
  induction body generalizing fuel count with
  | nil =>
    cases fuel with
    | zero => exact absurd hfuel (Nat.not_lt_zero _)
    | succ fuel => exact ⟨count, rfl⟩
  | cons c body ih =>
    cases fuel with
    | zero => exact absurd hfuel (Nat.not_lt_zero _)
    | succ fuel =>
      obtain ⟨⟨hinner, hquote⟩, hbody⟩ := List.forall_mem_cons.1 h
      obtain ⟨hline, -, hescape, -⟩ := ne_of_isInner hinner
      rw [List.length_cons] at hfuel
      obtain ⟨count', hscan⟩ := ih fuel (count + 1) hbody (by omega)
      refine ⟨count', ?_⟩
      rw [List.cons_append, scanQuoted?, if_neg (by simpa using hquote),
        if_neg (by simpa using hline), if_neg (by simpa using hescape), hscan]
      rfl

theorem scanRaw?_inner {body rest : List Char} (h : ∀ c ∈ body, isInner c = true) :
    scanRaw? (body ++ backQuote :: rest) = some (body ++ [backQuote], rest) := by
  induction body with
  | nil => rfl
  | cons c body ih =>
    obtain ⟨hinner, hbody⟩ := List.forall_mem_cons.1 h
    obtain ⟨-, -, -, hquote, -⟩ := ne_of_isInner hinner
    rw [List.cons_append, scanRaw?, if_neg (by simpa using hquote), ih hbody]
    rfl

theorem scanToken?_quoted {body : String} (h : (quoted body).isProper = true) (rest : List Char) :
    scanToken? ((quoted body).text.toList ++ rest) =
      some (.string, (quoted body).text.toList, rest) := by
  have hinner : ∀ c ∈ body.toList, isInner c = true ∧ c ≠ '"' := by
    simpa [isProper] using h
  have hlength : body.toList.length < (body.toList ++ '"' :: rest).length + 1 := by
    rw [List.length_append]
    omega
  obtain ⟨count, hscan⟩ := scanQuoted?_inner _ 0 rest hinner hlength
  rw [toList_quoted, List.cons_append, List.append_assoc, List.singleton_append]
  show (scanQuoted? '"' _ 0 (body.toList ++ '"' :: rest)).map _ = _
  rw [hscan]
  rfl

theorem scanToken?_raw {body : String} (h : (raw body).isProper = true) (rest : List Char) :
    scanToken? ((raw body).text.toList ++ rest) = some (.string, (raw body).text.toList, rest) := by
  rw [toList_raw, List.cons_append, List.append_assoc, List.singleton_append]
  show (scanRaw? (body.toList ++ backQuote :: rest)).map _ = _
  rw [scanRaw?_inner (List.all_eq_true.1 h)]
  rfl

theorem scanToken?_comment {body : String} {rest : List Char} (h : (comment body).isProper = true)
    (hrest : ∀ c ∈ rest.head?, c = '\n') :
    scanToken? ((comment body).text.toList ++ rest) =
      some (.comment, (comment body).text.toList, rest) := by
  have hline : ∀ c ∈ ' ' :: body.toList, (c != '\n') = true := by
    intro c hc
    rcases List.mem_cons.1 hc with rfl | hc
    · rfl
    · exact bne_iff_ne.2 (ne_of_isInner (List.all_eq_true.1 h c hc)).1
  have hend : ∀ c ∈ rest.head?, (c != '\n') = false := by
    intro c hc
    rw [hrest c hc]
    rfl
  rw [toList_comment]
  show some (TokenKind.comment, _ :: _ :: ((' ' :: body.toList) ++ rest).takeWhile _,
    ((' ' :: body.toList) ++ rest).dropWhile _) = _
  rw [takeWhile_append_of_head hline hend, dropWhile_append_of_head hline hend]

theorem scanToken?_of_isApart (hp : p.isProper = true) (h : p.isApart ps.head? = true)
    (hps : ps.all isProper = true) (htoken : p.isToken = true) :
    scanToken? (p.text.toList ++ ps.flatMap (·.text.toList)) =
      some (p.kind, p.text.toList, ps.flatMap (·.text.toList)) := by
  cases p with
  | space => contradiction
  | tab => contradiction
  | line => contradiction
  | semicolon => rfl
  | quoted body => exact scanToken?_quoted hp _
  | raw body => exact scanToken?_raw hp _
  | comment body =>
    apply scanToken?_comment hp
    intro c hc
    obtain ⟨q, hq, -, cs, hcs⟩ := mem_head_chars hps hc
    rw [isApart, hq] at h
    cases eq_of_beq h
    cases hcs
    rfl
  | word text =>
    apply scanToken?_word hp
    intro c hc
    obtain ⟨q, hq, hproper, cs, hcs⟩ := mem_head_chars hps hc
    rw [isApart, hq] at h
    exact not_isNameChar_of_not_isWord hproper (by simpa using h) hcs
  | name text =>
    show _ = some (TokenKind.ident, _, _)
    rw [← wordKind_of_name hp]
    apply scanToken?_word (isIdentifier_of_name hp)
    intro c hc
    obtain ⟨q, hq, hproper, cs, hcs⟩ := mem_head_chars hps hc
    rw [isApart, hq] at h
    exact not_isNameChar_of_not_isWord hproper (by simpa using h) hcs
  | number n =>
    apply scanToken?_number
    intro c hc
    obtain ⟨q, hq, -, cs, hcs⟩ := mem_head_chars hps hc
    rw [isApart, hq] at h
    exact endsNumber_of_isStop h hcs
  | operator text =>
    apply scanToken?_operator (mem_operators hp) _ (not_isPrefixOf_of_isApart h hps)
    · rintro rfl c hc
      obtain ⟨q, hq, hproper, cs, hcs⟩ := mem_head_chars hps hc
      rw [isApart, hq] at h
      exact (not_mem_operator_of_isGap hproper h hcs).2
    · rw [isProper, Bool.and_eq_true] at hp
      simpa using hp.2

theorem withoutReturns_eq {cs : List Char} (h : ∀ c ∈ cs, c ≠ '\r') : withoutReturns cs = cs :=
  List.filter_eq_self.2 fun c hc => bne_iff_ne.2 (h c hc)

theorem tokenText_text (h : p.isProper = true) :
    tokenText p.kind p.text.toList = p.text.toList := by
  cases p with
  | word text =>
    show tokenText (wordKind text) _ = _
    unfold wordKind
    cases keywords.contains text with
    | true => rfl
    | false => rfl
  | quoted body =>
    rw [toList_quoted]
    rfl
  | raw body =>
    rw [toList_raw]
    apply withoutReturns_eq
    intro c hc
    rcases List.mem_cons.1 hc with rfl | hc
    · decide
    · rcases List.mem_append.1 hc with hc | hc
      · exact (ne_of_isInner (List.all_eq_true.1 h c hc)).2.1
      · cases List.mem_singleton.1 hc
        decide
  | comment body =>
    rw [toList_comment]
    apply withoutReturns_eq
    intro c hc
    simp only [List.mem_cons] at hc
    rcases hc with rfl | rfl | rfl | hc
    · decide
    · decide
    · decide
    · exact (ne_of_isInner (List.all_eq_true.1 h c hc)).2.1
  | _ => rfl

theorem firstLineEnd?_eq_none {cs : List Char} (h : ∀ c ∈ cs, c ≠ '\n') (pos : Pos) :
    firstLineEnd? pos cs = none := by
  induction cs generalizing pos with
  | nil => rfl
  | cons c cs ih =>
    obtain ⟨hc, hcs⟩ := List.forall_mem_cons.1 h
    rw [firstLineEnd?, if_neg (by simpa using hc)]
    exact ih hcs _

theorem lexes_of_areApart (wantsSemicolon : Bool) (hproper : ps.all isProper = true)
    (h : areApart ps = true) :
    Lexes wantsSemicolon (ps.flatMap (·.text.toList)) (lexemes wantsSemicolon ps) := by
  induction ps generalizing wantsSemicolon with
  | nil => exact Lexes.nil wantsSemicolon
  | cons p ps ih =>
    obtain ⟨hapart, hmore⟩ := Bool.and_eq_true_iff.1 h
    rw [List.all_cons, Bool.and_eq_true] at hproper
    obtain ⟨hp, hps⟩ := hproper
    have htoken : p.isToken = true → p.kind ≠ .comment → Lexes wantsSemicolon
        (p.text.toList ++ ps.flatMap (·.text.toList))
        ((p.kind, p.text) :: lexemes (endsStatement p.kind p.text) ps) := by
      intro htoken hkind
      have hkept := tokenText_text hp
      obtain ⟨c, cs, hcs⟩ := exists_text_eq_cons hp
      have hscan := scanToken?_of_isApart hp hapart hps htoken
      have hrest := ih (endsStatement p.kind p.text) hps hmore
      have htext : p.text = String.ofList (c :: cs) := by rw [← hcs, String.ofList_toList]
      rw [hcs] at hscan hkept ⊢
      rw [htext] at hrest ⊢
      refine Lexes.token (isSpace_of_isToken hp htoken hcs) hscan ?_ hkept ?_ hrest
      · rw [Lexes.Wants, if_neg hkind]
      · show _ ≤ (cs ++ _).length
        rw [List.length_append]
        omega
    rw [List.flatMap_cons]
    cases p with
    | space => exact Lexes.space rfl (ih _ hps hmore)
    | tab => exact Lexes.space rfl (ih _ hps hmore)
    | line =>
      cases wantsSemicolon with
      | true => exact Lexes.line (ih _ hps hmore)
      | false => exact Lexes.space rfl (ih _ hps hmore)
    | comment body =>
      have hscan := scanToken?_of_isApart hp hapart hps rfl
      have hkept := tokenText_text hp
      have htext : (comment body).text = String.ofList ('/' :: '/' :: ' ' :: body.toList) := by
        rw [← toList_comment, String.ofList_toList]
      have hline : ∀ c ∈ '/' :: '/' :: ' ' :: body.toList, c ≠ '\n' := by
        intro c hc
        simp only [List.mem_cons] at hc
        rcases hc with rfl | rfl | rfl | hc
        · decide
        · decide
        · decide
        · exact (ne_of_isInner (List.all_eq_true.1 hp c hc)).1
      show Lexes wantsSemicolon ((comment body).text.toList ++ ps.flatMap (·.text.toList))
        ((.comment, (comment body).text) :: lexemes wantsSemicolon ps)
      rw [toList_comment] at hscan hkept ⊢
      rw [htext]
      refine Lexes.token rfl hscan ⟨rfl, fun pos => ⟨rfl, firstLineEnd?_eq_none hline pos⟩⟩ hkept ?_
        (ih _ hps hmore)
      show _ ≤ ('/' :: ' ' :: body.toList ++ _).length
      rw [List.length_append]
      omega
    | word text =>
      refine htoken rfl ?_
      show wordKind text ≠ .comment
      unfold wordKind
      cases keywords.contains text with
      | true => decide
      | false => decide
    | _ => exact htoken rfl nofun

theorem isLegal_of_isNameChar {c : Char} (hc : isNameChar c = true) : isLegal c = true := by
  have hbyteOrderMark : Naming.isNameChar byteOrderMark = false := by decide +kernel
  unfold isLegal
  rw [Bool.and_eq_true, bne_iff_ne, bne_iff_ne]
  exact ⟨Naming.ne_of_isNameChar hc (by decide), Naming.ne_of_isNameChar hc hbyteOrderMark⟩

theorem isLegal_of_isProper (h : p.isProper = true) {c : Char} (hc : c ∈ p.text.toList) :
    isLegal c = true := by
  cases p with
  | word text =>
    apply isLegal_of_isNameChar
    exact (Naming.all_of_isIdentifier h).2 c hc
  | name text =>
    apply isLegal_of_isNameChar
    exact (Naming.all_of_isIdentifier (isIdentifier_of_name h)).2 c hc
  | number n =>
    have hdigit := isPlainDigit_of_mem_toDigits (toList_toString n ▸ hc)
    simp only [isPlainDigit, Bool.and_eq_true] at hdigit
    exact isLegal_of_isNameChar hdigit.2
  | operator text =>
    have hplain := List.all_eq_true.1 operators_plain text (mem_operators h)
    have hchar := List.all_eq_true.1 hplain c hc
    simp only [Bool.and_eq_true] at hchar
    exact hchar.2
  | quoted body =>
    rw [toList_quoted] at hc
    rcases List.mem_cons.1 hc with rfl | hc
    · decide
    · rcases List.mem_append.1 hc with hc | hc
      · have hchar := List.all_eq_true.1 h c hc
        exact (ne_of_isInner (Bool.and_eq_true_iff.1 hchar).1).2.2.2.2
      · cases List.mem_singleton.1 hc
        decide
  | raw body =>
    rw [toList_raw] at hc
    rcases List.mem_cons.1 hc with rfl | hc
    · decide
    · rcases List.mem_append.1 hc with hc | hc
      · exact (ne_of_isInner (List.all_eq_true.1 h c hc)).2.2.2.2
      · cases List.mem_singleton.1 hc
        decide
  | comment body =>
    rw [toList_comment] at hc
    simp only [List.mem_cons] at hc
    rcases hc with rfl | rfl | rfl | hc
    · decide
    · decide
    · decide
    · exact (ne_of_isInner (List.all_eq_true.1 h c hc)).2.2.2.2
  | _ =>
    cases List.mem_singleton.1 hc
    decide

theorem all_isLegal (h : ps.all isProper = true) :
    (ps.flatMap (·.text.toList)).all isLegal = true := by
  rw [List.all_eq_true] at h ⊢
  intro c hc
  obtain ⟨p, hp, hmem⟩ := List.mem_flatMap.1 hc
  exact isLegal_of_isProper (h p hp) hmem

end Piece

theorem tokenize?_eq {text : String} {cs : List Char} (htext : text.toList = cs)
    (hlegal : cs.all isLegal = true) : tokenize? text = scanAll? (cs.length + 1) false .start cs := by
  unfold tokenize?
  rw [htext]
  cases cs with
  | nil => rfl
  | cons c cs =>
    have hc : (c == byteOrderMark) = false := by
      rw [beq_eq_false_iff_ne]
      rintro rfl
      contradiction
    simp only [hc, Bool.false_eq_true, if_false, hlegal, if_true]

structure Spells (text : String) (ps : List Piece) : Prop where
  toList : text.toList = ps.flatMap (·.text.toList)
  isProper : ps.all Piece.isProper = true

namespace Spells

instance (text : String) (ps : List Piece) : Decidable (Spells text ps) :=
  decidable_of_iff (text.toList = ps.flatMap (·.text.toList) ∧ ps.all Piece.isProper = true)
    ⟨fun h => ⟨h.1, h.2⟩, fun h => ⟨h.toList, h.isProper⟩⟩

theorem name {text : String} (h : Naming.isIdentifier text = true)
    (hkeyword : keywords.contains text = false) : Spells text [.name text] where
  toList := (List.append_nil _).symm
  isProper := by
    rw [List.all_cons, List.all_nil, Bool.and_true, Piece.isProper, h, hkeyword]
    rfl

theorem number (n : Nat) : Spells (toString n) [.number n] where
  toList := (List.append_nil _).symm
  isProper := rfl

theorem append {s t : String} {ps qs : List Piece} (hs : Spells s ps) (ht : Spells t qs) :
    Spells (s ++ t) (ps ++ qs) where
  toList := by rw [String.toList_append, hs.toList, ht.toList, List.flatMap_append]
  isProper := by rw [List.all_append, hs.isProper, ht.isProper, Bool.and_true]

end Spells

end RecordCodec.Source
