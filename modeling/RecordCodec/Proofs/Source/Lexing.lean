import RecordCodec.Proofs.Text.Names
import RecordCodec.Source.Token

/-!
This module contains how the tokens of a text are found: words, numbers and operators are scanned up
to where they end, whatever comes after them.
-/

namespace RecordCodec.Source

open RecordCodec.Text RecordCodec.Number

def Token.lexeme (t : Token) : TokenKind × String :=
  (t.kind, t.text)

def Lexes (wantsSemicolon : Bool) (cs : List Char) (lexemes : List (TokenKind × String)) : Prop :=
  ∀ fuel pos, cs.length < fuel → ∃ tokens,
    scanAll? fuel wantsSemicolon pos cs = some tokens ∧ tokens.map Token.lexeme = lexemes

def ending (wantsSemicolon : Bool) : List (TokenKind × String) :=
  if wantsSemicolon then [(.semicolon, impliedSemicolon), (.eof, "")] else [(.eof, "")]

namespace Lexes

variable {wantsSemicolon : Bool} {cs : List Char} {lexemes : List (TokenKind × String)}

theorem nil (wantsSemicolon : Bool) : Lexes wantsSemicolon [] (ending wantsSemicolon) := by
  intro fuel pos hfuel
  cases fuel with
  | zero => contradiction
  | succ fuel =>
    cases wantsSemicolon with
    | true => exact ⟨_, rfl, rfl⟩
    | false => exact ⟨_, rfl, rfl⟩

theorem space {c : Char} (hc : isSpace wantsSemicolon c = true)
    (h : Lexes wantsSemicolon cs lexemes) : Lexes wantsSemicolon (c :: cs) lexemes := by
  intro fuel pos hfuel
  rw [List.length_cons] at hfuel
  obtain ⟨tokens, hscan, hlexemes⟩ := h fuel (pos.advance c) (by omega)
  refine ⟨tokens, ?_, hlexemes⟩
  rw [← hscan]
  cases fuel with
  | zero => contradiction
  | succ fuel =>
    unfold scanAll?
    rw [List.takeWhile_cons_of_pos hc, List.dropWhile_cons_of_pos hc]
    rfl

theorem line (h : Lexes false cs lexemes) :
    Lexes true ('\n' :: cs) ((.semicolon, impliedSemicolon) :: lexemes) := by
  intro fuel pos hfuel
  rw [List.length_cons] at hfuel
  cases fuel with
  | zero => contradiction
  | succ fuel =>
    obtain ⟨tokens, hscan, hlexemes⟩ := h fuel (pos.advance '\n') (by omega)
    refine ⟨⟨.semicolon, impliedSemicolon, pos, pos⟩ :: tokens, ?_, ?_⟩
    · unfold scanAll?
      rw [List.takeWhile_cons_of_neg (by decide), List.dropWhile_cons_of_neg (by decide)]
      show (scanAll? fuel false (pos.advance '\n') cs >>= _) = _
      rw [hscan]
      rfl
    · rw [List.map_cons, hlexemes]
      rfl

theorem not_isSpace {c : Char} (hc : isSpace false c = false) (wantsSemicolon : Bool) :
    ¬ isSpace wantsSemicolon c = true := by
  revert hc
  unfold isSpace
  cases wantsSemicolon <;> simp_all

def Wants (wantsSemicolon : Bool) (kind : TokenKind) (text : List Char) (wantsNext : Bool) : Prop :=
  if kind = .comment then wantsNext = wantsSemicolon ∧
    ∀ pos, isLegalComment pos text = true ∧ firstLineEnd? pos text = none
  else wantsNext = endsStatement kind (String.ofList text)

theorem token {c : Char} {kind : TokenKind} {text rest : List Char} {wantsNext : Bool}
    (hc : isSpace false c = false) (hscan : scanToken? (c :: cs) = some (kind, text, rest))
    (hnext : Wants wantsSemicolon kind text wantsNext) (htext : tokenText kind text = text)
    (hrest : rest.length ≤ cs.length) (h : Lexes wantsNext rest lexemes) :
    Lexes wantsSemicolon (c :: cs) ((kind, String.ofList text) :: lexemes) := by
  intro fuel pos hfuel
  rw [List.length_cons] at hfuel
  have hspace : ¬ isSpace wantsSemicolon c = true := not_isSpace hc wantsSemicolon
  have hline : c ≠ '\n' := by
    rintro rfl
    contradiction
  cases fuel with
  | zero => contradiction
  | succ fuel =>
    obtain ⟨tokens, hmore, hlexemes⟩ := h fuel (pos.advanceAll text) (by omega)
    refine ⟨⟨kind, String.ofList text, pos, pos.advanceAll text⟩ :: tokens, ?_, ?_⟩
    · unfold scanAll?
      rw [List.takeWhile_cons_of_neg hspace, List.dropWhile_cons_of_neg hspace]
      dsimp only
      split
      · next heq =>
        cases heq
        contradiction
      · next heq => cases heq
      · rw [hscan]
        dsimp only [Option.bind_eq_bind, Option.bind_some]
        rw [htext]
        unfold Wants at hnext
        split at hnext
        · next hkind =>
          obtain ⟨rfl, hcomment⟩ := hnext
          have hstart : pos.advanceAll [] = pos := rfl
          rw [if_pos (by simpa using hkind), hstart, (hcomment pos).1, (hcomment pos).2, ite_self]
          show (scanAll? fuel _ (pos.advanceAll text) rest >>= _) = _
          rw [hmore]
          rfl
        · next hkind =>
          subst hnext
          rw [if_neg (by simpa using hkind)]
          show (scanAll? fuel _ (pos.advanceAll text) rest >>= _) = _
          rw [hmore]
          rfl
    · rw [List.map_cons, hlexemes]
      rfl

end Lexes

/-! Single tokens. -/

theorem takeWhile_append_of_head {p : α → Bool} {xs rest : List α} (hxs : ∀ x ∈ xs, p x = true)
    (hrest : ∀ x ∈ rest.head?, p x = false) : (xs ++ rest).takeWhile p = xs := by
  rw [List.takeWhile_append_of_pos hxs]
  cases rest with
  | nil => rw [List.takeWhile_nil, List.append_nil]
  | cons x rest =>
    rw [List.takeWhile_cons_of_neg (by rw [hrest x rfl]; decide), List.append_nil]

theorem dropWhile_append_of_head {p : α → Bool} {xs rest : List α} (hxs : ∀ x ∈ xs, p x = true)
    (hrest : ∀ x ∈ rest.head?, p x = false) : (xs ++ rest).dropWhile p = rest := by
  rw [List.dropWhile_append_of_pos hxs]
  cases rest with
  | nil => rfl
  | cons x rest => rw [List.dropWhile_cons_of_neg (by rw [hrest x rfl]; decide)]

def wordKind (text : String) : TokenKind :=
  if keywords.contains text then .keyword else .ident

theorem scanToken?_word {text : String} {rest : List Char}
    (htext : Naming.isIdentifier text = true) (hrest : ∀ c ∈ rest.head?, isNameChar c = false) :
    scanToken? (text.toList ++ rest) = some (wordKind text, text.toList, rest) := by
  cases heq : text.toList with
  | nil => exact absurd heq (Naming.all_of_isIdentifier htext).1
  | cons c cs =>
    obtain ⟨hstart, hall⟩ := Naming.isIdentifier_cons heq htext
    have hc : isNameStart c = true := hstart
    have hcs : ∀ d ∈ cs, isNameChar d = true := hall
    have hslash : c ≠ '/' := by
      rintro rfl
      contradiction
    have hname : String.ofList (c :: cs) = text := by rw [← heq, String.ofList_toList]
    rw [List.cons_append]
    unfold scanToken?
    split
    · contradiction
    · next heq' => exact absurd (List.cons.inj heq').1 hslash
    · next heq' => exact absurd (List.cons.inj heq').1 hslash
    · next heq' =>
      cases heq'
      rw [if_pos hc]
      dsimp only
      rw [takeWhile_append_of_head hcs hrest, dropWhile_append_of_head hcs hrest, hname]
      rfl

theorem digitChar_ne_zero {n : Nat} (hlt : n < 10) (hpos : 0 < n) : n.digitChar ≠ '0' := by
  revert n
  decide

theorem head_toDigits_ne {n : Nat} (hpos : 0 < n) : (Nat.toDigits 10 n).head? ≠ some '0' := by
  induction n using Nat.strongRecOn with
  | ind n ih =>
    rw [Nat.toDigits_eq_if (by decide)]
    split
    · next hlt =>
      rw [List.head?_cons, ne_eq, Option.some.injEq]
      exact digitChar_ne_zero hlt hpos
    · have hquot : 0 < n / 10 := by omega
      obtain ⟨c, hc⟩ : ∃ c, (Nat.toDigits 10 (n / 10)).head? = some c := by
        apply Option.ne_none_iff_exists'.1
        rw [ne_eq, List.head?_eq_none_iff]
        exact Nat.toDigits_ne_nil
      have hne := ih (n / 10) (by omega) hquot
      rw [List.head?_append, hc]
      rw [hc] at hne
      exact hne

def isPlainDigit (c : Char) : Bool :=
  isDecimal c && (digitValue? c).any (· < 10) && c != '_' && c != '/' && !isNameStart c &&
    !isSpace false c && isNameChar c

theorem isPlainDigit_of_isDecimal {c : Char} (h : isDecimal c = true) : isPlainDigit c = true := by
  have hbounds : 48 ≤ c.toNat ∧ c.toNat ≤ 57 := by
    rw [isDecimal, Bool.and_eq_true, decide_eq_true_eq, decide_eq_true_eq] at h
    exact h
  have hall : ∀ n < 58, 48 ≤ n → isPlainDigit (Char.ofNat n) = true := by decide
  have := hall c.toNat (by omega) hbounds.1
  rw [Char.ofNat_toNat] at this
  exact this

def endsNumber (c : Char) : Bool :=
  !isNameChar c && c != '.'

theorem ne_of_endsNumber {c d : Char} (hc : endsNumber c = true) (hd : endsNumber d = false) :
    c ≠ d := by
  rintro rfl
  rw [hc] at hd
  contradiction

theorem isDecimal_of_not_isNameChar {c : Char} (hc : isNameChar c = false) :
    isDecimal c = false := by
  cases h : isDecimal c with
  | false => rfl
  | true =>
    have hplain := isPlainDigit_of_isDecimal h
    simp only [isPlainDigit, Bool.and_eq_true] at hplain
    rw [hplain.2] at hc
    contradiction

theorem baseOfLetter?_of_endsNumber {c : Char} (hc : endsNumber c = true) :
    baseOfLetter? c = none := by
  unfold baseOfLetter?
  split
  case h_7 => rfl
  all_goals contradiction

theorem digitsFit_of_isPlainDigit {ds : List Char} (hds : ∀ c ∈ ds, isPlainDigit c = true)
    (hzero : ds.head? = some '0' → ds = ['0']) : scanNumber?.digitsFit [] 10 ds = true := by
  by_cases hhead : ds.head? = some '0'
  · rw [hzero hhead]
    rfl
  · unfold scanNumber?.digitsFit
    have hbase : (([] : List Char).isEmpty && ds.head? == some '0') = false := by
      rw [beq_eq_false_iff_ne.2 hhead]
      rfl
    rw [hbase, if_neg (by decide), List.all_eq_true]
    intro c hc
    have := hds c hc
    simp only [isPlainDigit, Bool.and_eq_true] at this
    rw [this.1.1.1.1.1.2, Bool.or_true]

theorem scanNumber?_digits {ds rest : List Char} (hne : ds ≠ [])
    (hds : ∀ c ∈ ds, isPlainDigit c = true) (hzero : ds.head? = some '0' → ds = ['0'])
    (hrest : ∀ c ∈ rest.head?, endsNumber c = true) :
    scanNumber? (ds ++ rest) = some (.int, ds, rest) := by
  have hhead : ∀ c ∈ rest.head?, (isDecimal c || c == '_') = false := by
    intro c hc
    have hname : isNameChar c = false := by
      simpa using (Bool.and_eq_true_iff.1 (hrest c hc)).1
    rw [isDecimal_of_not_isNameChar hname, Bool.false_or, beq_eq_false_iff_ne]
    exact ne_of_endsNumber (hrest c hc) (by decide)
  have hdecimal : ∀ c ∈ ds, isDecimal c = true := by
    intro c hc
    have := hds c hc
    simp only [isPlainDigit, Bool.and_eq_true] at this
    exact this.1.1.1.1.1.1
  have hwhole : ∀ c ∈ ds, (isDecimal c || c == '_') = true := by
    intro c hc
    rw [hdecimal c hc]
    rfl
  have hany : ds.any isDecimal = true := by
    obtain ⟨c, hc⟩ := List.exists_mem_of_ne_nil ds hne
    exact List.any_eq_true.2 ⟨c, hc, hdecimal c hc⟩
  have hunderscore : '_' ∉ ds := by
    intro hmem
    have := hds _ hmem
    contradiction
  have hfit := digitsFit_of_isPlainDigit hds hzero
  unfold scanNumber?
  split
  next start base body heq =>
    have hstart : start = [] ∧ base = 10 ∧ body = ds ++ rest := by
      split at heq
      · next c cs hcs =>
        cases ds with
        | nil => contradiction
        | cons d ds =>
          obtain ⟨rfl, hds'⟩ := List.cons.inj hcs
          obtain ⟨-, rfl⟩ := List.cons.inj (hzero rfl)
          subst hds'
          rw [baseOfLetter?_of_endsNumber (hrest c rfl)] at heq
          cases heq
          exact ⟨rfl, rfl, rfl⟩
      · cases heq
        exact ⟨rfl, rfl, rfl⟩
    obtain ⟨rfl, rfl, rfl⟩ := hstart
    clear heq
    extract_lets digit separated whole after
    have hwhole' : whole = ds := takeWhile_append_of_head hwhole hhead
    have hafter : after = rest := dropWhile_append_of_head hwhole hhead
    rw [hwhole', hafter]
    clear_value whole after
    split
    next fraction after' heq =>
      have hfraction : fraction = [] ∧ after' = rest := by
        split at heq
        · exact absurd rfl (ne_of_endsNumber (hrest _ rfl) (by decide))
        · cases heq
          exact ⟨rfl, rfl⟩
      obtain ⟨rfl, rfl⟩ := hfraction
      cases after' with
      | nil => simp [digit, hany, hfit, hunderscore]
      | cons c cs =>
        have hc := hrest c rfl
        have he := ne_of_endsNumber hc (d := 'e') (by decide)
        have hE := ne_of_endsNumber hc (d := 'E') (by decide)
        have hp := ne_of_endsNumber hc (d := 'p') (by decide)
        have hP := ne_of_endsNumber hc (d := 'P') (by decide)
        have hi := ne_of_endsNumber hc (d := 'i') (by decide)
        simp [digit, hany, hfit, hunderscore, he, hE, hp, hP, hi]

theorem toList_toString (n : Nat) : (toString n).toList = Nat.toDigits 10 n := by
  rw [Nat.toString_eq_ofList_toDigits, String.toList_ofList]

theorem isPlainDigit_of_mem_toDigits {n : Nat} {c : Char} (hc : c ∈ Nat.toDigits 10 n) :
    isPlainDigit c = true := by
  have hdigit := Nat.isDigit_of_mem_toDigits (by decide) (by decide) hc
  rw [Char.isDigit, Bool.and_eq_true, decide_eq_true_eq, decide_eq_true_eq] at hdigit
  apply isPlainDigit_of_isDecimal
  rw [isDecimal, Bool.and_eq_true, decide_eq_true_eq, decide_eq_true_eq]
  exact hdigit

theorem scanToken?_number (n : Nat) {rest : List Char}
    (hrest : ∀ c ∈ rest.head?, endsNumber c = true) :
    scanToken? ((toString n).toList ++ rest) = some (.int, (toString n).toList, rest) := by
  have hzero : (Nat.toDigits 10 n).head? = some '0' → Nat.toDigits 10 n = ['0'] := by
    intro hhead
    cases n with
    | zero => rfl
    | succ n => exact absurd hhead (head_toDigits_ne (Nat.succ_pos n))
  have hscan := scanNumber?_digits Nat.toDigits_ne_nil
    (fun _ => isPlainDigit_of_mem_toDigits) hzero hrest
  rw [toList_toString]
  cases hds : Nat.toDigits 10 n with
  | nil => exact absurd hds Nat.toDigits_ne_nil
  | cons c cs =>
    have hc : isPlainDigit c = true := by
      apply isPlainDigit_of_mem_toDigits (n := n)
      rw [hds]
      exact List.mem_cons_self ..
    rw [hds] at hscan
    simp only [isPlainDigit, Bool.and_eq_true, bne_iff_ne, Bool.not_eq_true'] at hc
    obtain ⟨⟨⟨⟨⟨⟨hdecimal, -⟩, -⟩, hslash⟩, hstart⟩, -⟩, -⟩ := hc
    rw [← hscan, List.cons_append]
    unfold scanToken?
    split
    · contradiction
    · next heq => exact absurd (List.cons.inj heq).1 hslash
    · next heq => exact absurd (List.cons.inj heq).1 hslash
    · next heq =>
      cases heq
      rw [hstart, if_neg (by decide), hdecimal, Bool.true_or, if_pos rfl]

theorem pairwise_operators :
    operators.Pairwise fun op text => op.toList.isPrefixOf text.toList = false := by
  decide

theorem operators_plain : (operators.all fun op => op.toList.all fun c =>
    !isNameChar c && c != '"' && c != scanToken?.apostrophe && c != backQuote && c != ';' &&
    !isSpace false c && isLegal c) = true := by
  decide

theorem not_isNameChar_of_mem {text : String} (htext : text ∈ operators) {c : Char}
    (hc : c ∈ text.toList) : isNameChar c = false := by
  have hplain := List.all_eq_true.1 (List.all_eq_true.1 operators_plain text htext) c hc
  simp only [Bool.and_eq_true, Bool.not_eq_true'] at hplain
  exact hplain.1.1.1.1.1.1

theorem isPrefixOf_operator_false {text : String} {rest : List Char} {op : String}
    (hop : op.toList.isPrefixOf text.toList = false)
    (hnext : ∀ c ∈ rest.head?, (text.toList ++ [c]).isPrefixOf op.toList = false) :
    op.toList.isPrefixOf (text.toList ++ rest) = false := by
  rw [← Bool.not_eq_true, List.isPrefixOf_iff_prefix] at hop ⊢
  intro hprefix
  rcases List.prefix_or_prefix_of_prefix hprefix (List.prefix_append text.toList rest) with h | h
  · exact hop h
  · obtain ⟨more, hmore⟩ := h
    cases more with
    | nil =>
      rw [List.append_nil] at hmore
      apply hop
      rewrite [hmore]
      exact List.prefix_rfl
    | cons c more =>
      rw [← hmore] at hprefix
      have hhead : rest.head? = some c := by
        obtain ⟨rest', hrest⟩ := (List.prefix_append_right_inj _).1 hprefix
        rw [← hrest]
        rfl
      have hlonger := hnext c hhead
      rw [← Bool.not_eq_true, List.isPrefixOf_iff_prefix, ← hmore] at hlonger
      apply hlonger
      rw [List.prefix_append_right_inj]
      exact ⟨more, rfl⟩

theorem find?_operators {text : String} {rest : List Char} (htext : text ∈ operators)
    (hnext : ∀ op ∈ operators, ∀ c ∈ rest.head?,
      (text.toList ++ [c]).isPrefixOf op.toList = false) :
    operators.find? (fun op => op.toList.isPrefixOf (text.toList ++ rest)) = some text := by
  obtain ⟨before, after, hsplit⟩ := List.append_of_mem htext
  rw [List.find?_eq_some_iff_append]
  refine ⟨?_, before, after, hsplit, ?_⟩
  · rw [List.isPrefixOf_iff_prefix]
    exact List.prefix_append ..
  · intro op hop
    have hpairwise := pairwise_operators
    rw [hsplit, List.pairwise_append] at hpairwise
    have hmem : op ∈ operators := by
      rw [hsplit]
      exact List.mem_append_left _ hop
    rw [isPrefixOf_operator_false (hpairwise.2.2 op hop text (List.mem_cons_self ..))
      (hnext op hmem)]
    rfl

theorem scanToken?_operator {text : String} {rest : List Char} (htext : text ∈ operators)
    (hslash : text.toList.head? ≠ some '/')
    (hnext : ∀ op ∈ operators, ∀ c ∈ rest.head?,
      (text.toList ++ [c]).isPrefixOf op.toList = false)
    (hdot : text = "." → ∀ c ∈ rest.head?, isDecimal c = false) :
    scanToken? (text.toList ++ rest) = some (.operator, text.toList, rest) := by
  have hplain := List.all_eq_true.1 operators_plain text htext
  rw [List.all_eq_true] at hplain
  have hfind := find?_operators htext hnext
  have hdrop : (text.toList ++ rest).drop text.length = rest :=
    List.drop_left' String.length_toList
  cases heq : text.toList with
  | nil =>
    rw [String.toList_eq_nil_iff] at heq
    subst heq
    contradiction
  | cons c cs =>
    have hdecimal : ∀ d ∈ c :: cs, isDecimal d = false := by
      intro d hd
      rw [← heq] at hd
      exact isDecimal_of_not_isNameChar (not_isNameChar_of_mem htext hd)
    have hnumber : (isDecimal c || (c == '.' && (cs ++ rest).head?.any isDecimal)) = false := by
      rw [hdecimal c (List.mem_cons_self ..), Bool.false_or, Bool.and_eq_false_iff,
        beq_eq_false_iff_ne]
      by_cases hc : c = '.'
      · right
        cases cs with
        | nil =>
          have htext : text = "." := by
            rw [← String.toList_inj, heq, hc]
            rfl
          cases rest with
          | nil => rfl
          | cons d rest => exact hdot htext d rfl
        | cons d cs => exact hdecimal d (List.mem_cons_of_mem _ (List.mem_cons_self ..))
      · exact .inl hc
    rw [heq] at hplain hslash hfind hdrop
    have hc := hplain c (List.mem_cons_self ..)
    simp only [Bool.and_eq_true, bne_iff_ne, Bool.not_eq_true', ← beq_eq_false_iff_ne] at hc
    obtain ⟨⟨⟨⟨⟨⟨hname, hquote⟩, hapostrophe⟩, hback⟩, hsemicolon⟩, -⟩, -⟩ := hc
    have hstart : isNameStart c = false := (Bool.or_eq_false_iff.1 hname).1
    rw [List.cons_append] at hfind hdrop ⊢
    unfold scanToken?
    split
    · contradiction
    · next heq' => exact absurd (congrArg some (List.cons.inj heq').1) hslash
    · next heq' => exact absurd (congrArg some (List.cons.inj heq').1) hslash
    · next heq' =>
      cases heq'
      rw [hstart, hnumber, hquote, hapostrophe, hback, hsemicolon]
      simp only [Bool.false_eq_true, if_false]
      rw [hfind]
      show some (TokenKind.operator, text.toList, (c :: (cs ++ rest)).drop text.length) = _
      rw [hdrop, heq]

end RecordCodec.Source
