import RecordCodec.Proofs.Text.Folding

/-!
This module contains the laws of the name conversions. A name corresponds to what either conversion
makes of it, and converting a second time changes nothing.
-/

namespace RecordCodec

open RecordCodec.Text

namespace Text

theorem flatten_runs (p : α → Bool) (xs : List α) : (runs p xs).flatten = xs.filter (!p ·) := by
  unfold runs
  rw [List.flatten_filter_not_isEmpty]
  induction xs with
  | nil => rfl
  | cons x xs ih =>
    rw [splitAtAll]
    split
    · next hx => simp [hx, ih]
    · next hx =>
      split
      · next hnil => exact absurd hnil (splitAtAll_ne_nil p xs)
      · next part parts hparts =>
        rw [hparts] at ih
        simpa [hx] using ih

theorem runs_of_all {p : α → Bool} {x : α} {xs : List α} (h : ∀ y ∈ x :: xs, p y = false) :
    runs p (x :: xs) = [x :: xs] := by
  unfold runs
  rw [splitAtAll_of_all h]
  rfl

theorem of_isAlphanum (p : Char → Prop)
    (hall : ∀ n < 128, (Char.ofNat n).isAlphanum = true → p (Char.ofNat n)) {c : Char}
    (h : c.isAlphanum = true) : p c := by
  refine of_ascii (fun c => c.isAlphanum = true → p c) hall ?_ h
  delta Char.isAlphanum Char.isAlpha Char.isUpper Char.isLower Char.isDigit at h
  simp only [Bool.or_eq_true, Bool.and_eq_true, decide_eq_true_eq, ge_iff_le,
    UInt32.le_iff_toNat_le] at h
  change ((65 ≤ c.toNat ∧ c.toNat ≤ 90) ∨ (97 ≤ c.toNat ∧ c.toNat ≤ 122)) ∨
    (48 ≤ c.toNat ∧ c.toNat ≤ 57) at h
  omega

end Text

namespace Naming

theorem isSeparator_of_isAlphanum {c : Char} (h : c.isAlphanum = true) : isSeparator c = false :=
  of_isAlphanum (isSeparator · = false) (by decide) h

theorem isUpper_toLower {c : Char} (h : c.isAlphanum = true) : isUpper (toLower c) = false :=
  of_isAlphanum (fun c => isUpper (toLower c) = false) (by decide) h

theorem isAlphanum_toUpper {c : Char} (h : c.isAlphanum = true) : (toUpper c).isAlphanum = true :=
  of_isAlphanum (fun c => (toUpper c).isAlphanum = true) (by decide) h

theorem fold_toUpper {c : Char} (h : c.isAlphanum = true) : fold (toUpper c) = fold c :=
  of_isAlphanum (fun c => fold (toUpper c) = fold c) (by decide) h

/-! Declared names. -/

theorem snake_go_of_all {cs : List Char} (h : ∀ c ∈ cs, isUpper c = false) (prev : Option Char) :
    snake.go prev cs = cs := by
  induction cs generalizing prev with
  | nil => rfl
  | cons c cs ih =>
    rw [snake.go, h c (List.mem_cons_self ..), ih fun d hd => h d (List.mem_cons_of_mem _ hd)]
    rfl

theorem isUpper_of_mem_snake_go {cs : List Char} (h : ∀ c ∈ cs, isUpper (toLower c) = false)
    (prev : Option Char) : ∀ c ∈ snake.go prev cs, isUpper c = false := by
  induction cs generalizing prev with
  | nil => simp [snake.go]
  | cons c cs ih =>
    have hrest := ih (fun d hd => h d (List.mem_cons_of_mem _ hd)) (some c)
    intro d hd
    rw [snake.go] at hd
    split at hd
    · rcases List.mem_append.1 hd with hd | hd
      · split at hd
        · rw [List.mem_singleton.1 hd]
          decide
        · contradiction
      · rcases List.mem_cons.1 hd with rfl | hd
        · exact h c (List.mem_cons_self ..)
        · exact hrest d hd
    · next hc =>
      rcases List.mem_cons.1 hd with rfl | hd
      · simpa using hc
      · exact hrest d hd

theorem snake_snake {name : String} (h : ∀ c ∈ name.toList, isUpper (toLower c) = false) :
    snake (snake name) = snake name := by
  have hnone := isUpper_of_mem_snake_go h none
  rw [snake, snake, String.toList_ofList, snake_go_of_all hnone]

/-! Exported names. -/

section

variable {cs : List Char}

theorem isAlphanum_of_mem_runs (h : ∀ c ∈ cs, c.isAlphanum = true ∨ isSeparator c = true)
    {word : List Char} (hword : word ∈ runs isSeparator cs) : ∀ c ∈ word, c.isAlphanum = true := by
  intro c hc
  have hmem : c ∈ cs.filter (!isSeparator ·) := by
    rw [← flatten_runs]
    exact List.mem_flatten_of_mem hword hc
  have hmem := List.mem_filter.1 hmem
  refine (h c hmem.1).resolve_right ?_
  simpa using hmem.2

theorem isAlphanum_of_mem_capitalize {word : List Char} (h : ∀ c ∈ word, c.isAlphanum = true) :
    ∀ c ∈ capitalize word, c.isAlphanum = true := by
  intro c hc
  rcases mem_capitalize hc with hc | ⟨d, hd, rfl⟩
  · exact h c hc
  · exact isAlphanum_toUpper (h d hd)

theorem folded_capitalize {word : List Char} (h : ∀ c ∈ word, c.isAlphanum = true) :
    folded (capitalize word) = folded word := by
  cases word with
  | nil => rfl
  | cons c cs =>
    have hc := h c (List.mem_cons_self ..)
    rw [capitalize, folded_cons, folded_cons, isSeparator_of_isAlphanum hc,
      isSeparator_of_isAlphanum (isAlphanum_toUpper hc), fold_toUpper hc]

theorem folded_flatMap_capitalize {words : List (List Char)}
    (h : ∀ word ∈ words, ∀ c ∈ word, c.isAlphanum = true) :
    folded (words.flatMap capitalize) = folded words.flatten := by
  induction words with
  | nil => rfl
  | cons word words ih =>
    rw [List.flatMap_cons, List.flatten_cons, folded_append, folded_append,
      folded_capitalize (h word (List.mem_cons_self ..)),
      ih fun other hother => h other (List.mem_cons_of_mem _ hother)]

theorem flatMap_capitalize_eq {first : Char} (hfirst : cs.find? (!isSeparator ·) = some first) :
    ∃ rest, (runs isSeparator cs).flatMap capitalize = toUpper first :: rest := by
  rw [← List.head?_filter, ← flatten_runs] at hfirst
  have hnonempty : ∀ word ∈ runs isSeparator cs, word ≠ [] := by
    intro word hword
    simpa using (List.mem_filter.1 hword).2
  cases hruns : runs isSeparator cs with
  | nil => simp [hruns] at hfirst
  | cons word words =>
    cases word with
    | nil => exact absurd rfl (hnonempty [] (by simp [hruns]))
    | cons c word =>
      rw [hruns, List.flatten_cons, List.cons_append, List.head?_cons, Option.some.injEq] at hfirst
      rw [hfirst]
      exact ⟨_, rfl⟩

theorem exported_ofList {c : Char} (hletter : isLetter c = true) (hupper : toUpper c = c)
    (h : ∀ d ∈ c :: cs, isSeparator d = false) :
    exported (String.ofList (c :: cs)) = String.ofList (c :: cs) := by
  rw [exported, String.toList_ofList, runs_of_all h, List.flatMap_singleton, capitalize, hupper]
  dsimp only
  rw [if_pos hletter]

end

theorem conversions_correspond :
    (∀ host : String, (∀ c ∈ host.toList, c.isAlphanum = true) →
      corresponds host (snake host) = true ∧ snake (snake host) = snake host) ∧
    ∀ (name : String) (first : Char),
      (∀ c ∈ name.toList, c.isAlphanum = true ∨ isSeparator c = true) →
      name.toList.find? (!isSeparator ·) = some first → first.isAlpha = true →
      corresponds (exported name) name = true ∧ exported (exported name) = exported name := by
  constructor
  · intro host hhost
    have hletter : 'İ' ∉ host.toList := fun hmem => absurd (hhost _ hmem) (by decide)
    exact ⟨corresponds_snake hletter fun c hc => isSeparator_of_isAlphanum (hhost c hc),
      snake_snake fun c hc => isUpper_toLower (hhost c hc)⟩
  · intro name first hname hfirst halpha
    have hwords : ∀ word ∈ runs isSeparator name.toList, ∀ c ∈ word, c.isAlphanum = true :=
      fun _ hword => isAlphanum_of_mem_runs hname hword
    obtain ⟨rest, hbody⟩ := flatMap_capitalize_eq hfirst
    have hupper : toUpper (toUpper first) = toUpper first ∧ isLetter (toUpper first) = true := by
      refine of_isAlphanum (fun c => c.isAlpha = true → toUpper (toUpper c) = toUpper c ∧
        isLetter (toUpper c) = true) (by decide) ?_ halpha
      rw [Char.isAlphanum, halpha, Bool.true_or]
    have hexported : exported name = String.ofList (toUpper first :: rest) := by
      rw [exported, hbody]
      dsimp only
      rw [if_pos hupper.2]
    have hplain : ∀ c ∈ toUpper first :: rest, isSeparator c = false := by
      intro c hc
      rw [← hbody] at hc
      obtain ⟨word, hword, hc⟩ := List.mem_flatMap.1 hc
      exact isSeparator_of_isAlphanum (isAlphanum_of_mem_capitalize (hwords word hword) c hc)
    have hfolded : folded (toUpper first :: rest) = folded name.toList := by
      rw [← hbody, folded_flatMap_capitalize hwords, flatten_runs]
      simp [folded]
    rw [hexported]
    refine ⟨corresponds_of_folded_eq ?_ ?_, exported_ofList hupper.2 hupper.1 hplain⟩
    · rwa [String.toList_ofList]
    · rwa [String.toList_ofList]

theorem conversions_correspond_acronym :
    snake "HTTPCode2XY" = "http_code2_xy" ∧ corresponds "HTTPCode2XY" "http_code2_xy" = true ∧
      snake "http_code2_xy" = "http_code2_xy" ∧
      exported "-_tVec__2_string-" = "TVec2String" ∧
      corresponds "TVec2String" "-_tVec__2_string-" = true ∧
      exported "TVec2String" = "TVec2String" := by
  have hsnake : snake "HTTPCode2XY" = "http_code2_xy" := by decide
  have hexported : exported "-_tVec__2_string-" = "TVec2String" := by decide
  have hhosts : "HTTPCode2XY".toList.all Char.isAlphanum = true := by decide
  have hnames : "-_tVec__2_string-".toList.all (fun c => c.isAlphanum || isSeparator c) = true := by
    decide
  have hhost := conversions_correspond.1 "HTTPCode2XY" (List.all_eq_true.1 hhosts)
  have hname := conversions_correspond.2 "-_tVec__2_string-" 't'
    (fun c hc => Bool.or_eq_true_iff.1 (List.all_eq_true.1 hnames c hc)) (by decide) (by decide)
  rw [hsnake] at hhost
  rw [hexported] at hname
  exact ⟨hsnake, hhost.1, hhost.2, hexported, hname.1, hname.2⟩

end Naming

end RecordCodec
