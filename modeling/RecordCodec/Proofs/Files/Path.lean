import Mathlib.Data.List.Induction
import RecordCodec.Files.Path
import RecordCodec.Proofs.Text.Parts

/-!
This module contains what cleaned path texts look like: some `..`, which do not stand after the root,
and then names of entries. The directory of such a text is the text without its last part.
-/

namespace RecordCodec.Files

open RecordCodec.Text

/-! Components. -/

def IsEntryName (name : String) : Prop :=
  name ≠ "" ∧ name ≠ "." ∧ name ≠ ".." ∧ '/' ∉ name.toList

theorem not_mem_of_mem_components {path part : String} (h : part ∈ components path) :
    '/' ∉ part.toList := by
  obtain ⟨cs, hcs, rfl⟩ := List.mem_map.1 h
  intro hmem
  rw [String.toList_ofList] at hmem
  have := eq_false_of_mem_splitAtAll hcs '/' hmem
  contradiction

theorem components_append {path name : String} (h : '/' ∉ name.toList) :
    components (path ++ "/" ++ name) = components path ++ [name] := by
  have hname : splitAtAll (· == '/') name.toList = [name.toList] := by
    apply splitAtAll_of_all
    intro c hc
    rw [beq_eq_false_iff_ne]
    rintro rfl
    exact h hc
  have htext : (path ++ "/" ++ name).toList = path.toList ++ '/' :: name.toList := by
    rw [String.toList_append, String.toList_append, List.append_assoc]
    rfl
  unfold components
  rw [htext, splitAtAll_append_cons _ _ (by decide), hname, List.map_append, List.map_singleton,
    String.ofList_toList]

theorem components_intercalate {parts : List String} (hparts : parts ≠ [])
    (h : ∀ part ∈ parts, '/' ∉ part.toList) : components ("/".intercalate parts) = parts := by
  unfold components
  rw [String.toList_intercalate]
  show (splitAtAll (· == '/') (['/'].intercalate (parts.map String.toList))).map String.ofList =
    parts
  rw [splitAtAll_intercalate]
  · rw [List.map_map]
    simp [Function.comp_def]
  · simpa using hparts
  · intro part hpart
    obtain ⟨text, htext, rfl⟩ := List.mem_map.1 hpart
    exact h text htext

/-! Resolved parts. -/

def IsResolved (rooted : Bool) (parts : List String) : Prop :=
  ∃ ups names, parts = List.replicate ups ".." ++ names ∧ (∀ name ∈ names, IsEntryName name) ∧
    (rooted = true → ups = 0)

namespace IsResolved

variable {rooted : Bool} {parts : List String} {name : String}

theorem nil : IsResolved rooted [] :=
  ⟨0, [], rfl, by simp, fun _ => rfl⟩

theorem push (h : IsResolved rooted parts) (hname : IsEntryName name) :
    IsResolved rooted (parts ++ [name]) := by
  obtain ⟨ups, names, rfl, hnames, hups⟩ := h
  refine ⟨ups, names ++ [name], List.append_assoc .., ?_, hups⟩
  intro other hother
  rcases List.mem_append.1 hother with hother | hother
  · exact hnames other hother
  · rw [List.mem_singleton.1 hother]
    exact hname

theorem replicate_ups (ups : Nat) : IsResolved false (List.replicate ups "..") :=
  ⟨ups, [], (List.append_nil _).symm, by simp, nofun⟩

theorem last (h : IsResolved rooted (parts ++ [name])) : IsResolved rooted parts ∧
    (IsEntryName name ∨ name = ".." ∧ rooted = false ∧ ∃ ups, parts = List.replicate ups "..") := by
  obtain ⟨ups, names, heq, hnames, hups⟩ := h
  rcases List.eq_nil_or_concat names with rfl | ⟨names, last, rfl⟩
  · rw [List.append_nil] at heq
    cases ups with
    | zero => simp at heq
    | succ ups =>
      have hrooted : rooted = false := by
        cases rooted with
        | false => rfl
        | true => exact absurd (hups rfl) (Nat.succ_ne_zero ups)
      rw [List.replicate_succ'] at heq
      obtain ⟨rfl, hlast⟩ := List.append_inj' heq rfl
      cases hlast
      subst hrooted
      exact ⟨replicate_ups _, .inr ⟨rfl, rfl, ups, rfl⟩⟩
  · rw [List.concat_eq_append] at heq hnames
    rw [← List.append_assoc] at heq
    obtain ⟨rfl, hlast⟩ := List.append_inj' heq rfl
    cases hlast
    refine ⟨⟨ups, names, rfl, ?_, hups⟩, .inl ?_⟩
    · intro other hother
      exact hnames other (List.mem_append_left _ hother)
    · exact hnames name (List.mem_append_right _ (List.mem_singleton_self name))

theorem left {others : List String} (h : IsResolved rooted (parts ++ others)) :
    IsResolved rooted parts := by
  induction others using List.reverseRecOn with
  | nil =>
    rw [List.append_nil] at h
    exact h
  | append_singleton others other ih =>
    rw [← List.append_assoc] at h
    exact ih h.last.1

theorem after {others : List String} (h : IsResolved rooted (parts ++ [name] ++ others))
    (hname : IsEntryName name) : ∀ other ∈ others, IsEntryName other := by
  induction others using List.reverseRecOn with
  | nil => simp
  | append_singleton others last ih =>
    rw [← List.append_assoc] at h
    obtain ⟨hleft, hlast | ⟨-, -, ups, heq⟩⟩ := h.last
    · intro other hother
      rcases List.mem_append.1 hother with hother | hother
      · exact ih hleft other hother
      · rw [List.mem_singleton.1 hother]
        exact hlast
    · have hmem : name ∈ List.replicate ups ".." := by simp [← heq]
      exact absurd (List.mem_replicate.1 hmem).2 hname.2.2.1

theorem of_mem (h : IsResolved rooted parts) (hname : name ∈ parts) :
    name ≠ "" ∧ name ≠ "." ∧ '/' ∉ name.toList := by
  obtain ⟨ups, names, rfl, hnames, -⟩ := h
  rcases List.mem_append.1 hname with hname | hname
  · rw [(List.mem_replicate.1 hname).2]
    decide
  · obtain ⟨h₁, h₂, -, h₃⟩ := hnames name hname
    exact ⟨h₁, h₂, h₃⟩

end IsResolved

theorem isResolved_resolveDots {rooted : Bool} {stack parts : List String}
    (hstack : IsResolved rooted stack.reverse) (hparts : ∀ part ∈ parts, '/' ∉ part.toList) :
    IsResolved rooted (resolveDots rooted stack parts) := by
  induction parts generalizing stack with
  | nil => exact hstack
  | cons part parts ih =>
    have hrest : ∀ other ∈ parts, '/' ∉ other.toList :=
      fun other hother => hparts other (List.mem_cons_of_mem _ hother)
    unfold resolveDots
    split
    · exact ih hstack hrest
    · next hstays =>
      split
      · next hup =>
        cases stack with
        | nil =>
          apply ih _ hrest
          cases rooted with
          | true => exact .nil
          | false => exact IsResolved.replicate_ups 1
        | cons top below =>
          rw [List.reverse_cons] at hstack
          obtain ⟨hbelow, htop⟩ := hstack.last
          dsimp only
          split
          · next heq =>
            rw [beq_iff_eq] at heq
            subst heq
            rcases htop with htop | ⟨-, rfl, ups, hups⟩
            · exact absurd rfl htop.2.2.1
            · apply ih _ hrest
              rw [List.reverse_cons, List.reverse_cons, hups, ← List.replicate_succ',
                ← List.replicate_succ']
              exact IsResolved.replicate_ups _
          · exact ih hbelow hrest
      · next hname =>
        apply ih _ hrest
        rw [List.reverse_cons]
        apply hstack.push
        simp only [Bool.or_eq_true, beq_iff_eq, not_or] at hstays hname
        exact ⟨hstays.1, hstays.2, hname, hparts part (List.mem_cons_self ..)⟩

theorem resolveDots_append (rooted : Bool) (stack xs ys : List String) :
    resolveDots rooted stack (xs ++ ys) =
      resolveDots rooted (resolveDots rooted stack xs).reverse ys := by
  induction xs generalizing stack with
  | nil => rw [List.nil_append, resolveDots, List.reverse_reverse]
  | cons x xs ih =>
    rw [List.cons_append, resolveDots.eq_def rooted stack (x :: (xs ++ ys)),
      resolveDots.eq_def rooted stack (x :: xs)]
    dsimp only
    split
    · exact ih stack
    · split
      · split
        · split
          · exact ih _
          · exact ih _
        · exact ih _
      · exact ih _

theorem resolveDots_entryName {rooted : Bool} {stack : List String} {name : String}
    (h : IsEntryName name) : resolveDots rooted stack [name] = stack.reverse ++ [name] := by
  obtain ⟨h₁, h₂, h₃, -⟩ := h
  simp [resolveDots, h₁, h₂, h₃]

theorem resolveDots_of_isResolved {rooted : Bool} {parts : List String}
    (h : IsResolved rooted parts) : resolveDots rooted [] parts = parts := by
  induction parts using List.reverseRecOn with
  | nil => rfl
  | append_singleton parts part ih =>
    obtain ⟨hparts, hlast⟩ := h.last
    rw [resolveDots_append, ih hparts]
    rcases hlast with hname | ⟨rfl, rfl, ups, rfl⟩
    · rw [resolveDots_entryName hname, List.reverse_reverse]
    · rw [List.reverse_replicate]
      cases ups with
      | zero => rfl
      | succ ups =>
        have hup : resolveDots false (List.replicate (ups + 1) "..") [".."] =
            (List.replicate (ups + 2) "..").reverse := rfl
        rw [hup, List.reverse_replicate, List.replicate_succ']

/-! Cleaned texts. -/

def resolved (path : String) : List String :=
  resolveDots (isRooted path) [] (components path)

def pathText (rooted : Bool) (parts : List String) : String :=
  if rooted then "/" ++ "/".intercalate parts
  else if parts = [] then "." else "/".intercalate parts

theorem isResolved_resolved (path : String) : IsResolved (isRooted path) (resolved path) := by
  apply isResolved_resolveDots
  · exact .nil
  · intro part hpart
    exact not_mem_of_mem_components hpart

theorem isRooted_append (path text : String) (h : path ≠ "") :
    isRooted (path ++ text) = isRooted path := by
  unfold isRooted
  rw [String.toList_append]
  cases hpath : path.toList with
  | nil => exact absurd (String.toList_inj.1 hpath) h
  | cons c cs => rfl

theorem intercalate_ne_empty {parts : List String} (hparts : parts ≠ [])
    (h : ∀ part ∈ parts, part ≠ "") : "/".intercalate parts ≠ "" := by
  cases parts with
  | nil => contradiction
  | cons part parts =>
    intro heq
    have hlist := congrArg String.toList heq
    rw [String.toList_intercalate] at hlist
    have hpart : part.toList ≠ [] := fun hnil =>
      h part (List.mem_cons_self ..) (String.toList_inj.1 hnil)
    cases parts with
    | nil =>
      rw [List.map_singleton, List.intercalate_singleton] at hlist
      exact hpart hlist
    | cons next parts =>
      rw [List.map_cons, List.map_cons, List.intercalate_cons_cons] at hlist
      simp [hpart] at hlist

theorem intercalate_append_singleton {parts : List String} (hparts : parts ≠ []) (last : String) :
    "/".intercalate (parts ++ [last]) = "/".intercalate parts ++ "/" ++ last := by
  apply String.toList_inj.1
  rw [String.toList_append, String.toList_append, String.toList_intercalate,
    String.toList_intercalate, List.map_append, List.map_singleton]
  induction parts with
  | nil => contradiction
  | cons part parts ih =>
    cases parts with
    | nil => simp [List.intercalate_cons_cons]
    | cons next parts =>
      have hrest := ih (by simp)
      rw [List.map_cons, List.map_cons, List.cons_append, List.cons_append,
        List.intercalate_cons_cons, List.intercalate_cons_cons]
      rw [List.map_cons, List.cons_append] at hrest
      rw [hrest]
      simp

theorem intercalate_empty_cons {parts : List String} (hparts : parts ≠ []) :
    "/".intercalate ("" :: parts) = "/" ++ "/".intercalate parts := by
  obtain ⟨part, rest, rfl⟩ := List.exists_cons_of_ne_nil hparts
  rw [String.intercalate_cons_cons, String.empty_append]

theorem isRooted_intercalate {parts : List String}
    (h : ∀ part ∈ parts, part ≠ "" ∧ '/' ∉ part.toList) :
    isRooted ("/".intercalate parts) = false := by
  unfold isRooted
  rw [String.toList_intercalate]
  cases parts with
  | nil => rfl
  | cons part parts =>
    obtain ⟨hne, hslash⟩ := h part (List.mem_cons_self ..)
    cases hpart : part.toList with
    | nil => exact absurd (String.toList_inj.1 hpart) hne
    | cons c cs =>
      have hc : c ≠ '/' := by
        rintro rfl
        rw [hpart] at hslash
        simp at hslash
      cases parts with
      | nil => simp [hpart, hc]
      | cons next parts => simp [List.intercalate_cons_cons, hpart, hc]

theorem clean_eq (path : String) : clean path = pathText (isRooted path) (resolved path) := by
  unfold clean pathText resolved
  dsimp only
  split
  · rfl
  · have hiff : ("/".intercalate (resolveDots (isRooted path) [] (components path)) == "") = true ↔
        resolveDots (isRooted path) [] (components path) = [] := by
      rw [beq_iff_eq]
      constructor
      · intro hempty
        by_cases hnil : resolveDots (isRooted path) [] (components path) = []
        · exact hnil
        · refine absurd hempty (intercalate_ne_empty hnil ?_)
          intro part hpart
          exact ((isResolved_resolved path).of_mem hpart).1
      · intro hnil
        rw [hnil]
        rfl
    simp only [hiff]

section

variable {rooted : Bool} {parts : List String} {name : String}

theorem pathText_ne_empty (h : IsResolved rooted parts) : pathText rooted parts ≠ "" := by
  unfold pathText
  split
  · simp
  · split
    · decide
    · next hne => exact intercalate_ne_empty hne fun part hpart => (h.of_mem hpart).1

theorem isRooted_pathText (h : IsResolved rooted parts) :
    isRooted (pathText rooted parts) = rooted := by
  unfold pathText
  split
  · next hrooted =>
    rw [isRooted_append _ _ (by decide), hrooted]
    decide
  · next hrooted =>
    rw [Bool.not_eq_true] at hrooted
    rw [hrooted]
    split
    · decide
    · apply isRooted_intercalate
      intro part hpart
      obtain ⟨hne, -, hslash⟩ := h.of_mem hpart
      exact ⟨hne, hslash⟩

theorem pathText_append (hparts : parts ≠ []) :
    pathText rooted (parts ++ [name]) = pathText rooted parts ++ ("/" ++ name) := by
  cases rooted <;>
    simp [pathText, hparts, intercalate_append_singleton hparts, String.append_assoc]

theorem components_pathText_of_ne_nil (h : IsResolved rooted parts) (hparts : parts ≠ []) :
    components (pathText rooted parts) = (if rooted then [""] else []) ++ parts := by
  have hslash : ∀ part ∈ parts, '/' ∉ part.toList := fun part hpart => (h.of_mem hpart).2.2
  unfold pathText
  cases rooted with
  | false =>
    rw [if_neg (by decide), if_neg hparts, if_neg (by decide), List.nil_append]
    exact components_intercalate hparts hslash
  | true =>
    rw [if_pos rfl, if_pos rfl, ← intercalate_empty_cons hparts, components_intercalate (by simp)]
    · rfl
    · intro part hpart
      rcases List.mem_cons.1 hpart with rfl | hpart
      · decide
      · exact hslash part hpart

theorem components_pathText (h : IsResolved rooted (parts ++ [name])) :
    components (pathText rooted (parts ++ [name])) =
      (if rooted then [""] else []) ++ parts ++ [name] := by
  rw [components_pathText_of_ne_nil h (by simp), List.append_assoc]

theorem baseOf_pathText (h : IsResolved rooted (parts ++ [name])) :
    baseOf (pathText rooted (parts ++ [name])) = name := by
  have hname : name ≠ "" := (h.of_mem (by simp)).1
  unfold baseOf
  rw [if_neg (by simpa using pathText_ne_empty h), components_pathText h, List.filter_append,
    List.filter_cons_of_pos (by simpa using hname), List.filter_nil, List.getLast?_concat]
  rfl

theorem components_pathText_nil :
    components (pathText rooted []) = if rooted then ["", ""] else ["."] := by
  cases rooted <;> decide

theorem clean_pathText_slash (h : IsResolved rooted parts) (hparts : parts ≠ []) :
    clean (pathText rooted parts ++ "/") = pathText rooted parts := by
  have hrooted : isRooted (pathText rooted parts ++ "/") = rooted := by
    rw [isRooted_append _ _ (pathText_ne_empty h), isRooted_pathText h]
  have hcomponents : components (pathText rooted parts ++ "/") =
      (if rooted then [""] else []) ++ parts ++ [""] := by
    have happend : components (pathText rooted parts ++ "/" ++ "") =
        components (pathText rooted parts) ++ [""] := components_append (by decide)
    rw [String.append_empty] at happend
    obtain hnil | ⟨others, last, hlast⟩ := List.eq_nil_or_concat parts
    · contradiction
    · rw [List.concat_eq_append] at hlast
      subst hlast
      rw [happend, components_pathText h, List.append_assoc (if rooted then [""] else [])]
  have hresolve :
      resolveDots rooted [] ((if rooted then [""] else []) ++ parts ++ [""]) = parts := by
    have hroot : resolveDots rooted [] (if rooted then [""] else []) = [] := by
      cases rooted <;> rfl
    rw [resolveDots_append, resolveDots_append, hroot, List.reverse_nil,
      resolveDots_of_isResolved h]
    simp [resolveDots]
  rw [clean_eq, resolved, hrooted, hcomponents, hresolve]

theorem parentOf_pathText (h : IsResolved rooted (parts ++ [name])) :
    parentOf (pathText rooted (parts ++ [name])) = pathText rooted parts := by
  unfold parentOf
  rw [components_pathText h, List.dropLast_concat]
  cases parts with
  | nil => cases rooted <;> decide
  | cons part parts =>
    rw [← clean_pathText_slash h.last.1 (by simp)]
    congr 1
    rw [intercalate_append_singleton (by simp), String.append_empty]
    unfold pathText
    cases rooted with
    | false => simp
    | true =>
      congr 1
      apply String.toList_inj.1
      simp [String.toList_intercalate]

theorem parentOf_pathText_nil : parentOf (pathText rooted []) = pathText rooted [] := by
  cases rooted <;> decide

theorem joinPath_eq {dir : String} (hdir : dir ≠ "") (hname : IsEntryName name) :
    joinPath dir name = pathText (isRooted dir) (resolved dir ++ [name]) := by
  have hrooted : isRooted (dir ++ "/" ++ name) = isRooted dir := by
    rw [String.append_assoc, isRooted_append _ _ hdir]
  unfold joinPath
  rw [if_pos (by simpa using hdir), clean_eq, resolved, hrooted, components_append hname.2.2.2,
    resolveDots_append, resolveDots_entryName hname, List.reverse_reverse]
  rfl

end

end RecordCodec.Files
