import RecordCodec.Proofs.Files.Siblings

/-!
This module contains path texts without the names of temporary files and backups, which are called
plain. What a plain path text means depends on the plain places of a disk alone, so temporary files
on the disk change nothing about it, and nothing about the directories that are made along it.
-/

namespace RecordCodec.Files

def IsPlain (names : Nat → String) (parts : List String) : Prop :=
  ∀ part ∈ parts, ¬ IsTemporary names part

namespace IsPlain

variable {names : Nat → String} {parts others : List String} {part : String}

theorem nil : IsPlain names [] :=
  nofun

theorem of_subset (h : IsPlain names parts) (hsub : ∀ part ∈ others, part ∈ parts) :
    IsPlain names others :=
  fun part hpart => h part (hsub part hpart)

theorem append (h : IsPlain names parts) (h' : IsPlain names others) :
    IsPlain names (parts ++ others) := by
  intro part hpart
  rcases List.mem_append.1 hpart with hpart | hpart
  · exact h part hpart
  · exact h' part hpart

theorem concat (h : IsPlain names parts) (hpart : ¬ IsTemporary names part) :
    IsPlain names (parts ++ [part]) := by
  refine h.append fun other hother => ?_
  rw [List.mem_singleton.1 hother]
  exact hpart

theorem dropLast (h : IsPlain names parts) : IsPlain names parts.dropLast :=
  h.of_subset fun _ hpart => List.dropLast_subset _ hpart

theorem head (h : IsPlain names (part :: parts)) : ¬ IsTemporary names part :=
  h part List.mem_cons_self

theorem tail (h : IsPlain names (part :: parts)) : IsPlain names parts :=
  h.of_subset fun _ => List.mem_cons_of_mem part

end IsPlain

theorem not_isPlain_concat {names : Nat → String} {name : String} (hname : IsTemporary names name)
    (dir : Place) : ¬ IsPlain names (dir ++ [name]) :=
  fun h => h name (by simp) hname

/-! The directory of a plain path text. -/

theorem mem_resolveDots {rooted : Bool} {stack parts : List String} {part : String}
    (h : part ∈ resolveDots rooted stack parts) : part ∈ stack ∨ part ∈ parts ∨ part = ".." := by
  fun_induction resolveDots rooted stack parts with
  | case1 stack => exact .inl (List.mem_reverse.1 h)
  | case2 => grind
  | case3 => grind
  | case4 => grind
  | case5 => grind
  | case6 => grind

theorem AreTemporary.isEntryName_of_isTemporary {names : Nat → String} (h : AreTemporary names)
    {name : String} (hname : IsTemporary names name) : IsEntryName name := by
  obtain ⟨i, rfl | rfl⟩ := hname
  · exact h.isEntryName i
  · exact h.isEntryName_append i (by decide)

theorem IsPlain.parentOf {names : Nat → String} (hnames : AreTemporary names) {path : String}
    (h : IsPlain names (components path)) : IsPlain names (components (parentOf path)) := by
  intro part hpart htemporary
  obtain ⟨hempty, hdot, hdots, -⟩ := hnames.isEntryName_of_isTemporary htemporary
  have hcomponents : components ("/".intercalate ((components path).dropLast ++ [""])) =
      (components path).dropLast ++ [""] := by
    apply components_intercalate (by simp)
    intro other hother
    rcases List.mem_append.1 hother with hother | hother
    · exact not_mem_of_mem_components (List.dropLast_subset _ hother)
    · rw [List.mem_singleton.1 hother]
      decide
  rw [Files.parentOf, clean_eq] at hpart
  generalize "/".intercalate ((components path).dropLast ++ [""]) = text at hpart hcomponents
  by_cases hnil : resolved text = []
  · rw [hnil, components_pathText_nil] at hpart
    split at hpart <;> simp [hempty, hdot] at hpart
  · rw [components_pathText_of_ne_nil (isResolved_resolved _) hnil] at hpart
    rcases List.mem_append.1 hpart with hroot | hpart
    · split at hroot <;> simp [hempty] at hroot
    · rcases mem_resolveDots hpart with hstack | hmem | rfl
      · exact List.not_mem_nil hstack
      · rw [hcomponents] at hmem
        rcases List.mem_append.1 hmem with hmem | hmem
        · exact h part (List.dropLast_subset _ hmem) htemporary
        · exact hempty (List.mem_singleton.1 hmem)
      · exact hdots rfl

namespace Disk

variable {names : Nat → String} {d b c : Disk} {p : Place}

/-! Ways along plain names. -/

structure HasPlainWays (names : Nat → String) (d : Disk) : Prop where
  home : IsPlain names d.home
  links : ∀ p target, d.get? p = some (.link target) → IsPlain names (components target)

namespace HasPlainWays

theorem start (h : d.HasPlainWays names) (path : String) :
    IsPlain names (if isRooted path then [] else d.home) := by
  split
  · exact .nil
  · exact h.home

theorem follow (h : d.HasPlainWays names) {dir : Place} {parts : List String}
    (hdir : IsPlain names dir) (hparts : IsPlain names parts) :
    (∀ p, d.follow dir parts = .directory p → IsPlain names p) ∧
    ∀ at' target rest, d.follow dir parts = .link at' target rest →
      IsPlain names (if isRooted target then [] else at') ∧
        IsPlain names (components target ++ rest) := by
  induction parts generalizing dir with
  | nil =>
    unfold Disk.follow
    simp [hdir]
  | cons name parts ih =>
    have hplace := hdir.concat hparts.head
    unfold Disk.follow
    split
    · exact ih hdir hparts.tail
    · split
      · exact ih hdir.dropLast hparts.tail
      · split
        · simp
        · split
          · exact ih hplace hparts.tail
          · split <;> simp
          · next target hget =>
            refine ⟨by simp, fun at' target' rest heq => ?_⟩
            cases heq
            refine ⟨?_, (h.links _ _ hget).append hparts.tail⟩
            split
            · exact .nil
            · exact hdir
          · simp

theorem arrive (h : d.HasPlainWays names) {links : Nat} {dir : Place} {parts : List String}
    (hdir : IsPlain names dir) (hparts : IsPlain names parts)
    (harrive : d.arrive links dir parts = .directory p) : IsPlain names p := by
  induction links generalizing dir parts with
  | zero =>
    unfold Disk.arrive at harrive
    split at harrive
    · contradiction
    · contradiction
    · exact (h.follow hdir hparts).1 _ harrive
  | succ links ih =>
    unfold Disk.arrive at harrive
    split at harrive
    · next hfollow hlinks =>
      cases hlinks
      obtain ⟨hstart, hway⟩ := (h.follow hdir hparts).2 _ _ _ hfollow
      split at harrive
      · exact ih hstart hway harrive
      · contradiction
    · contradiction
    · exact (h.follow hdir hparts).1 _ harrive

theorem directory? (h : d.HasPlainWays names) {path : String}
    (hpath : IsPlain names (components path)) (hdir : d.directory? path = some p) :
    IsPlain names p :=
  h.arrive (h.start path) hpath (directory?_eq_some_iff.1 hdir).2

end HasPlainWays

theorem place?_eq_some_iff {path : String} : d.place? path = some p ↔
    ∃ parts name dir, ((components path).reverse.dropWhile (· == "")).reverse = parts ++ [name] ∧
      isPath path = true ∧ name ≠ "." ∧ name ≠ ".." ∧ isName name = true ∧
      d.arrive maxLinks (if isRooted path then [] else d.home) parts = .directory dir ∧
      p = dir ++ [name] := by
  unfold place?
  dsimp only
  generalize ((components path).reverse.dropWhile (· == "")).reverse = all
  rcases List.eq_nil_or_concat all with rfl | ⟨parts, name, rfl⟩
  · simp
  · rw [List.concat_eq_append, List.getLast?_concat, List.dropLast_concat]
    dsimp only
    constructor
    · intro h
      split at h
      · contradiction
      · next hok =>
        simp only [Bool.or_eq_true, Bool.not_eq_true', beq_iff_eq, not_or, Bool.not_eq_false] at hok
        split at h
        · next dir harrive =>
          exact ⟨parts, name, dir, rfl, hok.1.1.1, hok.1.1.2, hok.1.2, hok.2, harrive,
            (Option.some.inj h).symm⟩
        · contradiction
    · rintro ⟨parts', name', dir, heq, hpath, hdot, hdots, hname, harrive, rfl⟩
      obtain ⟨rfl, hlast⟩ := List.append_inj' heq rfl
      cases hlast
      rw [harrive]
      simp [hpath, hdot, hdots, hname]

theorem trimmed_subset (path : String) :
    ((components path).reverse.dropWhile (· == "")).reverse ⊆ components path := by
  intro part hpart
  exact List.mem_reverse.1 ((List.dropWhile_suffix _).subset (List.mem_reverse.1 hpart))

theorem HasPlainWays.place? (h : d.HasPlainWays names) {path : String}
    (hpath : IsPlain names (components path)) (hp : d.place? path = some p) : IsPlain names p := by
  obtain ⟨parts, name, dir, htrimmed, -, -, -, -, harrive, rfl⟩ := place?_eq_some_iff.1 hp
  have hall : IsPlain names (parts ++ [name]) :=
    hpath.of_subset fun part hpart => trimmed_subset path (htrimmed ▸ hpart)
  have hparts : IsPlain names parts := hall.of_subset fun _ => List.mem_append_left _
  exact (h.arrive (h.start path) hparts harrive).concat (hall name (by simp))

/-! Temporary files on a disk. -/

structure AddsFiles (names : Nat → String) (extra : Place → Option String) (b c : Disk) :
    Prop where
  home : c.home = b.home
  plain : ∀ p, IsPlain names p → c.get? p = b.get? p
  free : ∀ p, ¬ IsPlain names p → b.get? p = none
  extra : ∀ p, ¬ IsPlain names p → c.get? p = (extra p).map .file

namespace AddsFiles

variable {extra : Place → Option String} (h : AddsFiles names extra b c) {dir : Place}
  {parts : List String} {path : String}

include h

theorem follow_eq (hdir : IsPlain names dir) (hparts : IsPlain names parts) :
    c.follow dir parts = b.follow dir parts := by
  induction parts generalizing dir with
  | nil => rfl
  | cons name parts ih =>
    have hplace := hdir.concat hparts.head
    unfold Disk.follow
    rw [h.plain _ hplace, ih hdir hparts.tail, ih hdir.dropLast hparts.tail,
      ih hplace hparts.tail]

theorem arrive_eq (hways : b.HasPlainWays names) {links : Nat} (hdir : IsPlain names dir)
    (hparts : IsPlain names parts) : c.arrive links dir parts = b.arrive links dir parts := by
  induction links generalizing dir parts with
  | zero =>
    unfold Disk.arrive
    rw [h.follow_eq hdir hparts]
    cases b.follow dir parts <;> rfl
  | succ links ih =>
    unfold Disk.arrive
    rw [h.follow_eq hdir hparts]
    cases hfollow : b.follow dir parts with
    | link at' target rest =>
      obtain ⟨hstart, hway⟩ := (hways.follow hdir hparts).2 _ _ _ hfollow
      dsimp only
      rw [ih hstart hway]
    | _ => rfl

theorem status_eq (hways : b.HasPlainWays names) (hpath : IsPlain names (components path)) :
    c.status path = b.status path := by
  unfold status
  rw [h.home, h.arrive_eq hways (hways.start path) hpath]

theorem directory?_eq (hways : b.HasPlainWays names) (hpath : IsPlain names (components path)) :
    c.directory? path = b.directory? path := by
  unfold Disk.directory?
  rw [h.status_eq hways hpath]

theorem place?_eq (hways : b.HasPlainWays names) (hpath : IsPlain names (components path)) :
    c.place? path = b.place? path := by
  have hparts : IsPlain names ((components path).reverse.dropWhile (· == "")).reverse.dropLast :=
    hpath.of_subset fun part hpart => trimmed_subset path (List.dropLast_subset _ hpart)
  unfold Disk.place?
  dsimp only
  rw [h.home, h.arrive_eq hways (hways.start path) hparts]

theorem entry?_eq (hways : b.HasPlainWays names) (hpath : IsPlain names (components path)) :
    c.entry? path = b.entry? path := by
  unfold Disk.entry?
  rw [h.directory?_eq hways hpath, h.place?_eq hways hpath]
  cases hplace : b.place? path with
  | none => rfl
  | some p =>
    rw [Option.bind_some, Option.bind_some, h.plain p (hways.place? hpath hplace)]

end AddsFiles

/-! Directories that are made along plain path texts. -/

theorem HasPlainWays.put (h : d.HasPlainWays names) (hp : p ≠ []) :
    (d.put p .directory).HasPlainWays names := by
  refine ⟨h.home, fun q target hq => ?_⟩
  rw [get?_put hp] at hq
  split at hq
  · cases hq
  · exact h.links q target hq

theorem AddsFiles.put {extra : Place → Option String} (h : AddsFiles names extra b c) (hp : p ≠ [])
    (hplain : IsPlain names p) :
    AddsFiles names extra (b.put p .directory) (c.put p .directory) := by
  have hne : ∀ q, ¬ IsPlain names q → q ≠ p := by
    rintro q hq rfl
    exact hq hplain
  refine ⟨h.home, fun q hq => ?_, fun q hq => ?_, fun q hq => ?_⟩
  · rw [get?_put hp, get?_put hp, h.plain q hq]
  · rw [get?_put hp, if_neg (hne q hq), h.free q hq]
  · rw [get?_put hp, if_neg (hne q hq), h.extra q hq]

theorem AddsFiles.makeEach {extra : Place → Option String} (h : AddsFiles names extra b c)
    (hways : b.HasPlainWays names) {paths : List String}
    (hpaths : ∀ path ∈ paths, IsPlain names (components path)) :
    (c.makeEach paths).2 = (b.makeEach paths).2 ∧
      AddsFiles names extra (b.makeEach paths).1 (c.makeEach paths).1 ∧
      (b.makeEach paths).1.HasPlainWays names := by
  induction paths generalizing b c with
  | nil => exact ⟨rfl, h, hways⟩
  | cons path paths ih =>
    have hpath := hpaths path List.mem_cons_self
    have hrest : ∀ other ∈ paths, IsPlain names (components other) :=
      fun other hother => hpaths other (List.mem_cons_of_mem _ hother)
    rw [Disk.makeEach, Disk.makeEach, h.status_eq hways hpath]
    cases b.status path with
    | directory p => exact ih h hways hrest
    | nowhere =>
      unfold makeDirectory?
      rw [h.place?_eq hways hpath]
      cases hplace : b.place? path with
      | none => exact ⟨rfl, h, hways⟩
      | some p =>
        have hplain := hways.place? hpath hplace
        have hne : p ≠ [] := by
          obtain ⟨parts, name, dir, -, -, -, -, -, -, rfl⟩ := place?_eq_some_iff.1 hplace
          simp
        simp only [Option.bind_eq_bind, Option.bind_some, h.plain p hplain]
        cases b.get? p with
        | some e => exact ⟨rfl, h, hways⟩
        | none => exact ih (h.put hne hplain) (hways.put hne) hrest
    | _ => exact ⟨rfl, h, hways⟩

theorem AddsFiles.makeDirectories {extra : Place → Option String} {path : String}
    (h : AddsFiles names extra b c) (hways : b.HasPlainWays names)
    (hpath : IsPlain names (components path)) :
    (c.makeDirectories path).2 = (b.makeDirectories path).2 ∧
      AddsFiles names extra (b.makeDirectories path).1 (c.makeDirectories path).1 ∧
      (b.makeDirectories path).1.HasPlainWays names := by
  unfold Disk.makeDirectories
  apply h.makeEach hways
  intro start hstart
  obtain ⟨i, hi, rfl⟩ := List.mem_map.1 (List.mem_filter.1 hstart).1
  have htake : (components path).take (i + 1) ≠ [] := by
    have := List.mem_range.1 hi
    rw [← List.length_pos_iff, List.length_take]
    omega
  rw [components_intercalate htake fun part hpart =>
    not_mem_of_mem_components (List.mem_of_mem_take hpart)]
  exact hpath.of_subset fun _ => List.mem_of_mem_take

end Disk

end RecordCodec.Files
