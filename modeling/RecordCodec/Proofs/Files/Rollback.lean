import RecordCodec.Proofs.Files.Plain

/-!
This module contains the commits of targets and their rollback, whatever the targets are: they may
be in any directories, lead through links, and several of them may be spellings of one file. To undo
a commit gives back the disk before it, without the temporary file. A commit that fails after others
thus leaves the disk as it was before all of them.
-/

namespace RecordCodec.Files

namespace Disk

variable {b c c' d d' e : Disk} {p q : Place} {path : String}

/-! Disks with the same ways. -/

theorem KeepsWays.place? (h : d.KeepsWays d') (hp : d.place? path = some p) :
    d'.place? path = some p := by
  rw [place?_eq_some_iff] at hp ⊢
  obtain ⟨parts, name, dir, htrimmed, hpath, hdot, hdots, hname, harrive, heq⟩ := hp
  rw [h.home]
  exact ⟨parts, name, dir, htrimmed, hpath, hdot, hdots, hname, h.arrive harrive, heq⟩

theorem KeepsWays.entry? (h : d.KeepsWays d') {x : Entry} (hx : x.isWay = true)
    (hentry : d.entry? path = some x) : d'.entry? path = some x := by
  have hdirectory : ∀ {x}, (d.directory? path).map (fun _ => Entry.directory) = some x →
      (d'.directory? path).map (fun _ => Entry.directory) = some x := by
    intro x hmap
    obtain ⟨p, hp, rfl⟩ := Option.map_eq_some_iff.1 hmap
    rw [h.directory? hp]
    rfl
  unfold Disk.entry? at hentry ⊢
  split at hentry
  · exact hdirectory hentry
  · exact hdirectory hentry
  · exact hdirectory hentry
  · obtain ⟨p, hp, hget⟩ := Option.bind_eq_some_iff.1 hentry
    rw [h.place? hp]
    exact h.ways p x hget hx

theorem KeepsWays.isBlocked (h : d.KeepsWays d') (hblocked : d.IsBlocked path) :
    d'.IsBlocked path := by
  rcases hblocked with hentry | ⟨target, hentry⟩
  · exact .inl (h.entry? rfl hentry)
  · exact .inr ⟨target, h.entry? rfl hentry⟩

structure SameWays (b c : Disk) : Prop where
  keeps : b.KeepsWays c
  kept : c.KeepsWays b

namespace SameWays

theorem place?_eq (h : b.SameWays c) (path : String) : c.place? path = b.place? path := by
  apply Option.ext
  intro p
  constructor
  · apply h.kept.place?
  · apply h.keeps.place?

theorem directory? (h : b.SameWays c) (hp : b.directory? path = some p) :
    c.directory? path = some p :=
  h.keeps.directory? hp

theorem not_isBlocked (h : b.SameWays c) (hb : ¬ b.IsBlocked path) : ¬ c.IsBlocked path :=
  fun hc => hb (h.kept.isBlocked hc)

end SameWays

def HoldsFile (d : Disk) (p : Place) : Prop :=
  ∀ x, d.get? p = some x → x.isWay = false

theorem holdsFile_of_eq_none (h : d.get? p = none) : d.HoldsFile p := by
  simp [HoldsFile, h]

theorem holdsFile_of_file {text : String} (h : d.get? p = some (.file text)) : d.HoldsFile p := by
  simp [HoldsFile, h, Entry.isWay]

theorem SameWays.holdsFile (h : b.SameWays c) (hp : b.get? p = none) : c.HoldsFile p := by
  intro x hx
  cases hway : x.isWay with
  | false => rfl
  | true =>
    rw [h.kept.ways p x hx hway] at hp
    contradiction

theorem SameWays.of_get? (h : b.SameWays c) (hhome : c'.home = c.home)
    (hget : ∀ p, c'.get? p = c.get? p ∨ c.HoldsFile p ∧ c'.HoldsFile p) : b.SameWays c' := by
  refine ⟨⟨hhome.trans h.keeps.home, fun p x hx hway => ?_⟩,
    ⟨h.kept.home.trans hhome.symm, fun p x hx hway => ?_⟩⟩
  · have hx := h.keeps.ways p x hx hway
    rcases hget p with heq | ⟨hfile, -⟩
    · rw [heq, hx]
    · rw [hfile x hx] at hway
      contradiction
  · rcases hget p with heq | ⟨-, hfile⟩
    · rw [heq] at hx
      exact h.kept.ways p x hx hway
    · rw [hfile x hx] at hway
      contradiction

theorem IsTree.of_sameWays (hb : b.IsTree) (h : b.SameWays c)
    (hparent : ∀ dir name x, c.get? (dir ++ [name]) = some x → b.get? dir = some .directory) :
    c.IsTree := by
  refine ⟨?_, fun dir name x hx => h.keeps.ways _ _ (hparent dir name x hx) rfl⟩
  rw [h.keeps.home]
  exact h.keeps.ways _ _ hb.home rfl

theorem IsTree.place? (h : d.IsTree) (hp : d.place? path = some p) :
    ∃ dir name, p = dir ++ [name] ∧ d.get? dir = some .directory := by
  obtain ⟨parts, name, dir, -, -, -, -, -, harrive, rfl⟩ := place?_eq_some_iff.1 hp
  refine ⟨dir, name, rfl, h.arrive ?_ harrive⟩
  split
  · rfl
  · exact h.home

theorem entry?_of_place? (hp : d.place? path = some p) (hslash : endsWithSlash path = false) :
    d.entry? path = d.get? p := by
  obtain ⟨parts, name, dir, htrimmed, -, hdot, hdots, -, -, -⟩ := place?_eq_some_iff.1 hp
  have hlast : (components path).getLast? = some name := by
    rcases List.eq_nil_or_concat (components path) with hnil | ⟨all, last, hall⟩
    · simp [hnil] at htrimmed
    · rw [List.concat_eq_append] at hall
      have hne : last ≠ "" := by
        rintro rfl
        simp [endsWithSlash, hall] at hslash
      rw [hall, List.reverse_append, List.reverse_singleton, List.singleton_append,
        List.dropWhile_cons_of_neg (by simpa using hne), List.reverse_cons,
        List.reverse_reverse] at htrimmed
      rw [hall, htrimmed, List.getLast?_concat]
  have hname : name ≠ "" := by
    rintro rfl
    simp [endsWithSlash, hlast] at hslash
  unfold Disk.entry?
  rw [hlast, hp]
  split
  · next heq => exact absurd (Option.some.inj heq) hname
  · next heq => exact absurd (Option.some.inj heq) hdot
  · next heq => exact absurd (Option.some.inj heq) hdots
  · rfl

theorem entry?_of_endsWithSlash (hslash : endsWithSlash path = true) (hp : ¬ d.IsBlocked path) :
    d.entry? path = none := by
  have hlast : (components path).getLast? = some "" := by simpa [endsWithSlash] using hslash
  cases hentry : d.entry? path with
  | none => rfl
  | some x =>
    have hdirectory := hentry
    unfold Disk.entry? at hdirectory
    rw [hlast] at hdirectory
    obtain ⟨q, -, rfl⟩ := Option.map_eq_some_iff.1 hdirectory
    exact absurd (.inl hentry) hp

theorem eq_none_or_file_of_not_isBlocked (hp : ¬ d.IsBlocked path) :
    d.entry? path = none ∨ ∃ text, d.entry? path = some (.file text) := by
  cases hentry : d.entry? path with
  | none => exact .inl rfl
  | some x =>
    cases x with
    | directory => exact absurd (.inl hentry) hp
    | file text => exact .inr ⟨text, rfl⟩
    | link target => exact absurd (.inr ⟨target, hentry⟩) hp

structure Lacks (c e : Disk) (places : List Place) : Prop where
  home : e.home = c.home
  get? : ∀ p, e.get? p = if p ∈ places then none else c.get? p

theorem Lacks.refl (c : Disk) : c.Lacks c [] :=
  ⟨rfl, by simp⟩

theorem Lacks.sameWays {places : List Place} (h : c.Lacks e places) (hways : b.SameWays c)
    (hplaces : ∀ p ∈ places, b.get? p = none) : b.SameWays e := by
  apply hways.of_get? h.home
  intro p
  rw [h.get? p]
  split
  · next hp =>
    refine .inr ⟨hways.holdsFile (hplaces p hp), holdsFile_of_eq_none ?_⟩
    rw [h.get? p, if_pos hp]
  · exact .inl rfl

theorem Lacks.isTree {places : List Place} (h : c.Lacks e places) (hways : b.SameWays c)
    (hb : b.IsTree) (htree : c.IsTree) (hplaces : ∀ p ∈ places, b.get? p = none) : e.IsTree := by
  refine hb.of_sameWays (h.sameWays hways hplaces) fun dir name x hx => ?_
  rw [h.get?] at hx
  split at hx
  · contradiction
  · exact hways.kept.ways _ _ (htree.parent _ _ _ hx) rfl

end Disk

/-! Targets. -/

structure Post where
  number : Nat
  path : String
  text : String
  dir : Place

namespace Post

variable (names : Nat → String) (t : Post)

def temporary : String :=
  temporaryPath (parentOf t.path) (names t.number)

def place : Place :=
  t.dir ++ [names t.number]

def backup : Place :=
  t.dir ++ [names t.number ++ ".bak"]

def staged : Staged where
  path := t.path
  temporary := t.temporary names

theorem not_isPlain_place : ¬ IsPlain names (t.place names) :=
  not_isPlain_concat ⟨t.number, .inl rfl⟩ _

theorem not_isPlain_backup : ¬ IsPlain names (t.backup names) :=
  not_isPlain_concat ⟨t.number, .inr rfl⟩ _

end Post

theorem exists_parentOf_eq (path : String) :
    ∃ rooted parts, IsResolved rooted parts ∧ parentOf path = pathText rooted parts :=
  ⟨_, _, isResolved_resolved _, clean_eq _⟩

theorem parentOf_ne_empty (path : String) : parentOf path ≠ "" := by
  obtain ⟨rooted, parts, hparts, heq⟩ := exists_parentOf_eq path
  rw [heq]
  exact pathText_ne_empty hparts

theorem AreTemporary.isIn_temporary {names : Nat → String} (h : AreTemporary names) (t : Post) :
    IsIn (t.temporary names) (parentOf t.path) (names t.number) :=
  isIn_append (parentOf_ne_empty _) (h.isEntryName _)

theorem AreTemporary.isIn_backup {names : Nat → String} (h : AreTemporary names) (t : Post) :
    IsIn (t.temporary names ++ ".bak") (parentOf t.path) (names t.number ++ ".bak") := by
  have happend : t.temporary names ++ ".bak" =
      parentOf t.path ++ "/" ++ (names t.number ++ ".bak") := by
    simp [Post.temporary, temporaryPath, String.append_assoc]
  rw [happend]
  exact isIn_append (parentOf_ne_empty _) (h.isEntryName_append _ (by decide))

structure Disk.Seats (names : Nat → String) (b : Disk) (t : Post) : Prop where
  there : b.directory? (parentOf t.path) = some t.dir
  room : b.place? (t.temporary names) = some (t.place names)

structure Disk.IsGround (names : Nat → String) (b : Disk) : Prop where
  temporary : AreTemporary names
  tree : b.IsTree
  ways : b.HasPlainWays names
  free : ∀ p, ¬ IsPlain names p → b.get? p = none

inductive Commits (names : Nat → String) (b c : Disk) (t : Post) : Staged → Disk → Prop
  | create {goal : Place} {c' : Disk} (hgoal : b.place? t.path = some goal)
      (hslash : Disk.endsWithSlash t.path = false) (hfree : c.get? goal = none)
      (hhome : c'.home = c.home)
      (hget : ∀ p, c'.get? p = if p = goal then some (.file t.text) else
        if p = t.place names then none else c.get? p) :
      Commits names b c t { t.staged names with isCommitted := true } c'
  | replace {goal : Place} {c' : Disk} {old : String} (hgoal : b.place? t.path = some goal)
      (hslash : Disk.endsWithSlash t.path = false) (hold : c.get? goal = some (.file old))
      (hbackup : b.place? (t.temporary names ++ ".bak") = some (t.backup names))
      (hhome : c'.home = c.home)
      (hget : ∀ p, c'.get? p = if p = goal then some (.file t.text) else
        if p = t.place names then none else
          if p = t.backup names then some (.file old) else c.get? p) :
      Commits names b c t
        { t.staged names with backup := some (t.temporary names ++ ".bak"), isCommitted := true } c'

structure Disk.Awaits (names : Nat → String) (c : Disk) (t : Post) : Prop where
  temporary : c.get? (t.place names) = some (.file t.text)
  backup : ∀ dir, c.get? (dir ++ [names t.number ++ ".bak"]) = none

section

variable {names : Nat → String} {b c c' e : Disk} {t : Post}

open DiskM

theorem Disk.SameWays.remove? {path text : String} {p : Place} (h : b.SameWays c)
    (hb : b.IsTree) (htree : c.IsTree) (hp : b.place? path = some p)
    (hslash : Disk.endsWithSlash path = false) (hfile : c.get? p = some (.file text)) :
    ∃ c', c.remove? path = some c' ∧ b.SameWays c' ∧ c'.IsTree ∧ c'.home = c.home ∧
      ∀ r, c'.get? r = if r = p then none else c.get? r := by
  have hnil : p ≠ [] := by
    rintro rfl
    simp [Disk.get?] at hfile
  have hget := Disk.get?_erase (d := c) hnil
  have hways : b.SameWays (c.erase p) := by
    refine h.of_get? (rfl : (c.erase p).home = c.home) fun r => ?_
    by_cases hr : r = p
    · subst hr
      exact .inr ⟨Disk.holdsFile_of_file hfile, Disk.holdsFile_of_eq_none (by simp [hget])⟩
    · simp [hget, hr]
  refine ⟨c.erase p, ?_, hways, hb.of_sameWays hways fun dir name x hx => ?_, rfl, hget⟩
  · simp [Disk.remove?, h.place?_eq, hp, hfile, hslash]
  · rw [hget] at hx
    split at hx
    · contradiction
    · exact h.kept.ways _ _ (htree.parent _ _ _ hx) rfl

theorem Disk.SameWays.rename? {old new text : String} {p q : Place} (h : b.SameWays c)
    (hb : b.IsTree) (htree : c.IsTree) (hp : b.place? old = some p) (hq : b.place? new = some q)
    (hold : Disk.endsWithSlash old = false) (hnew : Disk.endsWithSlash new = false)
    (hfile : c.get? p = some (.file text)) (hfree : c.get? q = none) :
    ∃ c', c.rename? old new = some c' ∧ b.SameWays c' ∧ c'.IsTree ∧ c'.home = c.home ∧
      ∀ r, c'.get? r = if r = q then some (.file text) else if r = p then none else c.get? r := by
  have hne : p ≠ q := by
    rintro rfl
    rw [hfile] at hfree
    contradiction
  have hplace : c.place? new = some q := (h.place?_eq new).trans hq
  have hentry : c.entry? new = none := (Disk.entry?_of_place? hplace hnew).trans hfree
  obtain ⟨dir, name, rfl, hdir⟩ := hb.place? hq
  have hpnil : p ≠ [] := by
    rintro rfl
    simp [Disk.get?] at hfile
  have hget := Disk.get?_move hpnil (by simp) hne (htree.leaf (by simp [hfile]))
  rw [hfile] at hget
  have hways : b.SameWays (c.move p (dir ++ [name])) := by
    refine h.of_get? (rfl : (c.move p (dir ++ [name])).home = c.home) fun r => ?_
    by_cases hrq : r = dir ++ [name]
    · subst hrq
      have hthere : (c.move p (dir ++ [name])).get? (dir ++ [name]) = some (.file text) := by
        simp [hget]
      exact .inr ⟨Disk.holdsFile_of_eq_none hfree, Disk.holdsFile_of_file hthere⟩
    · by_cases hrp : r = p
      · subst hrp
        refine .inr ⟨Disk.holdsFile_of_file hfile, Disk.holdsFile_of_eq_none ?_⟩
        simp [hget, hrq]
      · simp [hget, hrq, hrp]
  refine ⟨c.move p (dir ++ [name]), ?_, hways,
    hb.of_sameWays hways fun dir' name' x hx => ?_, rfl, hget⟩
  · simp [Disk.rename?, h.place?_eq, hp, hq, hfile, hentry, hold, hnew, hne]
  · rw [hget] at hx
    split at hx
    · next heq =>
      obtain ⟨rfl, -⟩ := List.append_inj' heq rfl
      exact hdir
    · split at hx
      · contradiction
      · exact h.kept.ways _ _ (htree.parent _ _ _ hx) rfl

theorem Disk.IsGround.ne_goal (hb : b.IsGround names) (hpath : IsPlain names (components t.path))
    {goal p : Place} (hgoal : b.place? t.path = some goal) (hp : ¬ IsPlain names p) : p ≠ goal := by
  rintro rfl
  exact hp (hb.ways.place? hpath hgoal)

theorem Post.place_ne_backup (h : AreTemporary names) (t : Post) :
    t.place names ≠ t.backup names := by
  intro heq
  have hname : names t.number = names t.number ++ ".bak" := by simpa [place, backup] using heq
  exact h.ne_backup _ _ hname

/-! Commits. -/

theorem DiskM.exec_commit_of_none {s : Staged} (hentry : c.entry? s.path = none)
    (hbackup : s.backup = none) : exec c (commit s) =
      match c.rename? s.temporary s.path with
      | some c' => (.ok { s with isCommitted := true }, c')
      | none => (.error (refused "rename" s.path), c) := by
  cases hrename : c.rename? s.temporary s.path with
  | none => simp [commit, exec_bind, hentry, hrename, hbackup]
  | some c' => simp [commit, exec_bind, exec_map, hentry, hrename]

theorem DiskM.exec_commit_of_some {s : Staged} {x : Entry} (hentry : c.entry? s.path = some x) :
    exec c (commit s) =
      match c.rename? s.path (s.temporary ++ ".bak") with
      | none => (.error (refused "back up" s.path), c)
      | some c₁ =>
        match c₁.rename? s.temporary s.path with
        | some c' =>
          (.ok { s with backup := some (s.temporary ++ ".bak"), isCommitted := true }, c')
        | none =>
          (.error (refused "rename" s.path),
            (c₁.rename? (s.temporary ++ ".bak") s.path).getD c₁) := by
  cases hsave : c.rename? s.path (s.temporary ++ ".bak") with
  | none => simp [commit, exec_bind, hentry, hsave]
  | some c₁ =>
    cases hrename : c₁.rename? s.temporary s.path with
    | none => simp [commit, exec_bind, hentry, hsave, hrename]
    | some c' => simp [commit, exec_bind, exec_map, hentry, hsave, hrename]

theorem Disk.rename?_of_place?_eq_none {old new : String} (h : c.place? new = none) :
    c.rename? old new = none := by
  simp [Disk.rename?, h]

theorem Disk.IsGround.commit (hb : b.IsGround names) (hseats : b.Seats names t)
    (hpath : IsPlain names (components t.path)) (hblocked : ¬ b.IsBlocked t.path)
    (hways : b.SameWays c) (htree : c.IsTree) (hawaits : c.Awaits names t) :
    (∃ s c', exec c (commit (t.staged names)) = (.ok s, c') ∧ Commits names b c t s c' ∧
      b.SameWays c' ∧ c'.IsTree) ∨
    ∃ f, exec c (commit (t.staged names)) = (.error f, c) := by
  have hblocked' := hways.not_isBlocked hblocked
  have hplace := hways.place?_eq t.path
  have htemporary := (hb.temporary.isIn_temporary t).endsWithSlash
  have hbackup := hb.temporary.isIn_backup t
  cases hslash : Disk.endsWithSlash t.path with
  | true =>
    -- a temporary file does not become a directory
    have hrename : c.rename? (t.temporary names) t.path = none := by
      simp [Disk.rename?, hways.place?_eq, hseats.room, hawaits.temporary, hslash]
    have hcommit := exec_commit_of_none (s := t.staged names)
      (Disk.entry?_of_endsWithSlash hslash hblocked') rfl
    simp only [Post.staged, hrename] at hcommit
    exact .inr ⟨_, hcommit⟩
  | false =>
    cases hgoal : b.place? t.path with
    | none =>
      rw [hgoal] at hplace
      cases hentry : c.entry? t.path with
      | none =>
        have hcommit := exec_commit_of_none (s := t.staged names) hentry rfl
        simp only [Post.staged, Disk.rename?_of_place?_eq_none hplace] at hcommit
        exact .inr ⟨_, hcommit⟩
      | some x =>
        have hsave : c.rename? t.path (t.temporary names ++ ".bak") = none := by
          simp [Disk.rename?, hplace]
        have hcommit := exec_commit_of_some (s := t.staged names) hentry
        simp only [Post.staged, hsave] at hcommit
        exact .inr ⟨_, hcommit⟩
    | some goal =>
      rw [hgoal] at hplace
      have hentry := Disk.entry?_of_place? hplace hslash
      rcases Disk.eq_none_or_file_of_not_isBlocked hblocked' with hnone | ⟨old, hold⟩
      · have hfree := hentry.symm.trans hnone
        obtain ⟨c', hrename, hways', htree', hhome, hget⟩ := hways.rename? hb.tree htree
          hseats.room hgoal htemporary hslash hawaits.temporary hfree
        have hcommit := exec_commit_of_none (s := t.staged names) hnone rfl
        simp only [Post.staged, hrename] at hcommit
        exact .inl ⟨_, c', hcommit, .create hgoal hslash hfree hhome hget, hways', htree'⟩
      · have hfile := hentry.symm.trans hold
        have hcommit := exec_commit_of_some (s := t.staged names) hold
        cases hroom : b.place? (t.temporary names ++ ".bak") with
        | none =>
          have hplace' := (hways.place?_eq _).trans hroom
          simp only [Post.staged, Disk.rename?_of_place?_eq_none hplace'] at hcommit
          exact .inr ⟨_, hcommit⟩
        | some q =>
          obtain rfl : q = t.backup names := hbackup.eq_of_place? hseats.there hroom
          have hne := hb.ne_goal hpath hgoal (t.not_isPlain_place names)
          obtain ⟨c₁, hsave, hways₁, htree₁, hhome₁, hget₁⟩ := hways.rename? hb.tree htree hgoal
            hroom hslash hbackup.endsWithSlash hfile (hawaits.backup _)
          have htemporary₁ : c₁.get? (t.place names) = some (.file t.text) := by
            rw [hget₁, if_neg (t.place_ne_backup hb.temporary), if_neg hne, hawaits.temporary]
          have hfree₁ : c₁.get? goal = none := by
            rw [hget₁, if_neg (hb.ne_goal hpath hgoal (t.not_isPlain_backup names)).symm, if_pos rfl]
          obtain ⟨c', hrename, hways', htree', hhome, hget⟩ := hways₁.rename? hb.tree htree₁
            hseats.room hgoal htemporary hslash htemporary₁ hfree₁
          simp only [Post.staged, hsave, hrename] at hcommit
          refine .inl ⟨_, c', hcommit, ?_, hways', htree'⟩
          refine .replace hgoal hslash hfile hroom (hhome.trans hhome₁) fun p => ?_
          rw [hget, hget₁]
          by_cases hp : p = goal
          · simp [hp]
          · simp [hp]

theorem Disk.IsGround.free_of_mem (hb : b.IsGround names) {places : List Place}
    (hplaces : ∀ p ∈ places, ∃ dir i, p = dir ++ [names i]) : ∀ p ∈ places, b.get? p = none := by
  intro p hp
  obtain ⟨dir, i, rfl⟩ := hplaces p hp
  exact hb.free _ (not_isPlain_concat ⟨i, .inl rfl⟩ _)

theorem Commits.undo {s : Staged} {places : List Place} (h : Commits names b c t s c')
    (hb : b.IsGround names) (hpath : IsPlain names (components t.path))
    (hways : b.SameWays c') (htree : c'.IsTree) (hawaits : c.Awaits names t)
    (hplaces : ∀ p ∈ places, ∃ dir i, p = dir ++ [names i]) (hlacks : c'.Lacks e places) :
    ∃ e', exec e (undo s) = (.ok (), e') ∧ c.Lacks e' (t.place names :: places) := by
  have hfrees := hb.free_of_mem hplaces
  have hwaysE := hlacks.sameWays hways hfrees
  have htreeE := hlacks.isTree hways hb.tree htree hfrees
  have hplain : ∀ p, IsPlain names p → p ∉ places := by
    intro p hp hmem
    obtain ⟨dir, i, rfl⟩ := hplaces p hmem
    exact not_isPlain_concat ⟨i, .inl rfl⟩ _ hp
  cases h with
  | @create goal _ hgoal hslash hfree hhome hget =>
    have hgoalPlain := hb.ways.place? hpath hgoal
    have hfile : e.get? goal = some (.file t.text) := by
      rw [hlacks.get?, if_neg (hplain _ hgoalPlain), hget, if_pos rfl]
    obtain ⟨e', hremove, -, -, hhome', hget'⟩ :=
      hwaysE.remove? hb.tree htreeE hgoal hslash hfile
    refine ⟨e', by simp [Files.undo, Post.staged, hremove], ?_, fun p => ?_⟩
    · rw [hhome', hlacks.home, hhome]
    · have hne := hb.ne_goal hpath hgoal (t.not_isPlain_place names)
      rw [hget', hlacks.get?, hget]
      by_cases hp : p = goal
      · subst hp
        simp [hne.symm, hplain p hgoalPlain, hfree]
      · by_cases hp' : p = t.place names
        · simp [hp', hne]
        · simp [hp, hp']
  | @replace goal _ old hgoal hslash hold hbackup hhome hget =>
    have hgoalPlain := hb.ways.place? hpath hgoal
    have hne := hb.ne_goal hpath hgoal (t.not_isPlain_place names)
    have hne' := hb.ne_goal hpath hgoal (t.not_isPlain_backup names)
    have hbackupPlaces : t.backup names ∉ places := by
      intro hmem
      obtain ⟨dir, i, heq⟩ := hplaces _ hmem
      obtain ⟨-, hname⟩ := List.append_inj' heq rfl
      exact hb.temporary.ne_backup i t.number (List.singleton_inj.1 hname).symm
    have hfile : e.get? goal = some (.file t.text) := by
      rw [hlacks.get?, if_neg (hplain _ hgoalPlain), hget, if_pos rfl]
    obtain ⟨e₁, hremove, hways₁, htree₁, hhome₁, hget₁⟩ :=
      hwaysE.remove? hb.tree htreeE hgoal hslash hfile
    have hold₁ : e₁.get? (t.backup names) = some (.file old) := by
      rw [hget₁, if_neg hne', hlacks.get?, if_neg hbackupPlaces, hget, if_neg hne',
        if_neg (t.place_ne_backup hb.temporary).symm, if_pos rfl]
    have hfree₁ : e₁.get? goal = none := by
      rw [hget₁, if_pos rfl]
    obtain ⟨e', hrename, -, -, hhome', hget'⟩ := hways₁.rename? hb.tree htree₁ hbackup hgoal
      (hb.temporary.isIn_backup t).endsWithSlash hslash hold₁ hfree₁
    refine ⟨e', by simp [Files.undo, Post.staged, exec_bind, hremove, hrename], ?_, fun p => ?_⟩
    · rw [hhome', hhome₁, hlacks.home, hhome]
    · rw [hget', hget₁, hlacks.get?, hget]
      by_cases hp : p = goal
      · subst hp
        simp [hne.symm, hplain p hgoalPlain, hold]
      · by_cases hp' : p = t.place names
        · simp [hp', hne]
        · by_cases hp'' : p = t.backup names
          · subst hp''
            simp [(t.place_ne_backup hb.temporary).symm, hbackupPlaces, hne',
              show c.get? (t.backup names) = none from hawaits.backup _]
          · simp [hp, hp', hp'']

theorem Commits.get?_of_ne {s : Staged} {dir : Place} {name : String} {i : Nat}
    (h : Commits names b c t s c') (hb : b.IsGround names)
    (hpath : IsPlain names (components t.path)) (hi : i ≠ t.number)
    (hname : name = names i ∨ name = names i ++ ".bak") :
    c'.get? (dir ++ [name]) = c.get? (dir ++ [name]) := by
  have hplace : dir ++ [name] ≠ t.place names := by
    intro heq
    obtain ⟨-, hlast⟩ := List.append_inj' heq rfl
    rcases hname with rfl | rfl
    · exact hi (hb.temporary.injective _ _ (List.singleton_inj.1 hlast))
    · exact hb.temporary.ne_backup _ _ (List.singleton_inj.1 hlast).symm
  have hbackup : dir ++ [name] ≠ t.backup names := by
    intro heq
    obtain ⟨-, hlast⟩ := List.append_inj' heq rfl
    rcases hname with rfl | rfl
    · exact hb.temporary.ne_backup _ _ (List.singleton_inj.1 hlast)
    · exact hi (hb.temporary.backup_injective (List.singleton_inj.1 hlast))
  cases h with
  | create hgoal hslash hfree hhome hget =>
    have hne := hb.ne_goal hpath hgoal (not_isPlain_concat ⟨i, hname⟩ dir)
    rw [hget, if_neg hne, if_neg hplace]
  | replace hgoal hslash hold hroom hhome hget =>
    have hne := hb.ne_goal hpath hgoal (not_isPlain_concat ⟨i, hname⟩ dir)
    rw [hget, if_neg hne, if_neg hplace, if_neg hbackup]

theorem Commits.awaits {s : Staged} {u : Post} (h : Commits names b c t s c')
    (hb : b.IsGround names) (hpath : IsPlain names (components t.path))
    (hu : u.number ≠ t.number) (hawaits : c.Awaits names u) : c'.Awaits names u where
  temporary := (h.get?_of_ne hb hpath hu (.inl rfl)).trans hawaits.temporary
  backup dir := (h.get?_of_ne hb hpath hu (.inr rfl)).trans (hawaits.backup dir)

inductive Run (names : Nat → String) (b c : Disk) : List Staged → List Post → Disk → Prop
  | nil : Run names b c [] [] c
  | concat {done : List Staged} {posts : List Post} {c₁ c₂ : Disk} {t : Post} {s : Staged}
      (hrun : Run names b c done posts c₁) (hcommits : Commits names b c₁ t s c₂)
      (hpath : IsPlain names (components t.path)) (hways : b.SameWays c₂) (htree : c₂.IsTree)
      (hawaits : c₁.Awaits names t) : Run names b c (done ++ [s]) (posts ++ [t]) c₂

theorem DiskM.exec_rollBack_append (e : Disk) (xs ys : List Staged) :
    exec e (rollBack (xs ++ ys)) =
      match exec e (rollBack ys) with
      | (.ok _, e') => exec e' (rollBack xs)
      | (.error f, e') => (.error f, e') := by
  unfold rollBack
  rw [List.reverse_append, List.forM_eq_forM, List.forM_append, exec_bind]
  cases exec e (forM ys.reverse undo) with
  | mk result e' => cases result <;> rfl

theorem DiskM.exec_rollBack_singleton (e : Disk) (s : Staged) :
    exec e (rollBack [s]) = exec e (undo s) := by
  unfold rollBack
  rw [List.reverse_singleton, List.forM, exec_bind]
  cases hundo : exec e (undo s) with
  | mk result e' => cases result <;> rfl

theorem Run.rollBack {done : List Staged} {posts : List Post} {places : List Place}
    (h : Run names b c done posts c') (hb : b.IsGround names)
    (hplaces : ∀ p ∈ places, ∃ dir i, p = dir ++ [names i]) (hlacks : c'.Lacks e places) :
    ∃ e', exec e (rollBack done) = (.ok (), e') ∧
      c.Lacks e' (posts.map (·.place names) ++ places) := by
  induction h generalizing e places with
  | nil => exact ⟨e, rfl, hlacks⟩
  | @concat done posts c₁ c₂ t s hrun hcommits hpath hways htree hawaits ih =>
    obtain ⟨e₁, hundo, hlacks₁⟩ := hcommits.undo hb hpath hways htree hawaits hplaces hlacks
    have hplaces₁ : ∀ p ∈ t.place names :: places, ∃ dir i, p = dir ++ [names i] := by
      intro p hp
      rcases List.mem_cons.1 hp with rfl | hp
      · exact ⟨t.dir, t.number, rfl⟩
      · exact hplaces p hp
    obtain ⟨e₂, hroll, hlacks₂⟩ := ih hplaces₁ hlacks₁
    refine ⟨e₂, ?_, by simpa using hlacks₂⟩
    rw [exec_rollBack_append, exec_rollBack_singleton, hundo]
    exact hroll

/-! Targets that are not committed. -/

theorem Disk.Seats.undo {places : List Place} (h : b.Seats names t) (hb : b.IsGround names)
    (hways : b.SameWays c) (htree : c.IsTree)
    (htemporary : c.get? (t.place names) = some (.file t.text))
    (hplaces : ∀ p ∈ places, ∃ dir i, p = dir ++ [names i]) (hlacks : c.Lacks e places) :
    ∃ e', exec e (undo (t.staged names)) = (.ok (), e') ∧
      c.Lacks e' (t.place names :: places) := by
  have hfrees := hb.free_of_mem hplaces
  have hwaysE := hlacks.sameWays hways hfrees
  have hget := hlacks.get? (t.place names)
  by_cases hmem : t.place names ∈ places
  · rw [if_pos hmem] at hget
    have hremove : e.remove? (t.temporary names) = none := by
      simp [Disk.remove?, hwaysE.place?_eq, h.room, hget]
    refine ⟨e, by simp [Files.undo, Post.staged, hremove], hlacks.home, fun p => ?_⟩
    rw [hlacks.get?]
    grind
  · rw [if_neg hmem, htemporary] at hget
    obtain ⟨e', hremove, -, -, hhome, hget'⟩ := hwaysE.remove? hb.tree
      (hlacks.isTree hways hb.tree htree hfrees) h.room
      (hb.temporary.isIn_temporary t).endsWithSlash hget
    refine ⟨e', by simp [Files.undo, Post.staged, hremove], hhome.trans hlacks.home, fun p => ?_⟩
    rw [hget', hlacks.get?]
    grind

theorem Disk.rollBack_staged {posts : List Post} {places : List Place} (hb : b.IsGround names)
    (hways : b.SameWays c) (htree : c.IsTree) (hseats : ∀ t ∈ posts, b.Seats names t)
    (htemporary : ∀ t ∈ posts, c.get? (t.place names) = some (.file t.text))
    (hplaces : ∀ p ∈ places, ∃ dir i, p = dir ++ [names i]) (hlacks : c.Lacks e places) :
    ∃ e', exec e (rollBack (posts.map (·.staged names))) = (.ok (), e') ∧
      c.Lacks e' (posts.map (·.place names) ++ places) := by
  induction posts using List.reverseRecOn generalizing e places with
  | nil => exact ⟨e, rfl, hlacks⟩
  | append_singleton posts t ih =>
    obtain ⟨e₁, hundo, hlacks₁⟩ :=
      (hseats t (by simp)).undo hb hways htree (htemporary t (by simp)) hplaces hlacks
    have hplaces₁ : ∀ p ∈ t.place names :: places, ∃ dir i, p = dir ++ [names i] := by
      intro p hp
      rcases List.mem_cons.1 hp with rfl | hp
      · exact ⟨t.dir, t.number, rfl⟩
      · exact hplaces p hp
    obtain ⟨e₂, hroll, hlacks₂⟩ := ih (fun u hu => hseats u (by simp [hu]))
      (fun u hu => htemporary u (by simp [hu])) hplaces₁ hlacks₁
    refine ⟨e₂, ?_, by simpa using hlacks₂⟩
    rw [List.map_append, List.map_singleton, exec_rollBack_append, exec_rollBack_singleton, hundo]
    exact hroll

theorem Run.commitAll {done : List Staged} {posts rest : List Post} {f : Fault}
    (h : Run names b c done posts c') (hb : b.IsGround names) (hways : b.SameWays c')
    (htree : c'.IsTree) (hseats : ∀ t ∈ rest, b.Seats names t)
    (hpaths : ∀ t ∈ rest, IsPlain names (components t.path))
    (hblocked : ∀ t ∈ rest, ¬ b.IsBlocked t.path) (hawaits : ∀ t ∈ rest, c'.Awaits names t)
    (hnumbers : (rest.map (·.number)).Nodup)
    (hfails : exec c' (commitAll done (rest.map (·.staged names))) = (.error f, e)) :
    c.Lacks e ((posts ++ rest).map (·.place names)) := by
  induction rest generalizing c' done posts with
  | nil => simp [Files.commitAll] at hfails
  | cons t rest ih =>
    rw [List.map_cons, List.nodup_cons] at hnumbers
    rw [List.map_cons, Files.commitAll, exec_bind, exec_tryCatch] at hfails
    rcases hb.commit (hseats t (by simp)) (hpaths t (by simp)) (hblocked t (by simp)) hways htree
      (hawaits t (by simp)) with ⟨s, c₁, hcommit, hcommits, hways₁, htree₁⟩ | ⟨g, hcommit⟩
    · rw [hcommit] at hfails
      have hawaits₁ : ∀ u ∈ rest, c₁.Awaits names u := by
        intro u hu
        refine hcommits.awaits hb (hpaths t (by simp)) ?_ (hawaits u (by simp [hu]))
        intro heq
        exact hnumbers.1 (heq ▸ List.mem_map_of_mem hu)
      have hrest := ih (h.concat hcommits (hpaths t (by simp)) hways₁ htree₁ (hawaits t (by simp)))
        hways₁ htree₁ (fun u hu => hseats u (by simp [hu])) (fun u hu => hpaths u (by simp [hu]))
        (fun u hu => hblocked u (by simp [hu])) hawaits₁ hnumbers.2 hfails
      simpa using hrest
    · rw [hcommit] at hfails
      obtain ⟨e₁, hroll₁, hlacks₁⟩ := Disk.rollBack_staged hb hways htree hseats
        (fun u hu => (hawaits u hu).temporary) (by simp) (.refl c')
      rw [List.append_nil] at hlacks₁
      have hplaces : ∀ p ∈ (t :: rest).map (·.place names), ∃ dir i, p = dir ++ [names i] := by
        intro p hp
        obtain ⟨u, -, rfl⟩ := List.mem_map.1 hp
        exact ⟨u.dir, u.number, rfl⟩
      obtain ⟨e₂, hroll₂, hlacks₂⟩ := h.rollBack hb hplaces hlacks₁
      rw [List.map_cons] at hroll₁
      dsimp only at hfails
      rw [exec_bind, exec_rollBack_append, hroll₁] at hfails
      dsimp only at hfails
      rw [hroll₂] at hfails
      cases hfails
      simpa using hlacks₂

end

end RecordCodec.Files
