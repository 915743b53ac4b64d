import RecordCodec.Proofs.Files.Rollback

/-!
This module contains what a replacement of files leaves on a disk when it fails. Staging makes
directories and temporary files, and the rollback takes away the files. So the disk is as it was but
for new directories, provided that these do not change what a target means.
-/

namespace RecordCodec.Files

section

variable {names : Nat → String} {b c c' e : Disk} {t : Post}

open DiskM

/-! Staging. -/

def Disk.makeParents (names : Nat → String) : (number : Nat) → (d : Disk) →
    List (String × String) → Disk
  | _, d, [] => d
  | number, d, (path, _) :: files =>
    let made := d.makeDirectories (parentOf path)
    if (d.entry? path).any Entry.isWay then d
    else if made.2 && (made.1.place? (temporaryPath (parentOf path) (names number))).isSome then
      makeParents names (number + 1) made.1 files
    else made.1

theorem Disk.isBlocked_iff {path : String} :
    b.IsBlocked path ↔ (b.entry? path).any Entry.isWay = true := by
  unfold IsBlocked
  cases b.entry? path with
  | none => simp
  | some x => cases x <;> simp [Entry.isWay]

theorem Disk.makeParents_of_isBlocked {path : String} (h : b.IsBlocked path) (number : Nat)
    (text : String) (files : List (String × String)) :
    b.makeParents names number ((path, text) :: files) = b := by
  rw [makeParents, if_pos (isBlocked_iff.1 h)]

theorem Disk.makeParents_of_not_isBlocked {path : String} (h : ¬ b.IsBlocked path) (number : Nat)
    (text : String) (files : List (String × String)) :
    b.makeParents names number ((path, text) :: files) =
      if (b.makeDirectories (parentOf path)).2 && ((b.makeDirectories (parentOf path)).1.place?
          (temporaryPath (parentOf path) (names number))).isSome then
        (b.makeDirectories (parentOf path)).1.makeParents names (number + 1) files
      else (b.makeDirectories (parentOf path)).1 := by
  rw [makeParents, if_neg (mt isBlocked_iff.2 h)]

def staging (names : Nat → String) (posts : List Post) (p : Place) : Option String :=
  (posts.map fun t => (t.place names, t.text)).lookup p

theorem exists_of_staging {posts : List Post} {p : Place} {text : String}
    (h : staging names posts p = some text) : ∃ t ∈ posts, p = t.place names ∧ t.text = text := by
  obtain ⟨before, after, heq, -⟩ := List.lookup_eq_some_iff.1 h
  have hmem : (p, text) ∈ posts.map fun t => (t.place names, t.text) := by simp [heq]
  obtain ⟨t, ht, hpair⟩ := List.mem_map.1 hmem
  cases hpair
  exact ⟨t, ht, rfl, rfl⟩

theorem staging_place (hnames : AreTemporary names) {posts : List Post}
    (hnumbers : (posts.map (·.number)).Nodup) (ht : t ∈ posts) :
    staging names posts (t.place names) = some t.text := by
  induction posts with
  | nil => contradiction
  | cons u posts ih =>
    rw [List.map_cons, List.nodup_cons] at hnumbers
    rcases List.mem_cons.1 ht with rfl | ht
    · simp [staging]
    · have hne : t.place names ≠ u.place names := by
        intro heq
        obtain ⟨-, hlast⟩ := List.append_inj' heq rfl
        have hnumber := hnames.injective _ _ (List.singleton_inj.1 hlast)
        exact hnumbers.1 (hnumber ▸ List.mem_map_of_mem ht)
      rw [staging, List.map_cons, List.lookup_cons, beq_eq_false_iff_ne.2 hne]
      exact ih hnumbers.2 ht

/--
The disk `c` in the middle of staging: it is `b` with the temporary files of the targets so far, and
`b` is the first disk with the directories that were made for them.
-/
structure HasStaged (names : Nat → String) (d b c : Disk) (posts : List Post) : Prop where
  ground : b.IsGround names
  adds : d.AddsDirectories b
  files : Disk.AddsFiles names (staging names posts) b c
  seats : ∀ t ∈ posts, b.Seats names t
  numbers : posts.map (·.number) = List.range posts.length
  paths : ∀ t ∈ posts, IsPlain names (components t.path)
  free : ∀ t ∈ posts, ¬ d.IsBlocked t.path

end

namespace HasStaged

variable {names : Nat → String} {b b' c c' d e : Disk} {posts : List Post}

open DiskM

theorem nodup (h : HasStaged names d b c posts) : (posts.map (·.number)).Nodup := by
  rw [h.numbers]
  exact List.nodup_range

theorem sameWays (h : HasStaged names d b c posts) : b.SameWays c := by
  have hrefl : b.SameWays b := ⟨.refl b, .refl b⟩
  refine hrefl.of_get? h.files.home fun p => ?_
  by_cases hp : IsPlain names p
  · exact .inl (h.files.plain p hp)
  · refine .inr ⟨Disk.holdsFile_of_eq_none (h.files.free p hp), ?_⟩
    have hextra := h.files.extra p hp
    cases hfile : staging names posts p with
    | none =>
      rw [hfile] at hextra
      exact Disk.holdsFile_of_eq_none hextra
    | some text =>
      rw [hfile] at hextra
      exact Disk.holdsFile_of_file hextra

theorem isTree (h : HasStaged names d b c posts) : c.IsTree := by
  refine h.ground.tree.of_sameWays h.sameWays fun dir name x hx => ?_
  by_cases hp : IsPlain names (dir ++ [name])
  · rw [h.files.plain _ hp] at hx
    exact h.ground.tree.parent _ _ _ hx
  · rw [h.files.extra _ hp] at hx
    obtain ⟨text, hfile, -⟩ := Option.map_eq_some_iff.1 hx
    obtain ⟨t, ht, heq, -⟩ := exists_of_staging hfile
    obtain ⟨rfl, -⟩ := List.append_inj' heq rfl
    exact h.ground.tree.directory? (h.seats t ht).there

theorem awaits (h : HasStaged names d b c posts) {t : Post} (ht : t ∈ posts) :
    c.Awaits names t := by
  refine ⟨?_, fun dir => ?_⟩
  · rw [h.files.extra _ (t.not_isPlain_place names), staging_place h.ground.temporary h.nodup ht]
    rfl
  · rw [h.files.extra _ (not_isPlain_concat ⟨t.number, .inr rfl⟩ dir)]
    cases hfile : staging names posts (dir ++ [names t.number ++ ".bak"]) with
    | none => rfl
    | some text =>
      obtain ⟨u, -, heq, -⟩ := exists_of_staging hfile
      obtain ⟨-, hlast⟩ := List.append_inj' heq rfl
      exact absurd (List.singleton_inj.1 hlast).symm (h.ground.temporary.ne_backup _ _)

theorem addsFiles_of_lacks (h : HasStaged names d b c posts)
    (hlacks : c.Lacks e (posts.map (·.place names))) :
    Disk.AddsFiles names (fun _ => none) b e := by
  refine ⟨hlacks.home.trans h.files.home, fun p hp => ?_, h.files.free, fun p hp => ?_⟩
  · rw [hlacks.get?, if_neg, h.files.plain p hp]
    intro hmem
    obtain ⟨t, -, rfl⟩ := List.mem_map.1 hmem
    exact t.not_isPlain_place names hp
  · rw [hlacks.get?]
    split
    · rfl
    · next hmem =>
      rw [h.files.extra p hp]
      cases hfile : staging names posts p with
      | none => rfl
      | some text =>
        obtain ⟨t, ht, rfl, -⟩ := exists_of_staging hfile
        exact absurd (List.mem_map_of_mem ht) hmem

theorem rollBack (h : HasStaged names d b c posts) :
    ∃ e, exec c (rollBack (posts.map (·.staged names))) = (.ok (), e) ∧
      Disk.AddsFiles names (fun _ => none) b e := by
  obtain ⟨e, hroll, hlacks⟩ := Disk.rollBack_staged h.ground h.sameWays h.isTree h.seats
    (fun t ht => (h.awaits ht).temporary) (by simp) (.refl c)
  rw [List.append_nil] at hlacks
  exact ⟨e, hroll, h.addsFiles_of_lacks hlacks⟩

theorem grow (h : HasStaged names d b c posts) (hb : b'.IsGround names)
    (hadds : b.AddsDirectories b') (hfiles : Disk.AddsFiles names (staging names posts) b' c') :
    HasStaged names d b' c' posts where
  ground := hb
  adds := h.adds.trans hadds
  files := hfiles
  seats t ht := ⟨hadds.keepsWays.directory? (h.seats t ht).there,
    hadds.keepsWays.place? (h.seats t ht).room⟩
  numbers := h.numbers
  paths := h.paths
  free := h.free

theorem staging_eq_none (h : HasStaged names d b c posts) (dir : Place) :
    staging names posts (dir ++ [names posts.length]) = none := by
  cases hfile : staging names posts (dir ++ [names posts.length]) with
  | none => rfl
  | some text =>
    obtain ⟨t, ht, heq, -⟩ := exists_of_staging hfile
    obtain ⟨-, hlast⟩ := List.append_inj' heq rfl
    have hnumber := h.ground.temporary.injective _ _ (List.singleton_inj.1 hlast)
    have hmem : t.number ∈ List.range posts.length := h.numbers ▸ List.mem_map_of_mem ht
    rw [← hnumber, List.mem_range] at hmem
    omega

theorem concat (h : HasStaged names d b c posts) {t : Post} (hnumber : t.number = posts.length)
    (hseats : b.Seats names t) (hpath : IsPlain names (components t.path))
    (hfree : ¬ d.IsBlocked t.path) :
    HasStaged names d b (c.put (t.place names) (.file t.text)) (posts ++ [t]) where
  ground := h.ground
  adds := h.adds
  files := by
    have hget := Disk.get?_put (d := c) (p := t.place names) (by simp [Post.place])
      (.file t.text)
    refine ⟨h.files.home, fun p hp => ?_, h.files.free, fun p hp => ?_⟩
    · rw [hget, if_neg, h.files.plain p hp]
      rintro rfl
      exact t.not_isPlain_place names hp
    · have happend : staging names (posts ++ [t]) p =
          (staging names posts p).or (staging names [t] p) := by
        simp [staging, List.lookup_append]
      rw [hget, happend]
      split
      · next hp =>
        subst hp
        have hnone := h.staging_eq_none t.dir
        rw [← hnumber] at hnone
        rw [Post.place, hnone]
        simp [staging, Post.place]
      · next hne =>
        have hnone : staging names [t] p = none := by
          simp [staging, List.lookup_cons, beq_eq_false_iff_ne.2 hne]
        rw [hnone, Option.or_none]
        exact h.files.extra p hp
  seats u hu := by
    rcases List.mem_append.1 hu with hu | hu
    · exact h.seats u hu
    · rw [List.mem_singleton.1 hu]
      exact hseats
  numbers := by
    rw [List.map_append, h.numbers, List.map_singleton, hnumber, List.length_append,
      List.length_singleton, List.range_succ]
  paths u hu := by
    rcases List.mem_append.1 hu with hu | hu
    · exact h.paths u hu
    · rw [List.mem_singleton.1 hu]
      exact hpath
  free u hu := by
    rcases List.mem_append.1 hu with hu | hu
    · exact h.free u hu
    · rw [List.mem_singleton.1 hu]
      exact hfree

theorem makeDirectories (h : HasStaged names d b c posts) {path : String}
    (hpath : IsPlain names (components path)) :
    ∃ b' c' isThere, b.makeDirectories (parentOf path) = (b', isThere) ∧
      c.makeDirectories (parentOf path) = (c', isThere) ∧ HasStaged names d b' c' posts ∧
      (isThere = true → ∃ q, b'.directory? (parentOf path) = some q) := by
  obtain ⟨hsame, hfiles, hways⟩ :=
    h.files.makeDirectories h.ground.ways (hpath.parentOf h.ground.temporary)
  obtain ⟨rooted, parts, hparts, heq⟩ := exists_parentOf_eq path
  rw [heq] at hsame hfiles hways ⊢
  cases hmake : b.makeDirectories (pathText rooted parts) with
  | mk b' isThere =>
    obtain ⟨htree, hadds, hthere⟩ := Disk.makeDirectories_cases h.ground.tree hparts hmake
    rw [hmake] at hsame hfiles hways
    refine ⟨b', _, isThere, rfl, Prod.ext rfl hsame, ?_, fun h => ?_⟩
    · exact h.grow ⟨h.ground.temporary, htree, hways, hfiles.free⟩ hadds hfiles
    · obtain ⟨q, hq, -⟩ := hthere h
      exact ⟨q, hq⟩

theorem stage (h : HasStaged names d b c posts) {path : String}
    (hpath : IsPlain names (components path)) (text : String) :
    (∃ f b' c', exec c (stage path text (names posts.length)) = (.error f, c') ∧
      HasStaged names d b' c' posts ∧
      ∀ files, b.makeParents names posts.length ((path, text) :: files) = b') ∨
    ∃ t b' c', exec c (stage path text (names posts.length)) = (.ok (t.staged names), c') ∧
      t.path = path ∧ HasStaged names d b' c' (posts ++ [t]) ∧
      ∀ files, b.makeParents names posts.length ((path, text) :: files) =
        b'.makeParents names (posts ++ [t]).length files := by
  by_cases hblocked : c.IsBlocked path
  · obtain ⟨f, hstage⟩ := exec_stage_of_isBlocked text (names posts.length) hblocked
    have hblocked' := h.sameWays.kept.isBlocked hblocked
    exact .inl ⟨f, b, c, hstage, h, Disk.makeParents_of_isBlocked hblocked' _ _⟩
  · have hblocked' : ¬ b.IsBlocked path := fun hb => hblocked (h.sameWays.keeps.isBlocked hb)
    obtain ⟨b₁, c₁, isThere, hmake, hmake', h₁, hthere⟩ := h.makeDirectories hpath
    rw [exec_stage _ _ hblocked, hmake']
    cases isThere with
    | false =>
      refine .inl ⟨_, b₁, c₁, rfl, h₁, fun files => ?_⟩
      simp [Disk.makeParents_of_not_isBlocked hblocked', hmake]
    | true =>
      obtain ⟨q, hq⟩ := hthere rfl
      have hplace := h₁.sameWays.place?_eq (temporaryPath (parentOf path) (names posts.length))
      cases hroom : b₁.place? (temporaryPath (parentOf path) (names posts.length)) with
      | none =>
        have hcreate : c₁.create? (temporaryPath (parentOf path) (names posts.length)) text =
            none := by
          simp [Disk.create?, hplace, hroom]
        refine .inl ⟨refused "create temporary file in" (parentOf path), b₁, c₁, ?_, h₁,
          fun files => ?_⟩
        · simp [hcreate]
        · simp [Disk.makeParents_of_not_isBlocked hblocked', hmake, hroom]
      | some p =>
        have hin := h.ground.temporary.isIn_temporary ⟨posts.length, path, text, q⟩
        obtain rfl := hin.eq_of_place? hq hroom
        have hget : c₁.get? (q ++ [names posts.length]) = none := by
          rw [h₁.files.extra _ (not_isPlain_concat ⟨posts.length, .inl rfl⟩ q),
            h₁.staging_eq_none q]
          rfl
        have hslash : Disk.endsWithSlash (temporaryPath (parentOf path) (names posts.length)) =
            false :=
          hin.endsWithSlash
        have hcreate : c₁.create? (temporaryPath (parentOf path) (names posts.length)) text =
            some (c₁.put (q ++ [names posts.length]) (.file text)) := by
          simp [Disk.create?, hplace, hroom, hget, hslash]
        have hfree : ¬ d.IsBlocked path := fun hd => hblocked' (h.adds.keepsWays.isBlocked hd)
        refine .inr ⟨⟨posts.length, path, text, q⟩, b₁, _, ?_, rfl,
          h₁.concat rfl ⟨hq, hroom⟩ hpath hfree, fun files => ?_⟩
        · simp [hcreate, Post.staged, Post.temporary, Post.place]
        · simp [Disk.makeParents_of_not_isBlocked hblocked', hmake, hroom]

theorem stageAll (h : HasStaged names d b c posts) {files : List (String × String)}
    (hpaths : ∀ file ∈ files, IsPlain names (components file.1)) :
    (∃ f e, exec c (stageAll names (posts.map (·.staged names)) files) = (.error f, e) ∧
      d.AddsDirectories (b.makeParents names posts.length files) ∧
      (b.makeParents names posts.length files).HasPlainWays names ∧
      Disk.AddsFiles names (fun _ => none) (b.makeParents names posts.length files) e) ∨
    ∃ posts' c', exec c (stageAll names (posts.map (·.staged names)) files) =
        (.ok (posts'.map (·.staged names)), c') ∧
      posts'.map (·.path) = posts.map (·.path) ++ files.map Prod.fst ∧
      HasStaged names d (b.makeParents names posts.length files) c' posts' := by
  induction files generalizing b c posts with
  | nil => exact .inr ⟨posts, c, rfl, by simp, h⟩
  | cons file files ih =>
    obtain ⟨path, text⟩ := file
    rw [Files.stageAll, exec_bind, exec_tryCatch, List.length_map]
    rcases h.stage (hpaths _ List.mem_cons_self) text with
      ⟨f, b', c', hstage, h', hparents⟩ | ⟨t, b', c', hstage, rfl, h', hparents⟩
    · obtain ⟨e, hroll, hfiles⟩ := h'.rollBack
      rw [hstage, hparents]
      refine .inl ⟨f, e, ?_, h'.adds, h'.ground.ways, hfiles⟩
      simp [exec_bind, hroll]
    · rw [hstage, hparents]
      have hrest := ih h' fun file hfile => hpaths file (List.mem_cons_of_mem _ hfile)
      simpa using hrest

end HasStaged

/-! Failures. -/

structure AreUnused (names : Nat → String) (d : Disk) (files : List (String × String)) : Prop
    extends AreFresh names d where
  links : ∀ p target, d.get? p = some (.link target) → IsPlain names (components target)
  paths : ∀ file ∈ files, IsPlain names (components file.1)

/--
Whether a disk is as it was before files were replaced: each target means what it meant, nothing but
directories was added, and no temporary file or backup is left.
-/
structure Disk.IsRestored (names : Nat → String) (d d' : Disk) (files : List (String × String)) :
    Prop where
  targets : ∀ file ∈ files, d'.entry? file.1 = d.entry? file.1
  others : d.AddsDirectories d'
  clean : ∀ dir name, IsTemporary names name → d'.get? (dir ++ [name]) = none

section

variable {names : Nat → String} {d d' b : Disk} {files : List (String × String)} {f : Fault}

open DiskM

theorem AreFresh.get?_eq_none (h : AreFresh names d) (htree : d.IsTree) {p : Place}
    (hp : ¬ IsPlain names p) : d.get? p = none := by
  obtain ⟨name, hmem, hname⟩ : ∃ name ∈ p, IsTemporary names name := by
    simpa [IsPlain] using hp
  obtain ⟨before, after, rfl⟩ := List.append_of_mem hmem
  have hfree := h.free before name hname
  rw [List.append_cons]
  by_cases hafter : after = []
  · rw [hafter, List.append_nil, hfree]
  · exact htree.leaf (by simp [hfree]) after hafter

theorem AreUnused.hasStaged (h : AreUnused names d files) (htree : d.IsTree) :
    HasStaged names d d d [] where
  ground := by
    refine ⟨h.temporary, htree, ⟨?_, h.links⟩, fun p hp => h.get?_eq_none htree hp⟩
    by_contra hhome
    have hnone := h.get?_eq_none htree hhome
    rw [htree.home] at hnone
    contradiction
  adds := .refl d
  files := ⟨rfl, fun _ _ => rfl, fun p hp => h.get?_eq_none htree hp,
    fun p hp => h.get?_eq_none htree hp⟩
  seats := by simp
  numbers := rfl
  paths := by simp
  free := by simp

theorem mem_of_mem_writeOrder {file : String × String} (h : file ∈ writeOrder files) :
    file ∈ files := by
  obtain ⟨path, -, hfind⟩ := List.mem_filterMap.1 h
  exact List.mem_reverse.1 (List.mem_of_find?_eq_some hfind)

theorem exec_dropBackups (done : List Staged) (c : Disk) :
    ∃ c', exec c (dropBackups done) = (.ok (), c') := by
  induction done generalizing c with
  | nil => exact ⟨c, rfl⟩
  | cons s done ih =>
    rw [Holds.exec_dropBackups_cons]
    cases hbackup : s.backup with
    | none => simpa [dropBackups, hbackup, List.forM, exec_bind] using ih c
    | some backup =>
      simpa [dropBackups, hbackup, List.forM, exec_bind] using ih ((c.remove? backup).getD c)

theorem isRestored_of_addsFiles (h : AreUnused names d files) (hadds : d.AddsDirectories b)
    (hways : b.HasPlainWays names) (hfiles : Disk.AddsFiles names (fun _ => none) b d')
    (hsame : ∀ file ∈ files, b.entry? file.1 = d.entry? file.1) :
    d.IsRestored names d' files where
  targets file hfile := (hfiles.entry?_eq hways (h.paths file hfile)).trans (hsame file hfile)
  others := by
    refine ⟨hfiles.home.trans hadds.home, fun p => ?_⟩
    have hget : d'.get? p = b.get? p := by
      by_cases hp : IsPlain names p
      · exact hfiles.plain p hp
      · rw [hfiles.extra p hp, hfiles.free p hp]
        rfl
    rw [hget]
    exact hadds.entries p
  clean dir name hname := hfiles.extra _ (not_isPlain_concat hname dir)

theorem isRestored_of_failure (htree : d.IsTree) (hunused : AreUnused names d files)
    (hfails : exec d (replaceFiles names files) = (.error f, d'))
    (hsame : ∀ file ∈ files,
      Disk.entry? (d.makeParents names 0 (writeOrder files)) file.1 = d.entry? file.1) :
    d.IsRestored names d' files := by
  have hpaths : ∀ file ∈ writeOrder files, IsPlain names (components file.1) :=
    fun file hfile => hunused.paths file (mem_of_mem_writeOrder hfile)
  rw [replaceFiles, exec_bind] at hfails
  rcases (hunused.hasStaged htree).stageAll hpaths with
    ⟨g, e, hstage, hadds, hways, hfiles⟩ | ⟨posts, c, hstage, hposts, hstaged⟩
  · rw [List.map_nil] at hstage
    rw [hstage] at hfails
    cases hfails
    exact isRestored_of_addsFiles hunused hadds hways hfiles hsame
  · rw [List.map_nil] at hstage
    rw [hstage] at hfails
    dsimp only at hfails
    rw [exec_bind] at hfails
    have hblocked : ∀ t ∈ posts,
        ¬ (d.makeParents names 0 (writeOrder files)).IsBlocked t.path := by
      intro t ht
      have hmem : t.path ∈ (writeOrder files).map Prod.fst := by
        rw [List.map_nil, List.nil_append] at hposts
        rw [← hposts]
        exact List.mem_map_of_mem ht
      obtain ⟨file, hfile, hpath⟩ := List.mem_map.1 hmem
      have hfree := hstaged.free t ht
      unfold Disk.IsBlocked at hfree ⊢
      rwa [← hpath, ← hsame file (mem_of_mem_writeOrder hfile), hpath] at hfree
    cases hcommit : exec c (commitAll [] (posts.map (·.staged names))) with
    | mk result e =>
      rw [hcommit] at hfails
      cases result with
      | ok done =>
        obtain ⟨e', hdrop⟩ := exec_dropBackups done e
        dsimp only at hfails
        rw [hdrop] at hfails
        cases hfails
      | error g =>
        cases hfails
        have hlacks := Run.nil.commitAll hstaged.ground hstaged.sameWays hstaged.isTree
          hstaged.seats hstaged.paths hblocked (fun t ht => hstaged.awaits ht) hstaged.nodup hcommit
        exact isRestored_of_addsFiles hunused hstaged.adds hstaged.ground.ways
          (hstaged.addsFiles_of_lacks hlacks) hsame

-- where a target is the directory of another one, a temporary file is left below it
example : ((exec {} do
      let staged ← stageAll (fun i => ".leangen-" ++ toString i) [] [("a", "x"), ("a/b", "y")]
      commitAll [] staged).2).get? ["a", ".leangen-1"] = some (.file "y") := by
  decide +kernel

/-! Two spellings of a file, and a target that cannot be there. -/

def spelledDisk : Disk where
  entries := [(["a"], .file "old")]

def spelledFiles : List (String × String) :=
  [("/a", "new"), ("a", "newer"), ("z\x00", "none")]

theorem writeOrder_spelledFiles : writeOrder spelledFiles = spelledFiles := by
  have hsorted : (spelledFiles.map Prod.fst).mergeSort (fun a b => decide (a ≤ b)) =
      spelledFiles.map Prod.fst :=
    List.mergeSort_of_pairwise (by decide)
  unfold writeOrder
  dsimp only
  rw [hsorted]
  decide

theorem areUnused_spelledFiles :
    AreUnused (fun i => ".leangen-" ++ toString i) spelledDisk spelledFiles := by
  have hentries : ∀ entry ∈ spelledDisk.entries, ∀ name ∈ entry.1.getLast?,
      name.toList.head? ≠ some '.' := by decide
  have hpaths : ∀ file ∈ spelledFiles, ∀ part ∈ components file.1,
      part.toList.head? ≠ some '.' := by decide +kernel
  have hlinks : ∀ entry ∈ spelledDisk.entries, ∀ target, entry.2 ≠ .link target := by
    simp [spelledDisk]
  refine ⟨⟨areTemporary_numbered, fun dir name hname => ?_⟩, fun p target hp => ?_,
    fun file hfile part hpart hname => ?_⟩
  · cases hget : spelledDisk.get? (dir ++ [name]) with
    | none => rfl
    | some e =>
      have hmem := Disk.mem_of_get?_append hget
      exact absurd (areTemporary_numbered.head?_eq hname) (hentries _ hmem name (by simp))
  · rcases List.eq_nil_or_concat p with rfl | ⟨dir, name, rfl⟩
    · simp [Disk.get?] at hp
    · rw [List.concat_eq_append] at hp
      exact absurd rfl (hlinks _ (Disk.mem_of_get?_append hp) target)
  · exact hpaths file hfile part hpart (areTemporary_numbered.head?_eq hname)

theorem isRestored_spelledDisk :
    ∃ f d', exec spelledDisk (replaceFiles (fun i => ".leangen-" ++ toString i) spelledFiles) =
        (.error f, d') ∧
      spelledDisk.IsRestored (fun i => ".leangen-" ++ toString i) d' spelledFiles := by
  have hfails : (exec spelledDisk
      (replaceFiles (fun i => ".leangen-" ++ toString i) spelledFiles)).1.isOk = false := by
    rw [replaceFiles, writeOrder_spelledFiles]
    decide +kernel
  have htree : spelledDisk.IsTree := Disk.isTree_of_entries (by decide) (by decide)
  cases hrun : exec spelledDisk
      (replaceFiles (fun i => ".leangen-" ++ toString i) spelledFiles) with
  | mk result d' =>
    rw [hrun] at hfails
    cases result with
    | ok a => simp [Except.isOk, Except.toBool] at hfails
    | error f =>
      refine ⟨f, d', rfl, isRestored_of_failure htree areUnused_spelledFiles hrun ?_⟩
      rw [writeOrder_spelledFiles]
      decide +kernel

end

end RecordCodec.Files
