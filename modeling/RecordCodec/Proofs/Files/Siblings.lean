import RecordCodec.Proofs.Files.Replace

/-!
This module contains the replacement of files that are in one directory. The places of their
temporary files, backups and goals are apart, so the replacement is done as a whole or leaves nothing
but directories.
-/

namespace RecordCodec.Files

theorem Disk.place?_of_not_isPath {path : String} (h : isPath path = false) (c : Disk) :
    c.place? path = none := by
  unfold Disk.place?
  dsimp only
  split
  · rfl
  · simp [h]

theorem Disk.entry?_of_not_isPath {path : String} (h : isPath path = false) (c : Disk) :
    c.entry? path = none := by
  have hstatus : c.status path = .nowhere := by simp [Disk.status, h]
  unfold Disk.entry?
  split <;> simp [Disk.directory?, hstatus, place?_of_not_isPath h]

theorem Disk.leads_of_not_isPath {path : String} (h : isPath path = false) (b : Disk) :
    b.Leads path (b.place? path) where
  place c _ := by rw [place?_of_not_isPath h, place?_of_not_isPath h]
  entry c _ := by rw [place?_of_not_isPath h, entry?_of_not_isPath h, Option.bind_none]
  slash := by simp [place?_of_not_isPath h]
  parent := by simp [place?_of_not_isPath h]

theorem IsIn.leads {b : Disk} {path dir name : String} {base : Place} (h : IsIn path dir name)
    (htree : b.IsTree) (hdir : b.directory? dir = some base) : b.Leads path (b.place? path) where
  place c hc := by rw [h.place? hdir, h.place? (hc.directory? hdir)]
  entry c hc := by rw [h.entry?_eq, h.place? hdir, h.place? (hc.directory? hdir)]
  slash _ := h.endsWithSlash
  parent p hp := by
    rw [h.place? hdir] at hp
    split at hp
    · exact ⟨base, name, (Option.some.inj hp).symm, htree.directory? hdir⟩
    · contradiction

theorem IsIn.eq_of_place? {b : Disk} {path dir name : String} {base p : Place}
    (h : IsIn path dir name) (hdir : b.directory? dir = some base) (hp : b.place? path = some p) :
    p = base ++ [name] := by
  rw [h.place? hdir] at hp
  split at hp
  · exact (Option.some.inj hp).symm
  · contradiction

def IsTemporary (names : Nat → String) (name : String) : Prop :=
  ∃ i, name = names i ∨ name = names i ++ ".bak"

structure AreTemporary (names : Nat → String) : Prop where
  form : ∀ i, ∃ n : Nat, names i = ".leangen-" ++ toString n
  injective : ∀ i j, names i = names j → i = j

namespace AreTemporary

variable {names : Nat → String}

theorem toList_eq (h : AreTemporary names) (i : Nat) :
    ∃ ds : List Char, (∀ c ∈ ds, c.isDigit = true) ∧ ds ≠ [] ∧
      (names i).toList = ".leangen-".toList ++ ds := by
  obtain ⟨n, hn⟩ := h.form i
  refine ⟨Nat.toDigits 10 n, ?_, Nat.toDigits_ne_nil, ?_⟩
  · intro c hc
    exact Nat.isDigit_of_mem_toDigits (by decide) (by decide) hc
  · rw [hn, String.toList_append, Nat.toString_eq_ofList_toDigits, String.toList_ofList,
      String.toList_ofList]

theorem isEntryName_append (h : AreTemporary names) (i : Nat) {rest : String}
    (hrest : '/' ∉ rest.toList) : IsEntryName (names i ++ rest) := by
  obtain ⟨ds, hds, -, heq⟩ := h.toList_eq i
  have hlist : (names i ++ rest).toList = ".leangen-".toList ++ ds ++ rest.toList := by
    rw [String.toList_append, heq]
  have hne : ∀ text : String, text.toList.length < 9 → names i ++ rest ≠ text := by
    rintro text hlength rfl
    rw [hlist] at hlength
    simp at hlength
    omega
  refine ⟨hne _ (by decide), hne _ (by decide), hne _ (by decide), ?_⟩
  rw [hlist, List.mem_append, List.mem_append]
  rintro ((hmem | hmem) | hmem)
  · exact absurd hmem (by decide)
  · exact absurd (hds _ hmem) (by decide)
  · exact hrest hmem

theorem isEntryName (h : AreTemporary names) (i : Nat) : IsEntryName (names i) := by
  rw [← String.append_empty (s := names i)]
  exact h.isEntryName_append i (by decide)

theorem head?_eq (h : AreTemporary names) {name : String} (hname : IsTemporary names name) :
    name.toList.head? = some '.' := by
  obtain ⟨i, rfl | rfl⟩ := hname
  · obtain ⟨ds, -, -, heq⟩ := h.toList_eq i
    rw [heq]
    rfl
  · obtain ⟨ds, -, -, heq⟩ := h.toList_eq i
    rw [String.toList_append, heq]
    rfl

theorem exists_getLast? (h : AreTemporary names) (i : Nat) :
    ∃ c, (names i).toList.getLast? = some c ∧ c.isDigit = true := by
  obtain ⟨ds, hds, hne, heq⟩ := h.toList_eq i
  refine ⟨ds.getLast hne, ?_, hds _ (List.getLast_mem hne)⟩
  rw [heq, List.getLast?_append, List.getLast?_eq_some_getLast hne]
  rfl

theorem getLast?_backup (i : Nat) : (names i ++ ".bak").toList.getLast? = some 'k' := by
  rw [String.toList_append, List.getLast?_append]
  rfl

theorem ne_backup (h : AreTemporary names) (i j : Nat) : names i ≠ names j ++ ".bak" := by
  intro heq
  obtain ⟨c, hc, hdigit⟩ := h.exists_getLast? i
  rw [heq, getLast?_backup] at hc
  cases hc
  contradiction

theorem backup_injective (h : AreTemporary names) {i j : Nat}
    (heq : names i ++ ".bak" = names j ++ ".bak") : i = j := by
  apply h.injective
  have hlist := congrArg String.toList heq
  rw [String.toList_append, String.toList_append] at hlist
  exact String.toList_inj.1 (List.append_cancel_right hlist)

end AreTemporary

theorem areTemporary_numbered : AreTemporary fun i => ".leangen-" ++ toString i := by
  refine ⟨fun i => ⟨i, rfl⟩, fun i j heq => ?_⟩
  have hlist := congrArg String.toList heq
  rw [String.toList_append, String.toList_append] at hlist
  have hdigits := List.append_cancel_left hlist
  rw [Nat.toString_eq_ofList_toDigits, Nat.toString_eq_ofList_toDigits, String.toList_ofList,
    String.toList_ofList] at hdigits
  rw [← Nat.ofDigitChars_ten_toDigits (n := i), hdigits, Nat.ofDigitChars_ten_toDigits]

def Target.beside (b : Disk) (dir name : String) (file : String × String) : Target where
  path := file.1
  temporary := temporaryPath dir name
  old := match (b.place? file.1).bind b.get? with
    | some (.file text) => some text
    | _ => none
  text := file.2
  place
    | .temporary => b.place? (temporaryPath dir name)
    | .backup => b.place? (temporaryPath dir name ++ ".bak")
    | .goal => b.place? file.1

def IsUsable (names : Nat → String) (dir path : String) : Prop :=
  (∃ name, IsIn path dir name ∧ ¬ IsTemporary names name) ∨ Disk.isPath path = false

def Sits (names : Nat → String) (dir path : String) : Prop :=
  IsUsable names dir path ∨ ∀ c : Disk, c.IsTree → c.entry? path = some .directory

structure Siblings (names : Nat → String) (dir : String) (files : List (String × String)) :
    Prop where
  parent : ∀ file ∈ files, parentOf file.1 = dir
  sits : ∀ file ∈ files, Sits names dir file.1
  apart : files.Pairwise fun f g => ∀ name, IsIn f.1 dir name → ¬ IsIn g.1 dir name

structure Workplace (names : Nat → String) (b : Disk) (dir : String) : Prop where
  temporary : AreTemporary names
  tree : b.IsTree
  path : ∃ rooted parts, IsResolved rooted parts ∧ dir = pathText rooted parts
  there : ∃ p, b.directory? dir = some p ∧
    ∀ name, IsTemporary names name → b.get? (p ++ [name]) = none

namespace Workplace

variable {names : Nat → String} {b c : Disk} {dir : String} {file : String × String} {k : Nat}

open DiskM

theorem ne_empty (h : Workplace names b dir) : dir ≠ "" := by
  obtain ⟨rooted, parts, hparts, rfl⟩ := h.path
  exact pathText_ne_empty hparts

theorem isIn_temporary (h : Workplace names b dir) (k : Nat) :
    IsIn (temporaryPath dir (names k)) dir (names k) :=
  isIn_append h.ne_empty (h.temporary.isEntryName k)

theorem isIn_backup (h : Workplace names b dir) (k : Nat) :
    IsIn (temporaryPath dir (names k) ++ ".bak") dir (names k ++ ".bak") := by
  have happend : temporaryPath dir (names k) ++ ".bak" = dir ++ "/" ++ (names k ++ ".bak") := by
    simp [temporaryPath, String.append_assoc]
  rw [happend]
  exact isIn_append h.ne_empty (h.temporary.isEntryName_append k (by decide))

theorem leads (h : Workplace names b dir) (hfile : IsUsable names dir file.1) (i : Slot) :
    b.Leads ((Target.beside b dir (names k) file).pathAt i)
      ((Target.beside b dir (names k) file).place i) := by
  obtain ⟨p, hp, -⟩ := h.there
  cases i with
  | temporary => exact (h.isIn_temporary k).leads h.tree hp
  | backup => exact (h.isIn_backup k).leads h.tree hp
  | goal =>
    rcases hfile with ⟨name, hname, -⟩ | hpath
    · exact hname.leads h.tree hp
    · exact Disk.leads_of_not_isPath hpath b

end Workplace

def Slot.Named (names : Nat → String) (dir : String) (k : Nat) (path name : String) : Slot → Prop
  | .temporary => name = names k
  | .backup => name = names k ++ ".bak"
  | .goal => IsIn path dir name ∧ ¬ IsTemporary names name

theorem AreTemporary.named_inj {names : Nat → String} (h : AreTemporary names) {dir : String}
    {k l : Nat} {path other name : String} {i j : Slot} (hi : i.Named names dir k path name)
    (hj : j.Named names dir l other name) : i = j ∧ (i = .goal ∨ k = l) := by
  cases i <;> cases j <;> simp only [Slot.Named] at hi hj
  case temporary.temporary => exact ⟨rfl, .inr (h.injective _ _ (hi.symm.trans hj))⟩
  case temporary.backup => exact absurd (hi.symm.trans hj) (h.ne_backup _ _)
  case temporary.goal => exact absurd ⟨k, .inl hi⟩ hj.2
  case backup.temporary => exact absurd (hj.symm.trans hi) (h.ne_backup _ _)
  case backup.backup => exact ⟨rfl, .inr (h.backup_injective (hi.symm.trans hj))⟩
  case backup.goal => exact absurd ⟨k, .inr hi⟩ hj.2
  case goal.temporary => exact absurd ⟨l, .inl hj⟩ hi.2
  case goal.backup => exact absurd ⟨l, .inr hj⟩ hi.2
  case goal.goal => exact ⟨rfl, .inl rfl⟩

namespace Workplace

variable {names : Nat → String} {b c : Disk} {dir : String} {file other : String × String}
  {k l : Nat} {base p : Place} {i : Slot}

open DiskM

theorem exists_name (h : Workplace names b dir) (hdir : b.directory? dir = some base)
    (hfile : IsUsable names dir file.1)
    (hp : (Target.beside b dir (names k) file).place i = some p) :
    ∃ name, p = base ++ [name] ∧ i.Named names dir k file.1 name := by
  cases i with
  | temporary => exact ⟨names k, (h.isIn_temporary k).eq_of_place? hdir hp, rfl⟩
  | backup => exact ⟨names k ++ ".bak", (h.isIn_backup k).eq_of_place? hdir hp, rfl⟩
  | goal =>
    rcases hfile with ⟨name, hname, htemporary⟩ | hpath
    · exact ⟨name, hname.eq_of_place? hdir hp, hname, htemporary⟩
    · have hnone := Disk.place?_of_not_isPath hpath b
      rw [Target.beside] at hp
      dsimp only at hp
      rw [hnone] at hp
      contradiction

theorem exists_common_name (h : Workplace names b dir) (hfile : IsUsable names dir file.1)
    (hother : IsUsable names dir other.1) {j : Slot}
    (hi : (Target.beside b dir (names k) file).place i = some p)
    (hj : (Target.beside b dir (names l) other).place j = some p) :
    ∃ name, i.Named names dir k file.1 name ∧ j.Named names dir l other.1 name := by
  obtain ⟨base, hdir, -⟩ := h.there
  obtain ⟨name, rfl, hnamed⟩ := h.exists_name hdir hfile hi
  obtain ⟨name', heq, hnamed'⟩ := h.exists_name hdir hother hj
  obtain rfl : name = name' := by simpa using heq
  exact ⟨name, hnamed, hnamed'⟩

theorem apart (h : Workplace names b dir) (hfile : IsUsable names dir file.1)
    (hother : IsUsable names dir other.1) (hkl : k ≠ l)
    (hnames : ∀ name, IsIn file.1 dir name → ¬ IsIn other.1 dir name) (p : Place)
    (hp : (Target.beside b dir (names k) file).Has p) :
    ¬ (Target.beside b dir (names l) other).Has p := by
  rintro ⟨j, hj⟩
  obtain ⟨i, hi⟩ := hp
  obtain ⟨name, hnamed, hnamed'⟩ := h.exists_common_name hfile hother hi hj
  obtain ⟨rfl, rfl | hkl'⟩ := h.temporary.named_inj hnamed hnamed'
  · exact hnames _ hnamed.1 hnamed'.1
  · exact hkl hkl'

theorem fits (h : Workplace names b dir) (hfile : IsUsable names dir file.1)
    (hplace : (b.place? (temporaryPath dir (names k))).isSome)
    (hblocked : ¬ b.IsBlocked file.1) :
    (Target.beside b dir (names k) file).Fits b := by
  obtain ⟨base, hdir, hfree⟩ := h.there
  have hentry := (h.leads (k := k) hfile .goal).entry b (.refl _)
  refine ⟨h.leads hfile, ?_, ?_, hplace, ?_⟩
  · intro i j p hi hj
    obtain ⟨name, hnamed, hnamed'⟩ := h.exists_common_name hfile hfile hi hj
    exact (h.temporary.named_inj hnamed hnamed').1
  · intro i p hp
    obtain ⟨name, rfl, hnamed⟩ := h.exists_name hdir hfile hp
    cases i with
    | temporary => exact hfree name ⟨k, .inl hnamed⟩
    | backup => exact hfree name ⟨k, .inr hnamed⟩
    | goal =>
      simp only [Target.beside, Target.pathAt] at hp hentry
      simp only [Target.untouched, Target.beside, hp, Option.bind_some] at hentry ⊢
      cases hget : b.get? (base ++ [name]) with
      | none => rfl
      | some e =>
        cases e with
        | directory => exact absurd (.inl (hentry.trans hget)) hblocked
        | file text => rfl
        | link target => exact absurd (.inr ⟨target, hentry.trans hget⟩) hblocked
  · intro hnone
    simp only [Target.beside] at hnone ⊢
    rw [hnone]
    rfl

theorem makeDirectories (h : Workplace names b dir) (htree : c.IsTree) (hways : b.KeepsWays c) :
    c.makeDirectories dir = (c, true) := by
  obtain ⟨rooted, parts, hparts, rfl⟩ := h.path
  obtain ⟨base, hdir, -⟩ := h.there
  exact Disk.makeDirectories_of_directory htree hparts (hways.directory? hdir)

theorem stage (h : Workplace names b dir) {xs : List (Target × Contents)} (hxs : Holds b c xs)
    (hparent : parentOf file.1 = dir) (hsits : Sits names dir file.1)
    (hapart : IsUsable names dir file.1 → ∀ x ∈ xs, ∀ p, x.1.Has p →
      ¬ (Target.beside b dir (names k) file).Has p) :
    (∃ f, exec c (stage file.1 file.2 (names k)) = (.error f, c)) ∨
    IsUsable names dir file.1 ∧
      ∃ c', exec c (stage file.1 file.2 (names k)) =
          (.ok ((Target.beside b dir (names k) file).record false), c') ∧
        Holds b c' (xs ++ [(Target.beside b dir (names k) file,
          (Target.beside b dir (names k) file).staged)]) := by
  rcases hsits with hfile | hdirectory
  · have hways := hxs.keepsWays
    have hgoal := h.leads (k := k) hfile .goal
    have hentry : c.entry? file.1 = b.entry? file.1 := by
      have hc := hgoal.entry c hways
      have hb := hgoal.entry b (.refl _)
      refine hc.trans (Eq.trans ?_ hb.symm)
      cases hplace : (Target.beside b dir (names k) file).place .goal with
      | none => rfl
      | some p => exact hxs.outside p fun x hx hhas => hapart hfile x hx p hhas ⟨.goal, hplace⟩
    by_cases hblocked : c.IsBlocked file.1
    · exact .inl (exec_stage_of_isBlocked _ _ hblocked)
    · have htemporary := (h.leads (k := k) hfile .temporary).place c hways
      rw [exec_stage _ _ hblocked, hparent, h.makeDirectories hxs.isTree hways]
      dsimp only
      cases hplace : b.place? (temporaryPath dir (names k)) with
      | none =>
        left
        simp only [Target.pathAt, Target.beside, hplace] at htemporary
        simp [Disk.create?, htemporary]
      | some p =>
        rw [Disk.IsBlocked, hentry] at hblocked
        have hadd := hxs.add (h.fits hfile (by simp [hplace]) hblocked) (hapart hfile)
        obtain ⟨c', hcreate, hc'⟩ := hadd.create? (i := .temporary) hplace rfl
          (w := (Target.beside b dir (names k) file).staged) (u := file.2)
          (by intro j; cases j <;> rfl)
        refine .inr ⟨hfile, c', ?_, hc'⟩
        simp only [Target.pathAt, Target.beside] at hcreate
        rw [hcreate]
        rfl
  · exact .inl (exec_stage_of_isBlocked _ _ (.inl (hdirectory c hxs.isTree)))

def targets (names : Nat → String) (b : Disk) (dir : String) (files : List (String × String)) :
    List Target :=
  files.mapIdx fun k file => .beside b dir (names k) file

@[simp]
theorem targets_nil : targets names b dir [] = [] :=
  rfl

theorem targets_concat (files : List (String × String)) (file : String × String) :
    targets names b dir (files ++ [file]) =
      targets names b dir files ++ [.beside b dir (names files.length) file] := by
  simp [targets, List.mapIdx_append]

theorem exists_of_mem_targets {t : Target} {files : List (String × String)}
    (ht : t ∈ targets names b dir files) :
    ∃ k file, k < files.length ∧ file ∈ files ∧ t = .beside b dir (names k) file := by
  obtain ⟨k, hk, rfl⟩ := List.mem_mapIdx.1 ht
  exact ⟨k, _, hk, List.getElem_mem hk, rfl⟩

theorem stageAll (h : Workplace names b dir) (done rest : List (String × String))
    (hfiles : Siblings names dir (done ++ rest)) (hdone : ∀ file ∈ done, IsUsable names dir file.1)
    (hc : Holds b c ((targets names b dir done).map fun t => (t, t.staged))) :
    (∃ c', exec c (stageAll names ((targets names b dir done).map (·.record false)) rest) =
        (.ok ((targets names b dir (done ++ rest)).map (·.record false)), c') ∧
      (∀ file ∈ done ++ rest, IsUsable names dir file.1) ∧
      Holds b c' ((targets names b dir (done ++ rest)).map fun t => (t, t.staged))) ∨
    ∃ f c', exec c (stageAll names ((targets names b dir done).map (·.record false)) rest) =
        (.error f, c') ∧ c'.home = b.home ∧ ∀ p, c'.get? p = b.get? p := by
  induction rest generalizing c done with
  | nil =>
    rw [List.append_nil]
    exact .inl ⟨c, rfl, hdone, hc⟩
  | cons file rest ih =>
    have happend : done ++ file :: rest = done ++ [file] ++ rest := by simp
    have hmem : file ∈ done ++ file :: rest := by simp
    have hlength : ((targets names b dir done).map (·.record false)).length = done.length := by
      simp [targets]
    have hapart : IsUsable names dir file.1 →
        ∀ x ∈ (targets names b dir done).map (fun t => (t, t.staged)), ∀ p, x.1.Has p →
          ¬ (Target.beside b dir (names done.length) file).Has p := by
      intro hfile x hx p hp
      obtain ⟨t, ht, rfl⟩ := List.mem_map.1 hx
      obtain ⟨k, other, hk, hother, rfl⟩ := exists_of_mem_targets ht
      refine h.apart (hdone other hother) hfile (Nat.ne_of_lt hk) ?_ p hp
      exact (List.pairwise_append.1 hfiles.apart).2.2 other hother file (List.mem_cons_self ..)
    rw [Files.stageAll, exec_bind, exec_tryCatch, hlength]
    rcases h.stage hc (hfiles.parent file hmem) (hfiles.sits file hmem) hapart with
      ⟨f, hstage⟩ | ⟨hfile, c', hstage, hc'⟩
    · rw [hstage]
      dsimp only
      let xs := (targets names b dir done).map (·, false)
      have hxs : Holds b c (xs.map Target.withContents) := by
        simpa [xs, Target.withContents, Target.contents, Function.comp_def] using hc
      have hrecords : xs.map (fun x => x.1.record x.2) =
          (targets names b dir done).map (·.record false) := by
        simp [xs, Function.comp_def]
      obtain ⟨c', hroll, hc'⟩ := hxs.rollBack_throw (by simp [xs]) f (α := Staged)
      rw [hrecords] at hroll
      rw [hroll]
      exact .inr ⟨f, c', rfl, hc'⟩
    · rw [hstage]
      dsimp only
      have hrecords : (targets names b dir done).map (·.record false) ++
            [(Target.beside b dir (names done.length) file).record false] =
          (targets names b dir (done ++ [file])).map (·.record false) := by
        simp [targets_concat]
      rw [hrecords, happend]
      apply ih
      · rw [← happend]
        exact hfiles
      · intro other hother
        rcases List.mem_append.1 hother with hother | hother
        · exact hdone other hother
        · rw [List.mem_singleton.1 hother]
          exact hfile
      · simpa [targets_concat] using hc'

theorem replaceFiles (h : Workplace names b dir) {files : List (String × String)}
    (hfiles : Siblings names dir (writeOrder files)) :
    (∃ f c, exec b (replaceFiles names files) = (.error f, c) ∧ c.home = b.home ∧
      ∀ p, c.get? p = b.get? p) ∨
    ∃ c, exec b (replaceFiles names files) = (.ok (), c) ∧
      (∀ file ∈ writeOrder files, IsUsable names dir file.1) ∧
      (∀ t ∈ targets names b dir (writeOrder files), t.HasRoom) ∧
      Holds b c ((targets names b dir (writeOrder files)).map fun t => (t, t.finished)) := by
  have hstart : Holds b b ((targets names b dir []).map fun t => (t, t.staged)) :=
    ⟨h.tree, by simp, .nil, rfl, by simp, fun _ _ => rfl⟩
  have hstages := h.stageAll [] (writeOrder files) hfiles (by simp) hstart
  simp only [targets_nil, List.map_nil, List.nil_append] at hstages
  rw [Files.replaceFiles, exec_bind]
  rcases hstages with ⟨c₁, hstage, husable, hc₁⟩ | ⟨f, c, hstage, hc⟩
  · rw [hstage]
    dsimp only
    rw [exec_bind]
    have hcommits := Holds.commitAll [] hc₁ (by simp)
    simp only [List.map_nil, List.nil_append] at hcommits
    rcases hcommits with ⟨c₂, hcommit, hroom, hc₂⟩ | ⟨f, c, hcommit, hc⟩
    · rw [hcommit]
      obtain ⟨c₃, hdrop, hc₃⟩ := Holds.dropBackups [] hc₂ hroom
      exact .inr ⟨c₃, hdrop, husable, hroom, hc₃⟩
    · rw [hcommit]
      exact .inl ⟨f, c, rfl, hc⟩
  · rw [hstage]
    exact .inl ⟨f, c, rfl, hc⟩

end Workplace

/-! The first file. -/

structure Disk.Replaces (d d' : Disk) (files : List (String × String)) : Prop where
  home : d'.home = d.home
  written : ∀ file ∈ files, d'.entry? file.1 = some (.file file.2) ∧ d'.read? file.1 = some file.2
  others : ∀ p, (∃ file ∈ files, d'.place? file.1 = some p ∧ d'.get? p = some (.file file.2)) ∨
    d'.get? p = d.get? p ∨ d.get? p = none ∧ d'.get? p = some .directory

def Disk.IsClean (names : Nat → String) (d : Disk) : Prop :=
  ∀ dir name e, IsTemporary names name → d.get? (dir ++ [name]) = some e → e = .directory

structure AreFresh (names : Nat → String) (d : Disk) : Prop where
  temporary : AreTemporary names
  free : ∀ dir name, IsTemporary names name → d.get? (dir ++ [name]) = none

section

variable {names : Nat → String} {d : Disk} {rooted : Bool} {parts : List String}
  {file : String × String} {files : List (String × String)}

open DiskM

theorem AreFresh.stage_first (h : AreFresh names d) (htree : d.IsTree)
    (hparts : IsResolved rooted parts) (hparent : parentOf file.1 = pathText rooted parts)
    (hsits : Sits names (pathText rooted parts) file.1) (name : String) :
    (∃ f d', exec d (stage file.1 file.2 name) = (.error f, d') ∧ d.AddsDirectories d') ∨
    ∃ b, d.AddsDirectories b ∧ Workplace names b (pathText rooted parts) ∧
      exec d (stage file.1 file.2 name) = exec b (stage file.1 file.2 name) := by
  by_cases hblocked : d.IsBlocked file.1
  · obtain ⟨f, hstage⟩ := exec_stage_of_isBlocked file.2 name hblocked
    exact .inl ⟨f, d, hstage, .refl d⟩
  · rw [exec_stage _ _ hblocked, hparent]
    cases hmake : d.makeDirectories (pathText rooted parts) with
    | mk b isThere =>
      obtain ⟨htree', hadds, hthere⟩ := Disk.makeDirectories_cases htree hparts hmake
      cases isThere with
      | false => exact .inl ⟨_, b, rfl, hadds⟩
      | true =>
        obtain ⟨p, hp, hmakes⟩ := hthere rfl
        have hplace : Workplace names b (pathText rooted parts) := by
          refine ⟨h.temporary, htree', ⟨rooted, parts, hparts, rfl⟩, p, hp, fun name hname => ?_⟩
          rcases hmakes with rfl | ⟨hempty, -⟩
          · exact h.free p name hname
          · exact hempty [name] (by simp)
        refine .inr ⟨b, hadds, hplace, ?_⟩
        have hblocked' : ¬ b.IsBlocked file.1 := by
          rcases hmakes with rfl | ⟨hempty, -⟩
          · exact hblocked
          · have hnone : b.entry? file.1 = none := by
              rcases hsits with (⟨name, hname, -⟩ | hpath) | hdirectory
              · rw [hname.entry?_eq, hname.place? hp]
                split
                · exact hempty [name] (by simp)
                · rfl
              · exact Disk.entry?_of_not_isPath hpath b
              · exact absurd (.inl (hdirectory d htree)) hblocked
            simp [Disk.IsBlocked, hnone]
        rw [exec_stage _ _ hblocked', hparent, hplace.makeDirectories htree' (.refl _)]

theorem AreFresh.isClean {d' : Disk} (h : AreFresh names d) (hadds : d.AddsDirectories d') :
    d'.IsClean names := by
  intro dir name e hname he
  rcases hadds.entries (dir ++ [name]) with heq | ⟨-, heq⟩
  · rw [heq, h.free dir name hname] at he
    contradiction
  · rw [heq] at he
    exact (Option.some.inj he).symm

theorem Workplace.replaces {b c : Disk} {dir : String} (h : Workplace names b dir)
    (hadds : d.AddsDirectories b) (hfiles : ∀ file ∈ files, IsUsable names dir file.1)
    (hroom : ∀ t ∈ targets names b dir files, t.HasRoom)
    (hc : Holds b c ((targets names b dir files).map fun t => (t, t.finished))) :
    d.Replaces c files := by
  obtain ⟨base, hdir, -⟩ := h.there
  have hdir' := hc.keepsWays.directory? hdir
  have hat : ∀ t ∈ targets names b dir files, t.Fits b ∧ t.At c t.finished := fun t ht =>
    ⟨hc.fits (t, t.finished) (List.mem_map_of_mem ht),
      hc.inside (t, t.finished) (List.mem_map_of_mem ht)⟩
  refine ⟨hc.home.trans hadds.home, fun file hfile => ?_, fun p => ?_⟩
  · obtain ⟨k, hk, rfl⟩ := List.getElem_of_mem hfile
    have ht : Target.beside b dir (names k) files[k] ∈ targets names b dir files :=
      List.mem_mapIdx.2 ⟨k, hk, rfl⟩
    obtain ⟨p, hp⟩ := Option.isSome_iff_exists.1 (hroom _ ht).1
    obtain ⟨hfits, hcontents⟩ := hat _ ht
    have hplace : c.place? files[k].1 = some p :=
      ((hfits.leads .goal).place c hc.keepsWays).trans hp
    rcases hfiles _ hfile with ⟨name, hname, -⟩ | hpath
    · have hget := hcontents .goal p hp
      refine ⟨?_, hname.read? hdir' hplace hget⟩
      rw [hname.entry?_eq, hplace]
      exact hget
    · rw [Disk.place?_of_not_isPath hpath] at hplace
      contradiction
  · by_cases hhas : ∃ t ∈ targets names b dir files, t.Has p
    · obtain ⟨t, ht, i, hi⟩ := hhas
      obtain ⟨hfits, hcontents⟩ := hat t ht
      have hget := hcontents i p hi
      have hstart := hfits.start i p hi
      cases i with
      | goal =>
        obtain ⟨k, file, -, hfile, rfl⟩ := exists_of_mem_targets ht
        exact .inl ⟨file, hfile, ((hfits.leads .goal).place c hc.keepsWays).trans hi, hget⟩
      | _ =>
        right
        rw [hget.trans hstart.symm]
        exact hadds.entries p
    · right
      rw [hc.outside p (by simpa using hhas)]
      exact hadds.entries p

theorem Workplace.isClean {b c : Disk} {dir : String} (h : Workplace names b dir)
    (hclean : b.IsClean names) (hfiles : ∀ file ∈ files, IsUsable names dir file.1)
    (hc : Holds b c ((targets names b dir files).map fun t => (t, t.finished))) :
    c.IsClean names := by
  intro dir' name e hname he
  by_cases hhas : ∃ t ∈ targets names b dir files, t.Has (dir' ++ [name])
  · obtain ⟨t, ht, i, hi⟩ := hhas
    have hget := hc.inside (t, t.finished) (List.mem_map_of_mem ht) i _ hi
    obtain ⟨base, hdir, -⟩ := h.there
    obtain ⟨k, file, -, hfile, rfl⟩ := exists_of_mem_targets ht
    obtain ⟨name', heq, hnamed⟩ := h.exists_name hdir (hfiles file hfile) hi
    obtain ⟨-, heq⟩ := List.append_inj' heq rfl
    cases i with
    | goal =>
      rw [← List.singleton_inj.1 heq] at hnamed
      exact absurd hname hnamed.2
    | _ =>
      rw [hget] at he
      contradiction
  · rw [hc.outside _ (by simpa using hhas)] at he
    exact hclean dir' name e hname he

theorem AreFresh.replaceFiles (h : AreFresh names d) (htree : d.IsTree)
    (hparts : IsResolved rooted parts)
    (hfiles : Siblings names (pathText rooted parts) (writeOrder files)) :
    (∃ f d', exec d (replaceFiles names files) = (.error f, d') ∧ d.AddsDirectories d') ∨
    ∃ d', exec d (replaceFiles names files) = (.ok (), d') ∧ d.Replaces d' (writeOrder files) ∧
      d'.IsClean names := by
  cases horder : writeOrder files with
  | nil =>
    refine .inr ⟨d, ?_, ⟨rfl, by simp, fun _ => .inr (.inl rfl)⟩, h.isClean (.refl d)⟩
    rw [Files.replaceFiles, horder]
    rfl
  | cons file rest =>
    have hfile : file ∈ writeOrder files := by simp [horder]
    rcases h.stage_first htree hparts (hfiles.parent file hfile) (hfiles.sits file hfile) (names 0)
      with ⟨f, d', hstage, hadds⟩ | ⟨b, hadds, hplace, hstage⟩
    · refine .inl ⟨f, d', ?_, hadds⟩
      rw [Files.replaceFiles, horder, exec_bind, Files.stageAll, exec_bind, exec_tryCatch,
        List.length_nil, hstage]
      rfl
    · have hsame : exec d (Files.replaceFiles names files) =
          exec b (Files.replaceFiles names files) := by
        rw [Files.replaceFiles, horder, exec_bind, exec_bind, Files.stageAll, exec_bind, exec_bind,
          exec_tryCatch, exec_tryCatch, List.length_nil, hstage]
      rw [hsame, ← horder]
      rcases hplace.replaceFiles hfiles with
        ⟨f, c, hexec, hhome, hget⟩ | ⟨c, hexec, husable, hroom, hc⟩
      · refine .inl ⟨f, c, hexec, hhome.trans hadds.home, fun p => ?_⟩
        rw [hget]
        exact hadds.entries p
      · exact .inr ⟨c, hexec, hplace.replaces hadds husable hroom hc,
          hplace.isClean (h.isClean hadds) husable hc⟩

/-! Path texts of siblings. -/

theorem IsIn.name_eq {path dir dir' name name' : String} (h : IsIn path dir name)
    (h' : IsIn path dir' name') : name = name' := by
  obtain ⟨xs, hxs, -⟩ := h.way
  obtain ⟨ys, hys, -⟩ := h'.way
  obtain ⟨-, heq⟩ := List.append_inj' (hxs.symm.trans hys) rfl
  exact List.singleton_inj.1 heq

theorem exists_sits_pathText (hparts : IsResolved rooted parts)
    (hbase : ¬ IsTemporary names (baseOf (pathText rooted parts))) :
    ∃ dirs, IsResolved rooted dirs ∧ parentOf (pathText rooted parts) = pathText rooted dirs ∧
      Sits names (pathText rooted dirs) (pathText rooted parts) := by
  rcases List.eq_nil_or_concat parts with rfl | ⟨dirs, name, rfl⟩
  · exact ⟨[], .nil, parentOf_pathText_nil, .inr fun _ hc => Disk.entry?_pathText_nil hc⟩
  · rw [List.concat_eq_append] at hparts hbase ⊢
    refine ⟨dirs, hparts.left, parentOf_pathText hparts, ?_⟩
    rcases hparts.last.2 with hname | ⟨rfl, rfl, ups, rfl⟩
    · rw [baseOf_pathText hparts] at hbase
      exact .inl (.inl ⟨name, isIn_pathText hparts hname, hbase⟩)
    · cases hpath : Disk.isPath (pathText false (List.replicate ups ".." ++ [".."])) with
      | false => exact .inl (.inr hpath)
      | true => exact .inr fun c _ => c.entry?_pathText_ups hpath

theorem siblings_singleton (hparts : IsResolved rooted parts)
    (hbase : ¬ IsTemporary names (baseOf (pathText rooted parts))) (text : String) :
    ∃ dirs, IsResolved rooted dirs ∧
      Siblings names (pathText rooted dirs) (writeOrder [(pathText rooted parts, text)]) := by
  obtain ⟨dirs, hdirs, hparent, hsits⟩ := exists_sits_pathText hparts hbase
  have hmem : ∀ file ∈ writeOrder [(pathText rooted parts, text)],
      file = (pathText rooted parts, text) := by
    intro file hfile
    rw [mem_writeOrder (by simp)] at hfile
    exact List.mem_singleton.1 hfile
  refine ⟨dirs, hdirs, fun file hfile => ?_, fun file hfile => ?_, ?_⟩
  · rw [hmem file hfile]
    exact hparent
  · rw [hmem file hfile]
    exact hsits
  · refine (pairwise_writeOrder (by simp)).imp_of_mem fun hf hg hne => ?_
    rw [hmem _ hf, hmem _ hg] at hne
    exact absurd rfl hne

theorem siblings_of_names (hparts : IsResolved rooted parts) (hnodup : (files.map Prod.fst).Nodup)
    (hfiles : ∀ file ∈ files, ∃ name, IsEntryName name ∧ ¬ IsTemporary names name ∧
      file.1 = pathText rooted (parts ++ [name])) :
    Siblings names (pathText rooted parts) (writeOrder files) := by
  have hin : ∀ file ∈ writeOrder files, ∃ name, IsIn file.1 (pathText rooted parts) name ∧
      ¬ IsTemporary names name ∧ IsResolved rooted (parts ++ [name]) ∧
      file.1 = pathText rooted (parts ++ [name]) := by
    intro file hfile
    obtain ⟨name, hname, htemporary, heq⟩ := hfiles file ((mem_writeOrder hnodup).1 hfile)
    have hresolved := hparts.push hname
    refine ⟨name, ?_, htemporary, hresolved, heq⟩
    rw [heq]
    exact isIn_pathText hresolved hname
  refine ⟨fun file hfile => ?_, fun file hfile => ?_, ?_⟩
  · obtain ⟨name, -, -, hresolved, heq⟩ := hin file hfile
    rw [heq, parentOf_pathText hresolved]
  · obtain ⟨name, hname, htemporary, -⟩ := hin file hfile
    exact .inl (.inl ⟨name, hname, htemporary⟩)
  · refine (pairwise_writeOrder hnodup).imp_of_mem fun hf hg hne name hfin hgin => hne ?_
    obtain ⟨n, hn, -, -, heq⟩ := hin _ hf
    obtain ⟨m, hm, -, -, heq'⟩ := hin _ hg
    rw [heq, heq', hn.name_eq hfin, hm.name_eq hgin]

end

end RecordCodec.Files
