import RecordCodec.Emit.Generate
import RecordCodec.Proofs.Files.Siblings
import RecordCodec.Proofs.Planner.Acceptance
import RecordCodec.Proofs.Text.Names

/-!
This module contains what a generation leaves on the disk. The files of a generation are in one
directory, so they are replaced as a whole or nothing but directories is made.
-/

namespace RecordCodec

theorem Compiler.exists_assemble_of_compileEach {c : Compiler} {rs : List Record} {ps : List Plan}
    (hc : ∀ entry ∈ c.plans, ∃ r, assemble r = .ok entry.2) (h : (c.compileEach rs).2 = .ok ps) :
    ∀ p ∈ ps, ∃ r, assemble r = .ok p := by
  induction rs generalizing c ps with
  | nil =>
    cases h
    simp
  | cons r rs ih =>
    have hstep : (∀ entry ∈ (c.compile r).compiler.plans, ∃ r, assemble r = .ok entry.2) ∧
        ∀ p, (c.compile r).result = .ok p → ∃ r, assemble r = .ok p := by
      unfold compile
      split
      · next p hlookup =>
        refine ⟨hc, fun q hq => ?_⟩
        obtain ⟨before, after, heq, -⟩ := List.lookup_eq_some_iff.1 hlookup
        cases hq
        exact hc (r.key, p) (by simp [heq])
      · split
        · exact ⟨hc, nofun⟩
        · next p hassemble =>
          refine ⟨fun entry hentry => ?_, fun q hq => ?_⟩
          · rcases List.mem_append.1 hentry with hentry | hentry
            · exact hc entry hentry
            · rw [List.mem_singleton.1 hentry]
              exact ⟨r, hassemble⟩
          · cases hq
            exact ⟨r, hassemble⟩
    rw [compileEach] at h
    split at h
    · contradiction
    · next p hresult =>
      cases hrest : (c.compile r).compiler.compileEach rs with
      | mk c' result =>
        rw [hrest] at h
        cases result with
        | error f => contradiction
        | ok qs =>
          cases h
          intro q hq
          rcases List.mem_cons.1 hq with rfl | hq
          · exact hstep.2 _ hresult
          · exact ih hstep.1 (by rw [hrest]) q hq

theorem Compiler.exists_assemble_of_compileAll {rs : List Record} {ps : List Plan}
    (h : ({} : Compiler).compileAll rs = .ok ps) {p : Plan} (hp : p ∈ ps) :
    ∃ r, assemble r = .ok p := by
  unfold compileAll at h
  split at h
  · contradiction
  · exact exists_assemble_of_compileEach (by simp) h p hp

theorem Compiler.isIdentifier_of_compileAll {rs : List Record} {ps : List Plan}
    (h : ({} : Compiler).compileAll rs = .ok ps) {p : Plan} (hp : p ∈ ps) :
    Naming.isIdentifier p.record = true := by
  obtain ⟨r, hr⟩ := exists_assemble_of_compileAll h hp
  rw [(isPlanOf_of_assemble hr).record]
  exact (exists_assemble_iff.1 ⟨p, hr⟩).isIdentifier

namespace Emit

open RecordCodec.Files

variable {names : Nat → String}

theorem isEntryName_fragmentName {record : String} (h : Naming.isIdentifier record = true) :
    IsEntryName (fragmentName record) := by
  have hslash : '/' ∉ (Naming.exported record).toList := by
    intro hmem
    have hname := (Naming.all_of_isIdentifier (Naming.isIdentifier_exported h)).2 _ hmem
    exact absurd hname (by decide)
  have hlist : (fragmentName record).toList =
      (Naming.snake (Naming.exported record)).toList ++ fragmentSuffix.toList := by
    rw [fragmentName, String.toList_append]
  have hne : ∀ text : String, text.toList.length < 10 → fragmentName record ≠ text := by
    rintro text hlength rfl
    rw [hlist, List.length_append] at hlength
    have : fragmentSuffix.toList.length = 10 := by decide
    omega
  refine ⟨hne _ (by decide), hne _ (by decide), hne _ (by decide), ?_⟩
  rw [hlist, List.mem_append]
  rintro (hmem | hmem)
  · exact Naming.slash_not_mem_snake hslash hmem
  · exact absurd hmem (by decide)

theorem not_isTemporary_fragmentName (h : AreTemporary names) (record : String) :
    ¬ IsTemporary names (fragmentName record) := by
  have hlast : (fragmentName record).toList.getLast? = some 'o' := by
    rw [fragmentName, String.toList_append, List.getLast?_append]
    rfl
  rintro ⟨i, heq | heq⟩
  · rw [heq] at hlast
    obtain ⟨c, hc, hdigit⟩ := h.exists_getLast? i
    rw [hlast] at hc
    rw [← Option.some.inj hc] at hdigit
    exact absurd hdigit (by decide)
  · rw [heq, AreTemporary.getLast?_backup] at hlast
    exact absurd (Option.some.inj hlast) (by decide)

/-! The files of a generation. -/

structure AreFreshFor (names : Nat → String) (d : Disk) (o : Options) : Prop extends
    AreFresh names d where
  output : o.isSplit = false →
    ¬ IsTemporary names (baseOf (joinPath o.withDefaults.dir o.withDefaults.output))

theorem splitFiles_eq_ok {o : Options} {files out : List (String × String)}
    {pairs : List (Plan × String)} (h : splitFiles o files pairs = .ok out)
    (hnodup : (files.map Prod.fst).Nodup) :
    (out.map Prod.fst).Nodup ∧ ∀ file ∈ out, file ∈ files ∨
      ∃ pair ∈ pairs, file.1 = joinPath o.dir (fragmentName pair.1.record) := by
  induction pairs generalizing files with
  | nil =>
    cases h
    exact ⟨hnodup, fun file hfile => .inl hfile⟩
  | cons pair pairs ih =>
    rcases pair with ⟨plan, source⟩
    rw [splitFiles] at h
    obtain ⟨text, -, h⟩ := exists_of_bind_eq_ok h
    dsimp only at h
    by_cases htaken : (files.lookup (joinPath o.dir (fragmentName plan.record))).isSome = true
    · rw [if_pos htaken] at h
      contradiction
    · rw [if_neg htaken] at h
      have hfree : joinPath o.dir (fragmentName plan.record) ∉ files.map Prod.fst := by
        rw [Bool.not_eq_true, Option.isSome_eq_false_iff, Option.isNone_iff_eq_none,
          List.lookup_eq_none_iff] at htaken
        intro hmem
        obtain ⟨file, hfile, heq⟩ := List.mem_map.1 hmem
        have := htaken file hfile
        simp [heq] at this
      have hnodup' : ((files ++ [(joinPath o.dir (fragmentName plan.record), text)]).map
          Prod.fst).Nodup := by
        rw [List.map_append, List.nodup_append]
        refine ⟨hnodup, by simp, fun path hpath other hother => ?_⟩
        rintro rfl
        rw [List.map_singleton, List.mem_singleton] at hother
        rw [hother] at hpath
        exact hfree hpath
      obtain ⟨hout, hmem⟩ := ih h hnodup'
      refine ⟨hout, fun file hfile => ?_⟩
      rcases hmem file hfile with hfile | ⟨other, hother, heq⟩
      · rcases List.mem_append.1 hfile with hfile | hfile
        · exact .inl hfile
        · rw [List.mem_singleton.1 hfile]
          exact .inr ⟨(plan, source), List.mem_cons_self .., rfl⟩
      · exact .inr ⟨other, List.mem_cons_of_mem _ hother, heq⟩

theorem exists_of_prepare_eq_ok {o : Options} {isCancelled : Bool} {records : List Record}
    {g : Generated} (h : prepare o isCancelled records = .ok g) :
    ∃ fragments, ({} : Compiler).compileAll records = .ok g.plans ∧
      outputFiles o g.plans fragments = .ok g.files := by
  have hmapError : ∀ {α : Type} {x : Except Fault α} {a : α}, x.mapError Stop.fault = .ok a →
      x = .ok a := by
    intro α x a hx
    cases x with
    | error f => contradiction
    | ok b =>
      cases hx
      rfl
  unfold prepare at h
  obtain ⟨plans, hplans, h⟩ := exists_of_bind_eq_ok h
  by_cases hcancelled : (isCancelled && !plans.isEmpty) = true
  · rw [if_pos hcancelled] at h
    contradiction
  · rw [if_neg hcancelled] at h
    obtain ⟨fragments, -, h⟩ := exists_of_bind_eq_ok h
    obtain ⟨files, hfiles, h⟩ := exists_of_bind_eq_ok h
    cases h
    exact ⟨fragments, hmapError hplans, hmapError hfiles⟩

theorem siblings_of_prepare {d : Disk} {o : Options} {isCancelled : Bool} {records : List Record}
    {g : Generated} (hfresh : AreFreshFor names d o)
    (h : prepare o.withDefaults isCancelled records = .ok g) :
    (g.files.map Prod.fst).Nodup ∧ ∃ rooted parts, IsResolved rooted parts ∧
      Siblings names (pathText rooted parts) (writeOrder g.files) := by
  obtain ⟨fragments, hplans, hfiles⟩ := exists_of_prepare_eq_ok h
  have hdir : o.withDefaults.dir ≠ "" := by
    unfold Options.withDefaults
    dsimp only
    split
    · decide
    · next hne => simpa using hne
  unfold outputFiles at hfiles
  split at hfiles
  · next hsplit =>
    obtain ⟨hnodup, hmem⟩ := splitFiles_eq_ok hfiles .nil
    refine ⟨hnodup, isRooted o.withDefaults.dir, resolved o.withDefaults.dir,
      isResolved_resolved _, ?_⟩
    refine siblings_of_names (isResolved_resolved _) hnodup fun file hfile => ?_
    obtain ⟨pair, hpair, heq⟩ := (hmem file hfile).resolve_left (by simp)
    have hname := isEntryName_fragmentName
      (Compiler.isIdentifier_of_compileAll hplans (List.of_mem_zip hpair).1)
    exact ⟨_, hname, not_isTemporary_fragmentName hfresh.temporary _,
      heq.trans (joinPath_eq hdir hname)⟩
  · next hsplit =>
    obtain ⟨text, -, hfiles⟩ := exists_of_bind_eq_ok hfiles
    have hbase := hfresh.output (Bool.eq_false_iff.2 hsplit)
    let path := o.withDefaults.dir ++ "/" ++ o.withDefaults.output
    have hpath : joinPath o.withDefaults.dir o.withDefaults.output =
        pathText (isRooted path) (resolved path) := by
      rw [joinPath, if_pos (by simpa using hdir), clean_eq]
    rw [hpath] at hbase hfiles
    rw [← Except.ok.inj hfiles]
    obtain ⟨dirs, hdirs, hsiblings⟩ := siblings_singleton (isResolved_resolved path) hbase text
    exact ⟨by simp, isRooted path, dirs, hdirs, hsiblings⟩

/-! The disk after a generation. -/

theorem exec_generate (names : Nat → String) (o : Options) (isCancelled : Bool)
    (records : List Record) (d : Disk) :
    (generate names o isCancelled records).run.run d =
      match prepare o.withDefaults isCancelled records with
      | .error s => (.error s, d)
      | .ok g =>
        match DiskM.exec d (replaceFiles names g.files) with
        | (.ok (), d') => (.ok g, d')
        | (.error f, d') => (.error (.fault f), d') := by
  unfold generate
  rw [ExceptT.run_bind, StateT.run_bind]
  cases prepare o.withDefaults isCancelled records with
  | error s => rfl
  | ok g =>
    cases hexec : DiskM.exec d (replaceFiles names g.files) with
    | mk result d' =>
      have hlift : StateT.run (liftM (Except.ok g : Except Stop Generated) :
          ExceptT Stop (StateM Disk) Generated).run d = pure (.ok g, d) := rfl
      have hrun : StateT.run (replaceFiles names g.files).run d = pure (result, d') := hexec
      rw [hlift, pure_bind]
      dsimp only
      rw [ExceptT.run_mk, StateT.run_bind, hrun, pure_bind, hexec]
      cases result <;> rfl

theorem generate_all_or_nothing {d : Disk} {o : Options} (htree : d.IsTree)
    (hfresh : AreFreshFor names d o) (isCancelled : Bool) (records : List Record) :
    (∀ s d', (generate names o isCancelled records).run.run d = (.error s, d') →
      d.AddsDirectories d' ∧ d'.IsClean names) ∧
    ∀ g d', (generate names o isCancelled records).run.run d = (.ok g, d') →
      prepare o.withDefaults isCancelled records = .ok g ∧ d.Replaces d' g.files ∧
        d'.IsClean names := by
  rw [exec_generate]
  cases hprepare : prepare o.withDefaults isCancelled records with
  | error s =>
    refine ⟨fun s' d' heq => ?_, nofun⟩
    cases heq
    exact ⟨.refl d, hfresh.isClean (.refl d)⟩
  | ok g =>
    obtain ⟨hnodup, rooted, parts, hparts, hsiblings⟩ := siblings_of_prepare hfresh hprepare
    dsimp only
    rcases hfresh.replaceFiles htree hparts hsiblings with
      ⟨f, d₁, hexec, hadds⟩ | ⟨d₁, hexec, hreplaces, hclean⟩
    · rw [hexec]
      refine ⟨fun s d' heq => ?_, nofun⟩
      cases heq
      exact ⟨hadds, hfresh.isClean hadds⟩
    · rw [hexec]
      refine ⟨nofun, fun g' d' heq => ?_⟩
      cases heq
      refine ⟨rfl, ⟨hreplaces.home, fun file hfile => ?_, fun p => ?_⟩, hclean⟩
      · exact hreplaces.written file ((mem_writeOrder hnodup).2 hfile)
      · refine (hreplaces.others p).imp_left ?_
        rintro ⟨file, hfile, hplace⟩
        exact ⟨file, (mem_writeOrder hnodup).1 hfile, hplace⟩

/-! A generation that replaces a file in a linked directory. -/

def workDisk : Disk where
  entries := [(["home"], .directory), (["home", "gen"], .directory),
    (["home", "gen", "all.go"], .file "old"), (["home", "latest"], .link "gen")]
  home := ["home"]

def workOptions : Options where
  dir := "latest"
  output := "all.go"

def temporaryName (i : Nat) : String :=
  ".leangen-" ++ toString i

theorem isTree_workDisk : workDisk.IsTree :=
  Disk.isTree_of_entries (by decide) (by decide)

theorem areFreshFor_workDisk : AreFreshFor temporaryName workDisk workOptions := by
  have htemporary : AreTemporary temporaryName := areTemporary_numbered
  have hentries : ∀ entry ∈ workDisk.entries, ∀ name ∈ entry.1.getLast?,
      name.toList.head? ≠ some '.' := by decide
  refine ⟨⟨htemporary, fun dir name hname => ?_⟩, fun _ hname => ?_⟩
  · cases hget : workDisk.get? (dir ++ [name]) with
    | none => rfl
    | some e =>
      have hmem := Disk.mem_of_get?_append hget
      exact absurd (htemporary.head?_eq hname) (hentries _ hmem name (by simp))
  · have hbase : baseOf (joinPath workOptions.withDefaults.dir workOptions.withDefaults.output) =
        "all.go" := by decide +kernel
    rw [hbase] at hname
    exact absurd (htemporary.head?_eq hname) (by decide)

theorem generate_all_or_nothing_workDisk :
    ∃ g d', (generate temporaryName workOptions false []).run.run workDisk = (.ok g, d') ∧
      g.files = [("latest/all.go", header ++ "\n\npackage model\n")] ∧
      workDisk.Replaces d' g.files ∧ d'.IsClean temporaryName := by
  have hok : (match (generate temporaryName workOptions false []).run.run workDisk with
      | (.ok g, _) => g.files == [("latest/all.go", header ++ "\n\npackage model\n")]
      | (.error _, _) => false) = true := by decide +kernel
  have hall := generate_all_or_nothing isTree_workDisk areFreshFor_workDisk false []
  cases hrun : (generate temporaryName workOptions false []).run.run workDisk with
  | mk result d' =>
    rw [hrun] at hok
    cases result with
    | error s => contradiction
    | ok g => exact ⟨g, d', rfl, eq_of_beq hok, (hall.2 g d' hrun).2⟩

end Emit

end RecordCodec
