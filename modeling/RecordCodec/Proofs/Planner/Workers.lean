import RecordCodec.Proofs.Planner.Caching

/-!
This module contains the compilation of several records at once: one worker for each record, all of
them on one compiler, with their steps in any order. As long as the keys of the records differ, every
order gives the plans that `assemble` gives.
-/

namespace RecordCodec.Compiler

/--
How far a worker is: it looks for a plan that is kept, assembles one if there is none, keeps it
unless another worker was faster, and hands in the result.
-/
inductive Stage where
  | loading
  | assembling
  | storing (plan : Plan)
  | returning (result : Except Fault Plan)
  | finished

structure Worker where
  record : Record
  stage : Stage := .loading

/--
Workers on one compiler, the plans handed in so far by the number of the record, and the first fault
that was handed in.
-/
structure Pool where
  compiler : Compiler := {}
  workers : List Worker
  plans : List (Option Plan)
  fault : Option Fault := none

def loadOrStore (c : Compiler) (key : String) (plan : Plan) : Compiler × Plan :=
  match c.plans.lookup key with
  | some kept => (c, kept)
  | none => (⟨c.plans ++ [(key, plan)]⟩, plan)

namespace Pool

def start (rs : List Record) : Pool where
  workers := rs.map ({ record := · })
  plans := rs.map fun _ => none

def advance (pool : Pool) (i : Nat) (w : Worker) (stage : Stage) : Pool :=
  { pool with workers := pool.workers.set i { w with stage } }

def step (pool : Pool) (i : Nat) : Pool :=
  match pool.workers[i]? with
  | none => pool
  | some w =>
    match w.stage with
    | .loading =>
      match pool.compiler.plans.lookup w.record.key with
      | some plan => pool.advance i w (.returning (.ok plan))
      | none => pool.advance i w .assembling
    | .assembling =>
      match assemble w.record with
      | .ok plan => pool.advance i w (.storing plan)
      | .error f => pool.advance i w (.returning (.error f))
    | .storing plan =>
      let (compiler, kept) := pool.compiler.loadOrStore w.record.key plan
      { pool.advance i w (.returning (.ok kept)) with compiler }
    | .returning (.ok plan) =>
      { pool.advance i w .finished with plans := pool.plans.set i (some plan) }
    | .returning (.error f) =>
      { pool.advance i w .finished with fault := pool.fault.or (some f) }
    | .finished => pool

def run (pool : Pool) (schedule : List Nat) : Pool :=
  schedule.foldl step pool

def Finished (pool : Pool) : Prop :=
  ∀ w ∈ pool.workers, w.stage = .finished

def outcome (pool : Pool) : Except Fault (List (Option Plan)) :=
  match pool.fault with
  | some f => .error f
  | none => .ok pool.plans

theorem run_alone (c : Compiler) (r : Record) :
    let pool : Pool := { compiler := c, workers := [⟨r, .loading⟩], plans := [none] }
    (pool.run [0, 0, 0, 0]).compiler = (c.compile r).compiler ∧
      (pool.run [0, 0, 0, 0]).outcome = (c.compile r).result.map fun p => [some p] := by
  cases hlookup : c.plans.lookup r.key with
  | some p => simp [run, step, advance, outcome, compile, hlookup, Except.map]
  | none =>
    cases hassemble : assemble r with
    | error f => simp [run, step, advance, outcome, compile, hlookup, hassemble, Except.map]
    | ok p =>
      simp [run, step, advance, outcome, compile, loadOrStore, hlookup, hassemble, Except.map]

end Pool

/--
The records have been compiled by workers along a schedule. There is an outcome only if all of them
have finished, which is what is waited for.
-/
inductive CompiledBy (rs : List Record) (schedule : List Nat) :
    Except Fault (List (Option Plan)) → Prop where
  | repeated {name : String} : firstRepeated? (rs.map (·.name)) = some name →
      CompiledBy rs schedule (.error (repeatedRecord name))
  | finished : firstRepeated? (rs.map (·.name)) = none →
      ((Pool.start rs).run schedule).Finished →
      CompiledBy rs schedule ((Pool.start rs).run schedule).outcome

/-! What is kept. -/

def Keeps (c : Compiler) (rs : List Record) : Prop :=
  ∀ key p, c.plans.lookup key = some p → ∃ r ∈ rs, r.key = key ∧ assemble r = .ok p

def KeysDiffer (rs : List Record) : Prop :=
  ∀ r ∈ rs, ∀ s ∈ rs, r.key = s.key → r = s

section

variable {c : Compiler} {rs : List Record} {r : Record} {p : Plan}

theorem keeps_new : ({} : Compiler).Keeps rs := by
  intro key p hp
  contradiction

theorem Keeps.assemble_eq (h : c.Keeps rs) (hkeys : KeysDiffer rs) (hr : r ∈ rs)
    (hp : c.plans.lookup r.key = some p) : assemble r = .ok p := by
  obtain ⟨s, hs, hkey, hassemble⟩ := h _ _ hp
  rw [hkeys r hr s hs hkey.symm]
  exact hassemble

theorem Keeps.store (h : c.Keeps rs) (hr : r ∈ rs) (hassemble : assemble r = .ok p) :
    (⟨c.plans ++ [(r.key, p)]⟩ : Compiler).Keeps rs := by
  intro key q hq
  rw [List.lookup_append, Option.or_eq_some_iff] at hq
  rcases hq with hq | ⟨-, hq⟩
  · exact h key q hq
  · simp only [List.lookup_cons, List.lookup_nil] at hq
    split at hq
    · next heq =>
      cases hq
      exact ⟨r, hr, (beq_iff_eq.1 heq).symm, hassemble⟩
    · contradiction

theorem Keeps.loadOrStore (h : c.Keeps rs) (hkeys : KeysDiffer rs) (hr : r ∈ rs)
    (hassemble : assemble r = .ok p) :
    (c.loadOrStore r.key p).1.Keeps rs ∧ (c.loadOrStore r.key p).2 = p := by
  unfold Compiler.loadOrStore
  split
  · next hkept =>
    rw [h.assemble_eq hkeys hr hkept] at hassemble
    exact ⟨h, Except.ok.inj hassemble⟩
  · exact ⟨h.store hr hassemble, rfl⟩

theorem Keeps.compile (h : c.Keeps rs) (hkeys : KeysDiffer rs) (hr : r ∈ rs) :
    (c.compile r).compiler.Keeps rs ∧ (c.compile r).result = assemble r := by
  unfold Compiler.compile
  split
  · next hkept => exact ⟨h, (h.assemble_eq hkeys hr hkept).symm⟩
  · cases hassemble : assemble r with
    | error f => exact ⟨h, rfl⟩
    | ok p => exact ⟨h.store hr hassemble, rfl⟩

end

/-! Steps and runs. -/

def Stage.IsSound (r : Record) : Stage → Prop
  | .storing p => assemble r = .ok p
  | .returning result => result = assemble r
  | _ => True

namespace Pool

def Has (pool : Pool) (i : Nat) (r : Record) : Prop :=
  match assemble r with
  | .ok p => pool.plans[i]? = some (some p)
  | .error _ => pool.fault.isSome = true

structure Sound (rs : List Record) (pool : Pool) : Prop where
  keeps : pool.compiler.Keeps rs
  records : pool.workers.map (·.record) = rs
  length : pool.plans.length = rs.length
  stages : ∀ (i : Nat) w, pool.workers[i]? = some w → w.stage.IsSound w.record
  handed : ∀ (i : Nat) w, pool.workers[i]? = some w → w.stage = .finished → pool.Has i w.record
  fault : ∀ f, pool.fault = some f → ∃ r ∈ rs, assemble r = .error f

section

variable {pool : Pool} {rs : List Record} {i : Nat} {w : Worker} {stage : Stage}

theorem sound_start (rs : List Record) : (start rs).Sound rs := by
  refine ⟨keeps_new, ?_, ?_, ?_, ?_, ?_⟩
  · simp [start, Function.comp_def]
  · simp [start]
  · intro i w hw
    simp only [start, List.getElem?_map, Option.map_eq_some_iff] at hw
    obtain ⟨r, -, rfl⟩ := hw
    trivial
  · intro i w hw hfinished
    simp only [start, List.getElem?_map, Option.map_eq_some_iff] at hw
    obtain ⟨r, -, rfl⟩ := hw
    contradiction
  · intro f hf
    contradiction

theorem Sound.mem (h : pool.Sound rs) (hw : pool.workers[i]? = some w) : w.record ∈ rs := by
  rw [← h.records]
  exact List.mem_map_of_mem (List.mem_of_getElem? hw)

theorem map_record_set (hw : pool.workers[i]? = some w) :
    (pool.workers.set i { w with stage }).map (·.record) = pool.workers.map (·.record) := by
  obtain ⟨hi, rfl⟩ := List.getElem?_eq_some_iff.1 hw
  have hlt : i < (pool.workers.map (·.record)).length := by
    rw [List.length_map]
    exact hi
  have hrecord : pool.workers[i].record = (pool.workers.map (·.record))[i] := by
    rw [List.getElem_map]
  rw [List.map_set, hrecord, List.set_getElem_self]

theorem getElem?_set_workers {j : Nat} {v : Worker}
    (hv : (pool.workers.set i { w with stage })[j]? = some v) :
    j = i ∧ v = { w with stage } ∨ j ≠ i ∧ pool.workers[j]? = some v := by
  rw [List.getElem?_set] at hv
  split at hv
  · next heq =>
    split at hv
    · cases hv
      exact .inl ⟨heq.symm, rfl⟩
    · contradiction
  · next hne => exact .inr ⟨Ne.symm hne, hv⟩

theorem Sound.advance (h : pool.Sound rs) (hw : pool.workers[i]? = some w)
    (hstage : stage.IsSound w.record) (hne : stage ≠ .finished) :
    (pool.advance i w stage).Sound rs := by
  refine ⟨h.keeps, (map_record_set hw).trans h.records, h.length, ?_, ?_, h.fault⟩
  · intro j v hv
    rcases getElem?_set_workers hv with ⟨-, rfl⟩ | ⟨-, hv⟩
    · exact hstage
    · exact h.stages j v hv
  · intro j v hv hfinished
    rcases getElem?_set_workers hv with ⟨-, rfl⟩ | ⟨-, hv⟩
    · exact absurd hfinished hne
    · exact h.handed j v hv hfinished

theorem Sound.hand (h : pool.Sound rs) (hw : pool.workers[i]? = some w) {plans : List (Option Plan)}
    {fault : Option Fault} (hlength : plans.length = pool.plans.length)
    (hplans : ∀ j, j ≠ i → plans[j]? = pool.plans[j]?)
    (hkept : pool.fault.isSome = true → fault.isSome = true)
    (hfault : ∀ f, fault = some f → ∃ r ∈ rs, assemble r = .error f)
    (hhas : ({ pool with plans, fault } : Pool).Has i w.record) :
    ({ pool.advance i w .finished with plans, fault } : Pool).Sound rs := by
  refine ⟨h.keeps, (map_record_set hw).trans h.records, hlength.trans h.length, ?_, ?_, hfault⟩
  · intro j v hv
    rcases getElem?_set_workers hv with ⟨-, rfl⟩ | ⟨-, hv⟩
    · trivial
    · exact h.stages j v hv
  · intro j v hv hfinished
    rcases getElem?_set_workers hv with ⟨rfl, rfl⟩ | ⟨hne, hv⟩
    · exact hhas
    · have hother := h.handed j v hv hfinished
      unfold Has at hother ⊢
      split
      · next p hassemble =>
        rw [hassemble] at hother
        exact (hplans j hne).trans hother
      · next f hassemble =>
        rw [hassemble] at hother
        exact hkept hother

theorem Sound.step (h : pool.Sound rs) (hkeys : KeysDiffer rs) (i : Nat) :
    (pool.step i).Sound rs := by
  unfold Pool.step
  cases hw : pool.workers[i]? with
  | none => exact h
  | some w =>
    have hstage := h.stages i w hw
    have hr := h.mem hw
    dsimp only
    cases hcase : w.stage with
    | loading =>
      dsimp only
      split
      · next p hkept => exact h.advance hw (h.keeps.assemble_eq hkeys hr hkept).symm nofun
      · exact h.advance hw trivial nofun
    | assembling =>
      dsimp only
      cases hassemble : assemble w.record with
      | ok p => exact h.advance hw hassemble nofun
      | error f => exact h.advance hw hassemble.symm nofun
    | storing p =>
      rw [hcase] at hstage
      obtain ⟨hkeeps, hkept⟩ := h.keeps.loadOrStore hkeys hr hstage
      have hsound : Stage.IsSound w.record (.returning (.ok p)) := Eq.symm hstage
      have := h.advance hw hsound nofun
      dsimp only
      rw [hkept]
      exact ⟨hkeeps, this.records, this.length, this.stages, this.handed, this.fault⟩
    | returning result =>
      rw [hcase] at hstage
      have hassemble : result = assemble w.record := hstage
      cases result with
      | ok p =>
        apply h.hand hw
        · simp
        · intro j hne
          rw [List.getElem?_set_ne (Ne.symm hne)]
        · exact id
        · exact h.fault
        · unfold Has
          have hlt : i < pool.plans.length := by
            rw [h.length, ← h.records, List.length_map]
            exact (List.getElem?_eq_some_iff.1 hw).1
          simp [← hassemble, hlt]
      | error f =>
        apply h.hand hw
        · rfl
        · intro j _
          rfl
        · intro hsome
          simp
        · intro g hg
          rw [Option.or_eq_some_iff] at hg
          rcases hg with hg | ⟨-, hg⟩
          · exact h.fault g hg
          · cases hg
            exact ⟨w.record, hr, hassemble.symm⟩
        · unfold Has
          simp [← hassemble]
    | finished => exact h

theorem Sound.run (h : pool.Sound rs) (hkeys : KeysDiffer rs) (schedule : List Nat) :
    (pool.run schedule).Sound rs := by
  induction schedule generalizing pool with
  | nil => exact h
  | cons i schedule ih => exact ih (h.step hkeys i)

end

/-! Progress. -/

def rank : Stage → Nat
  | .loading => 4
  | .assembling => 3
  | .storing _ => 2
  | .returning _ => 1
  | .finished => 0

def rankAt (pool : Pool) (j : Nat) : Nat :=
  (pool.workers[j]?.map (rank ·.stage)).getD 0

theorem rankAt_advance_self {pool : Pool} {i : Nat} {w : Worker}
    (hw : pool.workers[i]? = some w) (stage : Stage) :
    (pool.advance i w stage).rankAt i = rank stage := by
  have hlt := (List.getElem?_eq_some_iff.1 hw).1
  simp [rankAt, advance, hlt]

theorem rankAt_advance_of_ne {pool : Pool} {i j : Nat} (h : j ≠ i) (w : Worker) (stage : Stage) :
    (pool.advance i w stage).rankAt j = pool.rankAt j := by
  simp [rankAt, advance, List.getElem?_set_ne (Ne.symm h)]

theorem rankAt_step_of_ne {pool : Pool} {i j : Nat} (h : j ≠ i) :
    (pool.step i).rankAt j = pool.rankAt j := by
  unfold step
  split
  · rfl
  · split
    · split <;> exact rankAt_advance_of_ne h ..
    · split <;> exact rankAt_advance_of_ne h ..
    · exact rankAt_advance_of_ne h ..
    · exact rankAt_advance_of_ne h ..
    · exact rankAt_advance_of_ne h ..
    · rfl

theorem rankAt_step_self (pool : Pool) (i : Nat) : (pool.step i).rankAt i ≤ pool.rankAt i - 1 := by
  cases hw : pool.workers[i]? with
  | none => simp [step, hw, rankAt]
  | some w =>
    have hrank : pool.rankAt i = rank w.stage := by simp [rankAt, hw]
    have hself := rankAt_advance_self hw
    rw [hrank]
    unfold step
    rw [hw]
    dsimp only
    cases hcase : w.stage with
    | loading =>
      dsimp only
      split
      · rw [hself]
        exact Nat.le_add_right 1 2
      · rw [hself]
        decide
    | assembling =>
      dsimp only
      split
      · rw [hself]
        exact Nat.le_refl 2
      · rw [hself]
        exact Nat.le_succ 1
    | storing p => exact Nat.le_of_eq (hself _)
    | returning result =>
      cases result with
      | ok p => exact Nat.le_of_eq (hself _)
      | error f => exact Nat.le_of_eq (hself _)
    | finished =>
      rw [hcase] at hrank
      exact Nat.le_of_eq hrank

theorem rankAt_run_le (pool : Pool) (schedule : List Nat) (j : Nat) :
    (pool.run schedule).rankAt j ≤ pool.rankAt j - schedule.count j := by
  induction schedule generalizing pool with
  | nil => exact Nat.le_refl _
  | cons i schedule ih =>
    have hrest := ih (pool.step i)
    rw [List.count_cons]
    by_cases h : j = i
    · subst h
      have hstep := rankAt_step_self pool j
      rw [beq_self_eq_true, if_pos rfl]
      show ((pool.step j).run schedule).rankAt j ≤ _
      omega
    · rw [rankAt_step_of_ne h] at hrest
      rw [if_neg (by simpa using Ne.symm h), Nat.add_zero]
      exact hrest

theorem finished_of_rankAt {pool : Pool} (h : ∀ j, pool.rankAt j = 0) : pool.Finished := by
  intro w hw
  obtain ⟨j, hj⟩ := List.getElem?_of_mem hw
  have hrank := h j
  simp only [rankAt, hj, Option.map_some, Option.getD_some] at hrank
  cases hcase : w.stage with
  | finished => rfl
  | _ => simp [hcase, rank] at hrank

theorem exists_finished (pool : Pool) : ∃ rest, (pool.run rest).Finished := by
  refine ⟨(List.range pool.workers.length).flatMap (List.replicate 4), ?_⟩
  apply finished_of_rankAt
  intro j
  have hle := rankAt_run_le pool ((List.range pool.workers.length).flatMap (List.replicate 4)) j
  have hbound : pool.rankAt j ≤ 4 := by
    unfold rankAt
    cases pool.workers[j]? with
    | none => simp
    | some w => cases hcase : w.stage <;> simp [hcase, rank]
  by_cases hj : j < pool.workers.length
  · have hcount : 4 ≤ ((List.range pool.workers.length).flatMap (List.replicate 4)).count j := by
      have hsub : (List.replicate 4 j).Sublist
          ((List.range pool.workers.length).flatMap (List.replicate 4)) := by
        rw [List.flatMap_def]
        apply List.sublist_flatten_of_mem
        exact List.mem_map_of_mem (List.mem_range.2 hj)
      have := hsub.count_le j
      rwa [List.count_replicate_self] at this
    omega
  · have hzero : pool.rankAt j = 0 := by
      unfold rankAt
      rw [List.getElem?_eq_none (Nat.le_of_not_lt hj)]
      rfl
    omega

/-! Outcomes. -/

theorem exists_map_eq {rs : List Record} (h : ∀ r ∈ rs, ∃ p, assemble r = .ok p) :
    ∃ ps : List Plan, rs.map assemble = ps.map .ok := by
  induction rs with
  | nil => exact ⟨[], rfl⟩
  | cons r rs ih =>
    obtain ⟨p, hp⟩ := h r (List.mem_cons_self ..)
    obtain ⟨ps, hps⟩ := ih fun s hs => h s (List.mem_cons_of_mem _ hs)
    refine ⟨p :: ps, ?_⟩
    rw [List.map_cons, List.map_cons, hp, hps]

theorem Sound.plans_eq {pool : Pool} {rs : List Record} (h : pool.Sound rs)
    (hfinished : pool.Finished) {ps : List Plan} (hps : rs.map assemble = ps.map .ok) :
    pool.plans = ps.map some := by
  apply List.ext_getElem?
  intro i
  have hget := congrArg (·[i]?) hps
  simp only [List.getElem?_map] at hget
  have hrecord := congrArg (·[i]?) h.records
  simp only [List.getElem?_map] at hrecord
  rw [List.getElem?_map]
  cases hw : pool.workers[i]? with
  | none =>
    rw [hw] at hrecord
    have hnone : rs[i]? = none := hrecord.symm
    have hplans : pool.plans[i]? = none := by
      rw [List.getElem?_eq_none_iff] at hnone ⊢
      rw [h.length]
      exact hnone
    rw [hnone] at hget
    rw [hplans]
    cases hp : ps[i]? with
    | none => rfl
    | some p => simp [hp] at hget
  | some w =>
    rw [hw] at hrecord
    have hhas := h.handed i w hw (hfinished w (List.mem_of_getElem? hw))
    rw [← hrecord] at hget
    cases hp : ps[i]? with
    | none => simp [hp] at hget
    | some p =>
      have hassemble : assemble w.record = .ok p := by simpa [hp] using hget
      unfold Has at hhas
      rw [hassemble] at hhas
      exact hhas

theorem Sound.outcome_eq_ok_iff {pool : Pool} {rs : List Record} (h : pool.Sound rs)
    (hfinished : pool.Finished) {plans : List (Option Plan)} :
    pool.outcome = .ok plans ↔
      ∃ ps : List Plan, rs.map assemble = ps.map .ok ∧ plans = ps.map some := by
  unfold outcome
  constructor
  · intro hplans
    cases hfault : pool.fault with
    | some f => simp [hfault] at hplans
    | none =>
      have hok : ∀ r ∈ rs, ∃ p, assemble r = .ok p := by
        intro r hr
        rw [← h.records] at hr
        obtain ⟨w, hw, rfl⟩ := List.mem_map.1 hr
        obtain ⟨i, hi⟩ := List.getElem?_of_mem hw
        have hhas := h.handed i w hi (hfinished w hw)
        unfold Has at hhas
        split at hhas
        · next p hassemble => exact ⟨p, hassemble⟩
        · simp [hfault] at hhas
      obtain ⟨ps, hps⟩ := exists_map_eq hok
      refine ⟨ps, hps, ?_⟩
      rw [← h.plans_eq hfinished hps]
      simpa [hfault] using hplans.symm
  · rintro ⟨ps, hps, rfl⟩
    cases hfault : pool.fault with
    | some f =>
      obtain ⟨r, hr, hassemble⟩ := h.fault f hfault
      have hmem : assemble r ∈ ps.map Except.ok := by
        rw [← hps]
        exact List.mem_map_of_mem hr
      simp [hassemble] at hmem
    | none =>
      rw [h.plans_eq hfinished hps]

end Pool

theorem firstRepeated?_go_eq_none_iff {seen names : List String} :
    firstRepeated?.go seen names = none ↔ (∀ n ∈ names, n ∉ seen) ∧ names.Nodup := by
  induction names generalizing seen with
  | nil => simp [firstRepeated?.go]
  | cons n names ih =>
    unfold firstRepeated?.go
    by_cases hn : n ∈ seen
    · simp [hn]
    · simp only [List.contains_eq_mem, hn, decide_false, Bool.false_eq_true, ↓reduceIte, ih,
        List.mem_cons, not_or, List.nodup_cons]
      grind

theorem firstRepeated?_eq_none_iff {names : List String} :
    firstRepeated? names = none ↔ names.Nodup := by
  unfold firstRepeated?
  rw [firstRepeated?_go_eq_none_iff]
  simp

theorem keysDiffer_of_nodup {rs : List Record} (hnames : ∀ r ∈ rs, '\x00' ∉ r.name.toList)
    (hnodup : (rs.map (·.name)).Nodup) : KeysDiffer rs := by
  intro r hr s hs hkey
  have hname := Record.name_eq_of_key_eq (hnames r hr) (hnames s hs) hkey
  obtain ⟨i, hi⟩ := List.getElem?_of_mem hr
  obtain ⟨j, hj⟩ := List.getElem?_of_mem hs
  have hij : i = j := by
    have hlt := (List.getElem?_eq_some_iff.1 hi).1
    apply (List.getElem?_inj (by simpa using hlt) hnodup).1
    rw [List.getElem?_map, List.getElem?_map, hi, hj]
    simp [hname]
  rw [hij, hj] at hi
  exact (Option.some.inj hi).symm

theorem compileEach_eq_ok_iff {c : Compiler} {all rs : List Record} (h : c.Keeps all)
    (hkeys : KeysDiffer all) (hrs : ∀ r ∈ rs, r ∈ all) {ps : List Plan} :
    (c.compileEach rs).2 = .ok ps ↔ rs.map assemble = ps.map .ok := by
  induction rs generalizing c ps with
  | nil => cases ps <;> simp [compileEach]
  | cons r rs ih =>
    obtain ⟨hkeeps, hresult⟩ := h.compile hkeys (hrs r (List.mem_cons_self ..))
    have hrest := @ih _ hkeeps fun s hs => hrs s (List.mem_cons_of_mem _ hs)
    unfold compileEach
    dsimp only
    rw [hresult]
    cases hassemble : assemble r with
    | error f => cases ps <;> simp [hassemble]
    | ok p =>
      dsimp only
      cases heach : (c.compile r).compiler.compileEach rs with
      | mk c' result =>
        rw [heach] at hrest
        cases result with
        | error f =>
          cases ps with
          | nil => simp
          | cons q ps => simpa [hassemble] using fun _ => mt hrest.2 nofun
        | ok qs =>
          cases ps with
          | nil => simp
          | cons q ps => simpa [hassemble] using fun _ => @hrest ps

theorem compileAll_any_schedule {rs : List Record} (hnames : ∀ r ∈ rs, '\x00' ∉ r.name.toList)
    (schedule : List Nat) :
    (∃ rest outcome, CompiledBy rs (schedule ++ rest) outcome) ∧
    (∀ outcome, CompiledBy rs schedule outcome → ∀ plans, outcome = .ok plans ↔
      (rs.map (·.name)).Nodup ∧
        ∃ ps : List Plan, rs.map assemble = ps.map .ok ∧ plans = ps.map some) ∧
    ∀ ps, ({} : Compiler).compileAll rs = .ok ps ↔
      (rs.map (·.name)).Nodup ∧ rs.map assemble = ps.map .ok := by
  cases hrepeated : firstRepeated? (rs.map (·.name)) with
  | some name =>
    have hnodup : ¬ (rs.map (·.name)).Nodup := by
      rw [← firstRepeated?_eq_none_iff, hrepeated]
      nofun
    refine ⟨⟨[], _, .repeated hrepeated⟩, ?_, ?_⟩
    · rintro outcome (_ | ⟨hnone, -⟩) plans
      · simp [hnodup]
      · simp [hrepeated] at hnone
    · intro ps
      simp [compileAll, hrepeated, hnodup]
  | none =>
    have hnodup := firstRepeated?_eq_none_iff.1 hrepeated
    have hkeys := keysDiffer_of_nodup hnames hnodup
    refine ⟨?_, ?_, ?_⟩
    · obtain ⟨rest, hfinished⟩ := ((Pool.start rs).run schedule).exists_finished
      rw [Pool.run, Pool.run, ← List.foldl_append] at hfinished
      exact ⟨rest, _, .finished hrepeated hfinished⟩
    · rintro outcome (hsome | ⟨-, hfinished⟩) plans
      · simp [hrepeated] at hsome
      · rw [((Pool.sound_start rs).run hkeys schedule).outcome_eq_ok_iff hfinished]
        simp [hnodup]
    · intro ps
      simp only [compileAll, hrepeated, hnodup, true_and]
      exact compileEach_eq_ok_iff keeps_new hkeys fun r hr => hr

def lastRecord : Record where
  name := "B"
  fields := [⟨"a", "::u8"⟩]

theorem compileAll_any_schedule_interleaved : ∃ outcome p q,
    CompiledBy [soleRecord, lastRecord] [0, 1, 1, 0, 1, 0, 0, 1] outcome ∧
      assemble soleRecord = .ok p ∧ assemble lastRecord = .ok q ∧
      outcome = .ok [some p, some q] := by
  have hfinished :
      ((Pool.start [soleRecord, lastRecord]).run [0, 1, 1, 0, 1, 0, 0, 1]).Finished := by
    apply Pool.finished_of_rankAt
    intro j
    have hle := (Pool.start [soleRecord, lastRecord]).rankAt_run_le [0, 1, 1, 0, 1, 0, 0, 1] j
    apply Nat.eq_zero_of_le_zero
    match j with
    | 0 => exact hle
    | 1 => exact hle
    | j + 2 => exact Nat.le_trans hle (Nat.sub_le ..)
  have hlast : assemble lastRecord =
      .ok (Plan.ofFields "B" (fieldsFrom 0 lastRecord.fields [.ofScalar .u8])) := by
    apply assemble_eq_ok
    · decide
    · decide
    · decide
    · decide
    · simp [lastRecord, typeOfText_of_segments segments_qualified.1]
  have hcompiled := CompiledBy.finished (by decide) hfinished
  refine ⟨_, _, _, hcompiled, assemble_soleRecord, hlast, ?_⟩
  rw [(compileAll_any_schedule (by decide) [0, 1, 1, 0, 1, 0, 0, 1]).2.1 _ hcompiled]
  exact ⟨by decide, [_, _], by simp [assemble_soleRecord, hlast], rfl⟩

end RecordCodec.Compiler
