import RecordCodec.Proofs.Codec.Trips
import RecordCodec.Proofs.Emit.Generate
import RecordCodec.Tool.Explore

/-!
This module contains sessions that run. Keys may be pressed at any time, and the schema arrives once.
A trip that a session asks for is made later, with the session as it is then, and what comes of it
arrives later still: any number of trips may be under way, and they arrive in any order.
-/

namespace RecordCodec.Tool

open RecordCodec.Files RecordCodec.Table

inductive Event where
  | press (k : Key)
  | load (d : Disk)
  | travel
  /-- What came of a trip arrives. It is given by its place among those that are under way. -/
  | arrive (i : Nat)

structure Running where
  session : Session
  isLoaded : Bool := false
  /-- The number of trips that were asked for and not made yet. -/
  asked : Nat := 0
  /-- What came of the trips that were made, as far as it has not arrived. -/
  underWay : List Message := []

namespace Running

def start (filename : String) : Running where
  session := { filename }

def tell? (r : Running) (m : Message) : Option Running := do
  let (s, action) ← r.session.update? m
  return { r with session := s, asked := if action = some .encode then r.asked + 1 else r.asked }

/--
Let something happen. The result is `none` if the session looks up something that is not there, and
an error if the builder gives up. What cannot happen changes nothing.
-/
def step? (r : Running) : Event → Option (Except BuilderError Running)
  | .press k => do
    return .ok (← r.tell? (.key k))
  | .load d =>
    if r.isLoaded then some (.ok r)
    else do
      let r ← r.tell? (.loaded (Session.load d r.session.filename))
      return .ok { r with isLoaded := true }
  | .travel =>
    if r.asked = 0 then some (.ok r)
    else do
      match ← r.session.encode? with
      | .error e => return .error e
      | .ok (s, m) =>
        return .ok { r with session := s, asked := r.asked - 1, underWay := r.underWay ++ [m] }
  | .arrive i =>
    match r.underWay[i]? with
    | none => some (.ok r)
    | some m => do
      return .ok (← { r with underWay := r.underWay.eraseIdx i }.tell? m)

def run? (r : Running) : List Event → Option (Except BuilderError Running)
  | [] => some (.ok r)
  | e :: es => do
    match ← r.step? e with
    | .error e => return .error e
    | .ok r => r.run? es

end Running

namespace Session

def IsFilling (s : Session) : Prop :=
  ∃ bd, s.current? = some bd ∧ s.inputs.length = bd.plan.fields.size ∧ s.focus < s.inputs.length

/--
What is true of a session at any time. There are no inputs while a record is selected, so those that
an outcome finds are still the ones of that record.
-/
structure Sound (s : Session) : Prop where
  isDynamic : ∀ bd ∈ s.records.getD [], ∃ p, p.WellFormed ∧ Binding.IsDynamic p bd
  selected : s.selected = 0 ∨ s.selected < s.count
  count_pos : s.stage ≠ .select → 0 < s.count
  noInputs : s.stage = .select → s.inputs = []
  isFilling : s.inputs ≠ [] → s.IsFilling
  someInputs : s.stage = .input → s.inputs ≠ []

variable {s : Session}

theorem Sound.exists_current (h : s.Sound) (hcount : 0 < s.count) :
    ∃ bd p, s.current? = some bd ∧ p.WellFormed ∧ Binding.IsDynamic p bd := by
  have hlt : s.selected < (s.records.getD []).length := by
    rcases h.selected with hzero | hlt
    · rw [hzero]
      exact hcount
    · exact hlt
  have hcurrent : s.current? = some (s.records.getD [])[s.selected] := List.getElem?_eq_getElem hlt
  obtain ⟨p, hp, hdynamic⟩ := h.isDynamic _ (List.getElem_mem hlt)
  exact ⟨_, p, hcurrent, hp, hdynamic⟩

theorem sound_start (filename : String) : Sound { filename } where
  isDynamic := nofun
  selected := .inl rfl
  count_pos h := absurd rfl h
  noInputs _ := rfl
  isFilling h := absurd rfl h
  someInputs := nofun

theorem Sound.previous (h : s.Sound) : s.previous.Sound := by
  unfold Session.previous
  split
  · next hstage =>
    have hinputs := h.noInputs (beq_iff_eq.1 hstage)
    refine { h with selected := ?_, isFilling := fun hne => absurd hinputs hne }
    have hselected := h.selected
    show s.selected - 1 = 0 ∨ s.selected - 1 < s.count
    omega
  · exact h

theorem Sound.next (h : s.Sound) : s.next.Sound := by
  unfold Session.next
  split
  · next hnext =>
    rw [Bool.and_eq_true, beq_iff_eq, decide_eq_true_eq] at hnext
    have hinputs := h.noInputs hnext.1
    exact { h with selected := .inr hnext.2, isFilling := fun hne => absurd hinputs hne }
  · exact h

theorem records_previous (s : Session) : s.previous.records = s.records := by
  unfold Session.previous
  split <;> rfl

theorem records_next (s : Session) : s.next.records = s.records := by
  unfold Session.next
  split <;> rfl

theorem Sound.withInputs (h : s.Sound) (hstage : s.stage = .input) {inputs : List LineInput}
    (hlength : inputs.length = s.inputs.length) {focus : Nat} (hfocus : focus < inputs.length) :
    Sound { s with inputs := inputs, focus := focus } := by
  have hne := h.someInputs hstage
  obtain ⟨bd, hcurrent, hfields, -⟩ := h.isFilling hne
  have hinputs : inputs ≠ [] := List.ne_nil_of_length_pos (by omega)
  refine { h with noInputs := ?_, isFilling := ?_, someInputs := fun _ => hinputs }
  · intro hselect
    rw [hstage] at hselect
    cases hselect
  · intro _
    exact ⟨bd, hcurrent, hlength.trans hfields, hfocus⟩

theorem Sound.passKey? (h : s.Sound) (k : Key) :
    ∃ s', s.passKey? k = some s' ∧ s'.Sound ∧ s'.records = s.records := by
  unfold Session.passKey?
  split
  · next hinput =>
    rw [Bool.and_eq_true, beq_iff_eq] at hinput
    obtain ⟨-, -, -, hfocus⟩ := h.isFilling (h.someInputs hinput.1)
    rw [List.getElem?_eq_getElem hfocus]
    refine ⟨_, rfl, ?_, rfl⟩
    apply h.withInputs hinput.1 List.length_set
    rw [List.length_set]
    exact hfocus
  · exact ⟨s, rfl, h, rfl⟩

theorem Sound.moveFocus? (h : s.Sound) (hstage : s.stage = .input) (step : Nat) :
    ∃ s', s.moveFocus? step = some s' ∧ s'.Sound ∧ s'.records = s.records := by
  obtain ⟨-, -, -, hfocus⟩ := h.isFilling (h.someInputs hstage)
  have hnext : (s.focus + step) % s.inputs.length < s.inputs.length := Nat.mod_lt _ (by omega)
  unfold Session.moveFocus?
  dsimp only
  rw [List.getElem?_eq_getElem hfocus, Option.bind_eq_bind, Option.bind_some,
    List.getElem?_eq_getElem (by rw [List.length_set]; exact hnext)]
  refine ⟨_, rfl, ?_, rfl⟩
  apply h.withInputs hstage
  · rw [List.length_set, List.length_set]
  · rw [List.length_set, List.length_set]
    exact hnext

def Answers (s : Session) (answer : Option (Session × Option Action)) : Prop :=
  ∃ s' action, answer = some (s', action) ∧ s'.Sound ∧ s'.records = s.records ∧
    (action = some .encode → 0 < s.count)

theorem Answers.of_map {answer : Option Session}
    (h : ∃ s', answer = some s' ∧ s'.Sound ∧ s'.records = s.records) :
    s.Answers (answer.map (·, none)) := by
  obtain ⟨s', rfl, hsound, hrecords⟩ := h
  exact ⟨s', none, rfl, hsound, hrecords, nofun⟩

theorem Sound.prepare (h : s.Sound) {bd : Binding} (hcurrent : s.current? = some bd)
    (hsome : inputsFor bd.plan ≠ []) :
    Sound { s with inputs := inputsFor bd.plan, focus := 0, stage := .input } := by
  have hlength : (inputsFor bd.plan).length = bd.plan.fields.size := by
    simp [inputsFor]
  have hpos : 0 < s.count := by
    obtain ⟨hlt, -⟩ := List.getElem?_eq_some_iff.1 hcurrent
    exact Nat.zero_lt_of_lt hlt
  exact { h with
    count_pos := fun _ => hpos
    noInputs := nofun
    isFilling := fun _ => ⟨bd, hcurrent, hlength, List.length_pos_iff.2 hsome⟩
    someInputs := fun _ => hsome }

theorem Sound.enter? (h : s.Sound) : s.Answers s.enter? := by
  unfold Session.enter?
  split
  · next hstage =>
    split
    · exact ⟨s, none, rfl, h, rfl, nofun⟩
    · next hcount =>
      have hpos : 0 < s.count := by
        rw [beq_iff_eq] at hcount
        omega
      obtain ⟨bd, -, hcurrent, -⟩ := h.exists_current hpos
      unfold Session.prepare?
      rw [hcurrent]
      show s.Answers (if (inputsFor bd.plan).isEmpty then _ else _)
      split
      · next hnone =>
        -- a record without fields is encoded at once
        rw [List.isEmpty_iff] at hnone
        refine ⟨_, some .encode, rfl, ?_, rfl, fun _ => hpos⟩
        exact { h with
          noInputs := fun _ => hnone
          isFilling := fun hsome => absurd hnone hsome
          someInputs := fun hinput => nomatch hstage.symm.trans hinput }
      · next hsome =>
        exact ⟨_, none, rfl, h.prepare hcurrent fun hnone => hsome (by rw [hnone]; rfl), rfl, nofun⟩
  · next hstage =>
    refine ⟨s, some .encode, rfl, h, rfl, fun _ => h.count_pos ?_⟩
    rw [hstage]
    nofun
  · next hstage =>
    have hpos : 0 < s.count := by
      apply h.count_pos
      rw [hstage]
      nofun
    refine ⟨_, none, rfl, ?_, rfl, nofun⟩
    refine { h with count_pos := fun _ => hpos, noInputs := ?_, someInputs := ?_ }
    · intro hselect
      by_contra hsome
      simp [hsome] at hselect
    · intro hinput (hnone : s.inputs = [])
      simp [hnone] at hinput

theorem Sound.escape (h : s.Sound) : s.escape.Sound ∧ s.escape.records = s.records := by
  have hback : ∀ problem, Sound { s with stage := .select, inputs := [], problem := problem } := by
    intro problem
    exact { h with
      count_pos := fun hne => absurd rfl hne
      noInputs := fun _ => rfl
      isFilling := fun hne => absurd rfl hne
      someInputs := nofun }
  unfold Session.escape
  split
  · exact ⟨h, rfl⟩
  · exact ⟨hback s.problem, rfl⟩
  · exact ⟨hback none, rfl⟩

theorem Sound.press? (h : s.Sound) (k : Key) : s.Answers (s.press? k) := by
  have hpass : ∀ s' : Session, s'.Sound → s'.records = s.records →
      s.Answers ((s'.passKey? k).map (·, none)) := by
    intro s' hs' hrecords
    obtain ⟨s'', hs'', hsound, hrecords'⟩ := hs'.passKey? k
    exact .of_map ⟨s'', hs'', hsound, hrecords'.trans hrecords⟩
  have hmove : ∀ step, s.Answers (if s.stage == .input && 1 < s.inputs.length then
      (s.moveFocus? step).map (·, none) else (s.passKey? k).map (·, none)) := by
    intro step
    split
    · next hinput =>
      rw [Bool.and_eq_true, beq_iff_eq] at hinput
      exact .of_map (h.moveFocus? hinput.1 step)
    · exact hpass s h rfl
  unfold Session.press?
  cases k with
  | interrupt => exact ⟨s, some .quit, rfl, h, rfl, nofun⟩
  | enter => exact h.enter?
  | escape => exact ⟨s.escape, none, rfl, h.escape.1, h.escape.2, nofun⟩
  | up => exact hpass _ h.previous s.records_previous
  | down => exact hpass _ h.next s.records_next
  | char c =>
    dsimp only
    split
    · exact ⟨s, some .quit, rfl, h, rfl, nofun⟩
    · split
      · exact hpass _ h.previous s.records_previous
      · split
        · exact hpass _ h.next s.records_next
        · exact hpass s h rfl
  | tab => exact hmove _
  | shiftTab => exact hmove _
  | backspace | delete | left | right | lineStart | lineEnd | passed => exact hpass s h rfl

theorem Sound.update?_encoded (h : s.Sound) (hpos : 0 < s.count) (outcome : Except Problem Trip) :
    s.Answers (s.update? (.encoded outcome)) := by
  have hresult : ∀ trip problem,
      Sound { s with trip := trip, problem := problem, stage := .result } := by
    intro trip problem
    exact { h with count_pos := fun _ => hpos, noInputs := nofun, someInputs := nofun }
  cases outcome with
  | error p => exact ⟨_, none, rfl, hresult none (some p), rfl, nofun⟩
  | ok trip => exact ⟨_, none, rfl, hresult (some trip) none, rfl, nofun⟩

theorem exists_isDynamic_of_load {d : Disk} {path : String} {bds : List Binding}
    (h : load d path = .ok bds) {bd : Binding} (hbd : bd ∈ bds) :
    ∃ p, p.WellFormed ∧ Binding.IsDynamic p bd := by
  obtain ⟨schema, -, h⟩ := exists_of_bind_eq_ok h
  obtain ⟨plans, hplans, h⟩ := exists_of_bind_eq_ok h
  obtain ⟨p, hp, hdynamic⟩ := exists_of_mem_of_mapM_eq_ok h hbd
  obtain ⟨r, hr⟩ := Compiler.exists_assemble_of_compileAll hplans hp
  have hwellFormed := wellFormed_of_assemble hr
  exact ⟨p, hwellFormed, Binding.isDynamic_of_dynamic hwellFormed hdynamic⟩

theorem Sound.update?_loaded (h : s.Sound) (hnone : s.records = none) (d : Disk) (path : String) :
    ∃ s', s.update? (.loaded (load d path)) = some (s', none) ∧ s'.Sound := by
  cases hload : load d path with
  | error f => exact ⟨_, rfl, { h with }⟩
  | ok bds =>
    have hcount : s.count = 0 := by
      unfold count
      rw [hnone]
      rfl
    have hselected : s.selected = 0 := by
      have := h.selected
      omega
    have hstage : s.stage = .select := by
      by_contra hne
      have := h.count_pos hne
      omega
    have hinputs := h.noInputs hstage
    refine ⟨_, rfl, { h with
      isDynamic := fun bd hbd => exists_isDynamic_of_load hload hbd
      selected := .inl hselected
      count_pos := fun hne => absurd hstage hne
      isFilling := fun hne => absurd hinputs hne }⟩

/-! Trips and views. -/

def entries (s : Session) : List Entry :=
  s.inputs.map fun i => i.text.map .char

theorem Sound.encode? (h : s.Sound) (hpos : 0 < s.count) :
    (∃ builder outcome, s.encode? = some (.ok ({ s with builder := builder }, .encoded outcome))) ∨
      s.encode? = some (.error .tooLarge) ∧ ∃ bd, s.current? = some bd ∧ bd.Outgrows s.entries := by
  obtain ⟨bd, p, hcurrent, hp, hdynamic⟩ := h.exists_current hpos
  obtain ⟨outcome, hne, htrip, -⟩ := hdynamic.exists_outcome hp s.entries
  unfold Session.encode?
  rw [hcurrent, Option.bind_eq_bind, Option.bind_some]
  dsimp only
  rw [← entries]
  have htrip := htrip s.builder
  unfold Binding.tripOf at htrip
  cases hround : bd.roundTrip s.builder s.entries with
  | ok result => exact .inl ⟨result.1, .ok result.2, rfl⟩
  | error e =>
    rw [hround] at htrip
    cases e with
    | entry field e => exact .inl ⟨s.builder, .error (.entry field e), rfl⟩
    | builder e =>
      rcases htrip with htrip | ⟨htrip, houtgrows⟩
      · exact absurd htrip.symm (hne e)
      · cases htrip
        exact .inr ⟨rfl, bd, rfl, houtgrows⟩

theorem exists_map_eq_some {f : α → β} {x : Option α} (h : ∃ y, x = some y) :
    ∃ z, (do let y ← x; return f y) = some z := by
  obtain ⟨y, rfl⟩ := h
  exact ⟨f y, rfl⟩

theorem Sound.exists_inputView (h : s.Sound) (hstage : s.stage = .input) :
    ∃ text, s.inputView? = some text := by
  obtain ⟨bd, hcurrent, hlength, -⟩ := h.isFilling (h.someInputs hstage)
  unfold inputView?
  rw [hcurrent, Option.bind_eq_bind, Option.bind_some]
  apply exists_map_eq_some
  apply exists_mapM_eq_some
  rintro ⟨i, index⟩ hmem
  have hlt : index < bd.plan.fields.size := by
    have := List.snd_lt_of_mem_zipIdx hmem
    omega
  exact exists_map_eq_some ⟨_, Array.getElem?_eq_getElem hlt⟩

theorem Sound.exists_view (h : s.Sound) : ∃ text, s.view? = some text := by
  have hcurrent : s.stage = .result → ∃ bd, s.current? = some bd := by
    intro hstage
    obtain ⟨bd, -, hcurrent, -⟩ := h.exists_current (h.count_pos (by rw [hstage]; nofun))
    exact ⟨bd, hcurrent⟩
  unfold Session.view?
  split
  · exact ⟨_, rfl⟩
  · exact ⟨_, rfl⟩
  · exact ⟨_, rfl⟩
  · next hstage =>
    split
    · exact ⟨_, rfl⟩
    · next hinput =>
      obtain ⟨text, htext⟩ := h.exists_inputView hinput
      rw [htext]
      exact ⟨_, rfl⟩
    · next hresult =>
      obtain ⟨bd, hbd⟩ := hcurrent hresult
      unfold resultView?
      rw [hbd]
      exact ⟨_, rfl⟩

structure InRange (s : Session) : Prop where
  selected : s.selected = 0 ∨ s.selected < s.count
  count_pos : s.stage = .input ∨ s.stage = .result → 0 < s.count
  inputs : s.stage = .input → ∃ bd, s.current? = some bd ∧
    s.inputs.length = bd.plan.fields.size ∧ 0 < s.inputs.length ∧ s.focus < s.inputs.length

theorem Sound.inRange (h : s.Sound) : s.InRange where
  selected := h.selected
  count_pos := by
    intro hstage
    apply h.count_pos
    rcases hstage with hstage | hstage
    all_goals
      rw [hstage]
      nofun
  inputs := by
    intro hstage
    obtain ⟨bd, hcurrent, hlength, hfocus⟩ := h.isFilling (h.someInputs hstage)
    exact ⟨bd, hcurrent, hlength, Nat.zero_lt_of_lt hfocus, hfocus⟩

end Session

namespace Running

structure Sound (r : Running) : Prop where
  session : r.session.Sound
  records_none : r.isLoaded = false → r.session.records = none
  count_pos_of_asked : 0 < r.asked → 0 < r.session.count
  count_pos_of_underWay : r.underWay ≠ [] → 0 < r.session.count
  encoded : ∀ m ∈ r.underWay, ∃ outcome, m = .encoded outcome

variable {r : Running}

theorem sound_start (filename : String) : (start filename).Sound where
  session := Session.sound_start filename
  records_none _ := rfl
  count_pos_of_asked h := absurd h (Nat.lt_irrefl 0)
  count_pos_of_underWay h := absurd rfl h
  encoded := nofun

theorem Sound.tell? (h : r.Sound) {m : Message}
    (hanswers : r.session.Answers (r.session.update? m)) :
    ∃ r', r.tell? m = some r' ∧ r'.Sound := by
  obtain ⟨s, action, hupdate, hsound, hrecords, hasks⟩ := hanswers
  have hcount : s.count = r.session.count := by
    unfold Session.count
    rw [hrecords]
  unfold Running.tell?
  rw [hupdate]
  refine ⟨_, rfl, { h with
    session := hsound
    records_none := fun hloaded => hrecords.trans (h.records_none hloaded)
    count_pos_of_asked := ?_
    count_pos_of_underWay := fun hne => hcount ▸ h.count_pos_of_underWay hne }⟩
  intro hasked
  show 0 < s.count
  rw [hcount]
  by_cases hencode : action = some .encode
  · exact hasks hencode
  · exact h.count_pos_of_asked (by simpa [hencode] using hasked)

def Outgrows (r : Running) : Prop :=
  ∃ bd, r.session.current? = some bd ∧ bd.Outgrows r.session.entries

theorem Sound.step?_press (h : r.Sound) (k : Key) :
    ∃ r', r.step? (.press k) = some (.ok r') ∧ r'.Sound := by
  obtain ⟨r', hr', hsound⟩ := h.tell? (m := .key k) (h.session.press? k)
  refine ⟨r', ?_, hsound⟩
  unfold Running.step?
  dsimp only
  rw [hr']
  rfl

theorem Sound.step?_load (h : r.Sound) (d : Disk) :
    ∃ r', r.step? (.load d) = some (.ok r') ∧ r'.Sound := by
  unfold Running.step?
  dsimp only
  split
  · exact ⟨r, rfl, h⟩
  · next hloaded =>
    have hnone := h.records_none (Bool.eq_false_iff.2 hloaded)
    have hcount : ¬ 0 < r.session.count := by
      unfold Session.count
      rw [hnone]
      exact Nat.lt_irrefl 0
    obtain ⟨s, hs, hsound⟩ := h.session.update?_loaded hnone d r.session.filename
    unfold Running.tell?
    rw [hs]
    exact ⟨_, rfl, { h with
      session := hsound
      records_none := nofun
      count_pos_of_asked := fun hasked => absurd (h.count_pos_of_asked hasked) hcount
      count_pos_of_underWay := fun hne => absurd (h.count_pos_of_underWay hne) hcount }⟩

theorem Sound.step?_travel (h : r.Sound) :
    (∃ r', r.step? .travel = some (.ok r') ∧ r'.Sound) ∨
      r.step? .travel = some (.error .tooLarge) ∧ r.Outgrows := by
  unfold Running.step?
  dsimp only
  split
  · exact .inl ⟨r, rfl, h⟩
  · next hasked =>
    have hpos := h.count_pos_of_asked (Nat.pos_of_ne_zero hasked)
    rcases h.session.encode? hpos with ⟨builder, outcome, hencode⟩ | ⟨hencode, houtgrows⟩
    · rw [hencode]
      refine .inl ⟨_, rfl, { h with
        session := { h.session with }
        count_pos_of_asked := fun _ => hpos
        count_pos_of_underWay := fun _ => hpos
        encoded := ?_ }⟩
      intro m hm
      rcases List.mem_append.1 hm with hm | hm
      · exact h.encoded m hm
      · exact ⟨outcome, List.mem_singleton.1 hm⟩
    · rw [hencode]
      exact .inr ⟨rfl, houtgrows⟩

theorem Sound.step?_arrive (h : r.Sound) (i : Nat) :
    ∃ r', r.step? (.arrive i) = some (.ok r') ∧ r'.Sound := by
  unfold Running.step?
  dsimp only
  split
  · exact ⟨r, rfl, h⟩
  · next m hm =>
    have hmem := List.mem_of_getElem? hm
    have hpos := h.count_pos_of_underWay (List.ne_nil_of_mem hmem)
    obtain ⟨outcome, rfl⟩ := h.encoded m hmem
    have hrest : Sound { r with underWay := r.underWay.eraseIdx i } := { h with
      count_pos_of_underWay := fun _ => hpos
      encoded := fun m' hm' => h.encoded m' (List.mem_of_mem_eraseIdx hm') }
    obtain ⟨r', hr', hsound⟩ := hrest.tell? (h.session.update?_encoded hpos outcome)
    rw [hr']
    exact ⟨r', rfl, hsound⟩

theorem Sound.step? (h : r.Sound) (e : Event) :
    (∃ r', r.step? e = some (.ok r') ∧ r'.Sound) ∨
      r.step? e = some (.error .tooLarge) ∧ e = .travel ∧ r.Outgrows := by
  cases e with
  | press k => exact .inl (h.step?_press k)
  | load d => exact .inl (h.step?_load d)
  | travel => exact h.step?_travel.imp_right fun ⟨hstep, houtgrows⟩ => ⟨hstep, rfl, houtgrows⟩
  | arrive i => exact .inl (h.step?_arrive i)

theorem Sound.run? (h : r.Sound) (events : List Event) :
    (∃ r', r.run? events = some (.ok r') ∧ r'.Sound) ∨
      r.run? events = some (.error .tooLarge) ∧ ∃ before r',
        before ++ [.travel] <+: events ∧ r.run? before = some (.ok r') ∧ r'.Outgrows := by
  induction events generalizing r with
  | nil => exact .inl ⟨r, rfl, h⟩
  | cons e events ih =>
    rcases h.step? e with ⟨r', hstep, hsound⟩ | ⟨hstep, rfl, houtgrows⟩
    · have hrun : ∀ es, r.run? (e :: es) = r'.run? es := by
        intro es
        show (r.step? e).bind _ = _
        rw [hstep]
        rfl
      rcases ih hsound with ⟨r'', hr'', hsound'⟩ | ⟨hr'', before, r'', hbefore, hrest, houtgrows⟩
      · exact .inl ⟨r'', (hrun events).trans hr'', hsound'⟩
      · refine .inr ⟨(hrun events).trans hr'', e :: before, r'', ?_, ?_, houtgrows⟩
        · exact List.cons_prefix_cons.2 ⟨rfl, hbefore⟩
        · exact (hrun before).trans hrest
    · refine .inr ⟨?_, [], r, ⟨events, rfl⟩, rfl, houtgrows⟩
      show (r.step? .travel).bind _ = _
      rw [hstep]
      rfl

theorem positions_in_range (filename : String) (events : List Event) :
    (∃ r, (start filename).run? events = some (.ok r) ∧ r.session.InRange ∧
        (∃ text, r.session.view? = some text) ∧
        ∀ bd, r.session.current? = some bd →
          ∀ m, ∃ outcome, bd.checkedTrip m r.session.entries = some outcome) ∨
      (start filename).run? events = some (.error .tooLarge) ∧ ∃ before r,
        before ++ [.travel] <+: events ∧ (start filename).run? before = some (.ok r) ∧
        r.Outgrows := by
  rcases (sound_start filename).run? events with ⟨r, hrun, hsound⟩ | hstopped
  · refine .inl ⟨r, hrun, hsound.session.inRange, hsound.session.exists_view, ?_⟩
    intro bd hbd m
    obtain ⟨p, hp, hdynamic⟩ := hsound.session.isDynamic bd (List.mem_of_getElem? hbd)
    obtain ⟨outcome, -, -, hchecked⟩ := hdynamic.exists_outcome hp r.session.entries
    rcases hchecked m with hchecked | hchecked
    · exact ⟨_, hchecked⟩
    · exact ⟨_, hchecked⟩
  · exact .inr hstopped

end Running

end RecordCodec.Tool
