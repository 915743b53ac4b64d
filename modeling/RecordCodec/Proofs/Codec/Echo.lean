import RecordCodec.Proofs.Codec.Datum
import RecordCodec.Proofs.Codec.Trips
import RecordCodec.Proofs.Planner.TypeText
import Mathlib.Data.List.Forall2

/-!
This module contains that a trip echoes integers and truth values: what is shown at its end is what
was entered, and a number that is no value of its field is refused with the name of the field.
-/

namespace RecordCodec

open RecordCodec.Table

namespace Binding

theorem enter_append {bd : Binding} {fields : List Field} {entries : List Entry}
    (hlength : fields.length = entries.length) (struct : Array Value) (fields' : List Field)
    (entries' : List Entry) :
    bd.enter struct (fields ++ fields') (entries ++ entries') =
      bd.enter struct fields entries >>= fun struct => bd.enter struct fields' entries' := by
  induction fields generalizing struct entries with
  | nil =>
    obtain rfl := List.length_eq_zero_iff.1 hlength.symm
    rfl
  | cons f fields ih =>
    cases entries with
    | nil => cases hlength
    | cons entry entries =>
      rw [List.cons_append, List.cons_append, enter, enter]
      cases hread : f.type.readEntry entry (bd.value struct f.index) with
      | error e => rfl
      | ok v => exact ih (Nat.succ.inj hlength) _

abbrev Row := Field × Datum

theorem IsDynamic.enter_rows {p : Plan} {bd : Binding} (h : IsDynamic p bd) (before : List Value)
    {rows : List Row} (hfields : p.Continues before.length (rows.map (·.1)))
    (hof : ∀ row ∈ rows, row.2.IsOf row.1.type)
    (hrange : ∀ row ∈ rows, row.2.inRange row.1.type = true) (after : List Value) :
    bd.enter (before ++ rows.map (·.1.type.default) ++ after).toArray (rows.map (·.1))
        (rows.map (·.2.entry)) =
      .ok (before ++ rows.map (fun row => row.2.value row.1.type) ++ after).toArray := by
  induction rows generalizing before with
  | nil => rfl
  | cons row rows ih =>
    rw [List.map_cons] at hfields
    obtain ⟨hf, hindex⟩ := hfields.head
    obtain ⟨hi, -⟩ := Array.getElem?_eq_some_iff.1 hf
    have htarget := h.targetOf _ hi
    have hread := (hof row List.mem_cons_self).readEntry_eq (hrange row List.mem_cons_self)
    have hvalue : bd.value (before ++ (row :: rows).map (·.1.type.default) ++ after).toArray
        row.1.index = row.1.type.default := by
      rw [hindex, h.value_eq hi]
      simp
    have hset : (before ++ (row :: rows).map (·.1.type.default) ++ after).toArray.setIfInBounds
          before.length (row.2.value row.1.type) =
        (before ++ [row.2.value row.1.type] ++ rows.map (·.1.type.default) ++ after).toArray := by
      simp
    have hrest := ih (before ++ [row.2.value row.1.type])
      (by rw [List.length_append]; exact hfields.tail)
      (fun r hr => hof r (List.mem_cons_of_mem row hr))
      (fun r hr => hrange r (List.mem_cons_of_mem row hr))
    change bd.enter _ (row.1 :: rows.map (·.1)) (row.2.entry :: rows.map (·.2.entry)) = _
    rw [enter, hvalue, hread, hindex, htarget]
    show bd.enter (Array.setIfInBounds _ _ _) _ _ = _
    rw [hset, hrest]
    simp

theorem rows_of_forall₂ {fields : List Field} {data : List Datum}
    (hdata : List.Forall₂ (fun f d => d.isOf f.type = true) fields data) :
    (fields.zip data).map (·.1) = fields ∧
      data.map (·.entry) = (fields.zip data).map (·.2.entry) ∧
      ∀ row ∈ fields.zip data, row.2.IsOf row.1.type := by
  have hsnd : (fields.zip data).map (·.2) = data := List.map_snd_zip hdata.length_eq.ge
  refine ⟨List.map_fst_zip hdata.length_eq.le, ?_, ?_⟩
  · conv_lhs => rw [← hsnd]
    rw [List.map_map]
    rfl
  · intro row hrow
    exact Datum.isOf_iff.1 ((List.forall₂_iff_zip.1 hdata).2 hrow)

section

variable {p : Plan} {bd : Binding} (h : IsDynamic p bd) (hp : p.WellFormed) {rows : List Row}
  (hrows : rows.map (·.1) = p.fields.toList)

include h hp hrows

theorem IsDynamic.new_eq : bd.new = (rows.map (·.1.type.default)).toArray := by
  have hdefaults : rows.map (·.1.type.default) = p.fields.toList.map (·.type.default) := by
    rw [← hrows, List.map_map]
    rfl
  rw [(h.assigns_new hp).eq_map, hdefaults, ← Array.toList_map]

variable (hof : ∀ row ∈ rows, row.2.IsOf row.1.type)

include hof

theorem IsDynamic.exists_enter_eq_error {row : Row}
    (hrow : rows.find? (fun row => !row.2.inRange row.1.type) = some row) :
    ∃ e, bd.enter bd.new bd.plan.fields.toList (rows.map (·.2.entry)) =
      .error (.entry row.1.name e) := by
  have hnew := h.new_eq hp hrows
  have hcontinues := hp.continues
  rw [← hrows] at hcontinues
  rw [h.bound.plan, ← hrows, hnew]
  obtain ⟨hout, before, after, rfl, hbefore⟩ := List.find?_eq_some_iff_append.1 hrow
  simp only [List.map_append, List.map_cons] at hcontinues ⊢
  have henter := h.enter_rows [] hcontinues.append_left
    (fun r hr => hof r (List.mem_append_left _ hr)) (fun r hr => by simpa using hbefore r hr)
    (row.1.type.default :: after.map (·.1.type.default))
  obtain ⟨e, he⟩ := (hof row (by simp)).exists_readEntry_eq_error (by simpa using hout)
    (bd.value (before.map (fun row => row.2.value row.1.type) ++
      row.1.type.default :: after.map (·.1.type.default)).toArray row.1.index)
  refine ⟨e, ?_⟩
  rw [enter_append (by simp)]
  rw [List.nil_append, List.nil_append] at henter
  rw [henter]
  show bd.enter _ (row.1 :: _) (row.2.entry :: _) = _
  rw [enter, he]
  rfl

theorem IsDynamic.enter_all (hrange : ∀ row ∈ rows, row.2.inRange row.1.type = true) :
    bd.enter bd.new bd.plan.fields.toList (rows.map (·.2.entry)) =
      .ok (rows.map fun row => row.2.value row.1.type).toArray := by
  have hcontinues := hp.continues
  rw [← hrows] at hcontinues
  have henter := h.enter_rows [] hcontinues hof hrange []
  rw [List.append_nil, List.append_nil, List.nil_append, List.nil_append, ← h.new_eq hp hrows, hrows,
    ← h.bound.plan] at henter
  exact henter

theorem IsDynamic.shown_rows (hrange : ∀ row ∈ rows, row.2.inRange row.1.type = true)
    {bytes : List UInt8} (hread : ∀ (i : Nat) f, p.fields[i]? = some f →
      f.type.read (Reader.ofBytes bytes.toArray) f.slot f.type.default =
        f.type.canonical (bd.value (rows.map fun row => row.2.value row.1.type).toArray i)) :
    bd.shown (bd.inflate bytes.toArray) =
      rows.map fun row => row.1.name ++ " = " ++ row.2.shown := by
  unfold shown
  rw [h.bound.plan, ← hrows, List.map_map]
  apply List.map_congr_left
  intro row hrow
  obtain ⟨i, hi⟩ := List.getElem?_of_mem hrow
  have hf : p.fields[i]? = some row.1 := by
    rw [← Array.getElem?_toList, ← hrows, List.getElem?_map, hi]
    rfl
  have hindex := (hp.isPlaced i _ hf).index
  obtain ⟨hlt, -⟩ := Array.getElem?_eq_some_iff.1 hf
  have hvalue : bd.value (bd.inflate bytes.toArray) row.1.index =
      row.1.type.canonical (row.2.value row.1.type) := by
    rw [hindex, h.value_eq hlt, h.inflate_eq hp, Array.getElem?_map, hf]
    show row.1.type.read _ _ _ = _
    rw [hread i row.1 hf, h.value_eq hlt, List.getElem?_toArray, List.getElem?_map, hi]
    rfl
  show row.1.name ++ " = " ++ row.1.type.render _ = _
  rw [hvalue, (hof row hrow).render_canonical (hrange row hrow)]

theorem IsDynamic.roundTrip_rows (hsize : p.layout.size ≤ 65528)
    (hrange : ∀ row ∈ rows, row.2.inRange row.1.type = true) (b : Builder) {struct : Array Value}
    (hvalues : struct = (rows.map fun row => row.2.value row.1.type).toArray) :
    (∃ b' bytes, bd.flatten struct b = .ok b' ∧ b'.finishedBytes = .ok bytes ∧
        bd.roundTrip b (rows.map (·.2.entry)) =
          .ok (b', ⟨bytes, rows.map fun row => row.1.name ++ " = " ++ row.2.shown⟩)) ∨
      bd.flatten struct b = .error .tooLarge ∧
        bd.roundTrip b (rows.map (·.2.entry)) = .error (.builder .tooLarge) ∧
        0x40000000 ≤ bd.sizeBound struct := by
  subst hvalues
  have henter := h.enter_all hp hrows hof hrange
  have hstruct := h.bound.isStruct_enter (h.bound.isStruct_new hp)
    (fun f hf => hp.getElem?_index hf) (h.bound.plan ▸ henter)
  rw [roundTrip_of_enter_ok henter]
  by_cases hgrowth : bd.flatten (rows.map fun row => row.2.value row.1.type).toArray b =
      .error .tooLarge
  · refine .inr ⟨hgrowth, ?_, le_sizeBound_of_tooLarge hp h.bound hstruct (by rw [hgrowth]; rfl)⟩
    rw [hgrowth]
    rfl
  · obtain ⟨b', bytes, hflatten, hbytes, hread, -⟩ :=
      h.bound.exists_decodable hp hsize hstruct hgrowth
    refine .inl ⟨b', bytes, hflatten, hbytes, ?_⟩
    rw [hflatten]
    show (b'.finishedBytes.mapError TripError.builder >>= _) = _
    rw [hbytes, ← h.shown_rows hp hrows hof hrange hread]
    rfl

end

theorem roundTrip_echoes {r : Record} {p : Plan} {bd : Binding} (hp : assemble r = .ok p)
    (hsize : p.layout.size ≤ 65528) (hbd : Binding.dynamic p = .ok bd) {data : List Datum}
    (hdata : List.Forall₂ (fun f d => d.isOf f.type = true) p.fields.toList data) (b : Builder) :
    let rows := p.fields.toList.zip data
    let struct := (rows.map fun row => row.2.value row.1.type).toArray
    match rows.find? (fun row => !row.2.inRange row.1.type) with
    | some row => ∃ e, bd.roundTrip b (data.map (·.entry)) = .error (.entry row.1.name e)
    | none =>
      (∃ b' bytes, bd.flatten struct b = .ok b' ∧ b'.finishedBytes = .ok bytes ∧
        bd.roundTrip b (data.map (·.entry)) =
          .ok (b', ⟨bytes, rows.map fun row => row.1.name ++ " = " ++ row.2.shown⟩)) ∨
      bd.flatten struct b = .error .tooLarge ∧
        bd.roundTrip b (data.map (·.entry)) = .error (.builder .tooLarge) ∧
        0x40000000 ≤ bd.sizeBound struct := by
  intro rows struct
  have hwellFormed := wellFormed_of_assemble hp
  have hdynamic := isDynamic_of_dynamic hwellFormed hbd
  obtain ⟨hrows, hentries, hof⟩ := rows_of_forall₂ hdata
  rw [hentries]
  split
  · next row hrow =>
    obtain ⟨e, he⟩ := hdynamic.exists_enter_eq_error hwellFormed hrows hof hrow
    refine ⟨e, ?_⟩
    unfold roundTrip
    rw [he]
    rfl
  · next hnone =>
    refine hdynamic.roundTrip_rows hwellFormed hrows hof hsize ?_ b rfl
    intro row hrow
    simpa using List.find?_eq_none.1 hnone row hrow

def gaugeRecord : Record where
  name := "Gauge"
  fields := [⟨"low", "s64"⟩, ⟨"high", "u64"⟩, ⟨"on", "option<bool>"⟩, ⟨"step", "option<s8>"⟩,
    ⟨"marks", "list<s16>"⟩, ⟨"flags", "list<bool>"⟩]

def gaugePlan : Plan :=
  Plan.ofFields gaugeRecord.name (fieldsFrom 0 gaugeRecord.fields
    [.ofScalar .s64, .ofScalar .u64, .optional (.ofScalar .bool), .optional (.ofScalar .s8),
      .sequence (.ofScalar .s16), .sequence (.ofScalar .bool)])

theorem assemble_gaugeRecord : assemble gaugeRecord = .ok gaugePlan :=
  assemble_of_names (by decide)

def gaugeData (step : Option Atom) : List Datum :=
  [.one (.int (-0x8000000000000000)), .one (.int 0xffffffffffffffff), .maybe (some (.bool false)),
    .maybe step, .many [.int (-0x8000), .int 0x7fff], .many []]

theorem roundTrip_echoes_gauge :
    ∃ bd, Binding.dynamic gaugePlan = .ok bd ∧
      (∃ b' bytes, b'.finishedBytes = .ok bytes ∧
        bd.roundTrip (.new 0) ((gaugeData none).map (·.entry)) = .ok (b', ⟨bytes,
        ["low = -9223372036854775808", "high = 18446744073709551615", "on = some(false)",
          "step = none", "marks = [-32768, 32767]", "flags = []"]⟩)) ∧
      ∃ e, bd.roundTrip (.new 0) ((gaugeData (some (.int 128))).map (·.entry)) =
        .error (.entry "step" e) := by
  have hp := wellFormed_of_assemble assemble_gaugeRecord
  obtain ⟨bd, hbd⟩ : ∃ bd, Binding.dynamic gaugePlan = .ok bd := exists_dynamic hp (by decide)
  have hdynamic := isDynamic_of_dynamic hp hbd
  have hdata : List.Forall₂ (fun f d => Datum.isOf d f.type = true) gaugePlan.fields.toList
      (gaugeData none) := by decide
  have hdata' : List.Forall₂ (fun f d => Datum.isOf d f.type = true) gaugePlan.fields.toList
      (gaugeData (some (.int 128))) := by decide
  have hshown := roundTrip_echoes assemble_gaugeRecord (by decide) hbd hdata (.new 0)
  have hrefused := roundTrip_echoes assemble_gaugeRecord (by decide) hbd hdata' (.new 0)
  refine ⟨bd, hbd, ?_, hrefused⟩
  rcases hshown with ⟨b', bytes, -, hshown⟩ | ⟨-, -, hlarge⟩
  · exact ⟨b', bytes, hshown⟩
  · have hstruct : bd.isStruct ((gaugePlan.fields.toList.zip (gaugeData none)).map fun row =>
        row.2.value row.1.type).toArray = true := by
      unfold isStruct
      rw [hdynamic.members]
      decide
    have hsmall := sizeBound_lt (hdynamic.bound.fits hp hstruct) (by decide)
    exact absurd hlarge (Nat.not_le_of_lt hsmall)

/-! A list that no builder has room for. -/

def tallyRecord : Record where
  name := "Tally"
  fields := [⟨"marks", "list<u64>"⟩]

def tallyPlan : Plan :=
  Plan.ofFields tallyRecord.name (fieldsFrom 0 tallyRecord.fields [.sequence (.ofScalar .u64)])

theorem assemble_tallyRecord : assemble tallyRecord = .ok tallyPlan :=
  assemble_of_names (by decide)

theorem flatten_tally {bd : Binding} (h : IsDynamic tallyPlan bd) {elems : List Nat}
    (helems : 0x10000000 ≤ elems.length) (b : Builder) :
    bd.flatten #[.sequence (some elems)] b = .error .tooLarge := by
  have hvalue : bd.value #[.sequence (some elems)] 0 = .sequence (some elems) := by
    rw [h.value_eq (by decide)]
    rfl
  have hplan : bd.plan.indirect = [0] ∧
      ∃ f, bd.plan.fields[0]? = some f ∧ f.type = .sequence (.ofScalar .u64) := by
    rw [h.bound.plan]
    exact ⟨by decide, _, rfl, rfl⟩
  obtain ⟨hindirect, f, hf, htype⟩ := hplan
  unfold flatten buildObjects
  rw [hindirect, List.foldlM_cons]
  unfold buildObjects.step
  dsimp only
  rw [hf]
  dsimp only
  rw [hvalue, htype]
  have hvector : b.reset.startVector 8 elems.length 8 = .error .tooLarge :=
    Builder.startVector_eq_error rfl (by omega) 8
  show (((((b.reset.startVector 8 elems.length 8 >>= _) >>= _) >>= _) >>= _) >>= _) = _
  rw [hvector]
  rfl

theorem isOf_zeros (n : Nat) :
    Datum.IsOf (.many (List.replicate n (.int 0))) (.sequence (.ofScalar .u64)) where
  shape := rfl
  text := rfl
  scalar := by decide
  atoms := by
    intro x hx
    rw [List.eq_of_mem_replicate hx]
    decide

theorem inRange_zeros (n : Nat) :
    Datum.inRange (.many (List.replicate n (.int 0))) (.sequence (.ofScalar .u64)) = true := by
  unfold Datum.inRange
  rw [List.all_eq_true]
  intro x hx
  rw [List.eq_of_mem_replicate hx]
  decide

theorem IsDynamic.roundTrip_zeros {bd : Binding} (h : IsDynamic tallyPlan bd) {n : Nat}
    (hn : 0x10000000 ≤ n) (b : Builder) :
    bd.roundTrip b [(Datum.many (List.replicate n (.int 0))).entry] =
      .error (.builder .tooLarge) := by
  obtain ⟨f, hf, htype⟩ : ∃ f, tallyPlan.fields.toList = [f] ∧
    f.type = .sequence (.ofScalar .u64) := ⟨_, rfl, rfl⟩
  have hrows : List.map (·.1) [((f, .many (List.replicate n (.int 0))) : Row)] =
      tallyPlan.fields.toList := hf.symm
  have henter := h.enter_all (wellFormed_of_assemble assemble_tallyRecord) hrows
    (List.forall_mem_singleton.2 (htype ▸ isOf_zeros n))
    (List.forall_mem_singleton.2 (htype ▸ inRange_zeros n))
  rw [List.map_singleton, List.map_singleton] at henter
  rw [roundTrip_of_enter_ok henter]
  have hlength : 0x10000000 ≤
      ((List.replicate n (Atom.int 0)).map (·.bits f.type.scalar)).length := by
    rwa [List.length_map, List.length_replicate]
  have hflatten := flatten_tally h hlength b
  show ((bd.flatten #[.sequence (some _)] b).mapError TripError.builder >>= _) = _
  rw [hflatten]
  rfl

theorem roundTrip_tally :
    ∃ p bd, assemble tallyRecord = .ok p ∧ p.layout.size ≤ 65528 ∧ Binding.dynamic p = .ok bd ∧
      List.Forall₂ (fun f d => Datum.isOf d f.type = true ∧ d.inRange f.type = true)
        p.fields.toList [.many (List.replicate 0x10000000 (.int 0))] ∧
      ∀ b, bd.roundTrip b [(Datum.many (List.replicate 0x10000000 (.int 0))).entry] =
        .error (.builder .tooLarge) := by
  have hp := wellFormed_of_assemble assemble_tallyRecord
  obtain ⟨bd, hbd⟩ := exists_dynamic hp (by decide)
  refine ⟨tallyPlan, bd, assemble_tallyRecord, by decide, hbd, ?_,
    (isDynamic_of_dynamic hp hbd).roundTrip_zeros (Nat.le_refl _)⟩
  obtain ⟨f, hf, htype⟩ : ∃ f, tallyPlan.fields.toList = [f] ∧
    f.type = .sequence (.ofScalar .u64) := ⟨_, rfl, rfl⟩
  rw [hf]
  refine .cons ?_ .nil
  rw [htype]
  exact ⟨Datum.isOf_iff.2 (isOf_zeros _), inRange_zeros _⟩

end Binding

end RecordCodec
