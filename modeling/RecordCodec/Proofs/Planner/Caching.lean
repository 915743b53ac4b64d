import RecordCodec.Compiler
import RecordCodec.Proofs.Planner.Assembled
import RecordCodec.Proofs.Planner.TypeText
import RecordCodec.Proofs.Text.Parts

/-!
This module contains what a compiler has kept after any calls. The plan of a record is that of the
first accepted record with the same key. Keys tell records apart as long as their texts have no NUL
characters.
-/

namespace RecordCodec

open RecordCodec.Text

/-! Keys. -/

def Record.texts (r : Record) : List String :=
  r.name :: r.fields.flatMap fun d => [d.name, d.type]

def Record.IsPlain (r : Record) : Prop :=
  ∀ text ∈ r.texts, '\x00' ∉ text.toList

instance (r : Record) : Decidable r.IsPlain :=
  inferInstanceAs (Decidable (∀ text ∈ r.texts, '\x00' ∉ text.toList))

theorem Record.toList_key (r : Record) :
    r.key.toList = ['\x00'].intercalate (r.texts.map String.toList) :=
  String.toList_intercalate

theorem eq_of_flatMap_texts_eq {ds es : List Declaration}
    (h : (ds.flatMap fun d => [d.name, d.type]) = es.flatMap fun e => [e.name, e.type]) :
    ds = es := by
  induction ds generalizing es with
  | nil =>
    cases es with
    | nil => rfl
    | cons e es => simp at h
  | cons d ds ih =>
    cases es with
    | nil => simp at h
    | cons e es =>
      simp only [List.flatMap_cons, List.cons_append, List.nil_append, List.cons.injEq] at h
      obtain ⟨hname, htype, h⟩ := h
      rcases d with ⟨dname, dtype⟩
      rcases e with ⟨ename, etype⟩
      dsimp only at hname htype
      rw [hname, htype, ih h]

theorem Record.eq_of_texts_eq {r s : Record} (h : r.texts = s.texts) : r = s := by
  rcases r with ⟨name, ds⟩
  rcases s with ⟨name', es⟩
  obtain ⟨hname, hfields⟩ := List.cons.inj h
  dsimp only at hname hfields
  rw [hname, eq_of_flatMap_texts_eq hfields]

theorem Record.eq_of_key_eq {r s : Record} (hr : r.IsPlain) (hs : s.IsPlain) (h : r.key = s.key) :
    r = s := by
  have hsplit : ∀ {t : Record}, t.IsPlain →
      splitAtAll (· == '\x00') t.key.toList = t.texts.map String.toList := by
    intro t ht
    rw [t.toList_key]
    apply splitAtAll_intercalate
    · simp [Record.texts]
    · intro part hpart
      obtain ⟨text, htext, rfl⟩ := List.mem_map.1 hpart
      exact ht text htext
  apply Record.eq_of_texts_eq
  apply List.map_inj_right (fun _ _ => String.toList_inj.1) |>.1
  rw [← hsplit hr, ← hsplit hs, h]

theorem Record.name_eq_of_key_eq {r s : Record} (hr : '\x00' ∉ r.name.toList)
    (hs : '\x00' ∉ s.name.toList) (h : r.key = s.key) : r.name = s.name := by
  have hhead : ∀ {t : Record}, '\x00' ∉ t.name.toList →
      (splitAtAll (· == '\x00') t.key.toList).head? = some t.name.toList := by
    intro t ht
    have hall : ∀ c ∈ t.name.toList, (c == '\x00') = false := by
      intro c hc
      rw [beq_eq_false_iff_ne]
      rintro rfl
      exact ht hc
    rw [t.toList_key, Record.texts, List.map_cons]
    cases ((t.fields.flatMap fun d => [d.name, d.type]).map String.toList) with
    | nil => rw [List.intercalate_singleton, splitAtAll_of_all hall, List.head?_cons]
    | cons next parts =>
      rw [List.intercalate_cons_cons, List.append_assoc, List.singleton_append,
        splitAtAll_append_cons _ _ (by simp), splitAtAll_of_all hall, List.singleton_append,
        List.head?_cons]
  have hnames := hhead hr
  rw [h, hhead hs] at hnames
  exact String.toList_inj.1 (Option.some.inj hnames).symm

/-! Runs. -/

namespace Compiler

def after (history : List Record) : Compiler :=
  history.foldl (fun c r => (c.compile r).compiler) {}

def planFor? (key : String) (r : Record) : Option Plan :=
  if r.key = key then (assemble r).toOption else none

theorem lookup_compile (c : Compiler) (r : Record) (key : String) :
    (c.compile r).compiler.plans.lookup key = (c.plans.lookup key).or (planFor? key r) := by
  unfold compile planFor?
  cases hlookup : c.plans.lookup r.key with
  | some p =>
    dsimp only
    by_cases heq : r.key = key
    · simp [← heq, hlookup]
    · simp [heq]
  | none =>
    cases assemble r with
    | error f => simp [Except.toOption]
    | ok p =>
      dsimp only
      rw [List.lookup_append]
      by_cases heq : r.key = key
      · simp [heq, Except.toOption]
      · have hne : (key == r.key) = false := by
          simpa [beq_eq_false_iff_ne] using Ne.symm heq
        simp [heq, List.lookup_cons, hne]

theorem lookup_foldl_compile (c : Compiler) (history : List Record) (key : String) :
    (history.foldl (fun c r => (c.compile r).compiler) c).plans.lookup key =
      (c.plans.lookup key).or (history.findSome? (planFor? key)) := by
  induction history generalizing c with
  | nil => simp
  | cons r history ih =>
    rw [List.foldl_cons, ih, lookup_compile, Option.or_assoc, List.findSome?_cons]
    cases planFor? key r with
    | none => simp
    | some p => simp

theorem lookup_after (history : List Record) (key : String) :
    (after history).plans.lookup key = history.findSome? (planFor? key) := by
  rw [after, lookup_foldl_compile]
  rfl

theorem result_after (history : List Record) (r : Record) :
    ((after history).compile r).result =
      match history.findSome? (planFor? r.key) with
      | some p => .ok p
      | none => assemble r := by
  unfold compile
  rw [lookup_after]
  cases history.findSome? (planFor? r.key) with
  | some p => rfl
  | none => cases assemble r <;> rfl

theorem of_findSome?_planFor? {history : List Record} {key : String} {p : Plan}
    (h : history.findSome? (planFor? key) = some p) :
    ∃ s ∈ history, s.key = key ∧ assemble s = .ok p := by
  obtain ⟨s, hs, hplan⟩ := List.exists_of_findSome?_eq_some h
  unfold planFor? at hplan
  split at hplan
  · next hkey =>
    refine ⟨s, hs, hkey, ?_⟩
    cases hassemble : assemble s with
    | error f => simp [hassemble, Except.toOption] at hplan
    | ok q =>
      rw [hassemble] at hplan
      simpa [Except.toOption] using hplan
  · contradiction

theorem compile_transparent_iff (history : List Record) (r : Record) :
    (((after history).compile r).result = assemble r ↔
      ∀ p, history.findSome? (planFor? r.key) = some p → assemble r = .ok p) ∧
    ((∀ s ∈ r :: history, s.IsPlain) → ((after history).compile r).result = assemble r) := by
  have hiff : ((after history).compile r).result = assemble r ↔
      ∀ p, history.findSome? (planFor? r.key) = some p → assemble r = .ok p := by
    rw [result_after]
    cases history.findSome? (planFor? r.key) with
    | none => simp
    | some p => simp [eq_comm]
  refine ⟨hiff, ?_⟩
  intro hplain
  rw [hiff]
  intro p hp
  obtain ⟨s, hs, hkey, hassemble⟩ := of_findSome?_planFor? hp
  have heq : s = r := Record.eq_of_key_eq (hplain s (List.mem_cons_of_mem _ hs))
    (hplain r (List.mem_cons_self ..)) hkey
  rw [← heq]
  exact hassemble

def pairRecord : Record where
  name := "A"
  fields := [⟨"a", "u8"⟩, ⟨"b", "::u8"⟩]

def soleRecord : Record where
  name := "A"
  fields := [⟨"a", "u8\x00b\x00::u8"⟩]

theorem segments_qualified : segments "::u8" = some ["u8"] ∧
    segments "u8\x00b\x00::u8" = some ["u8"] := by
  constructor
  · apply segments_go_of_isNamed
    decide
  · apply segments_go_of_isNamed
    decide

theorem typeOfText_of_segments {text : String} (h : segments text = some ["u8"]) :
    typeOfText text = .ok (.ofScalar .u8) := by
  unfold typeOfText
  rw [h]
  rfl

theorem assemble_pairRecord : assemble pairRecord =
    .ok (Plan.ofFields "A" (fieldsFrom 0 pairRecord.fields [.ofScalar .u8, .ofScalar .u8])) := by
  apply assemble_eq_ok
  · decide
  · decide
  · decide
  · decide
  · have hname := (segments_of_mem_leafNames (show "u8" ∈ leafNames by decide)).1
    simp [pairRecord, typeOfText_of_segments hname, typeOfText_of_segments segments_qualified.1]

theorem assemble_soleRecord : assemble soleRecord =
    .ok (Plan.ofFields "A" (fieldsFrom 0 soleRecord.fields [.ofScalar .u8])) := by
  apply assemble_eq_ok
  · decide
  · decide
  · decide
  · decide
  · simp [soleRecord, typeOfText_of_segments segments_qualified.2]

theorem compile_transparent_iff_soleRecord :
    ((after [pairRecord]).compile pairRecord).result = assemble pairRecord ∧
      ((after [pairRecord]).compile soleRecord).result ≠ assemble soleRecord := by
  refine ⟨(compile_transparent_iff [pairRecord] pairRecord).2 (by decide), ?_⟩
  rw [Ne, (compile_transparent_iff [pairRecord] soleRecord).1]
  intro h
  have hkept : [pairRecord].findSome? (planFor? soleRecord.key) =
      some (Plan.ofFields "A" (fieldsFrom 0 pairRecord.fields [.ofScalar .u8, .ofScalar .u8])) := by
    have hkey : pairRecord.key = soleRecord.key := by decide
    simp [planFor?, hkey, assemble_pairRecord, Except.toOption]
  have hsole := h _ hkept
  rw [assemble_soleRecord] at hsole
  have hsizes := congrArg (·.toOption.map (·.fields.size)) hsole
  contradiction

end Compiler

end RecordCodec
