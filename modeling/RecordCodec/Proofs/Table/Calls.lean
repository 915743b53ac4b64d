import RecordCodec.Table.Object

/-!
This module contains programs of builder calls. Two writers make the same calls, with the same
arguments and in the same order, if their programs are equal: a program says what is called for every
offset that the calls before it may return, so it depends on no builder.
-/

namespace RecordCodec.Table

inductive Creation where
  | string (text : List UInt8)
  | strings (texts : List (List UInt8))
  | codePoints (codes : List Nat)
  | signedBytes (elems : List Nat)
  | vector (elem : Scalar) (elems : List Nat)
  deriving DecidableEq, Repr

def Creation.run (c : Creation) (b : Builder) : Except BuilderError (Builder × Nat) :=
  match c with
  | string text => b.createString text
  | strings texts => b.createStringVector texts
  | codePoints codes => b.createCodePoints codes
  | signedBytes elems => b.createSignedBytes elems
  | vector elem elems => b.createVector elem elems

inductive Action where
  | reset
  | startObject (count : Nat)
  | slot (s : Scalar) (index bits default : Nat)
  | slotAlways (s : Scalar) (index bits : Nat)
  | offsetSlot (index off : Nat)
  | finish
  deriving DecidableEq, Repr

def Action.run (c : Action) (b : Builder) : Except BuilderError Builder :=
  match c with
  | reset => .ok b.reset
  | startObject count => b.startObject count
  | slot s index bits default => b.slot s index bits default
  | slotAlways s index bits => b.slotAlways s index bits
  | offsetSlot index off => b.offsetSlot index off
  | finish => b.finishObject

inductive Calls (α : Type) where
  | done (a : α)
  | create (c : Creation) (next : Nat → Calls α)
  | act (c : Action) (next : Calls α)

namespace Calls

variable {α β σ τ : Type}

def bind (x : Calls α) (f : α → Calls β) : Calls β :=
  match x with
  | done a => f a
  | create c next => create c fun off => (next off).bind f
  | act c next => act c (next.bind f)

instance : Monad Calls where
  pure := done
  bind := bind

theorem bind_done (x : Calls α) : x.bind done = x := by
  induction x with
  | done a => rfl
  | create c next ih => simp [bind, ih]
  | act c next ih => simp [bind, ih]

theorem bind_bind (x : Calls α) (f : α → Calls β) (g : β → Calls σ) :
    (x.bind f).bind g = x.bind fun a => (f a).bind g := by
  induction x with
  | done a => rfl
  | create c next ih => simp [bind, ih]
  | act c next ih => simp [bind, ih]

instance : LawfulMonad Calls :=
  LawfulMonad.mk' Calls bind_done (fun _ _ => rfl) bind_bind

def make (c : Creation) : Calls Nat :=
  create c done

def perform (c : Action) : Calls Unit :=
  act c (done ())

def run (x : Calls α) (b : Builder) : Except BuilderError (Builder × α) :=
  match x with
  | done a => .ok (b, a)
  | create c next => do
    let (b, off) ← c.run b
    (next off).run b
  | act c next => do
    next.run (← c.run b)

@[simp]
theorem run_pure (a : α) (b : Builder) : (pure a : Calls α).run b = .ok (b, a) := rfl

theorem run_bind (x : Calls α) (f : α → Calls β) (b : Builder) :
    (x >>= f).run b = x.run b >>= fun r => (f r.2).run r.1 := by
  show (x.bind f).run b = _
  induction x generalizing b with
  | done a => rfl
  | create c next ih =>
    simp only [bind, run, ih]
    cases c.run b with
    | error e => rfl
    | ok r => rfl
  | act c next ih =>
    simp only [bind, run, ih]
    cases c.run b with
    | error e => rfl
    | ok b => rfl

theorem run_map (f : α → β) (x : Calls α) (b : Builder) :
    (f <$> x).run b = x.run b >>= fun r => .ok (r.1, f r.2) := by
  rw [← bind_pure_comp, run_bind]
  rfl

theorem run_make (c : Creation) (b : Builder) : (make c).run b = c.run b := by
  show (c.run b >>= fun r => .ok (r.1, r.2)) = c.run b
  cases c.run b with
  | error e => rfl
  | ok r => rfl

theorem run_foldlM {f : σ → α → Calls σ} {g : Builder × σ → α → Except BuilderError (Builder × σ)}
    (h : ∀ s a b, (f s a).run b = g (b, s) a) (as : List α) (s : σ) (b : Builder) :
    (as.foldlM f s).run b = as.foldlM g (b, s) := by
  induction as generalizing s b with
  | nil => rfl
  | cons a as ih =>
    rw [List.foldlM_cons, List.foldlM_cons, run_bind, h]
    cases g (b, s) a with
    | error e => rfl
    | ok r => exact ih r.2 r.1

def exec (x : Calls Unit) (b : Builder) : Except BuilderError Builder :=
  Prod.fst <$> x.run b

theorem exec_bind (x : Calls α) (f : α → Calls Unit) (b : Builder) :
    (x >>= f).exec b = x.run b >>= fun r => (f r.2).exec r.1 := by
  unfold exec
  rw [run_bind, map_bind]

theorem exec_make_bind (c : Creation) (f : Nat → Calls Unit) (b : Builder) :
    (make c >>= f).exec b = c.run b >>= fun r => (f r.2).exec r.1 := by
  rw [exec_bind, run_make]

theorem exec_perform (c : Action) (b : Builder) : (perform c).exec b = c.run b := by
  show Prod.fst <$> (c.run b >>= fun b => .ok (b, ())) = c.run b
  cases c.run b with
  | error e => rfl
  | ok b => rfl

theorem exec_seq (x : Calls Unit) (f : Unit → Calls Unit) (b : Builder) :
    (x >>= f).exec b = x.exec b >>= fun b => (f ()).exec b := by
  rw [exec_bind]
  unfold exec
  rw [bind_map_left]

theorem exec_perform_bind (c : Action) (f : Unit → Calls Unit) (b : Builder) :
    (perform c >>= f).exec b = c.run b >>= fun b => (f ()).exec b := by
  rw [exec_seq, exec_perform]

theorem exec_forM {f : α → Calls Unit} {g : Builder → α → Except BuilderError Builder}
    (h : ∀ a b, (f a).exec b = g b a) (as : List α) (b : Builder) :
    (as.forM f).exec b = as.foldlM g b := by
  induction as generalizing b with
  | nil => rfl
  | cons a as ih =>
    rw [List.forM, List.foldlM_cons, exec_seq, h]
    exact bind_congr ih

end Calls

end RecordCodec.Table
