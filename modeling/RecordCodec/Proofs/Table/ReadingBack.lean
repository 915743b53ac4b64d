import RecordCodec.Proofs.Table.Locating
import RecordCodec.Proofs.Mapping

/-!
This module contains what reading a field gives when it is known what stands there: scalars, texts
and vectors come back as they were written, up to what the reader does not accept.
-/

namespace RecordCodec.Table

def readableText (text : List UInt8) : List UInt8 :=
  if Text.isUtf8 text then text else []

namespace Reader

variable {r : Reader} {w : List UInt8} {slot : UInt16} {off target : Nat}

theorem lookup?_eq_some {s : Scalar} {x : Nat} (hbytes : r.bytes = w.toArray)
    (hfield : r.field? slot s.size = some (w.length - off))
    (hstands : StandsAt w off (leBytes s.size x)) (hx : x < Nat.pow 256 s.size) :
    r.lookup? s slot = some (s.ofStored x) := by
  have hoff := hstands.le_length
  unfold lookup?
  rw [hfield, Option.bind_eq_bind, Option.bind_some, hbytes,
    hstands.load?_leBytes (by omega) hx]
  rfl

theorem vectorAt?_eq_some {count elemSize pos : Nat} {bytes : List UInt8}
    (hbytes : r.bytes = w.toArray) (hoffset : HoldsOffset w off target)
    (hvector : HoldsVector w target count bytes) (hsize : 4 + elemSize * count ≤ target)
    (hpos : pos + off = w.length) :
    r.vectorAt? pos elemSize = some (w.length - (target - 4), count) := by
  obtain ⟨hlt, hroom, hdistance⟩ := hoffset
  obtain ⟨hcount, hstands⟩ := hvector
  have htarget := hstands.le_length
  have hpow : Nat.pow 256 4 = 0x100000000 := rfl
  have hstart : pos + (off - target) = w.length - target := by omega
  have hdata : w.length - target + 4 = w.length - (target - 4) := by omega
  unfold vectorAt?
  rw [hbytes, hdistance.load?_leBytes hpos (by omega), Option.bind_eq_bind, Option.bind_some,
    hstart, hstands.left.load?_leBytes (by omega) (by omega), Option.bind_eq_bind,
    Option.bind_some, hdata]
  dsimp only
  rw [← Option.bind_eq_bind, guard_bind_of]
  · rfl
  · rw [List.size_toArray, Nat.mul_comm]
    omega

theorem vector?_eq_some {count elemSize : Nat} {bytes : List UInt8}
    (hbytes : r.bytes = w.toArray) (hfield : r.field? slot 4 = some (w.length - off))
    (hoffset : HoldsOffset w off target) (hvector : HoldsVector w target count bytes)
    (hsize : 4 + elemSize * count ≤ target) :
    r.vector? slot elemSize = some (w.length - (target - 4), count) := by
  have hoff := hoffset.2.2.le_length
  unfold vector?
  rw [hfield, Option.bind_eq_bind, Option.bind_some]
  apply vectorAt?_eq_some hbytes hoffset hvector hsize
  omega

theorem slice_eq {count : Nat} {bytes : List UInt8} (hbytes : r.bytes = w.toArray)
    (hvector : HoldsVector w target count bytes) :
    r.slice (w.length - (target - 4)) bytes.length = bytes := by
  have hstands := hvector.2.right
  rw [length_leBytes] at hstands
  unfold slice
  rw [hbytes]
  exact hstands.extract

theorem text?_eq {text : List UInt8} (hbytes : r.bytes = w.toArray)
    (hfield : r.field? slot 4 = some (w.length - off)) (hoffset : HoldsOffset w off target)
    (hvector : HoldsVector w target text.length text) :
    r.text? slot = (some text).filter Text.isUtf8 := by
  have hfits := hvector.fits
  unfold text?
  rw [vector?_eq_some hbytes hfield hoffset hvector (by omega), Option.bind_eq_bind,
    Option.bind_some]
  dsimp only
  rw [slice_eq hbytes hvector]

theorem elements?_eq {s : Scalar} {elems : List Nat} (hbytes : r.bytes = w.toArray)
    (hfield : r.field? slot 4 = some (w.length - off)) (hoffset : HoldsOffset w off target)
    (hvector : HoldsVector w target elems.length (elems.flatMap (leBytes s.size)))
    (helems : ∀ x ∈ elems, x < Nat.pow 256 s.size) :
    r.elements? s slot = some (elems.map s.ofStored) := by
  have hstands := hvector.2.right
  have htarget := hvector.le_length
  have hfits := hvector.fits
  rw [length_flatMap_leBytes] at hfits
  rw [length_leBytes] at hstands
  unfold elements?
  rw [vector?_eq_some hbytes hfield hoffset hvector hfits, Option.bind_eq_bind, Option.bind_some]
  have hmap : elems.length = (elems.map s.ofStored).length := by rw [List.length_map]
  dsimp only
  rw [hmap]
  apply mapM_range_eq_some
  intro i y hy
  rw [List.getElem?_map, Option.map_eq_some_iff] at hy
  obtain ⟨x, hx, rfl⟩ := hy
  have helem := hstands.flatMap_leBytes hx
  obtain ⟨hi, -⟩ := List.getElem?_eq_some_iff.1 hx
  have hmul := Nat.mul_le_mul_left s.size (Nat.le_of_lt hi)
  rw [hbytes, Nat.mul_comm i, helem.load?_leBytes]
  · rfl
  · omega
  · apply helems
    exact List.mem_of_getElem? hx

theorem bytes?_eq {elems : List Nat} (hbytes : r.bytes = w.toArray)
    (hfield : r.field? slot 4 = some (w.length - off)) (hoffset : HoldsOffset w off target)
    (hvector : HoldsVector w target elems.length (elems.map (·.toUInt8)))
    (helems : ∀ x ∈ elems, x < 0x100) :
    r.bytes? slot = some elems := by
  have hslice := slice_eq hbytes hvector
  have hfits := hvector.fits
  rw [List.length_map] at hslice hfits
  unfold bytes?
  rw [vector?_eq_some hbytes hfield hoffset hvector (by omega), Option.bind_eq_bind,
    Option.bind_some]
  dsimp only
  rw [hslice, List.map_map]
  have hsame : elems.map (UInt8.toNat ∘ fun x => x.toUInt8) = elems.map id := by
    apply List.map_congr_left
    intro x hx
    have := helems x hx
    simp only [Function.comp, id, Nat.toUInt8_eq, UInt8.toNat_ofNat']
    omega
  rw [hsame, List.map_id]
  rfl

theorem strings?_eq {texts : List (List UInt8)} (hbytes : r.bytes = w.toArray)
    (hfield : r.field? slot 4 = some (w.length - off)) (hoffset : HoldsOffset w off target)
    (htexts : HoldsTexts w target texts) :
    r.strings? slot = some (texts.map readableText) := by
  have hoff := hoffset.2.2.le_length
  have htarget := htexts.header.le_length
  have hfits := htexts.fits
  unfold strings?
  rw [vector?_eq_some hbytes hfield hoffset htexts.header hfits, Option.bind_eq_bind,
    Option.bind_some]
  dsimp only
  have hmap : texts.length = (texts.map readableText).length := by rw [List.length_map]
  rw [hmap]
  apply mapM_range_eq_some
  intro i y hy
  rw [List.getElem?_map, Option.map_eq_some_iff] at hy
  obtain ⟨text, htext, rfl⟩ := hy
  obtain ⟨hi, -⟩ := List.getElem?_eq_some_iff.1 htext
  obtain ⟨target', hoffset', hvector'⟩ := htexts.elems i text htext
  rw [vectorAt?_eq_some hbytes hoffset' hvector' (by have := hvector'.fits; omega) (by omega),
    Option.bind_eq_bind, Option.bind_some]
  dsimp only
  rw [slice_eq hbytes hvector']
  rfl

end Reader

end RecordCodec.Table
