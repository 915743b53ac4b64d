import RecordCodec.Text.Category

/-!
This module contains the removal of surrounding white space and the splitting of texts.
-/

namespace RecordCodec.Text

def trimStart (cs : List Char) : List Char :=
  cs.dropWhile isBlank

def trimEnd (cs : List Char) : List Char :=
  (cs.reverse.dropWhile isBlank).reverse

def trim (cs : List Char) : List Char :=
  trimEnd (trimStart cs)

theorem length_trimStart_le (cs : List Char) : (trimStart cs).length ≤ cs.length :=
  (List.dropWhile_suffix isBlank).length_le

theorem length_trimEnd_le (cs : List Char) : (trimEnd cs).length ≤ cs.length := by
  have := (List.dropWhile_suffix isBlank (l := cs.reverse)).length_le
  simpa [trimEnd] using this

theorem length_trim_le (cs : List Char) : (trim cs).length ≤ cs.length :=
  Nat.le_trans (length_trimEnd_le _) (length_trimStart_le _)

def splitAtAll (p : α → Bool) : List α → List (List α)
  | [] => [[]]
  | x :: xs =>
    if p x then [] :: splitAtAll p xs
    else match splitAtAll p xs with
      | [] => [[x]]
      | part :: parts => (x :: part) :: parts

def runs (p : α → Bool) (xs : List α) : List (List α) :=
  (splitAtAll p xs).filter (!·.isEmpty)

def words (cs : List Char) : List (List Char) :=
  runs isBlank cs

def lines (cs : List Char) : List (List Char) :=
  splitAtAll (· == '\n') cs

def joinWith (sep : List α) : List (List α) → List α
  | [] => []
  | [part] => part
  | part :: parts => part ++ sep ++ joinWith sep parts

end RecordCodec.Text
