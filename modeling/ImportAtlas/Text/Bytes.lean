import ImportAtlas.Text.Blank
import ImportAtlas.Text.Cut

namespace ImportAtlas.Text

def bytes (cs : List Char) : List Char :=
  (cs.flatMap String.utf8EncodeChar).map fun b => Char.ofNat b.toNat

variable (text : List Char)

def sliceFrom? (start : Nat) : Option (List Char) := (cut? start text).map Prod.snd

def slice? (start stop : Nat) : Option (List Char) :=
  if start ≤ stop then do
    let rest ← sliceFrom? text start
    let (piece, _) ← cut? (stop - start) rest
    return piece
  else none

def charAt? (pos : Nat) : Option Char := (sliceFrom? text pos).bind List.head?

def byte? (pos : Nat) : Option Char := (bytes text)[pos]?

def bytesFrom? (pos : Nat) : Option (List Char) :=
  if pos ≤ (bytes text).length then some ((bytes text).drop pos) else none

def bytesBefore? (pos : Nat) : Option (List Char) :=
  if pos ≤ (bytes text).length then some ((bytes text).take pos) else none

theorem lt_length_of_byte? {pos : Nat} {b : Char} (h : byte? text pos = some b) :
    pos < (bytes text).length :=
  (List.getElem?_eq_some_iff.1 h).1

end ImportAtlas.Text
