import ImportAtlas.Text.Blank
import ImportAtlas.Text.Percent
import ImportAtlas.Text.Split

/-! Classes of characters.  Their tables are rows of code points in base sixteen,
alone or as `first-last`. -/

namespace ImportAtlas.Unicode

open Text

def number (digits : List Char) : Nat :=
  digits.foldl (fun n c => 16 * n + (hexDigit? c).getD 0) 0

structure Range where
  first : Nat
  last : Nat
  deriving DecidableEq

namespace Range

def contains (r : Range) (n : Nat) : Bool := r.first ≤ n && n ≤ r.last

def ofDigits (cs : List Char) : Range :=
  match cutAtFirst (· = '-') cs with
  | none => ⟨number cs, number cs⟩
  | some (first, last) => ⟨number first, number last⟩

end Range

def items (rows : List String) : List (List Char) :=
  rows.flatMap fun row => splitOn isAsciiBlank row.toList

def ranges (rows : List String) : List Range := (items rows).map Range.ofDigits

def isIn (c : Char) (ranges : List Range) : Bool := ranges.any (·.contains c.toNat)

end ImportAtlas.Unicode
