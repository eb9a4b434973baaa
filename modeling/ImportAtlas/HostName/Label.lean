import ImportAtlas.Unicode.CombiningClass
import ImportAtlas.Unicode.Direction
import ImportAtlas.Unicode.Joining
import ImportAtlas.Unicode.Mark

namespace ImportAtlas.HostName

open Text Unicode

def joiner : Char := '\u200D'

def nonJoiner : Char := '\u200C'

def nearestJoins (joins : Joining → Bool) (cs : List Char) : Bool :=
  ((cs.map joining).dropWhile (· = .transparent)).head?.any joins

/-- Both joiners may follow a virama; the other place of a non-joiner is between
letters that would join.  `before` has the characters before, latest first. -/
def joinersFit (before : List Char) : List Char → Bool
  | [] => true
  | c :: cs =>
    let afterVirama := before.head?.any isVirama
    let fits :=
      if c = joiner then afterVirama
      else if c = nonJoiner then
        afterVirama || (nearestJoins (·.joinsNext) before && nearestJoins (·.joinsPrevious) cs)
      else true
    fits && joinersFit (c :: before) cs

def isLabel (cs : List Char) : Bool :=
  cs.all isAscii || (cs.length ≤ 1000 && !cs.head?.any isMark && joinersFit [] cs)

def isRightToLeft (c : Char) : Bool :=
  !isAscii c && (direction c = .rightToLeft || direction c = .arabicNumber)

/-- Whether a label stays in order when it stands in a text of either direction:
it begins with a letter of its direction, has none of the other, and ends with a
letter or a number. -/
def keepsOrder (cs : List Char) : Bool :=
  let ds := cs.map direction
  let last := (ds.reverse.dropWhile (· = .mark)).head?
  match ds.head? with
  | none => true
  | some .leftToRight =>
    ds.all ([.leftToRight, .europeanNumber, .neutral, .mark].contains ·) &&
      last.any ([.leftToRight, .europeanNumber].contains ·)
  | some .rightToLeft =>
    !ds.contains .leftToRight && !ds.contains .separator &&
      !(ds.contains .europeanNumber && ds.contains .arabicNumber) &&
      last.any ([.rightToLeft, .europeanNumber, .arabicNumber].contains ·)
  | some _ => false

def keepOrder (labels : List (List Char)) : Bool :=
  !labels.any (·.any isRightToLeft) || labels.all keepsOrder

end ImportAtlas.HostName
