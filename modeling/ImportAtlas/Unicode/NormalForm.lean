import ImportAtlas.Unicode.CombiningClass
import ImportAtlas.Unicode.Composite

namespace ImportAtlas.Unicode

def expand : Nat → Char → List Char
  | 0, c => [c]
  | depth + 1, c => match decompose? c with
    | none => [c]
    | some (base, mark) => expand depth base ++ [mark]

def decompose (cs : List Char) : List Char := cs.flatMap (expand 3)

def place (c : Char) : List Char → List Char
  | [] => [c]
  | d :: ds =>
    if 0 < combiningClass d && combiningClass d < combiningClass c then d :: place c ds
    else c :: d :: ds

def arrange (cs : List Char) : List Char := cs.foldr place []

/-- Compose marks with the character that they are written on.  `kept` are those
that did not compose, latest first: a mark does not pass one of its own class. -/
def composeOn (base : Char) (kept : List Char) : List Char → List Char
  | [] => base :: kept.reverse
  | c :: cs =>
    let isFree := kept.head?.all fun k => combiningClass k < combiningClass c
    match if isFree then compose? base c else none with
    | some whole => composeOn whole kept cs
    | none =>
      if combiningClass c = 0 then base :: (kept.reverse ++ composeOn c [] cs)
      else composeOn base (c :: kept) cs

def compose : List Char → List Char
  | [] => []
  | c :: cs => if combiningClass c = 0 then composeOn c [] cs else c :: compose cs

def normalForm (cs : List Char) : List Char := compose (arrange (decompose cs))

end ImportAtlas.Unicode
