import ImportAtlas.Reference.Basic
import ImportAtlas.Text.Cut

/-! Splicing: the literals of references are replaced by quoted ids, and every
other character of the text is kept. -/

namespace ImportAtlas

inductive SpliceObstruction where
  | overlap (covered : Nat)
  | outside (length : Nat)
  | insideCharacter
  | unnamed
  deriving DecidableEq, Repr

structure SpliceFailure where
  reference : Reference
  obstruction : SpliceObstruction
  deriving DecidableEq, Repr

def SpliceFailure.message (f : SpliceFailure) : String :=
  let r := f.reference
  let span := s!"span {r.start}..{r.stop} for '{r.specifier}'"
  match f.obstruction with
  | .overlap covered => s!"{span} overlaps a previous replacement ending at {covered}"
  | .outside length => s!"{span} is outside the text (length {length})"
  | .insideCharacter => s!"{span} is not on a character boundary"
  | .unnamed => s!"no module id for '{r.specifier}'"

namespace Reference

def spanLe (r s : Reference) : Bool := r.start < s.start || (r.start = s.start && r.stop ≤ s.stop)

end Reference

def quoteId (id : String) : List Char := '"' :: id.toList ++ ['"']

/-- Replace references given in order of their spans.  `covered` bytes of a
text of `length` bytes have been dealt with, and `rest` is what follows. -/
def spliceFrom (idFor : Reference → Option String) (length : Nat) :
    Nat → List Char → List Reference → Except SpliceFailure (List Char)
  | _, rest, [] => .ok rest
  | covered, rest, r :: later =>
    if r.start < covered then .error ⟨r, .overlap covered⟩
    else if r.start ≥ r.stop || r.stop > length then .error ⟨r, .outside length⟩
    else match Text.cut? (r.start - covered) rest with
      | none => .error ⟨r, .insideCharacter⟩
      | some (kept, tail) => match Text.cut? (r.stop - r.start) tail with
        | none => .error ⟨r, .insideCharacter⟩
        | some (_, rest) => match idFor r with
          | none => .error ⟨r, .unnamed⟩
          | some id => do
            return kept ++ quoteId id ++ (← spliceFrom idFor length r.stop rest later)

/-- Replace each reference's literal by the quoted id that `idFor` gives it.
The references may come in any order. -/
def splice (text : String) (references : List Reference) (idFor : Reference → Option String) :
    Except SpliceFailure String :=
  let cs := text.toList
  (spliceFrom idFor (Text.byteLength cs) 0 cs (references.mergeSort Reference.spanLe)).map
    String.ofList

end ImportAtlas
