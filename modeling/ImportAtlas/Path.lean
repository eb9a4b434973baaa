import ImportAtlas.Text.Split

namespace ImportAtlas

open Text

structure Path where
  text : List Char
  deriving DecidableEq

namespace Path

def ofString (s : String) : Path := ⟨s.toList⟩

def toString (p : Path) : String := String.ofList p.text

inductive Component where
  | root
  | current
  | parent
  | name (text : List Char)
  deriving DecidableEq, Repr

def Component.text : Component → List Char
  | .root => ['/']
  | .current => ['.']
  | .parent => ['.', '.']
  | .name text => text

def isSeparator (c : Char) : Bool := c = '/'

def isIdle (piece : List Char) : Bool := piece = [] || piece = ['.']

def componentOf (piece : List Char) : Component :=
  if piece = ['.', '.'] then .parent else if piece = ['.'] then .current else .name piece

def components (p : Path) : List Component :=
  match p.text, splitOn isSeparator p.text with
  | [], _ => []
  | _, [] => []
  | _, first :: rest =>
    let body := (rest.filter (!isIdle ·)).map componentOf
    if first = [] then .root :: body else componentOf first :: body

def isAbsolute (p : Path) : Bool := p.text.head? = some '/'

def join (p q : Path) : Path :=
  if q.isAbsolute || p.text = [] then q
  else if p.text.getLast? = some '/' then ⟨p.text ++ q.text⟩
  else ⟨p.text ++ '/' :: q.text⟩

def ofPieces (first : List Char) (body : List (List Char)) : Path :=
  if first = [] && body = [] then ⟨['/']⟩
  else ⟨['/'].intercalate (first :: body.reverse)⟩

def shorterBodies : List (List Char) → List (List (List Char))
  | [] => []
  | piece :: body =>
    if isIdle piece then shorterBodies body
    else body.dropWhile isIdle :: shorterBodies body

def ancestors (p : Path) : List Path :=
  match splitOn isSeparator p.text with
  | [] => [p]
  | first :: rest =>
    p :: ((shorterBodies rest.reverse).map (ofPieces first) ++ if first = [] then [] else [⟨[]⟩])

def parent? (p : Path) : Option Path := p.ancestors.tail.head?

def fileName? (p : Path) : Option (List Char) :=
  match p.components.getLast? with
  | some (.name n) => some n
  | _ => none

def withFileName (p : Path) (name : List Char) : Path :=
  match p.fileName?, p.parent? with
  | some _, some parent => parent.join ⟨name⟩
  | _, _ => p.join ⟨name⟩

def extension? (p : Path) : Option (List Char) :=
  p.fileName?.bind fun n => match cutAtLast (· = '.') n with
    | some (_ :: _, ext) => some ext
    | _ => none

def slashed (cs : List Component) : List Char := ['/'].intercalate (cs.map Component.text)

def dropFront : List Component → List Component → Option (List Component)
  | [], cs => some cs
  | _ :: _, [] => none
  | b :: base, c :: cs => if b = c then dropFront base cs else none

theorem dropFront_eq_some {base cs rest : List Component} :
    dropFront base cs = some rest ↔ cs = base ++ rest := by
  induction base generalizing cs with
  | nil => simp [dropFront, eq_comm]
  | cons b base ih =>
    cases cs with
    | nil => simp [dropFront]
    | cons c cs =>
      by_cases hc : b = c
      · simp [dropFront, hc, ih]
      · simp [dropFront, hc, Ne.symm hc]

def relativeTo (base p : Path) : Option (List Char) :=
  (dropFront base.components p.components).map slashed

end Path

end ImportAtlas
