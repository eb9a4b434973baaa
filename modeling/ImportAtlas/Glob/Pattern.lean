import ImportAtlas.FileTree.Basic

/-! Glob patterns.  A question mark stands for any character, a star for any
text within a name, a bracketed class for one character, and a component of two
stars for any number of directories. -/

namespace ImportAtlas.Glob

inductive ClassItem where
  | single (c : Char)
  | range (low high : Char)
  deriving DecidableEq, Repr

inductive Element where
  | char (c : Char)
  | any
  | many
  | oneOf (items : List ClassItem)
  | noneOf (items : List ClassItem)
  deriving DecidableEq, Repr

inductive Component where
  | recursive
  | name (elements : List Element)
  deriving DecidableEq, Repr

def classItems : List Char → List ClassItem
  | low :: '-' :: high :: rest => .range low high :: classItems rest
  | c :: rest => .single c :: classItems rest
  | [] => []

def ClassItem.holds (c : Char) : ClassItem → Bool
  | .single d => c = d
  | .range low high => low ≤ c && c ≤ high

abbrev OpenClass := Bool × List Char

def closeClass (negated : Bool) (characters : List Char) : Element :=
  let items := classItems characters.reverse
  if negated then .noneOf items else .oneOf items

def elementsFrom : Option OpenClass → List Char → Option (List Element)
  | none, [] => some []
  | some _, [] => none
  | some (negated, cs), ']' :: rest =>
    (elementsFrom none rest).map (closeClass negated cs :: ·)
  | some (negated, cs), c :: rest => elementsFrom (some (negated, c :: cs)) rest
  | none, '?' :: rest => (elementsFrom none rest).map (.any :: ·)
  | none, '*' :: '*' :: _ => none
  | none, '*' :: rest => (elementsFrom none rest).map (.many :: ·)
  | none, '[' :: '!' :: c :: rest => elementsFrom (some (true, [c])) rest
  | none, '[' :: c :: rest => if c = '!' then none else elementsFrom (some (false, [c])) rest
  | none, c :: rest => if c = '[' then none else (elementsFrom none rest).map (.char c :: ·)

def component? (cs : List Char) : Option Component :=
  if cs = ['*', '*'] then some .recursive else (elementsFrom none cs).map .name

def collapse : List Component → List Component
  | .recursive :: rest => match collapse rest with
    | .recursive :: others => .recursive :: others
    | others => .recursive :: others
  | c :: rest => c :: collapse rest
  | [] => []

def components? (cs : List Char) : Option (List Component) :=
  let pieces := Text.splitOn Path.isSeparator cs
  ((if pieces.getLast? = some [] then pieces.dropLast else pieces).mapM component?).map collapse

def escape (cs : List Char) : List Char :=
  cs.flatMap fun c => if "?*[]".toList.contains c then ['[', c, ']'] else [c]

def anyTail (p : List Char → Bool) : List Char → Bool
  | [] => p []
  | c :: cs => p (c :: cs) || anyTail p cs

def matchElements : List Element → List Char → Bool
  | [], cs => cs.isEmpty
  | .many :: rest, cs => anyTail (matchElements rest) cs
  | _ :: _, [] => false
  | .char d :: rest, c :: cs => c = d && matchElements rest cs
  | .any :: rest, _ :: cs => matchElements rest cs
  | .oneOf items :: rest, c :: cs => items.any (·.holds c) && matchElements rest cs
  | .noneOf items :: rest, c :: cs => !items.any (·.holds c) && matchElements rest cs

namespace Component

def literal? : Component → Option FileName
  | .recursive => none
  | .name elements => elements.mapM fun
    | .char c => some c
    | _ => none

def accepts (name : FileName) : Component → Bool
  | .recursive => true
  | .name elements => matchElements elements name

def dotNames : Component → List FileName
  | .name (.char '.' :: elements) =>
    [['.', '.'], ['.']].filter (matchElements (.char '.' :: elements))
  | _ => []

end Component

end ImportAtlas.Glob
