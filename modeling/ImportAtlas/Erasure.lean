import ImportAtlas.Path

/-! Parts of a module's text that are erased before it is scanned: comments
that point to a source map, and declarations of TypeScript that import or
export types only.  Each of them begins a line. -/

namespace ImportAtlas.Erasure

open Text

abbrev Form := List Char → Option Nat

/-- Erase every text of the form that begins a line, from left to right.
`skip` characters of one are still to be dropped, and `lineStart` says whether
a line begins here. -/
def eraseFrom (form : Form) : Nat → Bool → List Char → List Char
  | _, _, [] => []
  | skip + 1, _, c :: cs => eraseFrom form skip (c = '\n') cs
  | 0, false, c :: cs => c :: eraseFrom form 0 (c = '\n') cs
  | 0, true, c :: cs =>
    match form (c :: cs) with
    | some (n + 1) => eraseFrom form n (c = '\n') cs
    | _ => c :: eraseFrom form 0 (c = '\n') cs

def erase (form : Form) (cs : List Char) : List Char := eraseFrom form 0 true cs

def isIndent (c : Char) : Bool := c = ' ' || c = '\t'

def skipIndent (cs : List Char) : List Char := cs.dropWhile isIndent

def skipLineEnd : List Char → List Char
  | '\n' :: cs => cs
  | '\r' :: '\n' :: cs => cs
  | cs => cs

def Form.ofRest (rest? : List Char → Option (List Char)) : Form := fun cs =>
  (rest? cs).map fun rest => cs.length - rest.length

def skipMarker (cs : List Char) : Option (List Char) :=
  match cs with
  | mark :: cs =>
    if mark = '#' || mark = '@' then stripHead "sourceMappingURL=".toList (skipIndent cs) else none
  | [] => none

def lineMapRest? (cs : List Char) : Option (List Char) :=
  (stripHead ['/', '/'] (skipIndent cs)).bind fun cs =>
    (skipMarker cs).map fun cs => skipLineEnd (cs.dropWhile fun c => c ≠ '\r' && c ≠ '\n')

/-- A block comment that names a source map and has no star before its end,
with what remains of its line if that is blank. -/
def blockMapRest? (cs : List Char) : Option (List Char) :=
  (stripHead ['/', '*'] (skipIndent cs)).bind fun cs =>
    (skipMarker cs).bind fun cs =>
      (stripHead ['*', '/'] (cs.dropWhile (· ≠ '*'))).map fun cs => skipLineEnd (skipIndent cs)

def sourceMaps (cs : List Char) : List Char :=
  erase (.ofRest blockMapRest?) (erase (.ofRest lineMapRest?) cs)

def skipKeyword (word cs : List Char) : Option (List Char) :=
  (stripHead word cs).bind fun
    | c :: cs => if isIndent c then some (skipIndent cs) else none
    | [] => none

def skipLiteral : List Char → Option (List Char)
  | quote :: cs =>
    if quote = '"' || quote = '\'' then
      match cs.dropWhile fun c => c ≠ quote && c ≠ '\r' && c ≠ '\n' with
      | c :: rest => if c = quote then some rest else none
      | [] => none
    else none
  | [] => none

def fromRest? (cs : List Char) : Option (List Char) :=
  (stripHead "from".toList cs).bind fun cs =>
    (skipLiteral (skipIndent cs)).map fun cs => match skipIndent cs with
      | ';' :: rest => rest
      | rest => rest

/-- The first place where a declaration may end, before any semicolon or quote. -/
def typeClauseRest? : List Char → Option (List Char)
  | [] => none
  | c :: cs =>
    match fromRest? (c :: cs) with
    | some rest => some rest
    | none => if c = ';' || c = '\'' || c = '"' then none else typeClauseRest? cs

def typeOnlyRest? (cs : List Char) : Option (List Char) :=
  let cs := skipIndent cs
  ((skipKeyword "import".toList cs).or (skipKeyword "export".toList cs)).bind fun cs =>
    (skipKeyword "type".toList cs).bind typeClauseRest?

def typeOnly (cs : List Char) : List Char := erase (.ofRest typeOnlyRest?) cs

def isTypeScript (path : Path) : Bool :=
  match path.extension? with
  | some ext => ["ts", "tsx", "mts", "cts"].any fun e => ext.map Char.toLower = e.toList
  | none => false

/-- The text of a module that is scanned; `maps` says whether comments about
source maps are erased too. -/
def normalize (maps : Bool) (path : Path) (text : String) : String :=
  let cs := text.toList
  let cs := if isTypeScript path then typeOnly cs else cs
  String.ofList (if maps then sourceMaps cs else cs)

end ImportAtlas.Erasure
