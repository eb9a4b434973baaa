import ImportAtlas.Reference.Declaration

/-! Finding the references of a module without parsing it.  The scanner moves
from token to token and keeps what it needs to tell a regular expression from a
division, and code from the text of a template. -/

namespace ImportAtlas

open Text Lexeme

/-- The token before the current place, as far as it matters. -/
inductive LastToken where
  | none
  | punctuation (c : Char)
  | word (name : List Char)
  | value
  | controlHead
  deriving DecidableEq

namespace LastToken

def expressionWords : List String :=
  ["return", "typeof", "instanceof", "in", "of", "new", "delete", "void", "throw", "case", "do",
    "else", "yield", "await"]

def controlWords : List String := ["if", "while", "for", "with"]

def isWordAmong (words : List String) : LastToken → Bool
  | .word name => words.any fun w => w.toList = name
  | _ => false

/-- Whether a slash after this token opens a regular expression. -/
def allowsRegex : LastToken → Bool
  | .none => true
  | .controlHead => true
  | .punctuation c => c != ')' && c != ']'
  | .value => false
  | t@(.word _) => t.isWordAmong expressionWords

end LastToken

/-- An open template substitution: where the template opens, and how many
braces are open in the code around it. -/
structure Substitution where
  opening : Cursor
  depth : Nat

inductive ScanMode where
  | code
  | template (opening : Cursor)

/-- The state of a scan.  `heads` has an entry for each open parenthesis that
says whether a control word precedes it, `depth` counts the open braces of the
current code, and `found` holds the references, latest first. -/
structure ScanState where
  cursor : Cursor
  mode : ScanMode
  last : LastToken
  heads : List Bool
  depth : Nat
  substitutions : List Substitution
  found : List Reference

namespace ScanState

def initial (cs : List Char) : ScanState where
  cursor :=
    let c := Cursor.ofText cs
    let c := if c.rest.head? = some byteOrderMark then c.advance 1 else c
    if c.rest.take 2 = "#!".toList then
      c.advance (c.rest.takeWhile (· != '\n')).length
    else c
  mode := .code
  last := .none
  heads := []
  depth := 0
  substitutions := []
  found := []

def moveTo (c : Cursor) (t : LastToken) (s : ScanState) : ScanState :=
  { s with cursor := c, last := t }

def record (kind : ReferenceKind) (l : Literal) (s : ScanState) : ScanState :=
  { s with cursor := l.closing, last := .value, found := l.toReference kind :: s.found }

/-- After the word `import` at `start`.  A word that begins no import, such as a
property name, leaves the state as it is. -/
def importWord (start : Cursor) (s : ScanState) : Except ScanFailure ScanState := do
  let t ← s.cursor.skipTrivia
  match t.rest with
  | [] => return s
  | x :: _ =>
    if x = '(' then
      let s := { s.moveTo (t.advance 1) (.punctuation '(') with heads := false :: s.heads }
      match ← s.cursor.dynamicArgument with
      | some l => return s.record .dynamic l
      | none => return s
    else if isQuote x then return s.record .declaration (← t.literal)
    else if x = '\x7b' || x = '*' || isWordStart x then
      return s.record .declaration (← Cursor.importClause start t)
    else return s

def exportWord (start : Cursor) (s : ScanState) : Except ScanFailure ScanState := do
  let t ← (← s.cursor.skipTrivia).skipWord "type".toList
  match t.rest with
  | '*' :: _ =>
    let u ← Cursor.exportName start (← (t.advance 1).skipTrivia)
    return s.record .reExport (← Cursor.fromClause start u)
  | '\x7b' :: _ =>
    let closed ← Cursor.exportClauseEnd start (t.advance 1)
    if (← closed.skipTrivia).wordHere = "from".toList then
      return s.record .reExport (← Cursor.fromClause start closed)
    else return s.moveTo closed (.punctuation '\x7d')
  | _ => return s

/-- After the word `require` at `start`, `before` being the token before it.  A
call is refused; the definition of a function or method of that name is not a
call. -/
def requireWord (start : Cursor) (before : LastToken) (s : ScanState) :
    Except ScanFailure ScanState := do
  let t ← s.cursor.skipTrivia
  if t.rest.head? = some '(' && !before.isWordAmong ["function"] && !isDefinition t.rest then
    start.fail .commonJsCall
  else return s

def wordToken (c : Cursor) (s : ScanState) : Except ScanFailure ScanState :=
  let name := word c.rest
  let after := s.moveTo (c.advance name.length) (.word name)
  if c.followsPoint then .ok after
  else if name = "import".toList then importWord c after
  else if name = "export".toList then exportWord c after
  else if name = "require".toList then requireWord c s.last after
  else .ok after

def slashToken (c : Cursor) (s : ScanState) : ScanState :=
  match if s.last.allowsRegex then regex? c.rest else none with
  | some n => s.moveTo (c.advance n) .value
  | none => s.moveTo (c.advance 1) (.punctuation '/')

def closeBrace (c : Cursor) (s : ScanState) : ScanState :=
  match s.depth, s.substitutions with
  | 0, t :: outer =>
    { s with cursor := c.advance 1, mode := .template t.opening, depth := t.depth,
             substitutions := outer }
  | d, _ => { s.moveTo (c.advance 1) (.punctuation '\x7d') with depth := d - 1 }

def closeParenthesis (c : Cursor) (s : ScanState) : ScanState :=
  { s.moveTo (c.advance 1)
      (if s.heads.head?.getD false then .controlHead else .punctuation ')') with
    heads := s.heads.tail }

def token (x : Char) (c : Cursor) (s : ScanState) : Except ScanFailure ScanState :=
  if x = '/' then .ok (s.slashToken c)
  else if isQuote x then do
    let l ← c.literal
    return s.moveTo l.closing .value
  else if x = '\x60' then .ok { s with cursor := c.advance 1, mode := .template c }
  else if x = '\x7b' then
    .ok { s.moveTo (c.advance 1) (.punctuation x) with depth := s.depth + 1 }
  else if x = '\x7d' then .ok (s.closeBrace c)
  else if x.isDigit then .ok (s.moveTo (c.advance (number c.rest).length) .value)
  else if x = '(' then
    .ok { s.moveTo (c.advance 1) (.punctuation x) with
          heads := s.last.isWordAmong LastToken.controlWords :: s.heads }
  else if x = ')' then .ok (s.closeParenthesis c)
  else if isWordStart x then s.wordToken c
  else .ok (s.moveTo (c.advance 1) (.punctuation x))

def templateText (opening : Cursor) (s : ScanState) : Except ScanFailure ScanState :=
  match templateChunk? s.cursor.rest with
  | none => opening.fail .unterminatedTemplate
  | some (.closed, n) =>
    .ok { s.moveTo (s.cursor.advance n) .value with mode := .code }
  | some (.substitution, n) =>
    .ok { s.moveTo (s.cursor.advance n) (.punctuation '\x7b') with
          mode := .code, depth := 0, substitutions := ⟨opening, s.depth⟩ :: s.substitutions }

def step (s : ScanState) : Except ScanFailure (Option ScanState) :=
  match s.mode with
  | .template opening => some <$> s.templateText opening
  | .code => do
    let c ← s.cursor.skipTrivia
    match c.rest with
    | [] => if s.substitutions.isEmpty then return none else c.fail .unterminatedTemplate
    | x :: _ => some <$> s.token x c

end ScanState

end ImportAtlas
