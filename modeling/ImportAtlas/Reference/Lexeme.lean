import ImportAtlas.Text.Blank

namespace ImportAtlas.Lexeme

open Text

def isWordStart (c : Char) : Bool := c.isAlpha || c = '_' || c = '$' || !isAscii c

def isWordPart (c : Char) : Bool := isWordStart c || c.isDigit

def word : List Char → List Char
  | [] => []
  | c :: rest => c :: rest.takeWhile fun d => isWordPart d && !isWideBlank d

def number : List Char → List Char
  | [] => []
  | c :: rest => c :: rest.takeWhile fun d => isWordPart d || d = '.'

inductive TriviaState where
  | between
  | lineComment
  | blockComment (opened : Nat)

/-- Count blanks and comments from the state, `n` characters having been
counted.  A block comment without an end fails with the count before it. -/
def triviaFrom : TriviaState → Nat → List Char → Except Nat Nat
  | .blockComment opened, _, [] => .error opened
  | .blockComment _, n, '*' :: '/' :: rest => triviaFrom .between (n + 2) rest
  | .blockComment opened, n, _ :: rest => triviaFrom (.blockComment opened) (n + 1) rest
  | .lineComment, n, [] => .ok n
  | .lineComment, n, c :: rest =>
    triviaFrom (if c = '\n' then .between else .lineComment) (n + 1) rest
  | .between, n, '/' :: '/' :: rest => triviaFrom .lineComment (n + 2) rest
  | .between, n, '/' :: '*' :: rest => triviaFrom (.blockComment n) (n + 2) rest
  | .between, n, c :: rest => if isBlank c then triviaFrom .between (n + 1) rest else .ok n
  | .between, n, [] => .ok n

def trivia (cs : List Char) : Except Nat Nat := triviaFrom .between 0 cs

def stringFrom (quote : Char) (n : Nat) : List Char → Option Nat
  | [] => none
  | '\n' :: _ => none
  | '\\' :: [] => none
  | '\\' :: _ :: rest => stringFrom quote (n + 2) rest
  | c :: rest => if c = quote then some (n + 1) else stringFrom quote (n + 1) rest

def quoted? : List Char → Option Nat
  | [] => none
  | quote :: rest => stringFrom quote 1 rest

theorem lt_of_stringFrom {quote : Char} {n m : Nat} {cs : List Char}
    (h : stringFrom quote n cs = some m) : n < m := by
  fun_induction stringFrom quote n cs with
  | case1 => contradiction
  | case2 => contradiction
  | case3 => contradiction
  | case4 _ _ _ ih => exact Nat.lt_of_le_of_lt (Nat.le_add_right _ 2) (ih h)
  | case5 => simp_all; omega
  | case6 _ _ _ _ _ _ _ ih => exact Nat.lt_of_succ_lt (ih h)

theorem quoted?_pos {cs : List Char} {n : Nat} (h : quoted? cs = some n) : 0 < n := by
  cases cs with
  | nil => contradiction
  | cons _ _ => exact Nat.lt_of_succ_lt (lt_of_stringFrom h)

def isQuote (c : Char) : Bool := c = '\'' || c = '"'

inductive ChunkEnd where
  | closed
  | substitution
  deriving DecidableEq, Repr

def templateChunkFrom (n : Nat) : List Char → Option (ChunkEnd × Nat)
  | [] => none
  | '\\' :: [] => none
  | '\\' :: _ :: rest => templateChunkFrom (n + 2) rest
  | '\x60' :: _ => some (.closed, n + 1)
  | '$' :: '\x7b' :: _ => some (.substitution, n + 2)
  | _ :: rest => templateChunkFrom (n + 1) rest

def templateChunk? (cs : List Char) : Option (ChunkEnd × Nat) := templateChunkFrom 0 cs

/-- The body of a regular expression after its opening slash, the closing slash
included.  A slash inside a class does not close it; a line that ends first
makes the opening slash a division. -/
def regexBodyFrom (inClass : Bool) (n : Nat) : List Char → Option Nat
  | [] => none
  | '\n' :: _ => none
  | '\\' :: [] => none
  | '\\' :: _ :: rest => regexBodyFrom inClass (n + 2) rest
  | '[' :: rest => regexBodyFrom true (n + 1) rest
  | ']' :: rest => regexBodyFrom false (n + 1) rest
  | c :: rest =>
    if c = '/' && !inClass then some (n + 1) else regexBodyFrom inClass (n + 1) rest

def regex? : List Char → Option Nat
  | '/' :: rest => (regexBodyFrom false 1 rest).map fun n =>
      n + ((rest.drop (n - 1)).takeWhile isWordPart).length
  | _ => none

/-- Whether a brace follows the parenthesis that closes the current one.
`depth` counts the open ones, `within` is the quote of an open string. -/
def bodyFollowsFrom : Nat → Option Char → List Char → Bool
  | _, _, [] => false
  | _, some _, '\\' :: [] => false
  | depth, some quote, '\\' :: _ :: rest => bodyFollowsFrom depth (some quote) rest
  | depth, some quote, c :: rest =>
    bodyFollowsFrom depth (if c = quote then none else some quote) rest
  | depth, none, c :: rest =>
    if c = '(' then bodyFollowsFrom (depth + 1) none rest
    else if c = ')' then
      if depth ≤ 1 then (rest.dropWhile isAsciiBlank).head? = some '\x7b'
      else bodyFollowsFrom (depth - 1) none rest
    else if isQuote c || c = '\x60' then bodyFollowsFrom depth (some c) rest
    else bodyFollowsFrom depth none rest

/-- Whether the parenthesis that opens here is a parameter list with a body
after it, as in a method definition. -/
def isDefinition (cs : List Char) : Bool := bodyFollowsFrom 0 none cs

end ImportAtlas.Lexeme
