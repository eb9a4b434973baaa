import ImportAtlas.Proofs.Reference.Run

namespace ImportAtlas

open Text Lexeme

namespace Declaration

inductive Token where
  | word (w : List Char)
  | mark (c : Char)
  | string (quote : Char) (body : List Char)
  deriving DecidableEq

namespace Token

def text : Token → List Char
  | word w => w
  | mark c => [c]
  | string quote body => quoted quote body

def importToken : Token := word "import".toList

def exportToken : Token := word "export".toList

def asToken : Token := word asWord

def fromToken : Token := word fromWord

inductive IsName : Token → Prop
  | word {w : List Char} : IsWord w → IsName (word w)

inductive IsBindingName : Token → Prop
  | word {w : List Char} : IsWord w → IsBindingName (word w)
  | string {quote : Char} {body : List Char} : isQuote quote = true → StringBody quote body →
      IsBindingName (string quote body)

end Token

open Token

inductive IsBinding : List Token → Prop
  | plain {n : Token} : IsBindingName n → IsBinding [n]
  | renamed {n m : Token} : IsBindingName n → IsBindingName m → IsBinding [n, asToken, m]

inductive IsBindingList : List Token → Prop
  | nil : IsBindingList []
  | single {b : List Token} : IsBinding b → IsBindingList b
  | cons {b bs : List Token} : IsBinding b → IsBindingList bs →
      IsBindingList (b ++ mark ',' :: bs)

inductive IsNamed : List Token → Prop
  | star {n : Token} : IsName n → IsNamed [mark '*', asToken, n]
  | bindings {bs : List Token} : IsBindingList bs →
      IsNamed (mark '\x7b' :: (bs ++ [mark '\x7d']))

inductive IsImportClause : List Token → Prop
  | default {n : Token} : IsName n → IsImportClause [n]
  | named {ts : List Token} : IsNamed ts → IsImportClause ts
  | both {n : Token} {ts : List Token} : IsName n → IsNamed ts →
      IsImportClause (n :: mark ',' :: ts)

/-- The tokens of a declaration from its keyword up to its literal. -/
inductive IsForm : ReferenceKind → List Token → Prop
  | bare : IsForm .declaration [importToken]
  | clause {ts : List Token} : IsImportClause ts →
      IsForm .declaration (importToken :: (ts ++ [fromToken]))
  | all : IsForm .reExport [exportToken, mark '*', fromToken]
  | star {n : Token} : IsBindingName n →
      IsForm .reExport [exportToken, mark '*', asToken, n, fromToken]
  | bindings {bs : List Token} : IsBindingList bs →
      IsForm .reExport (exportToken :: mark '\x7b' :: (bs ++ [mark '\x7d', fromToken]))

structure Spaced where
  trivia : List Char
  token : Token

namespace Spaced

def text (s : Spaced) : List Char := s.trivia ++ s.token.text

def texts (ss : List Spaced) : List Char := ss.flatMap text

/-- Two words in a row do not join. -/
def WellSpaced : List Spaced → Prop
  | [] => True
  | s :: ss => Trivia s.trivia ∧
      (∀ w, s.token = .word w → headIs continuesWord (texts ss) = false) ∧ WellSpaced ss

end Spaced

end Declaration

open Declaration

/-- A declaration as it stands in a text, with the trivia before its keyword. -/
structure Declaration where
  kind : ReferenceKind
  tokens : List Spaced
  form : IsForm kind (tokens.map Spaced.token)
  spaced : Spaced.WellSpaced tokens
  gap : List Char
  trivia : Trivia gap
  quote : Char
  quotes : isQuote quote = true
  body : List Char
  string : StringBody quote body
  ending : List Char
  ended : ending = [] ∨ ∃ T, Trivia T ∧ ending = T ++ [';']

namespace Declaration

open Token

def head (d : Declaration) : List Char := Spaced.texts d.tokens ++ d.gap

def text (d : Declaration) : List Char := d.head ++ (quoted d.quote d.body ++ d.ending)

def lead (d : Declaration) : List Char := (d.tokens.head?.map Spaced.trivia).getD []

/-- The text of declarations, `last` being what follows the last one. -/
def source (last : List Char) (ds : List Declaration) : List Char := ds.flatMap text ++ last

/-- The layout that declarations call for: each has its literal for a reference. -/
def layout (last : List Char) : List Declaration → Layout
  | [] => .tail last
  | d :: ds => .slot d.head d.quote d.body d.kind ((layout last ds).prepend d.ending)

def opening (t : Token) (next : Option Token) : Option ReferenceKind :=
  if t = importToken then
    match next with
    | some (mark c) => if c = '*' || c = '\x7b' then some .declaration else none
    | _ => some .declaration
  else if t = exportToken then
    match next with
    | some (mark c) => if c = '*' || c = '\x7b' then some .reExport else none
    | _ => none
  else none

def endsInPoint (text : List Char) : Bool := Cursor.followsPoint ⟨text.reverse, []⟩

def sighted (before : List Char) : List Spaced → Option ReferenceKind
  | [] => none
  | s :: ss =>
    match opening s.token (ss.head?.map Spaced.token) with
    | some kind =>
      if endsInPoint (before ++ s.trivia) then sighted (before ++ s.text) ss else some kind
    | none => sighted (before ++ s.text) ss

end Declaration

def Layout.literal (kind? : Option ReferenceKind) (gap : List Char) (quote : Char)
    (body : List Char) (rest : Layout) : Layout :=
  match kind? with
  | some kind => .slot gap quote body kind rest
  | none => rest.prepend (gap ++ quoted quote body)

/-- The layout of what is seen of declarations after the text `before`. -/
def Declaration.seen (last before : List Char) : List Declaration → Layout
  | [] => .tail last
  | d :: ds => .literal (sighted before d.tokens) d.head d.quote d.body
      ((seen last (before ++ d.text) ds).prepend d.ending)

/-- Every declaration is seen as what it is. -/
def Declaration.AllSighted (before : List Char) : List Declaration → Prop
  | [] => True
  | d :: ds => sighted before d.tokens = some d.kind ∧ AllSighted (before ++ d.text) ds

/-- No keyword follows a point. -/
def Declaration.AllClear (before : List Char) : List Declaration → Prop
  | [] => True
  | d :: ds => endsInPoint (before ++ d.lead) = false ∧ AllClear (before ++ d.text) ds

end ImportAtlas
