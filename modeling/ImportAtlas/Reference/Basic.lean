import ImportAtlas.Text.Cursor
import ImportAtlas.Reference.Lexeme

namespace ImportAtlas

inductive ReferenceKind where
  | declaration
  | reExport
  | dynamic
  deriving DecidableEq, Repr

def ReferenceKind.text : ReferenceKind → String
  | .declaration => "import"
  | .reExport => "reExport"
  | .dynamic => "dynamic"

structure Reference where
  specifier : String
  start : Nat
  stop : Nat
  kind : ReferenceKind
  deriving DecidableEq, Repr

structure Literal where
  opening : Text.Cursor
  length : Nat

namespace Literal

def closing (l : Literal) : Text.Cursor := l.opening.advance l.length

def characters (l : Literal) : List Char := l.opening.rest.take l.length

def body (l : Literal) : List Char := (l.characters.drop 1).dropLast

def toReference (kind : ReferenceKind) (l : Literal) : Reference where
  specifier := String.ofList l.body
  start := l.opening.offset
  stop := l.closing.offset
  kind := kind

end Literal

inductive ScanObstruction where
  | commonJsCall
  | unterminatedString
  | unterminatedTemplate
  | unterminatedComment
  | importWithoutFrom
  | exportNameExpected
  | unterminatedExportClause
  | fromExpected
  | specifierExpected
  deriving DecidableEq, Repr

def ScanObstruction.message : ScanObstruction → String
  | .commonJsCall => "CommonJS require() call cannot be served as an ES module"
  | .unterminatedString => "unterminated string literal"
  | .unterminatedTemplate => "unterminated template literal"
  | .unterminatedComment => "unterminated block comment"
  | .importWithoutFrom => "import declaration has no `from` clause"
  | .exportNameExpected => "expected a name after `export * as`"
  | .unterminatedExportClause => "unterminated export clause"
  | .fromExpected => "expected `from` clause"
  | .specifierExpected => "expected a module specifier literal after `from`"

structure ScanFailure where
  offset : Nat
  obstruction : ScanObstruction
  deriving DecidableEq, Repr

namespace Text.Cursor

def fail {α : Type} (c : Cursor) (o : ScanObstruction) : Except ScanFailure α :=
  .error ⟨c.offset, o⟩

def skipTrivia (c : Cursor) : Except ScanFailure Cursor :=
  match Lexeme.trivia c.rest with
  | .ok n => .ok (c.advance n)
  | .error n => (c.advance n).fail .unterminatedComment

def literal (c : Cursor) : Except ScanFailure Literal :=
  match Lexeme.quoted? c.rest with
  | some n => .ok ⟨c, n⟩
  | none => c.fail .unterminatedString

def followsPoint (c : Cursor) : Bool :=
  match c.before.dropWhile isAsciiBlank with
  | '.' :: '.' :: _ => false
  | '.' :: _ => true
  | _ => false

theorem Reaches.of_skipTrivia {c t : Cursor} (h : c.skipTrivia = .ok t) : Reaches c t := by
  unfold skipTrivia fail at h
  split at h
  · injection h with h
    exact h ▸ .advance c _
  · contradiction

theorem opening_of_literal {c : Cursor} {l : Literal} (h : c.literal = .ok l) : l.opening = c := by
  unfold literal fail at h
  split at h
  · injection h with h
    exact h ▸ rfl
  · contradiction

theorem length_pos_of_literal {c : Cursor} {l : Literal} (h : c.literal = .ok l) :
    0 < l.length := by
  unfold literal fail at h
  split at h
  · rename_i hq
    injection h with h
    subst h
    exact Lexeme.quoted?_pos hq
  · contradiction

theorem Reaches.of_literal {c : Cursor} {l : Literal} (h : c.literal = .ok l) :
    Reaches c l.closing :=
  opening_of_literal h ▸ .advance l.opening l.length

end Text.Cursor

end ImportAtlas
