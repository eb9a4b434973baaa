import ImportAtlas.Reference.Basic
import ImportAtlas.Text.Bytes

/-! Lexemes of module code by byte positions.  Every access to the text is checked:
what would be out of range or cut a character apart is a fault, and so is a turn of
a loop that does not move on. -/

namespace ImportAtlas

open Text Lexeme

namespace ByteScan

/-- Why a reader of bytes cannot go on: a slice that ends outside the text or inside a
character, an index out of range, a depth counted below zero, a turn of a loop that
stays where it is. -/
inductive Fault where
  | slice
  | index
  | depth
  | stalled
  deriving DecidableEq, Repr

inductive Interrupt where
  | fault (f : Fault)
  | failure (e : ScanFailure)
  deriving DecidableEq, Repr

abbrev Checked (α : Type) := Except Interrupt α

namespace Checked

def fault {α : Type} (f : Fault) : Checked α := .error (.fault f)

def fail {α : Type} (offset : Nat) (o : ScanObstruction) : Checked α :=
  .error (.failure ⟨offset, o⟩)

def expect {α : Type} (f : Fault) : Option α → Checked α
  | some a => .ok a
  | none => fault f

end Checked

variable (text : List Char)

def lineEnd (pos : Nat) : Nat := pos + (((bytes text).drop pos).takeWhile (· != '\n')).length

def commentEndFrom : Nat → List Char → Option Nat
  | _, [] => none
  | n, '*' :: '/' :: _ => some n
  | n, c :: rest => commentEndFrom (n + c.utf8Size) rest

def blockEnd (pos : Nat) : Checked Nat := do
  match commentEndFrom 0 (← Checked.expect .slice (sliceFrom? text (pos + 2))) with
  | some n => return pos + 2 + n + 2
  | none => Checked.fail pos .unterminatedComment

def triviaItem (pos : Nat) : Checked (Option Nat) :=
  match byte? text pos with
  | none => return none
  | some b =>
    match (charAt? text pos).filter isWideBlank with
    | some c => return some (pos + c.utf8Size)
    | none =>
      if isAsciiBlank b then return some (pos + 1)
      else if b = '/' && byte? text (pos + 1) = some '/' then return some (lineEnd text pos)
      else if b = '/' && byte? text (pos + 1) = some '*' then some <$> blockEnd text pos
      else return none

theorem lt_length_of_triviaItem {pos next : Nat} (h : triviaItem text pos = .ok (some next)) :
    pos < (bytes text).length := by
  unfold triviaItem at h
  split at h
  · cases h
  · exact lt_length_of_byte? text ‹_›

def skipTrivia (pos : Nat) : Checked Nat :=
  match _h : triviaItem text pos with
  | .error e => .error e
  | .ok none => .ok pos
  | .ok (some next) =>
    if pos < next then skipTrivia next else Checked.fault .stalled
termination_by (bytes text).length - pos
decreasing_by
  have := lt_length_of_triviaItem text _h
  omega

theorem le_of_skipTrivia {pos place : Nat} (h : skipTrivia text pos = .ok place) :
    pos ≤ place := by
  fun_induction skipTrivia text pos with
  | case1 => contradiction
  | case2 => cases h; exact Nat.le_refl _
  | case3 pos next _ hlt ih => exact Nat.le_of_lt (Nat.lt_of_lt_of_le hlt (ih h))
  | case4 => contradiction

def wordEnd (pos : Nat) : Nat :=
  match _h : byte? text pos with
  | none => pos
  | some b =>
    if isAscii b then if isWordPart b then wordEnd (pos + 1) else pos
    else match charAt? text pos with
      | some c => if c = byteOrderMark || isWhiteSpace c then pos else wordEnd (pos + c.utf8Size)
      | none => pos
termination_by (bytes text).length - pos
decreasing_by
  · have := lt_length_of_byte? text _h
    omega
  · have := lt_length_of_byte? text _h
    have := c.utf8Size_pos
    omega

def wordAt (pos : Nat) : Checked (Option (List Char)) :=
  match byte? text pos with
  | some b =>
    if isWordStart b then
      some <$> Checked.expect .slice (slice? text pos (wordEnd text pos))
    else return none
  | none => return none

def quoteAt (pos : Nat) : Bool := ((byte? text pos).map isQuote).getD false

def stringEnd (pos : Nat) : Checked Nat := do
  let quote ← Checked.expect .index (byte? text pos)
  match stringFrom quote 1 ((bytes text).drop (pos + 1)) with
  | some n => return pos + n
  | none => Checked.fail pos .unterminatedString

def plainTemplateEnd (pos : Nat) : Checked (Option Nat) :=
  match templateChunk? ((bytes text).drop (pos + 1)) with
  | some (.closed, n) => return some (pos + 1 + n)
  | some (.substitution, _) => return none
  | none => Checked.fail pos .unterminatedTemplate

def numberEnd (pos : Nat) : Nat :=
  pos + (((bytes text).drop pos).takeWhile fun b => isWordPart b || b = '.').length

def regexEnd? (pos : Nat) : Option Nat := (regex? ((bytes text).drop pos)).map (pos + ·)

def isMember (pos : Nat) : Checked Bool := do
  let before := (← Checked.expect .index (bytesBefore? text pos)).reverse.dropWhile isAsciiBlank
  return before.head? = some '.' && before[1]? != some '.'

def quoteEnd (quote : Char) (pos : Nat) : Nat :=
  match _h : byte? text pos with
  | none => pos
  | some b =>
    if b = '\\' then quoteEnd quote (pos + 2)
    else if b = quote then pos
    else quoteEnd quote (pos + 1)
termination_by (bytes text).length - pos
decreasing_by all_goals
  have := lt_length_of_byte? text _h
  omega

theorem le_quoteEnd (quote : Char) (pos : Nat) : pos ≤ quoteEnd text quote pos := by
  fun_induction quoteEnd text quote pos with
  | case1 => exact Nat.le_refl _
  | case2 pos _ ih => exact Nat.le_trans (Nat.le_add_right pos 2) ih
  | case3 => exact Nat.le_refl _
  | case4 _ _ _ _ _ ih => exact Nat.le_of_succ_le ih

/-- Whether a brace follows the parenthesis that closes the outermost of the `depth`
open ones. -/
def bodyFollows (depth pos : Nat) : Checked Bool :=
  match _h : byte? text pos with
  | none => return false
  | some b =>
    if b = '(' then bodyFollows (depth + 1) (pos + 1)
    else if b = ')' then
      if depth = 0 then Checked.fault .depth
      else if depth = 1 then do
        let rest ← Checked.expect .index (bytesFrom? text (pos + 1))
        return (rest.dropWhile isAsciiBlank).head? = some '\x7b'
      else bodyFollows (depth - 1) (pos + 1)
    else if isQuote b || b = '\x60' then bodyFollows depth (quoteEnd text b (pos + 1) + 1)
    else bodyFollows depth (pos + 1)
termination_by (bytes text).length - pos
decreasing_by all_goals
  have := lt_length_of_byte? text _h
  try have := le_quoteEnd text b (pos + 1)
  omega

end ByteScan

end ImportAtlas
