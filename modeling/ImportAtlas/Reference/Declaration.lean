import ImportAtlas.Reference.Basic

namespace ImportAtlas.Text.Cursor

open Lexeme

def wordHere (c : Cursor) : List Char :=
  if (c.rest.head?.map isWordStart).getD false then word c.rest else []

def startsQuote (c : Cursor) : Bool := (c.rest.head?.map isQuote).getD false

def clauseItem (c : Cursor) : Except ScanFailure Nat :=
  if c.startsQuote then c.literal.map Literal.length
  else .ok (max 1 c.wordHere.length)

theorem clauseItem_pos {c : Cursor} {n : Nat} (h : c.clauseItem = .ok n) : 0 < n := by
  unfold clauseItem at h
  split at h
  · cases hl : c.literal with
    | error => simp [hl, Except.map] at h
    | ok l =>
      simp only [hl, Except.map, Except.ok.injEq] at h
      exact h ▸ length_pos_of_literal hl
  · injection h with h
    omega

/-- The literal after `from`, `start` being where the declaration begins.  A
name `from` that no literal follows is passed over. -/
def importClause (start c : Cursor) : Except ScanFailure Literal :=
  match _ht : c.skipTrivia with
  | .error e => .error e
  | .ok t =>
    match _hr : t.rest with
    | [] => start.fail .importWithoutFrom
    | x :: _ =>
      if x = ';' || x = '=' then start.fail .importWithoutFrom
      else match _hn : t.clauseItem with
        | .error e => .error e
        | .ok n =>
          if t.wordHere = "from".toList then
            match (t.advance n).skipTrivia with
            | .error e => .error e
            | .ok u => if u.startsQuote then u.literal else importClause start (t.advance n)
          else importClause start (t.advance n)
termination_by c.rest.length
decreasing_by all_goals
  have hle := (Reaches.of_skipTrivia _ht).length_le
  have hpos := clauseItem_pos _hn
  simp only [rest_advance, List.length_drop, _hr, List.length_cons] at hle ⊢
  omega

def exportClauseEnd (start c : Cursor) : Except ScanFailure Cursor :=
  match _ht : c.skipTrivia with
  | .error e => .error e
  | .ok t =>
    match _hr : t.rest with
    | [] => start.fail .unterminatedExportClause
    | x :: _ =>
      if x = '\x7d' then .ok (t.advance 1)
      else match _hn : t.clauseItem with
        | .error e => .error e
        | .ok n => exportClauseEnd start (t.advance n)
termination_by c.rest.length
decreasing_by all_goals
  have hle := (Reaches.of_skipTrivia _ht).length_le
  have hpos := clauseItem_pos _hn
  simp only [rest_advance, List.length_drop, _hr, List.length_cons] at hle ⊢
  omega

def fromClause (start c : Cursor) : Except ScanFailure Literal := do
  let t ← c.skipTrivia
  if t.wordHere = "from".toList then
    let u ← (t.advance t.wordHere.length).skipTrivia
    if u.startsQuote then u.literal else u.fail .specifierExpected
  else start.fail .fromExpected

def skipWord (w : List Char) (c : Cursor) : Except ScanFailure Cursor :=
  if c.wordHere = w then (c.advance w.length).skipTrivia else .ok c

def exportName (start c : Cursor) : Except ScanFailure Cursor := do
  if c.wordHere = "as".toList then
    let t ← (c.advance 2).skipTrivia
    if t.startsQuote then return (← t.literal).closing
    else if t.wordHere = [] then start.fail .exportNameExpected
    else return t.advance t.wordHere.length
  else return c

def plainLiteral? (c : Cursor) : Except ScanFailure (Option Literal) :=
  match c.rest with
  | '\x60' :: rest => match templateChunk? rest with
    | none => c.fail .unterminatedTemplate
    | some (.closed, n) => .ok (some ⟨c, n + 1⟩)
    | some (.substitution, _) => .ok none
  | _ => if c.startsQuote then c.literal.map some else .ok none

def endsArgument (c : Cursor) : Bool := c.rest.head? = some ')' || c.rest.head? = some ','

def dynamicArgument (c : Cursor) : Except ScanFailure (Option Literal) := do
  match ← (← c.skipTrivia).plainLiteral? with
  | none => return none
  | some l => return if (← l.closing.skipTrivia).endsArgument then some l else none

end ImportAtlas.Text.Cursor
