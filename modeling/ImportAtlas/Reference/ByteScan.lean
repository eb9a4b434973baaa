import ImportAtlas.Reference.ByteLexeme
import ImportAtlas.Reference.Progress

namespace ImportAtlas.ByteScan

open Text Lexeme

inductive Token where
  | none
  | punctuation (b : Char)
  | word (start stop : Nat)
  | value
  | controlHead
  deriving DecidableEq

structure State where
  pos : Nat
  last : Token
  heads : List Bool
  found : List Reference

variable (text : List Char)

def isWordAmong (words : List String) : Token → Checked Bool
  | .word start stop => do
    let name ← Checked.expect .slice (slice? text start stop)
    return words.any fun w => w.toList = name
  | _ => return false

def allowsRegex : Token → Checked Bool
  | .none => return true
  | .controlHead => return true
  | .punctuation b => return b != ')' && b != ']'
  | .value => return false
  | t@(.word ..) => isWordAmong text LastToken.expressionWords t

def record (kind : ReferenceKind) (start stop : Nat) (s : State) : Checked State := do
  let body ← Checked.expect .slice (slice? text (start + 1) (stop - 1))
  return { s with last := .value, found := s.found ++ [⟨String.ofList body, start, stop, kind⟩] }

/-- One item of an import clause: the literal after `from`, or the position where the
clause goes on. -/
def importItem (pos : Nat) (b : Char) : Checked (Nat × Nat ⊕ Nat) := do
  if isQuote b then return .inr (← stringEnd text pos)
  else if isWordStart b then
    let stop := wordEnd text pos
    if (← Checked.expect .slice (slice? text pos stop)) = "from".toList then
      let after ← skipTrivia text stop
      if quoteAt text after then return .inl (after, ← stringEnd text after)
      else return .inr after
    else return .inr stop
  else return .inr (pos + 1)

def importClause (start pos : Nat) : Checked (Nat × Nat) :=
  match _hp : skipTrivia text pos with
  | .error e => .error e
  | .ok place => match _hb : byte? text place with
    | none => Checked.fail start .importWithoutFrom
    | some b =>
      if b = ';' || b = '=' then Checked.fail start .importWithoutFrom
      else match importItem text place b with
        | .error e => .error e
        | .ok (.inl literal) => .ok literal
        | .ok (.inr next) =>
          if pos < next then importClause start next else Checked.fault .stalled
termination_by (bytes text).length - pos
decreasing_by
  have := lt_length_of_byte? text _hb
  have := le_of_skipTrivia text _hp
  omega

def exportClauseEnd (start pos : Nat) : Checked Nat :=
  match _hp : skipTrivia text pos with
  | .error e => .error e
  | .ok place => match _hb : byte? text place with
    | none => Checked.fail start .unterminatedExportClause
    | some b =>
      if b = '\x7d' then .ok (place + 1)
      else match if isQuote b then stringEnd text place else .ok (place + 1) with
        | .error e => .error e
        | .ok next =>
          if pos < next then exportClauseEnd start next else Checked.fault .stalled
termination_by (bytes text).length - pos
decreasing_by
  have := lt_length_of_byte? text _hb
  have := le_of_skipTrivia text _hp
  omega

def fromClause (start pos : Nat) : Checked (Nat × Nat) := do
  let place ← skipTrivia text pos
  if (← wordAt text place) = some "from".toList then
    let after ← skipTrivia text (place + 4)
    if quoteAt text after then return (after, ← stringEnd text after)
    else Checked.fail after .specifierExpected
  else Checked.fail start .fromExpected

def exportName (start pos : Nat) : Checked Nat := do
  if (← wordAt text pos) = some "as".toList then
    let place ← skipTrivia text (pos + 2)
    if quoteAt text place then stringEnd text place
    else if ((byte? text place).map isWordStart).getD false then return wordEnd text place
    else Checked.fail start .exportNameExpected
  else return pos

def plainLiteralEnd (pos : Nat) : Checked (Option Nat) :=
  if quoteAt text pos then some <$> stringEnd text pos
  else if byte? text pos = some '\x60' then plainTemplateEnd text pos
  else return none

def dynamicArgument (pos : Nat) : Checked (Option (Nat × Nat × Nat)) := do
  let place ← skipTrivia text pos
  match ← plainLiteralEnd text place with
  | none => return none
  | some stop =>
    let after ← skipTrivia text stop
    if byte? text after = some ')' || byte? text after = some ',' then
      return some (place, stop, after)
    else return none

def importWord (start : Nat) (s : State) : Checked State := do
  let pos ← skipTrivia text s.pos
  match byte? text pos with
  | none => return s
  | some b =>
    if b = '(' then
      let s : State := { s with pos := pos + 1, last := .punctuation '(', heads := false :: s.heads }
      match ← dynamicArgument text s.pos with
      | some (start, stop, after) => record text .dynamic start stop { s with pos := after }
      | none => return s
    else if isQuote b then
      let stop ← stringEnd text pos
      record text .declaration pos stop { s with pos := stop }
    else if b = '\x7b' || b = '*' || isWordStart b then
      let (literal, stop) ← importClause text start pos
      record text .declaration literal stop { s with pos := stop }
    else return s

def skipType (pos : Nat) : Checked Nat := do
  if (← wordAt text pos) = some "type".toList then skipTrivia text (pos + 4) else return pos

def exportWord (start : Nat) (s : State) : Checked State := do
  let pos ← skipType text (← skipTrivia text s.pos)
  if byte? text pos = some '*' then
    let place ← exportName text start (← skipTrivia text (pos + 1))
    let (literal, stop) ← fromClause text start place
    record text .reExport literal stop { s with pos := stop }
  else if byte? text pos = some '\x7b' then
    let closed ← exportClauseEnd text start (pos + 1)
    let after ← skipTrivia text closed
    if (← wordAt text after) = some "from".toList then
      let (literal, stop) ← fromClause text start after
      record text .reExport literal stop { s with pos := stop }
    else return { s with pos := closed, last := .punctuation '\x7d' }
  else return s

def requireWord (start : Nat) (before : Token) (s : State) : Checked State := do
  let pos ← skipTrivia text s.pos
  if byte? text pos = some '(' then
    if ← isWordAmong text ["function"] before then return s
    else if ← bodyFollows text 0 pos then return s
    else Checked.fail start .commonJsCall
  else return s

def wordToken (s : State) : Checked State := do
  let stop := wordEnd text s.pos
  let after : State := { s with pos := stop, last := .word s.pos stop }
  if ← isMember text s.pos then return after
  else
    let name ← Checked.expect .slice (slice? text s.pos stop)
    if name = "import".toList then importWord text s.pos after
    else if name = "export".toList then exportWord text s.pos after
    else if name = "require".toList then requireWord text s.pos s.last after
    else return after

def slashToken (s : State) : Checked State := do
  if ← allowsRegex text s.last then
    match regexEnd? text s.pos with
    | some stop => return { s with pos := stop, last := .value }
    | none => return { s with pos := s.pos + 1, last := .punctuation '/' }
  else return { s with pos := s.pos + 1, last := .punctuation '/' }

/-- Pass over the token that begins with the byte `b`, and count open braces.
Templates, and the brace that closes a substitution, are left to `scanCode`. -/
def token (b : Char) (depth : Nat) (s : State) : Checked (Nat × State) := do
  if b = '/' then return (depth, ← slashToken text s)
  else if isQuote b then
    return (depth, { s with pos := ← stringEnd text s.pos, last := .value })
  else if b = '\x7b' then
    return (depth + 1, { s with pos := s.pos + 1, last := .punctuation b })
  else if b = '\x7d' then
    return (depth - 1, { s with pos := s.pos + 1, last := .punctuation b })
  else if b.isDigit then return (depth, { s with pos := numberEnd text s.pos, last := .value })
  else if b = '(' then
    let head ← isWordAmong text LastToken.controlWords s.last
    return (depth, { s with pos := s.pos + 1, last := .punctuation b, heads := head :: s.heads })
  else if b = ')' then
    let last := if s.heads.head?.getD false then .controlHead else .punctuation b
    return (depth, { s with pos := s.pos + 1, last := last, heads := s.heads.tail })
  else if isWordStart b then return (depth, ← wordToken text s)
  else return (depth, { s with pos := s.pos + 1, last := .punctuation b })

theorem lt_length_of_templateChunk {pos n : Nat} {e : ChunkEnd}
    (h : templateChunk? ((bytes text).drop pos) = some (e, n)) :
    pos < (bytes text).length ∧ 0 < n := by
  refine ⟨Nat.lt_of_not_le fun hle => ?_, lt_of_templateChunkFrom h⟩
  rw [List.drop_eq_nil_of_le hle] at h
  contradiction

mutual

def scanCode (inTemplate : Bool) (depth : Nat) (s : State) : Checked State :=
  match _hb : byte? text s.pos with
  | none => if inTemplate then Checked.fail s.pos .unterminatedTemplate else .ok s
  | some b => match triviaItem text s.pos with
    | .error e => .error e
    | .ok (some next) =>
      if s.pos < next then scanCode inTemplate depth { s with pos := next }
      else Checked.fault .stalled
    | .ok none =>
      if b = '\x60' then match scanTemplate s.pos { s with pos := s.pos + 1 } with
        | .error e => .error e
        | .ok s' =>
          if s.pos < s'.pos then scanCode inTemplate depth { s' with last := .value }
          else Checked.fault .stalled
      else if b = '\x7d' && inTemplate && depth = 0 then .ok { s with pos := s.pos + 1 }
      else match token text b depth s with
        | .error e => .error e
        | .ok (depth', s') =>
          if s.pos < s'.pos then scanCode inTemplate depth' s' else Checked.fault .stalled
termination_by (bytes text).length - s.pos
decreasing_by all_goals
  have := lt_length_of_byte? text _hb
  omega

/-- Pass over the text of the template that opens at `start`, and over the code of
its substitutions. -/
def scanTemplate (start : Nat) (s : State) : Checked State :=
  match _hc : templateChunk? ((bytes text).drop s.pos) with
  | none => Checked.fail start .unterminatedTemplate
  | some (.closed, n) => .ok { s with pos := s.pos + n }
  | some (.substitution, n) =>
    match scanCode true 0 { s with pos := s.pos + n, last := .punctuation '\x7b' } with
    | .error e => .error e
    | .ok s' => if s.pos < s'.pos then scanTemplate start s' else Checked.fault .stalled
termination_by (bytes text).length - s.pos
decreasing_by all_goals
  have := lt_length_of_templateChunk text _hc
  omega

end

def beginning : Checked Nat := do
  let pos := if text.head? = some byteOrderMark then byteOrderMark.utf8Size else 0
  let rest ← Checked.expect .index (bytesFrom? text pos)
  return if rest.take 2 = "#!".toList then lineEnd text pos else pos

def scan : Checked (List Reference) := do
  let s ← scanCode text false 0 ⟨← beginning text, .none, [], []⟩
  return s.found

end ImportAtlas.ByteScan
