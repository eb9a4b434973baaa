import ImportAtlas.Json.Tokens

namespace ImportAtlas.Json

abbrev Remaining (ts : List Token) := { rest : List Token // rest.length < ts.length }

abbrev Reader (α : Type) := (ts : List Token) → Except Fault (α × Remaining ts)

namespace Token

def mismatch : Token → Fault
  | .mark .openArray => .shape
  | .mark .openObject => .shape
  | .mark _ => .malformed
  | .stray => .malformed
  | .word (.error f) => f
  | .number (.error f) _ => f
  | .string (.error f) _ => f
  | .word (.ok _) => .shape
  | .number (.ok _) _ => .shape
  | .string (.ok _) _ => .shape

end Token

inductive Frame where
  | array (items : List Json)
  | object (members : Members) (key : Option String)

inductive Expected where
  | value
  | firstItem
  | firstKey
  | key
  | colon
  | separator

inductive Progress where
  | done (value : Json)
  | further (stack : List Frame) (next : Expected)

def depthLimit : Nat := 127

/-- How a value is read: keeping it, within the depth limit, or passing over it. -/
inductive Care where
  | strict
  | loose
  deriving DecidableEq

namespace Care

def enter (care : Care) (stack : List Frame) (frame : Frame) (next : Expected) :
    Except Fault Progress :=
  if care = .strict && depthLimit ≤ stack.length then .error .malformed
  else .ok (.further (frame :: stack) next)

def judge {α : Type} (care : Care) (value : Except Fault α) (passed : Option Fault) (blank : α) :
    Except Fault α :=
  match care, passed with
  | .strict, _ => value
  | .loose, some f => .error f
  | .loose, none => .ok blank

def scalar? (care : Care) : Token → Option (Except Fault Json)
  | .word value => some value
  | .number value passed => some ((care.judge value passed "").map .number)
  | .string value passed => some ((care.judge value passed "").map .string)
  | _ => none

def settle (value : Json) : List Frame → Progress
  | [] => .done value
  | .array items :: stack => .further (.array (value :: items) :: stack) .separator
  | .object members (some key) :: stack =>
    .further (.object (members.insert key value) none :: stack) .separator
  | .object members none :: stack => .further (.object members none :: stack) .separator

def close : List Frame → Except Fault Progress
  | .array items :: stack => .ok (settle (.array items.reverse) stack)
  | .object members _ :: stack => .ok (settle (.object members) stack)
  | [] => .error .malformed

def key (care : Care) (stack : List Frame) (token : Token) : Except Fault Progress :=
  match stack, token with
  | .object members _ :: stack, .string value passed => do
    let key ← care.judge value passed ""
    return .further (.object members (some key) :: stack) .colon
  | _, _ => .error .malformed

def value (care : Care) (stack : List Frame) (token : Token) : Except Fault Progress :=
  match token with
  | .mark .openArray => care.enter stack (.array []) .firstItem
  | .mark .openObject => care.enter stack (.object [] none) .firstKey
  | _ => match care.scalar? token with
    | some v => v.map (settle · stack)
    | none => .error .malformed

def separator (stack : List Frame) (token : Token) : Except Fault Progress :=
  match stack, token with
  | .array _ :: _, .mark .comma => .ok (.further stack .value)
  | .object _ _ :: _, .mark .comma => .ok (.further stack .key)
  | .array _ :: _, .mark .closeArray => close stack
  | .object _ _ :: _, .mark .closeObject => close stack
  | _, _ => .error .malformed

def next (care : Care) (stack : List Frame) (expected : Expected) (token : Token) :
    Except Fault Progress :=
  match expected, token with
  | .firstItem, .mark .closeArray => close stack
  | .firstKey, .mark .closeObject => close stack
  | .colon, .mark .colon => .ok (.further stack .value)
  | .colon, _ => .error .malformed
  | .firstKey, _ => care.key stack token
  | .key, _ => care.key stack token
  | .firstItem, _ => care.value stack token
  | .value, _ => care.value stack token
  | .separator, _ => separator stack token

def read (care : Care) : List Frame → Expected → List Token → Except Fault (Json × List Token)
  | _, _, [] => .error .ended
  | stack, expected, t :: ts =>
    match care.next stack expected t with
    | .error f => .error f
    | .ok (.done v) => .ok (v, ts)
    | .ok (.further stack expected) => care.read stack expected ts

theorem length_lt_of_read {care : Care} {stack : List Frame} {e : Expected} {ts rest : List Token}
    {v : Json} (h : care.read stack e ts = .ok (v, rest)) : rest.length < ts.length := by
  fun_induction care.read stack e ts with
  | case1 => contradiction
  | case2 => contradiction
  | case3 =>
    cases h
    exact Nat.lt_succ_self _
  | case4 _ _ _ _ _ _ _ ih => exact Nat.lt_succ_of_lt (ih h)

end Care

namespace Reader

variable {α σ : Type}

def anyValue (care : Care) : Reader Json := fun ts =>
  match h : care.read [] .value ts with
  | .ok (v, rest) => .ok (v, ⟨rest, Care.length_lt_of_read h⟩)
  | .error f => .error f

def one (f : Token → Except Fault α) : Reader α
  | [] => .error .ended
  | t :: ts => (f t).map (·, ⟨ts, Nat.lt_succ_self _⟩)

def named (f : String → Except Fault α) : Reader α := one fun
  | .string name _ => name.bind f
  | t => .error t.mismatch

def string : Reader String := one fun
  | .string value _ => value
  | t => .error t.mismatch

def bool : Reader Bool := one fun
  | .word (.ok (.bool b)) => .ok b
  | t => .error t.mismatch

def null : Reader Unit := one fun
  | .word (.ok .null) => .ok ()
  | t => .error t.mismatch

def mark (m : Mark) : Reader Unit := one fun
  | .mark n => if n = m then .ok () else .error .malformed
  | _ => .error .malformed

def bind {β : Type} (r : Reader α) (f : α → Reader β) : Reader β := fun ts =>
  match r ts with
  | .error e => .error e
  | .ok (a, ⟨rest, h⟩) => match f a rest with
    | .error e => .error e
    | .ok (b, ⟨last, h'⟩) => .ok (b, ⟨last, Nat.lt_trans h' h⟩)

def map {β : Type} (f : α → β) (r : Reader α) : Reader β := fun ts =>
  (r ts).map fun (a, rest) => (f a, rest)

def orNull (r : Reader α) : Reader (Option α) := fun ts =>
  match ts.head? with
  | some (.word (.ok .null)) => map (fun _ => none) null ts
  | _ => map some r ts

def moreItems (r : Reader α) (read : List α) : Reader (List α)
  | [] => .error .ended
  | .mark .closeArray :: ts => .ok (read.reverse, ⟨ts, Nat.lt_succ_self _⟩)
  | .mark .comma :: ts =>
    match r ts with
    | .error f => .error f
    | .ok (a, ⟨rest, h⟩) => match moreItems r (a :: read) rest with
      | .error f => .error f
      | .ok (as, ⟨last, h'⟩) =>
        .ok (as, ⟨last, Nat.lt_succ_of_lt (Nat.lt_trans h' h)⟩)
  | _ :: _ => .error .malformed
termination_by ts => ts.length

def items (r : Reader α) : Reader (List α)
  | [] => .error .ended
  | .mark .openArray :: .mark .closeArray :: ts =>
    .ok ([], ⟨ts, Nat.lt_succ_of_lt (Nat.lt_succ_self _)⟩)
  | .mark .openArray :: ts =>
    match bind r (fun a => moreItems r [a]) ts with
    | .error f => .error f
    | .ok (as, ⟨rest, h⟩) => .ok (as, ⟨rest, Nat.lt_succ_of_lt h⟩)
  | t :: _ => .error t.mismatch

abbrev Fields (σ : Type) := σ → String → Except Fault (Reader σ)

def member (fields : Fields σ) (s : σ) : Reader σ
  | [] => .error .ended
  | .string key _ :: ts =>
    match key.bind (fields s) with
    | .error f => .error f
    | .ok r => match bind (mark .colon) (fun _ => r) ts with
      | .error f => .error f
      | .ok (s, ⟨rest, h⟩) => .ok (s, ⟨rest, Nat.lt_succ_of_lt h⟩)
  | _ :: _ => .error .malformed

def moreMembers (fields : Fields σ) (s : σ) : Reader σ
  | [] => .error .ended
  | .mark .closeObject :: ts => .ok (s, ⟨ts, Nat.lt_succ_self _⟩)
  | .mark .comma :: ts =>
    match member fields s ts with
    | .error f => .error f
    | .ok (s, ⟨rest, h⟩) => match moreMembers fields s rest with
      | .error f => .error f
      | .ok (s, ⟨last, h'⟩) => .ok (s, ⟨last, Nat.lt_succ_of_lt (Nat.lt_trans h' h)⟩)
  | _ :: _ => .error .malformed
termination_by ts => ts.length

/-- The fields of a record written as an array, in the order of their names,
after the first.  A shorter array is accepted if the record allows it. -/
def morePositions (fields : Fields σ) (short : Bool) : List String → σ → Reader σ
  | _, _, [] => .error .ended
  | names, s, .mark .closeArray :: ts =>
    if names.isEmpty || short then .ok (s, ⟨ts, Nat.lt_succ_self _⟩) else .error .shape
  | name :: names, s, .mark .comma :: ts =>
    match fields s name with
    | .error f => .error f
    | .ok r => match bind r (morePositions fields short names) ts with
      | .error f => .error f
      | .ok (s, ⟨rest, h⟩) => .ok (s, ⟨rest, Nat.lt_succ_of_lt h⟩)
  | _, _, _ :: _ => .error .malformed

def record (fields : Fields σ) (short : Bool) (names : List String) (s : σ) : Reader σ
  | [] => .error .ended
  | .mark .openObject :: .mark .closeObject :: ts =>
    .ok (s, ⟨ts, Nat.lt_succ_of_lt (Nat.lt_succ_self _)⟩)
  | .mark .openObject :: ts =>
    match bind (member fields s) (moreMembers fields) ts with
    | .error f => .error f
    | .ok (s, ⟨rest, h⟩) => .ok (s, ⟨rest, Nat.lt_succ_of_lt h⟩)
  | .mark .openArray :: .mark .closeArray :: ts =>
    if names.isEmpty || short then .ok (s, ⟨ts, Nat.lt_succ_of_lt (Nat.lt_succ_self _)⟩)
    else .error .shape
  | .mark .openArray :: ts =>
    match morePositions fields short names s (.mark .comma :: ts) with
    | .error f => .error f
    | .ok (s, ⟨rest, h⟩) => .ok (s, ⟨rest, by simpa using h⟩)
  | t :: _ => .error t.mismatch

def run (r : Reader α) (text : String) : Except Fault α :=
  match r (tokens text.toList) with
  | .error f => .error f
  | .ok (a, ⟨[], _⟩) => .ok a
  | .ok (_, ⟨_ :: _, _⟩) => .error .malformed

end Reader

def parse (text : String) : Except Fault Json := Reader.run (Reader.anyValue .strict) text

end ImportAtlas.Json
