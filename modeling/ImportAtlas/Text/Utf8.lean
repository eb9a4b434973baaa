namespace ImportAtlas.Text

def byteLength : List Char → Nat
  | [] => 0
  | c :: cs => c.utf8Size + byteLength cs

@[simp] theorem byteLength_nil : byteLength [] = 0 := rfl

@[simp] theorem byteLength_cons (c : Char) (cs : List Char) :
    byteLength (c :: cs) = c.utf8Size + byteLength cs := rfl

@[simp] theorem byteLength_append (s t : List Char) :
    byteLength (s ++ t) = byteLength s + byteLength t := by
  induction s with
  | nil => simp
  | cons c s ih => simp [ih, Nat.add_assoc]

@[simp] theorem byteLength_reverse (s : List Char) : byteLength s.reverse = byteLength s := by
  induction s with
  | nil => rfl
  | cons c s ih => simp [ih, Nat.add_comm]

/-- What is wrong with the bytes at `index`: `invalid n` says that `n` bytes
begin no character, `incomplete` that the input ends inside one. -/
inductive Utf8Fault where
  | invalid (index length : Nat)
  | incomplete (index : Nat)
  deriving DecidableEq, Repr

def Utf8Fault.message : Utf8Fault → String
  | .invalid i n => s!"invalid utf-8 sequence of {n} bytes from index {i}"
  | .incomplete i => s!"incomplete utf-8 byte sequence from index {i}"

/-- How a character with this first byte continues: the range of the second
byte, and the number of further bytes after it. -/
structure Continuation where
  low : Nat
  high : Nat
  further : Nat
  deriving DecidableEq, Repr

def Continuation.ofLead? (lead : Nat) : Option Continuation :=
  if 0xC2 ≤ lead && lead ≤ 0xDF then some ⟨0x80, 0xBF, 0⟩
  else if lead = 0xE0 then some ⟨0xA0, 0xBF, 1⟩
  else if lead = 0xED then some ⟨0x80, 0x9F, 1⟩
  else if 0xE1 ≤ lead && lead ≤ 0xEF then some ⟨0x80, 0xBF, 1⟩
  else if lead = 0xF0 then some ⟨0x90, 0xBF, 2⟩
  else if 0xF1 ≤ lead && lead ≤ 0xF3 then some ⟨0x80, 0xBF, 2⟩
  else if lead = 0xF4 then some ⟨0x80, 0x8F, 2⟩
  else none

def leadBits (lead : Nat) : Nat :=
  if lead < 0xE0 then lead % 0x20 else if lead < 0xF0 then lead % 0x10 else lead % 0x08

/-- Where the decoder stands: between characters, or inside the character that
began at `start`, with its payload so far and what may follow. -/
inductive Utf8State where
  | between
  | inside (start seen bits : Nat) (next : Continuation)

def decodeFrom : Utf8State → Nat → List UInt8 → List Char → Except Utf8Fault (List Char)
  | .between, _, [], out => .ok out.reverse
  | .inside start _ _ _, _, [], _ => .error (.incomplete start)
  | .between, index, b :: rest, out =>
    if b.toNat < 0x80 then decodeFrom .between (index + 1) rest (Char.ofNat b.toNat :: out)
    else match Continuation.ofLead? b.toNat with
      | none => .error (.invalid index 1)
      | some next => decodeFrom (.inside index 1 (leadBits b.toNat) next) (index + 1) rest out
  | .inside start seen bits next, index, b :: rest, out =>
    if next.low ≤ b.toNat && b.toNat ≤ next.high then
      let bits := bits * 0x40 + b.toNat % 0x40
      match next.further with
      | 0 => decodeFrom .between (index + 1) rest (Char.ofNat bits :: out)
      | n + 1 => decodeFrom (.inside start (seen + 1) bits ⟨0x80, 0xBF, n⟩) (index + 1) rest out
    else .error (.invalid start seen)

def decodeUtf8 (bytes : List UInt8) : Except Utf8Fault String :=
  (decodeFrom .between 0 bytes []).map String.ofList

def replacement : Char := Char.ofNat 0xFFFD

def readLead (b : Nat) : List Char × Option (Nat × Continuation) :=
  if b < 0x80 then ([Char.ofNat b], none)
  else match Continuation.ofLead? b with
    | none => ([replacement], none)
    | some next => ([], some (leadBits b, next))

/-- Decode between characters or inside one.  Bytes that begin no character, up to the
one that shows it, are read as one replacement character. -/
def readableFrom : Option (Nat × Continuation) → List UInt8 → List Char
  | none, [] => []
  | some _, [] => [replacement]
  | none, b :: rest => (readLead b.toNat).1 ++ readableFrom (readLead b.toNat).2 rest
  | some (bits, next), b :: rest =>
    if next.low ≤ b.toNat && b.toNat ≤ next.high then
      let bits := bits * 0x40 + b.toNat % 0x40
      match next.further with
      | 0 => Char.ofNat bits :: readableFrom none rest
      | n + 1 => readableFrom (some (bits, ⟨0x80, 0xBF, n⟩)) rest
    else replacement :: ((readLead b.toNat).1 ++ readableFrom (readLead b.toNat).2 rest)

/-- Bytes as a text in which all that is no UTF-8 is replaced. -/
def readable (bytes : List UInt8) : List Char := readableFrom none bytes

end ImportAtlas.Text
