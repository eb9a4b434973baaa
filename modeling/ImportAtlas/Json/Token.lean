import ImportAtlas.Json.Basic
import ImportAtlas.Text.Percent

/-! Tokens of JSON text.  A scalar is judged twice: strictly, for a reader that
wants its value, and loosely, for one that passes over it.  The first fault in
the order of the text is the one that counts, so a token that is broken is
still known by its first character. -/

namespace ImportAtlas.Json

/-- Why text is not accepted: it breaks the grammar, it ends too early, or it
has another shape than the one that is wanted. -/
inductive Fault where
  | malformed
  | ended
  | shape
  deriving DecidableEq, Repr

def Fault.category : Fault → String
  | .malformed => "syntax"
  | .ended => "eof"
  | .shape => "data"

inductive Mark where
  | openArray
  | closeArray
  | openObject
  | closeObject
  | comma
  | colon
  deriving DecidableEq, Repr

inductive Token where
  | mark (m : Mark)
  | word (value : Except Fault Json)
  | number (digits : Except Fault String) (passed : Option Fault)
  | string (value : Except Fault String) (passed : Option Fault)
  | stray

namespace Token

def isBlank (c : Char) : Bool := c = ' ' || c = '\n' || c = '\t' || c = '\r'

def spell : List Char → List Char → Except Fault Unit × List Char
  | [], rest => (.ok (), rest)
  | _ :: _, [] => (.error .ended, [])
  | w :: ws, c :: rest => if w = c then spell ws rest else (.error .malformed, [])

def wordToken (letters : String) (value : Json) (rest : List Char) : Token × List Char :=
  let (read, rest) := spell letters.toList rest
  (.word (read.map fun _ => value), rest)

def digitsValue (ds : List Char) : Nat := ds.foldl (fun n d => 10 * n + (d.toNat - 48)) 0

def finiteBound : Nat := Nat.pow 2 1024 - Nat.pow 2 970

/-- The number of 64 bits that is nearest, the even one of two. -/
def nearestDouble (n : Nat) : Nat :=
  let unit := Nat.pow 2 (n.log2 - 52)
  let below := n / unit
  let rest := n % unit
  if unit < 2 * rest || 2 * rest = unit && below % 2 = 1 then (below + 1) * unit
  else below * unit

/-- Whether a significand of 64 bits times a power of ten is a finite number.  Both are
rounded before they are multiplied; a negative power divides. -/
def isRepresentable (significand : Nat) (exponent : Int) : Bool :=
  if significand = 0 || exponent < 0 then true
  else if 308 < exponent then false
  else nearestDouble significand * nearestDouble (Nat.pow 10 exponent.toNat) < finiteBound

/-- Digits after a significand, as many as its 64 bits have room for, and the number of
those that are left. -/
def fillSignificand (significand : Nat) : List Char → Nat × Nat
  | [] => (significand, 0)
  | d :: ds =>
    let next := 10 * significand + (d.toNat - 48)
    if next < Nat.pow 2 64 then fillSignificand next ds else (significand, ds.length + 1)

def digitRun (cs : List Char) : Except Fault (List Char × List Char) :=
  match cs.takeWhile Char.isDigit with
  | [] => .error (if cs.isEmpty then .ended else .malformed)
  | ds => .ok (ds, cs.dropWhile Char.isDigit)

def integerPart (cs : List Char) : Except Fault (List Char × List Char) :=
  (digitRun cs).bind fun (ds, rest) =>
    if ds.head? = some '0' && ds ≠ ['0'] then .error .malformed else .ok (ds, rest)

def fractionPart : List Char → Except Fault (List Char × List Char)
  | '.' :: rest => digitRun rest
  | rest => .ok ([], rest)

def powerPart : List Char → Except Fault (Int × List Char)
  | [] => .ok (0, [])
  | e :: rest =>
    if e = 'e' || e = 'E' then
      let negative := rest.head? = some '-'
      let rest := if negative || rest.head? = some '+' then rest.tail else rest
      (digitRun rest).map fun (ds, rest) =>
        (if negative then -(digitsValue ds : Int) else digitsValue ds, rest)
    else .ok (0, e :: rest)

def scientific (cs : List Char) : Except Fault (Nat × Int × List Char) := do
  let (integer, rest) ← integerPart cs
  let (fraction, rest) ← fractionPart rest
  let (power, rest) ← powerPart rest
  let (whole, tens) := fillSignificand 0 integer
  let (significand, left) := fillSignificand whole fraction
  return (significand, power + tens - (fraction.length - left), rest)

/-- A number; `sign` is the one that has been read.  Without its digits it is
malformed for a reader that passes over it, even where the text ends. -/
def numberToken (sign cs : List Char) : Token × List Char :=
  match scientific cs with
  | .error f => (.number (.error f) (some .malformed), [])
  | .ok (significand, exponent, rest) =>
    let digits := String.ofList (sign ++ cs.take (cs.length - rest.length))
    (.number (if isRepresentable significand exponent then .ok digits
      else .error .malformed) none, rest)

/-- Where a reader of a string stands: at a plain character, after a backslash,
or after `count` of the four digits of a code unit. -/
inductive StringState where
  | plain
  | escape
  | codeUnit (count value : Nat)

/-- What has been read of a string: its characters, latest first, unless a
surrogate stands alone, and a leading surrogate that waits for its partner. -/
structure StringValue where
  characters : Except Fault (List Char)
  leading : Option Nat

namespace StringValue

def push (c : Char) (v : StringValue) : StringValue :=
  if v.leading.isSome then ⟨v.characters.bind fun _ => .error .malformed, none⟩
  else ⟨v.characters.map (c :: ·), none⟩

def pushUnit (n : Nat) (v : StringValue) : StringValue :=
  if 0xDC00 ≤ n && n ≤ 0xDFFF then match v.leading with
    | some high =>
      let c := Char.ofNat (0x10000 + (high - 0xD800) * 0x400 + (n - 0xDC00))
      ⟨v.characters.map (c :: ·), none⟩
    | none => ⟨v.characters.bind fun _ => .error .malformed, none⟩
  else if 0xD800 ≤ n && n ≤ 0xDBFF then
    if v.leading.isSome then ⟨v.characters.bind fun _ => .error .malformed, none⟩
    else ⟨v.characters, some n⟩
  else v.push (Char.ofNat n)

def broken (f : Fault) (v : StringValue) : Token :=
  .string (v.characters.bind fun _ => .error f) (some f)

def closed (v : StringValue) : Token :=
  .string (v.characters.bind fun cs =>
    if v.leading.isSome then .error .malformed else .ok (String.ofList cs.reverse)) none

end StringValue

def simpleEscape? (c : Char) : Option Char :=
  if c = '"' || c = '\\' || c = '/' then some c
  else if c = 'b' then some '\x08'
  else if c = 'f' then some '\x0C'
  else if c = 'n' then some '\n'
  else if c = 'r' then some '\r'
  else if c = 't' then some '\t'
  else none

def stringToken : StringState → StringValue → List Char → Token × List Char
  | _, v, [] => (v.broken .ended, [])
  | .plain, v, c :: rest =>
    if c = '"' then (v.closed, rest)
    else if c = '\\' then stringToken .escape v rest
    else if c.toNat < 0x20 then (v.broken .malformed, [])
    else stringToken .plain (v.push c) rest
  | .escape, v, c :: rest =>
    if c = 'u' then stringToken (.codeUnit 0 0) v rest
    else match simpleEscape? c with
      | some d => stringToken .plain (v.push d) rest
      | none => (v.broken .malformed, [])
  | .codeUnit count value, v, c :: rest =>
    match Text.hexDigit? c with
    | some d =>
      let value := 16 * value + d
      if count = 3 then stringToken .plain (v.pushUnit value) rest
      else stringToken (.codeUnit (count + 1) value) v rest
    | none =>
      (v.broken (if count + Text.byteLength (c :: rest) < 4 then .ended else .malformed), [])

def beginning (c : Char) (rest : List Char) : Token × List Char :=
  match c with
  | '[' => (.mark .openArray, rest)
  | ']' => (.mark .closeArray, rest)
  | '\x7b' => (.mark .openObject, rest)
  | '\x7d' => (.mark .closeObject, rest)
  | ',' => (.mark .comma, rest)
  | ':' => (.mark .colon, rest)
  | '"' => stringToken .plain ⟨.ok [], none⟩ rest
  | '-' => numberToken ['-'] rest
  | 'n' => wordToken "ull" .null rest
  | 't' => wordToken "rue" (.bool true) rest
  | 'f' => wordToken "alse" (.bool false) rest
  | _ => if c.isDigit then numberToken [] (c :: rest) else (.stray, [])

end Token

end ImportAtlas.Json
