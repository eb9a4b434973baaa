namespace ImportAtlas.Text.Punycode

def digit? (c : Char) : Option Nat :=
  if 'a' ≤ c && c ≤ 'z' then some (c.toNat - 97)
  else if c.isDigit then some (c.toNat - 22)
  else none

def halve (delta : Nat) : Nat × Nat :=
  if 455 < delta then
    let (last, steps) := halve (delta / 35)
    (last, steps + 36)
  else (delta, 0)
termination_by delta
decreasing_by omega

def adapt (delta count : Nat) (first : Bool) : Nat :=
  let delta := if first then delta / 700 else delta / 2
  let (last, steps) := halve (delta + delta / count)
  steps + 36 * last / (last + 38)

def threshold (position bias : Nat) : Nat :=
  if position ≤ bias then 1 else if bias + 26 ≤ position then 26 else position - bias

def limit : Nat := 4294967296

/-- A name that is being read, and the number whose digits are being read: its
value so far, the weight and the position of its next digit. -/
structure State where
  name : List Char
  code : Nat
  index : Nat
  bias : Nat
  value : Nat
  weight : Nat
  position : Nat

namespace State

def start (plain : List Char) : State := ⟨plain, 128, 0, 72, 0, 1, 36⟩

def settle (s : State) (value : Nat) : Option State :=
  let count := s.name.length + 1
  let total := s.index + value
  let code := s.code + total / count
  let index := total % count
  if limit ≤ total || !(code < 0xD800 || (0xDFFF < code && code < 0x110000)) then none
  else
    some ⟨s.name.take index ++ Char.ofNat code :: s.name.drop index, code, index + 1,
      adapt value count (s.index = 0), 0, 1, 36⟩

def push (s : State) (digit : Nat) : Option State :=
  let value := s.value + digit * s.weight
  let t := threshold s.position s.bias
  if limit ≤ value then none
  else if digit < t then s.settle value
  else
    let weight := s.weight * (36 - t)
    if limit ≤ weight then none
    else some { s with value, weight, position := s.position + 36 }

end State

def decodeFrom (s : State) : List Char → Option (List Char)
  | [] => if s.weight = 1 && s.position = 36 then some s.name else none
  | c :: cs => ((digit? c).bind s.push).bind (decodeFrom · cs)

def decode? (cs : List Char) : Option (List Char) :=
  match cs.reverse.dropWhile (· ≠ '-') with
  | [] => decodeFrom (.start []) cs
  | _ :: plain => decodeFrom (.start plain.reverse) (cs.drop (plain.length + 1))

end ImportAtlas.Text.Punycode
