import ImportAtlas.HostName.Basic

namespace ImportAtlas.Host

open Text

def digitsBelow (base : Nat) (cs : List Char) : Option Nat :=
  let step (n : Nat) (c : Char) : Option Nat :=
    ((hexDigit? c).filter (· < base)).map (base * n + ·)
  cs.foldlM step 0

def numericPart? : List Char → Option Nat
  | [] => none
  | ['0'] => some 0
  | '0' :: x :: rest =>
    if x = 'x' || x = 'X' then digitsBelow 16 rest else digitsBelow 8 (x :: rest)
  | cs => digitsBelow 10 cs

def nameParts (cs : List Char) : List (List Char) :=
  let parts := splitOn (· = '.') cs
  if parts.getLast? = some [] && 1 < parts.length then parts.dropLast else parts

def endsInNumber (cs : List Char) : Bool :=
  match (nameParts cs).getLast? with
  | none => false
  | some part => (!part.isEmpty && part.all Char.isDigit) || (numericPart? part).isSome

def isIpv4 (cs : List Char) : Bool :=
  let parts := nameParts cs
  match parts.mapM numericPart? with
  | none => false
  | some numbers =>
    numbers.length ≤ 4 && numbers.dropLast.all (· ≤ 255) &&
      numbers.getLast?.any fun n => n < Nat.pow 256 (5 - numbers.length)

def isPlainByte (cs : List Char) : Bool :=
  !cs.isEmpty && cs.all Char.isDigit && (cs.length = 1 || cs.head? ≠ some '0') &&
    (digitsBelow 10 cs).any (· ≤ 255)

def isPlainIpv4 (cs : List Char) : Bool :=
  let parts := splitOn (· = '.') cs
  parts.length = 4 && parts.all isPlainByte

def isPiece (cs : List Char) : Bool :=
  !cs.isEmpty && cs.length ≤ 4 && (digitsBelow 16 cs).isSome

/-- The pieces between colons.  `count` pieces have been read, a compressed run
counting as one; `fresh` says that no colon asks for another piece. -/
def arePieces (count : Nat) (compressed fresh : Bool) : List (List Char) → Bool
  | [] => false
  | [[]] => fresh && (compressed || count = 8)
  | [last] =>
    (isPiece last && count < 8 && (compressed || count = 7)) ||
      (isPlainIpv4 last && count ≤ 6 && (compressed || count = 6))
  | [] :: rest => !compressed && count < 8 && arePieces (count + 1) true true rest
  | piece :: rest => isPiece piece && count < 8 && arePieces (count + 1) compressed false rest

def isIpv6 (cs : List Char) : Bool :=
  match splitOn (· = ':') cs with
  | [] :: [] :: p :: rest => arePieces 1 true true (p :: rest)
  | [] :: _ => false
  | parts => arePieces 0 false true parts

def bracketed? (cs : List Char) : Option (List Char) :=
  match cs with
  | '[' :: rest => some (if rest.getLast? = some ']' then rest.dropLast else [])
  | _ => none

def name? (cs : List Char) : Option (List Char) :=
  match decodeUtf8 (percentDecode cs) with
  | .error _ => none
  | .ok s => HostName.read? s.toList

def isValid (cs : List Char) : Bool :=
  match bracketed? cs with
  | some address => isIpv6 address
  | none => match name? cs with
    | none => false
    | some name => !endsInNumber name || isIpv4 name

def isForbiddenOpaque (c : Char) : Bool :=
  "\x00\t\n\r #/:<>?@[\\]^|".toList.contains c

def isValidOpaque (cs : List Char) : Bool :=
  match bracketed? cs with
  | some address => isIpv6 address
  | none => !cs.any isForbiddenOpaque

end ImportAtlas.Host
