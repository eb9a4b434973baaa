import ImportAtlas.Specifier.Host

namespace ImportAtlas

open Text

inductive Url where
  | file (remote : Bool) (segments : List (List Char))
  | other (scheme : List Char)
  deriving DecidableEq

namespace Url

inductive SchemeClass where
  | file
  | server
  | opaqueScheme
  deriving DecidableEq

def classOf (scheme : List Char) : SchemeClass :=
  if scheme = "file".toList then .file
  else if ["http", "https", "ws", "wss", "ftp"].any fun s => scheme = s.toList then .server
  else .opaqueScheme

def trimEdges (cs : List Char) : List Char :=
  let isEdge (c : Char) := c.toNat ≤ 0x20
  ((cs.dropWhile isEdge).reverse.dropWhile isEdge).reverse

def isSkipped (c : Char) : Bool := c = '\t' || c = '\n' || c = '\r'

def clean (cs : List Char) : List Char := cs.filter (!isSkipped ·)

def scheme? : List Char → Option (List Char × List Char)
  | [] => none
  | c :: cs =>
    if c.isAlpha then
      let isPart (d : Char) := d.isAlphanum || d = '+' || d = '-' || d = '.'
      match cs.dropWhile isPart with
      | ':' :: rest => some (c.toLower :: (cs.takeWhile isPart).map Char.toLower, rest)
      | _ => none
    else none

def isSlash (c : Char) : Bool := c = '/' || c = '\\'

def endsAuthority (special : Bool) (c : Char) : Bool :=
  c = '/' || c = '?' || c = '#' || (special && c = '\\')

def cutHost (inBrackets : Bool) : List Char → List Char × List Char
  | [] => ([], [])
  | c :: cs =>
    if c = ':' && !inBrackets then ([], c :: cs)
    else
      let inBrackets := c = '[' || (c ≠ ']' && inBrackets)
      let (host, after) := cutHost inBrackets cs
      (c :: host, after)

def isServiceNumber (cs : List Char) : Bool :=
  cs.all Char.isDigit && (Host.digitsBelow 10 cs).any (· ≤ 65535)

def isServicePart : List Char → Bool
  | ':' :: number => isServiceNumber (number.takeWhile (· ≠ '\\'))
  | _ => true

def isAuthority (special : Bool) (cs : List Char) : Bool :=
  let authority := cs.takeWhile (!endsAuthority special ·)
  let after := cs.dropWhile (!endsAuthority special ·)
  let (user, server) := match cutAtLast (· = '@') authority with
    | some (user, server) => (some user, server)
    | none => (none, authority)
  let (host, service) := cutHost false server
  if user = some [] && server.isEmpty && !after.isEmpty then false
  else if host.isEmpty then
    !special && service.isEmpty && (user = none || user = some [] || user = some [':'])
  else (if special then Host.isValid host else Host.isValidOpaque host) && isServicePart service

def dots (cs : List Char) : Option Nat :=
  match cs with
  | [] => some 0
  | '.' :: rest => (dots rest).map (· + 1)
  | '%' :: '2' :: 'e' :: rest => (dots rest).map (· + 1)
  | '%' :: '2' :: 'E' :: rest => (dots rest).map (· + 1)
  | _ => none

def isDriveLetter : List Char → Bool
  | [c, mark] => c.isAlpha && (mark = ':' || mark = '|')
  | _ => false

def brokenDrive? (raw : List Char) : Option (List Char × List Char) :=
  match clean raw with
  | c :: ':' :: rest =>
    let afterColon := (raw.dropWhile (· ≠ ':')).drop 1
    if c.isAlpha && !rest.isEmpty && afterColon.head?.any isSkipped then some ([c, ':'], rest)
    else none
  | _ => none

/-- A path that is being read, last segment first.  `onDrive` says that it began
with a drive letter. -/
structure FilePath where
  segments : List (List Char) := []
  onDrive : Bool := false

namespace FilePath

def leave (path : FilePath) : FilePath :=
  match path.segments with
  | [] => path
  | s :: rest => if isDriveLetter s then path else { path with segments := rest }

def enter (path : FilePath) (segment : List Char) : FilePath :=
  { path with segments := segment :: path.segments }

def push (path : FilePath) (raw : List Char) (isLast : Bool) : FilePath :=
  let segment := clean raw
  let settle (path : FilePath) := if isLast then path.enter [] else path
  match dots segment, path.segments, brokenDrive? raw with
  | some 1, _, _ => settle path
  | some 2, _, _ => settle path.leave
  | _, [], some (drive, rest) => (path.enter drive).enter rest
  | _, [], none =>
    if isDriveLetter segment then ⟨[segment.take 1 ++ [':']], true⟩ else path.enter segment
  | _, _ :: _, _ => path.enter segment

def pushAll (path : FilePath) : List (List Char) → FilePath
  | [] => path
  | [last] => path.push last true
  | segment :: rest => (path.push segment false).pushAll rest

def dropEmptyFront : List (List Char) → List (List Char)
  | [] => [[]]
  | [last] => [last]
  | segment :: rest => if segment.isEmpty then dropEmptyFront rest else segment :: rest

def toList (path : FilePath) : List (List Char) := dropEmptyFront path.segments.reverse

end FilePath

def afterSlash? (cs : List Char) : Option (List Char) :=
  match cs.dropWhile isSkipped with
  | [] => none
  | c :: rest => if isSlash c then some rest else none

def readPath (cs : List Char) : FilePath :=
  let path := cs.takeWhile fun c => c ≠ '?' && c ≠ '#'
  FilePath.pushAll {} (splitOn isSlash ((afterSlash? path).getD path))

/-- The address of a file, from the text after the scheme.  A drive letter in the
place of a host belongs to the path, and in the path it takes a host away. -/
def file? (cs : List Char) : Option Url :=
  match (afterSlash? cs).bind afterSlash? with
  | none => some (.file false (readPath cs).toList)
  | some rest =>
    let isEnd (c : Char) := isSlash c || c = '?' || c = '#'
    let host := clean (rest.takeWhile (!isEnd ·))
    if isDriveLetter host then some (.file false (readPath rest).toList)
    else
      let path := readPath (rest.dropWhile (!isEnd ·))
      if host.isEmpty then some (.file false path.toList)
      else if Host.isValid host then
        some (.file (Host.name? host ≠ some "localhost".toList && !path.onDrive) path.toList)
      else none

/-- Read an address.  A scheme with servers needs a valid authority however
many slashes precede it; any other one needs it only after two slashes. -/
def parse? (text : String) : Option Url :=
  let cs := trimEdges text.toList
  (scheme? (clean cs)).bind fun (scheme, rest) =>
    match classOf scheme with
    | .file => file? ((cs.dropWhile (· ≠ ':')).drop 1)
    | .server =>
      if isAuthority true (rest.dropWhile isSlash) then some (.other scheme) else none
    | .opaqueScheme => match stripHead ['/', '/'] rest with
      | some authority => if isAuthority false authority then some (.other scheme) else none
      | none => some (.other scheme)

/-- The bytes of the path that a file's address stands for, unless it names a
remote host.  A drive letter at its end gets a slash. -/
def filePath? : Url → Option (List UInt8)
  | .file false segments =>
    let bytes := segments.flatMap fun s => 0x2F :: percentDecode s
    let endsInDrive := match bytes.reverse with
      | mark :: letter :: _ :: _ =>
        (mark = 0x3A || mark = 0x7C) && (Char.ofNat letter.toNat).isAlpha
      | _ => false
    some (if endsInDrive then bytes ++ [0x2F] else bytes)
  | _ => none

end Url

end ImportAtlas
