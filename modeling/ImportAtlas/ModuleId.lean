import ImportAtlas.Digest.Blake3
import ImportAtlas.Specifier.Basic

namespace ImportAtlas.ModuleId

open Text

def hashLength : Nat := 7

def shortHash (bytes : List UInt8) : String :=
  String.ofList ((Blake3.hex bytes).take hashLength)

def isSafe (c : Char) : Bool := c.isAlphanum || c = '_' || c = '.' || c = '-'

def lastSegment (cs : List Char) : List Char :=
  match cutAtLast Url.isSlash cs with
  | some (_, segment) => segment
  | none => cs

def dropExtension (cs : List Char) : List Char :=
  match cutAtLast (· = '.') cs with
  | some ([], _) => cs
  | some (stem, _) => stem
  | none => cs

def placeholder : List Char := "module".toList

/-- The readable name of a module: the safe beginning of the last segment of
its specifier.  Names of files lose their extension; names of packages have
none. -/
def shortNameOf (kind : SpecifierKind) (cs : List Char) : List Char :=
  let safe := ((lastSegment cs).dropWhile (· = '#')).takeWhile isSafe
  let name := if kind = .bare || kind = .packageImport then safe else dropExtension safe
  if name.all (· = '.') then placeholder else name

def shortName (specifier : String) : String :=
  String.ofList (shortNameOf (SpecifierKind.of specifier) specifier.toList)

def make (specifier contents : String) : String :=
  shortName specifier ++ "-" ++ shortHash (encodeUtf8 contents.toList)

def isHashDigit (c : Char) : Bool := c.isDigit || ('a' ≤ c && c ≤ 'f')

def isUniqueId (id : String) : Bool :=
  match cutAtLast (· = '-') id.toList with
  | some (name, hash) => !name.isEmpty && hash.length = hashLength && hash.all isHashDigit
  | none => false

end ImportAtlas.ModuleId
