import ImportAtlas.Specifier.Url

namespace ImportAtlas

open Text

inductive SpecifierKind where
  | relative
  | absolute
  | url
  | packageImport
  | bare
  deriving DecidableEq, Repr

namespace SpecifierKind

def isAbsolutePath : List Char → Bool
  | '/' :: _ => true
  | '\\' :: '\\' :: _ => true
  | c :: ':' :: slash :: _ => c.isAlpha && Url.isSlash slash
  | _ => false

def of (specifier : String) : SpecifierKind :=
  let cs := specifier.toList
  if cs.head? = some '.' then .relative
  else if cs.head? = some '#' then .packageImport
  else if isAbsolutePath cs then .absolute
  else if (Url.parse? specifier).isSome then .url
  else .bare

end SpecifierKind

def isBare (specifier : String) : Bool := SpecifierKind.of specifier = .bare

structure PackageSpecifier where
  name : String
  subpath : Option String
  deriving DecidableEq, Repr

namespace PackageSpecifier

def cutName (cs : List Char) : Option (List Char × Option (List Char)) :=
  let isSlash (c : Char) : Bool := c = '/'
  match cs with
  | '@' :: _ => match cutAtFirst isSlash cs with
    | none => none
    | some (scope, rest) =>
      let (package, subpath) := match cutAtFirst isSlash rest with
        | none => (rest, none)
        | some (package, subpath) => (package, some subpath)
      if scope.length ≤ 1 || package.isEmpty then none
      else some (scope ++ '/' :: package, subpath)
  | _ => match cutAtFirst isSlash cs with
    | none => some (cs, none)
    | some (name, subpath) => some (name, some subpath)

def isName (cs : List Char) : Bool :=
  !cs.isEmpty && cs.head? ≠ some '.' && !cs.contains '%' && !cs.contains '\\'

def parse? (specifier : String) : Option PackageSpecifier :=
  (cutName specifier.toList).bind fun (name, subpath) =>
    if isName name then
      some ⟨String.ofList name, (subpath.filter (!·.isEmpty)).map String.ofList⟩
    else none

def typesPackage (p : PackageSpecifier) : String :=
  let folded := match p.name.toList with
    | '@' :: rest => match cutAtFirst (· = '/') rest with
      | some (scope, name) => scope ++ ['_', '_'] ++ name
      | none => p.name.toList
    | cs => cs
  String.ofList ("@types/".toList ++ folded)

end PackageSpecifier

end ImportAtlas
