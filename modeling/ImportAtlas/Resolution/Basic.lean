import ImportAtlas.Config
import ImportAtlas.Manifest.Basic
import ImportAtlas.Manifest.Target
import ImportAtlas.Specifier.Basic

/-! Resolution: finding the file that a specifier stands for.  A first stage
takes files as they are named; a second one also tries extensions, main files
and index files. -/

namespace ImportAtlas

/-- The canonical path of a module, by which it is known. -/
structure ModuleLocation where
  path : Path
  deriving DecidableEq

namespace ModuleLocation

def ofPath (t : FileTree) (path : Path) : Except AtlasError ModuleLocation :=
  match t.canonicalize path with
  | .ok canonical => .ok ⟨canonical⟩
  | .error fault => .error (.load path fault)

def directory (l : ModuleLocation) : Path := l.path.parent?.getD l.path

end ModuleLocation

inductive Stage where
  | esm
  | commonJs
  deriving DecidableEq, Repr

inductive StageOutcome where
  | resolved (path : Path)
  | unresolved (reason : Unresolved)
  deriving DecidableEq

namespace StageOutcome

def isResolved : StageOutcome → Bool
  | .resolved _ => true
  | .unresolved _ => false

def ofOption (reason : Unresolved) : Option Path → StageOutcome
  | some path => .resolved path
  | none => .unresolved reason

end StageOutcome

structure Resolution where
  location : ModuleLocation
  stage : Stage
  deriving DecidableEq

namespace Resolver

variable (t : FileTree) (config : Config)

def conditions : Stage → List String
  | .esm => config.esmConditions
  | .commonJs => config.cjsConditions

def withSuffix (name : List Char) (suffix : String) : List Char := name ++ suffix.toList

def fileOrExtended? (path : Path) : Option Path :=
  if t.isFile path then some path
  else path.fileName?.bind fun name =>
    (config.extensions.map fun ext => path.withFileName (withSuffix name ext)).find? t.isFile

def index? (directory : Path) : Option Path :=
  (config.extensions.map fun ext => directory.join ⟨withSuffix "index".toList ext⟩).find? t.isFile

def directoryMain? (directory : Path) : Lookup (Option Path) := do
  if !t.isDirectory directory then return none
  let main := ((← Manifest.readable t directory).bind (·.text? "main")).bind fun main =>
    let path := directory.join (Path.ofString main)
    (fileOrExtended? t config path).or (index? t config path)
  return main.or (index? t config directory)

def ofPath (stage : Stage) (path : Path) : Lookup StageOutcome :=
  match stage with
  | .esm =>
    if t.isFile path then return .resolved path
    else return .unresolved (if t.isDirectory path then .isDirectory else .notFound)
  | .commonJs => do
    match fileOrExtended? t config path with
    | some found => return .resolved found
    | none => return .ofOption .notFound (← directoryMain? t config path)

def mainCandidates (package : Path) (main : String) : List Path :=
  let path := package.join (Path.ofString main)
  [path, ⟨path.text ++ ".js".toList⟩, path.join (Path.ofString "index.js")]

/-- The entry of a package without exports, for the first stage. -/
def plainMain? (package : Path) (manifest : Option Manifest) : Option Path :=
  let named := manifest.bind fun m =>
    (((m.text? "module").map fun module => package.join (Path.ofString module)).filter t.isFile).or
      ((m.text? "main").bind fun main => (mainCandidates package main).find? t.isFile)
  named.or ((some (package.join (Path.ofString "index.js"))).filter t.isFile)

def exportKey : Option String → String
  | none => "."
  | some subpath => "./" ++ subpath

def ofExports (stage : Stage) (package : Path) (subpath : Option String) (field : Json) :
    StageOutcome :=
  match Target.ofExports field (exportKey subpath) (conditions config stage) with
  | none => .unresolved .exportsNotFound
  | some target =>
    let path := package.join ⟨Text.stripHeads ['.', '/'] target.toList⟩
    if t.isFile path then .resolved path else .unresolved .exportsTargetNotFound

def inPackage (stage : Stage) (subpath : Option String) (package : Path) :
    Lookup StageOutcome := do
  let manifest ← Manifest.inDirectory t package
  match manifest.bind Manifest.exports? with
  | some field => return ofExports t config stage package subpath field
  | none => match subpath with
    | some sub => ofPath t config stage (package.join (Path.ofString sub))
    | none => match stage with
      | .esm => return .ofOption .packageEntryNotFound (plainMain? t package manifest)
      | .commonJs =>
        return .ofOption .packageEntryNotFound (← directoryMain? t config package)

def inPackages (stage : Stage) (subpath : Option String) (last : StageOutcome) :
    List Path → Lookup StageOutcome
  | [] => return last
  | package :: rest => do
    let outcome ← inPackage t config stage subpath package
    if stage = .esm || outcome.isResolved then return outcome
    else inPackages stage subpath outcome rest

def ofBare (stage : Stage) (specifier : String) (base : Path) : Lookup StageOutcome :=
  match PackageSpecifier.parse? specifier with
  | none => return .unresolved .specifierInvalid
  | some p =>
    inPackages t config stage p.subpath (.unresolved .packageNotFound)
      (packageDirectories t p.name base)

def ofPackageImport (stage : Stage) (specifier : String) (base : Path) :
    Lookup StageOutcome := do
  match ← Manifest.nearest t base with
  | none => return .unresolved .importsNotFound
  | some m =>
    match m.imports?.bind fun field =>
        Target.ofImports field specifier (conditions config stage) with
    | none => return .unresolved .importsNotFound
    | some target => match Text.stripHead ['.', '/'] target.toList with
      | some relative => ofPath t config stage (m.directory.join ⟨relative⟩)
      | none => ofBare t config stage target m.directory

def ofUrl (stage : Stage) (specifier : String) : Lookup StageOutcome :=
  match Url.parse? specifier with
  | some (.file remote segments) => match Url.filePath? (.file remote segments) with
    | none => return .unresolved .specifierInvalid
    | some bytes => match Text.decodeUtf8 bytes with
      | .ok text => ofPath t config stage (Path.ofString text)
      | .error _ => return .unresolved .notFound
  | _ => return .unresolved .unsupportedScheme

def stage (stage : Stage) (specifier : String) (base : Path) : Lookup StageOutcome :=
  if specifier = "" then return .unresolved .specifierInvalid
  else match SpecifierKind.of specifier with
    | .packageImport => ofPackageImport t config stage specifier base
    | .relative => ofPath t config stage (base.join (Path.ofString specifier))
    | .absolute => ofPath t config stage (base.join (Path.ofString specifier))
    | .url => ofUrl t config stage specifier
    | .bare => ofBare t config stage specifier base

/-- The location of what a specifier stands for.  The second stage is tried if
the first one finds nothing. -/
def resolve (specifier : String) (base : Path) : Lookup Resolution := do
  match ← stage t config .esm specifier base with
  | .resolved path => return ⟨← liftM (ModuleLocation.ofPath t path), .esm⟩
  | .unresolved esm => match ← stage t config .commonJs specifier base with
    | .resolved path => return ⟨← liftM (ModuleLocation.ofPath t path), .commonJs⟩
    | .unresolved commonJs =>
      throw (.resolution specifier base (.stages esm commonJs))

end Resolver

end ImportAtlas
