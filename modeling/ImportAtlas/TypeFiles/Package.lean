import ImportAtlas.Config
import ImportAtlas.FileTree.Descent
import ImportAtlas.Glob.Search
import ImportAtlas.Manifest.Basic
import ImportAtlas.OrderedMap
import ImportAtlas.Specifier.Basic

namespace ImportAtlas

structure InstalledPackage where
  name : String
  directory : Path
  deriving DecidableEq

namespace InstalledPackage

def find? (t : FileTree) (name : String) (start : Path) : Option InstalledPackage :=
  ((packageDirectories t name start).find? fun directory =>
    t.isFile (directory.join Manifest.fileName)).map (⟨name, ·⟩)

def ofManifest? (m : Manifest) : Option InstalledPackage :=
  ((m.text? "name").or (m.directory.fileName?.map String.ofList)).map (⟨·, m.directory⟩)

/-- The package that a specifier names, or the one that holds the path that it is. -/
def locate (t : FileTree) (specifier : String) (root : Path) : Lookup InstalledPackage :=
  let orRefuse (reason : Unresolved) (found : Option InstalledPackage) :
      Lookup InstalledPackage :=
    match found with
    | some package => pure package
    | none => throw (.resolution specifier root (.single reason))
  let enclosing : Lookup InstalledPackage := do
    let manifest ← Manifest.nearest t (root.join (Path.ofString specifier))
    orRefuse .packageNotFound (manifest.bind ofManifest?)
  match SpecifierKind.of specifier with
  | .bare => match PackageSpecifier.parse? specifier with
    | none => orRefuse .specifierInvalid none
    | some p => orRefuse .packageNotFound (find? t p.name root)
  | .relative => enclosing
  | .absolute => enclosing
  | .url => orRefuse .unsupportedScheme none
  | .packageImport => orRefuse .unsupportedScheme none

end InstalledPackage

namespace Declarations

variable (t : FileTree) (config : Config)

def isDeclaration (path : Path) : Bool :=
  match path.fileName? with
  | some name => config.isDeclaration name
  | none => false

def below (directory : Path) : List Path :=
  match Reached.ofPath? t directory with
  | some r => (t.filesBelow (· = nodeModules) [] directory r).filter (isDeclaration config)
  | none => []

def ofPath (path : Path) : List Path :=
  if t.isDirectory path then below t config path
  else if isDeclaration config path then [path]
  else []

def isPattern (entry : List Char) : Bool := entry.any fun c => c = '*' || c = '?' || c = '['

def listed (directory : Path) (entry : String) : List Path :=
  let entry := Text.stripHeads ['.', '/'] entry.toList
  if entry.isEmpty || entry.head? = some '!' then []
  else if isPattern entry then
    (Glob.paths t (Glob.escape directory.text ++ '/' :: entry)).flatMap (ofPath t config)
  else
    let path := directory.join ⟨entry⟩
    if t.isDirectory path || t.isFile path then ofPath t config path else []

abbrev Sources := OrderedMap Path

/-- A file counts under its first path; files outside the package or in a
package installed below it do not count. -/
def addSource (directory : Path) (sources : Sources) (path : Path) : Sources :=
  match directory.relativeTo path with
  | none => sources
  | some relative =>
    if (Text.splitOn Path.isSeparator relative).contains nodeModules then sources
    else sources.insertNew (String.ofList relative) path

def entryPath? (directory : Path) (m : Manifest) : Option Path :=
  m.typesField?.map fun entry => directory.join (Path.ofString entry)

def sources (directory : Path) (m : Manifest) : Sources :=
  let entry := ((entryPath? directory m).filter t.isFile).toList
  let declarations := match m.files? with
    | some entries => entries.flatMap (listed t config directory)
    | none => below t config directory
  (entry ++ declarations).foldl (addSource directory)
    (OrderedMap.empty.insert Manifest.fileName.toString m.path)

end Declarations

end ImportAtlas
