import ImportAtlas.Error
import ImportAtlas.Json.Reader

namespace ImportAtlas

structure Manifest where
  path : Path
  value : Json

namespace Manifest

def fileName : Path := Path.ofString "package.json"

def read (t : FileTree) (path : Path) : Except AtlasError Manifest :=
  match t.readStream path with
  | .error fault => .error (.load path fault)
  | .ok text => match Json.parse text with
    | .error fault => .error (.manifest path fault)
    | .ok value => .ok ⟨path, value⟩

def directory (m : Manifest) : Path := m.path.parent?.getD (Path.ofString "/")

def text? (m : Manifest) (key : String) : Option String :=
  ((m.value.get? key).bind Json.string?).filter (· ≠ "")

def field? (m : Manifest) (key : String) : Option Json :=
  (m.value.get? key).filter (!·.isNull)

def exports? (m : Manifest) : Option Json := m.field? "exports"

def imports? (m : Manifest) : Option Json := m.field? "imports"

def files? (m : Manifest) : Option (List String) :=
  ((m.value.get? "files").bind Json.array?).map (·.filterMap Json.string?)

def dependencies (m : Manifest) : List String :=
  (((m.value.get? "dependencies").bind Json.object?).getD []).map Prod.fst

def typesField? (m : Manifest) : Option String := (m.text? "types").or (m.text? "typings")

end Manifest

/-- Manifests that have been looked for, by their paths.  A path is known under
every spelling that has its components.  What was missing is kept as such; what
could not be read is not kept. -/
structure ManifestCache where
  entries : List (Path × Option Manifest)

abbrev Lookup := ExceptT AtlasError (StateM ManifestCache)

namespace ManifestCache

def empty : ManifestCache := ⟨[]⟩

def find? (c : ManifestCache) (path : Path) : Option (Option Manifest) :=
  (c.entries.find? (·.1.components = path.components)).map Prod.snd

def insert (c : ManifestCache) (path : Path) (m : Option Manifest) : ManifestCache :=
  ⟨(path, m) :: c.entries⟩

end ManifestCache

namespace Manifest

def fetch (t : FileTree) (path : Path) (c : ManifestCache) :
    Except AtlasError (Option Manifest) × ManifestCache :=
  match c.find? path with
  | some known => (.ok known, c)
  | none =>
    if t.isFile path then match read t path with
      | .ok m => (.ok (some m), c.insert path (some m))
      | .error e => (.error e, c)
    else (.ok none, c.insert path none)

def get (t : FileTree) (path : Path) : Lookup (Option Manifest) := ExceptT.mk (fetch t path)

def inDirectory (t : FileTree) (directory : Path) : Lookup (Option Manifest) :=
  get t (directory.join fileName)

def readable (t : FileTree) (directory : Path) : Lookup (Option Manifest) :=
  tryCatch (inDirectory t directory) fun _ => pure none

def firstOf (t : FileTree) : List Path → Lookup (Option Manifest)
  | [] => pure none
  | directory :: rest => do
    match ← inDirectory t directory with
    | some m => return some m
    | none => firstOf t rest

def nearest (t : FileTree) (start : Path) : Lookup (Option Manifest) :=
  firstOf t start.ancestors

end Manifest

def nodeModules : List Char := "node_modules".toList

def packageCandidates (name : String) (start : Path) : List Path :=
  (start.ancestors.filter (·.fileName? ≠ some nodeModules)).map fun directory =>
    (directory.join ⟨nodeModules⟩).join (Path.ofString name)

def packageDirectories (t : FileTree) (name : String) (start : Path) : List Path :=
  (packageCandidates name start).filter t.isDirectory

end ImportAtlas
