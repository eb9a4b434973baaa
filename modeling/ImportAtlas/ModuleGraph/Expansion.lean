import ImportAtlas.Erasure
import ImportAtlas.ModuleCache
import ImportAtlas.Reference.Scan

namespace ImportAtlas

structure Caches where
  manifests : ManifestCache
  modules : ModuleCache

abbrev Loading := ExceptT AtlasError (StateM Caches)

namespace Loading

def lookup {α : Type} (l : Lookup α) : Loading α := ExceptT.mk fun caches =>
  match l.run caches.manifests with
  | (result, manifests) => (result, { caches with manifests })

def load (t : FileTree) (location : ModuleLocation) (specifier : String) : Loading ModuleRecord :=
  ExceptT.mk fun caches =>
    match caches.modules.load t location specifier with
    | (result, modules) => (result, { caches with modules })

end Loading

/-- What rewrites the text of the module at a path before it is scanned. -/
structure Normalizer where
  name : String
  normalize : Path → String → Except AtlasError String

/-- The normalizer that erases declarations of types, and comments about source maps if
`maps` says so. -/
def Normalizer.basic (maps : Bool) : Normalizer where
  name := "basic"
  normalize path text := .ok (Erasure.normalize maps path text)

structure Visit where
  specifier : String
  location : ModuleLocation
  deriving DecidableEq

structure Import where
  specifier : String
  resolution : Resolution
  id : String
  deriving DecidableEq

def Import.visit (i : Import) : Visit := ⟨i.specifier, i.resolution.location⟩

structure Expansion where
  visit : Visit
  id : String
  imports : List Import
  text : String

namespace Expansion

variable (t : FileTree) (config : Config)

def follow (directory : Path) (specifier : String) : Loading Import := do
  let resolution ← Loading.lookup (Resolver.resolve t config specifier directory)
  let record ← Loading.load t resolution.location specifier
  return ⟨specifier, resolution, record.id⟩

def specifiers (references : List Reference) : List String :=
  (references.map Reference.specifier).eraseDups

def idOf (imports : List Import) (specifier : String) : Option String :=
  (imports.find? (·.specifier = specifier)).map Import.id

def references (path : Path) (text : String) : Except AtlasError (List Reference) :=
  (scan text).mapError (.scan path)

def spliceIds (text : String) (references : List Reference) (imports : List Import) :
    Except AtlasError String :=
  (splice text references fun r => idOf imports r.specifier).mapError .splice

def ofVisit (norm : Normalizer) (visit : Visit) : Loading Expansion := do
  let location := visit.location
  let record ← Loading.load t location visit.specifier
  let text ← liftM (norm.normalize location.path record.contents)
  let references ← liftM (references location.path text)
  let imports ← (specifiers references).mapM (follow t config location.directory)
  let spliced ← liftM (spliceIds text references imports)
  return ⟨visit, record.id, imports, spliced⟩

end Expansion

end ImportAtlas
