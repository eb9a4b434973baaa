import ImportAtlas.Atlas
import ImportAtlas.Trigger
import ImportAtlas.TypeFiles.Collection

namespace ImportAtlas

structure SourceFiles where
  importMap : OrderedMap String
  typeFiles : OrderedMap String
  packagePaths : OrderedMap Path
  diagnostics : List Diagnostic

def OrderedMap.toJson {α : Type} (value : α → Json) (m : OrderedMap α) : Json :=
  .object (m.entries.map fun (k, v) => (k, value v))

def textsToJson (m : OrderedMap String) : Json := m.toJson .string

def pathsToJson (m : OrderedMap Path) : Json := m.toJson fun p => .string p.toString

def Atlas.toJson (a : Atlas) : Json :=
  .object [("importMap", textsToJson a.importMap), ("packagePaths", pathsToJson a.packagePaths),
    ("diagnostics", Diagnostic.listToJson a.diagnostics)]

def TypeFiles.toJson (fs : TypeFiles) : Json :=
  .object [("files", textsToJson fs.files), ("diagnostics", Diagnostic.listToJson fs.diagnostics)]

namespace SourceFiles

def combine (a : Atlas) (fs : TypeFiles) : SourceFiles where
  importMap := a.importMap
  typeFiles := fs.files
  packagePaths := a.packagePaths
  diagnostics := a.diagnostics ++ fs.diagnostics

def toJson (s : SourceFiles) : Json :=
  .object [("importMap", textsToJson s.importMap), ("typeFiles", textsToJson s.typeFiles),
    ("packagePaths", pathsToJson s.packagePaths),
    ("diagnostics", Diagnostic.listToJson s.diagnostics)]

def mapsToJson (s : SourceFiles) : Json :=
  .object [("importMap", textsToJson s.importMap), ("typeFiles", textsToJson s.typeFiles)]

end SourceFiles

structure Session where
  config : Config
  normalizer : Normalizer
  modules : ModuleCache

namespace Session

def start (config : Config) (modules : ModuleCache) : Session :=
  ⟨config, .basic config.stripSourceMaps, modules⟩

def importMap (t : FileTree) (specifier : String) (root : Path) (s : Session) :
    Except AtlasError Atlas × Session :=
  match (Atlas.trace t s.config s.normalizer specifier root).run ⟨.empty, s.modules⟩ with
  | (answer, caches) => (answer, { s with modules := caches.modules })

def typeFiles (t : FileTree) (specifier : String) (root : Path) (s : Session) :
    Except AtlasError TypeFiles :=
  ((TypeFiles.find t s.config specifier root).run .empty).1

def sourceFiles (t : FileTree) (specifier : String) (root : Path) (s : Session) :
    Except AtlasError SourceFiles × Session :=
  match s.importMap t specifier root with
  | (answer, s) =>
    (do return SourceFiles.combine (← answer) (← s.typeFiles t specifier root), s)

def serve (t : FileTree) (trigger : Trigger) (root : Path) (s : Session) :
    Except AtlasError String × Session :=
  match trigger.kind with
  | .remapImports => match s.importMap t trigger.specifier root with
    | (answer, s) => (answer.map fun a => dataModule (textsToJson a.importMap), s)
  | .typeFiles =>
    ((s.typeFiles t trigger.specifier root).map fun fs => dataModule (textsToJson fs.files), s)
  | .sourceFiles => match s.sourceFiles t trigger.specifier root with
    | (answer, s) => (answer.map fun files => dataModule files.mapsToJson, s)

end Session

end ImportAtlas
