import ImportAtlas.Diagnostic
import ImportAtlas.ModuleGraph.Walk
import ImportAtlas.OrderedMap

/-! The import map of a walk.  Every module is listed under its id and, if it
was visited by a bare specifier, under that specifier; a key that is taken
stays with the module that took it. -/

namespace ImportAtlas

structure Atlas where
  importMap : OrderedMap String
  /-- Where the modules listed under bare specifiers are. -/
  packagePaths : OrderedMap Path
  /-- Where the modules listed under ids are. -/
  idPaths : OrderedMap Path
  diagnostics : List Diagnostic

namespace Atlas

def empty : Atlas := ⟨.empty, .empty, .empty, []⟩

def note (a : Atlas) (d : Diagnostic) : Atlas := { a with diagnostics := a.diagnostics ++ [d] }

def noteImport (a : Atlas) (i : Import) : Atlas :=
  match i.resolution.stage with
  | .esm => a
  | .commonJs => a.note (.ofFallback i.specifier i.resolution.location.path)

def listBare (a : Atlas) (specifier text : String) (path : Path) : Atlas :=
  match a.packagePaths.get? specifier with
  | some owner =>
    if a.importMap.get? specifier = some text then a
    else a.note (.ofTakenSpecifier specifier owner path)
  | none =>
    { a with
      importMap := a.importMap.insert specifier text
      packagePaths := a.packagePaths.insert specifier path }

def listId (a : Atlas) (id text : String) (path : Path) : Atlas :=
  match a.importMap.get? id with
  | some kept => if kept = text then a else a.note (.ofTakenId id (a.idPaths.get? id) path)
  | none =>
    { a with
      importMap := a.importMap.insert id text
      idPaths := a.idPaths.insert id path }

/-- List a module, after the notes on what it imports. -/
def add (a : Atlas) (e : Expansion) : Atlas :=
  let noted := e.imports.foldl noteImport a
  let path := e.visit.location.path
  let listed := if isBare e.visit.specifier then noted.listBare e.visit.specifier e.text path
    else noted
  listed.listId e.id e.text path

def ofWalk (entry : Import) (expansions : List Expansion) : Atlas :=
  expansions.foldl add (empty.noteImport entry)

/-- The import map of the modules that an entry specifier needs. -/
def trace (t : FileTree) (config : Config) (norm : Normalizer) (specifier : String) (base : Path) :
    Loading Atlas := do
  let (entry, expansions) ← ModuleGraph.walk t config norm specifier base
  return ofWalk entry expansions

end Atlas

end ImportAtlas
