import ImportAtlas.Diagnostic
import ImportAtlas.Fresh
import ImportAtlas.TypeFiles.Package

/-! Collecting the type files of a package and of the packages that it leads to,
depth first.  Every package directory is collected once. -/

namespace ImportAtlas

structure PackageTypes where
  package : InstalledPackage
  manifest : Manifest
  /-- The texts, by the paths below the package's directory, in their order. -/
  files : List (String × String)
  missingEntry : Option String
  linked : List InstalledPackage
  missing : List String

namespace PackageTypes

variable (t : FileTree) (config : Config)

def declaring? (package : InstalledPackage) : Option InstalledPackage :=
  if config.followTypesPackages && !Text.startsWith "@types/".toList package.name.toList then
    (PackageSpecifier.parse? package.name).bind fun p =>
      InstalledPackage.find? t p.typesPackage package.directory
  else none

def dependencies (package : InstalledPackage) (m : Manifest) : List InstalledPackage :=
  m.dependencies.filterMap fun name => InstalledPackage.find? t name package.directory

def missingDependencies (package : InstalledPackage) (m : Manifest) : List String :=
  m.dependencies.filter fun name => (InstalledPackage.find? t name package.directory).isNone

def missingTypes? (package : InstalledPackage) (m : Manifest) : Option String :=
  m.typesField?.filter fun entry => !t.isFile (package.directory.join (Path.ofString entry))

def readSource (source : String × Path) : Except AtlasError (String × String) :=
  match t.readText source.2 with
  | .ok contents => .ok (source.1, contents)
  | .error fault => .error (.load source.2 fault)

def read (package : InstalledPackage) (m : Manifest) : Except AtlasError PackageTypes := do
  let files ← (Declarations.sources t config package.directory m).entries.mapM (readSource t)
  return {
    package
    manifest := m
    files
    missingEntry := missingTypes? t package m
    linked := (declaring? t config package).toList ++ dependencies t package m
    missing := missingDependencies t package m }

def ofPackage? (package : InstalledPackage) : Lookup (Option PackageTypes) := do
  match ← Manifest.inDirectory t package.directory with
  | none => return none
  | some m => return some (← liftM (read t config package m))

/-- Collect the packages of a stack and those that they lead to.  A directory
that is no longer fresh has been collected before. -/
def collect (fresh : List Path) (stack : List InstalledPackage) : Lookup (List PackageTypes) :=
  match stack with
  | [] => pure []
  | package :: rest =>
    match t.canonicalize package.directory with
    | .error fault => throw (.load package.directory fault)
    | .ok directory =>
      if _h : directory ∈ fresh then do
        match ← ofPackage? t config package with
        | none => collect (Fresh.without directory fresh) rest
        | some types =>
          let others ← collect (Fresh.without directory fresh) (types.linked ++ rest)
          return types :: others
      else collect fresh rest
termination_by (fresh.length, stack.length)
decreasing_by
  · exact Prod.Lex.left _ _ (Fresh.length_without_lt _h)
  · exact Prod.Lex.left _ _ (Fresh.length_without_lt _h)
  · exact Prod.Lex.right _ (Nat.lt_succ_self _)

end PackageTypes

structure TypeFiles where
  files : OrderedMap String
  diagnostics : List Diagnostic

namespace TypeFiles

def empty : TypeFiles := ⟨.empty, []⟩

def note (fs : TypeFiles) (d : Diagnostic) : TypeFiles :=
  { fs with diagnostics := fs.diagnostics ++ [d] }

def virtualPath (root name relative : String) : String := root ++ name ++ "/" ++ relative

def addFile (root : String) (package : InstalledPackage) (fs : TypeFiles)
    (file : String × String) : TypeFiles :=
  let key := virtualPath root package.name file.1
  match fs.files.get? key with
  | none => { fs with files := fs.files.insert key file.2 }
  | some kept =>
    if kept = file.2 then fs
    else fs.note (.ofTakenTypePath key package.name
      (package.directory.join (Path.ofString file.1)))

def addPackage (root : String) (fs : TypeFiles) (p : PackageTypes) : TypeFiles :=
  let fs := match p.missingEntry with
    | some entry => fs.note (.ofMissingTypesEntry entry p.manifest.path)
    | none => fs
  let fs := p.files.foldl (addFile root p.package) fs
  let missing (fs : TypeFiles) (name : String) : TypeFiles :=
    fs.note (.ofMissingDependency name p.package.name p.manifest.path)
  p.missing.foldl missing fs

def ofPackages (root : String) (ps : List PackageTypes) : TypeFiles :=
  ps.foldl (addPackage root) empty

def find (t : FileTree) (config : Config) (specifier : String) (root : Path) :
    Lookup TypeFiles := do
  let package ← InstalledPackage.locate t specifier root
  let collected ← PackageTypes.collect t config t.directoryPaths [package]
  return ofPackages config.virtualRoot collected

end TypeFiles

end ImportAtlas
