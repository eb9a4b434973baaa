import ImportAtlas.CommandLine.Run
import ImportAtlas.FileTree.Edit

open ImportAtlas

def pictureDepth : Nat := 64

def pictureOf : Nat → String → IO FileNode
  | 0, _ => return .directory []
  | depth + 1, path => do
    let mut nodes : List (FileName × FileNode) := []
    for entry in ← (← IO.FS.realPath path).readDir do
      let name := entry.fileName
      let inner := path ++ "/" ++ name
      try
        let node ← match (← entry.path.symlinkMetadata).type with
          | .symlink => pure (.link (← IO.FS.realPath inner).toString.toList)
          | .dir => pictureOf depth inner
          | _ => pure (.file (← IO.FS.readBinFile inner).toList)
        nodes := (name.toList, node) :: nodes
      catch _ => pure ()
    return .directory nodes

/-- A directory at the end of some names, and around it what packages may need:
the manifests and the installed packages of the directories above. -/
def surroundings (path : String) : List String → IO FileNode
  | [] => pictureOf pictureDepth path
  | name :: rest => do
    let mut nodes : List (FileName × FileNode) := []
    try
      let bytes ← IO.FS.readBinFile (path ++ "/package.json")
      nodes := ("package.json".toList, .file bytes.toList) :: nodes
    catch _ => pure ()
    try
      let node ← pictureOf pictureDepth (path ++ "/node_modules")
      nodes := (nodeModules, node) :: nodes
    catch _ => pure ()
    let next ← surroundings (path ++ "/" ++ name) rest
    return .directory ((name.toList, next) :: nodes.filter (·.1 ≠ name.toList))

def treeAround (directory : String) : IO FileTree := do
  let place := (FileTree.pieces directory.toList).filter (!Path.isIdle ·)
  return ⟨← surroundings "" (place.map String.ofList), place⟩

def prepare (o : CommandLine.Options) : IO (FileTree × CommandLine.Options) := do
  try
    let root ← IO.FS.realPath (o.cwd.getD ".")
    return (← treeAround root.toString, { o with cwd := none })
  catch _ =>
    return (← treeAround (← IO.currentDir).toString, o)

def withConfig (t : FileTree) (o : CommandLine.Options) : IO FileTree := do
  match o.config with
  | none => return t
  | some config =>
    let path := (CommandLine.directory t o).join (Path.ofString config)
    try
      let bytes ← IO.FS.readBinFile path.toString
      return if t.isFile path then t else t.writeFile path bytes.toList
    catch _ => return t

def main (arguments : List String) : IO UInt32 := do
  let outcome ← match CommandLine.parse arguments with
    | .error stop => pure stop.outcome
    | .ok (o, c) => do
      let (t, o) ← prepare o
      let t ← withConfig t o
      pure (.of o.json (CommandLine.execute t o c))
  IO.print outcome.output
  IO.eprint outcome.complaint
  return outcome.exitCode.toUInt32
