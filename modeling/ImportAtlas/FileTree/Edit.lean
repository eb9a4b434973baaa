import ImportAtlas.FileTree.Basic

namespace ImportAtlas.FileTree

def put (t : FileTree) (place : Place) (node : FileNode) : FileTree :=
  { t with root := FileNode.put node place t.root }

def makeDirectories (t : FileTree) (place : Place) : List FileName → FileTree × Option Place
  | [] => (t, if t.isDirectoryAt place then some place else none)
  | piece :: rest =>
    match t.follow true linkLimit place [piece] with
    | .ok (next, _) => t.makeDirectories next rest
    | .error .notFound =>
      if (t.node? (place ++ [piece])).isSome then (t, none)
      else
        (t.put (place ++ [piece]) (.directory [])).makeDirectories (place ++ [piece]) rest
    | .error _ => (t, none)

def namedPieces (path : Path) : List FileName := (pieces path.text).filter (!Path.isIdle ·)

def makeDirectory (t : FileTree) (path : Path) : FileTree :=
  (t.makeDirectories (t.startOf path) (namedPieces path)).1

def prepareParent (t : FileTree) (path : Path) : FileTree × Option (Place × FileName) :=
  match (namedPieces path).getLast? with
  | none => (t, none)
  | some name =>
    let (t, parent) := t.makeDirectories (t.startOf path) (namedPieces path).dropLast
    (t, parent.map (·, name))

/-- Write a file, through a link if one stands there. -/
def writeFile (t : FileTree) (path : Path) (bytes : List UInt8) : FileTree :=
  match t.prepareParent path with
  | (t, none) => t
  | (t, some (parent, name)) =>
    let place := match t.follow true linkLimit parent [name] with
      | .ok (place, _) => place
      | .error _ => parent ++ [name]
    if t.isDirectoryAt place then t else t.put place (.file bytes)

def makeLink (t : FileTree) (path : Path) (target : List Char) : FileTree :=
  match t.prepareParent path with
  | (t, none) => t
  | (t, some (parent, name)) =>
    if (t.node? (parent ++ [name])).isSome then t
    else t.put (parent ++ [name]) (.link target)

def remove (t : FileTree) (path : Path) : FileTree :=
  match t.locate false path with
  | .ok place => { t with root := t.root.erase place }
  | .error _ => t

end ImportAtlas.FileTree
