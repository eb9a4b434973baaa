import ImportAtlas.FileTree.Reached

namespace ImportAtlas

namespace FileNode

mutual

def places (p : FileNode → Bool) : FileNode → List Place
  | .file bytes => if p (.file bytes) then [[]] else []
  | .link target => if p (.link target) then [[]] else []
  | .directory es => (if p (.directory es) then [[]] else []) ++ placesIn p es

def placesIn (p : FileNode → Bool) : List (FileName × FileNode) → List Place
  | [] => []
  | (name, node) :: rest => (places p node).map (name :: ·) ++ placesIn p rest

end

def isFile : FileNode → Bool
  | .file _ => true
  | _ => false

end FileNode

namespace FileTree

def filePaths (t : FileTree) : List Path := (t.root.places FileNode.isFile).map pathOf

def directoryPaths (t : FileTree) : List Path := (t.root.places FileNode.isDirectory).map pathOf

/-- The paths of the files that are reached downwards from a node.  Entries with
a name to skip are left out, and so are links to directories at the places
`above`, through which the node was reached. -/
def filesBelow (t : FileTree) (skip : FileName → Bool) (above : List Place) (path : Path)
    (r : Reached) : List Path :=
  match r.node with
  | .file _ => [path]
  | _ => (r.entries t).attach.flatMap fun ⟨e, _he⟩ =>
    match _ht : e.target with
    | none => []
    | some q =>
      if skip e.name || (e.isLink && (r.place :: above).contains q.place) then []
      else t.filesBelow skip (r.place :: above) (path.join ⟨e.name⟩) q
termination_by (r.links, sizeOf r.node)
decreasing_by exact Reached.below_of_mem_entries _he _ht

end FileTree

end ImportAtlas
