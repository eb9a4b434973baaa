import ImportAtlas.FileTree.Reached
import ImportAtlas.Glob.Pattern
import ImportAtlas.Text.Cut

namespace ImportAtlas.Glob

structure Spot where
  path : Path
  target : Option Reached

namespace Spot

def ofPath (t : FileTree) (path : Path) : Spot := ⟨path, Reached.ofPath? t path⟩

def isDirectory (s : Spot) : Bool := (s.target.map Reached.isDirectory).getD false

def below (s : Spot) (name : FileName) : Path :=
  if s.path.components = [.current] then ⟨name⟩ else s.path.join ⟨name⟩

def stands (t : FileTree) (path : Path) : Bool :=
  match t.locate false path with
  | .ok place => (t.node? place).isSome
  | .error _ => false

end Spot

/-- The paths that a pattern leads to from a spot.  A trailing pattern of two
stars leads to directories only; `onlyDirectories` says that any pattern does. -/
def search (t : FileTree) (onlyDirectories : Bool) (patterns : List Component) (s : Spot) :
    List Path :=
  match patterns with
  | [] => if !onlyDirectories || s.isDirectory then [s.path] else []
  | .recursive :: rest =>
    match _hs : s.target with
    | none => []
    | some r => (r.entries t).attach.flatMap fun ⟨e, _he⟩ =>
      let child : Spot := ⟨s.below e.name, e.target⟩
      let here := match rest with
        | [] => if child.isDirectory then [child.path] else []
        | next :: others =>
          if next.accepts e.name then search t onlyDirectories others child else []
      let deeper := match _ht : e.target with
        | some q =>
          if q.isDirectory then search t onlyDirectories (.recursive :: rest) child else []
        | none => []
      here ++ deeper
  | pattern :: rest =>
    match pattern.literal? with
    | some name =>
      let next := s.below name
      let dots := name = ['.'] || name = ['.', '.']
      if if dots then s.isDirectory else Spot.stands t next then
        search t onlyDirectories rest (.ofPath t next)
      else []
    | none => match s.target with
      | none => []
      | some r =>
        let dotted := if r.isDirectory then pattern.dotNames else []
        (dotted.flatMap fun name => search t onlyDirectories rest (.ofPath t (s.path.join ⟨name⟩)))
          ++ (r.entries t).flatMap fun e =>
            if pattern.accepts e.name then
              search t onlyDirectories rest ⟨s.below e.name, e.target⟩
            else []
termination_by (patterns.length, (s.target.map Reached.links).getD 0,
  (s.target.map fun r => sizeOf r.node).getD 0)
decreasing_by
  all_goals first
    | exact Prod.Lex.left _ _ (by simp only [List.length_cons]; omega)
    | refine Prod.Lex.right _ ?_
      have h := Reached.below_of_mem_entries _he _ht
      simp only [_hs, _ht, Option.map_some, Option.getD_some]
      exact h

/-- Where a pattern begins, and what is left of it.  The pattern is cut where as
many bytes follow as its components take up without their root. -/
def cutRoot (pattern : List Char) : List Char × List Char :=
  let body := match (Path.mk pattern).components with
    | .root :: cs => cs
    | cs => cs
  let length := Text.byteLength pattern - Text.byteLength (Path.slashed body)
  (Text.cut? length pattern).getD (pattern, [])

def paths (t : FileTree) (pattern : List Char) : List Path :=
  let (root, body) := cutRoot pattern
  match components? pattern, components? body with
  | some _, some patterns =>
    search t (pattern.getLast? = some '/') patterns (.ofPath t ⟨if root = [] then ['.'] else root⟩)
  | _, _ => []

end ImportAtlas.Glob
