import ImportAtlas.FileTree.Descent
import ImportAtlas.Fresh
import ImportAtlas.ModuleGraph.Expansion

/-! Walking the graph of modules, depth first and in the order of the imports.
Every module is expanded once. -/

namespace ImportAtlas

def FileTree.locations (t : FileTree) : List ModuleLocation := t.filePaths.map .mk

namespace ModuleGraph

variable (t : FileTree) (config : Config) (norm : Normalizer)

def expand (fresh : List ModuleLocation) (stack : List Visit) : Loading (List Expansion) :=
  match _h : stack.dropWhile (·.location ∉ fresh) with
  | [] => pure []
  | visit :: rest => do
    let expansion ← Expansion.ofVisit t config norm visit
    let others ← expand (Fresh.without visit.location fresh)
      (expansion.imports.map Import.visit ++ rest)
    return expansion :: others
termination_by fresh.length
decreasing_by
  have hhead := List.head?_dropWhile_not (fun v : Visit => decide (v.location ∉ fresh)) stack
  rw [_h] at hhead
  exact Fresh.length_without_lt (by simpa using hhead)

/-- The module that an entry specifier leads to, and the expansions of all
modules that it needs. -/
def walk (specifier : String) (base : Path) : Loading (Import × List Expansion) := do
  let entry ← Expansion.follow t config base specifier
  return (entry, ← expand t config norm t.locations [entry.visit])

end ModuleGraph

end ImportAtlas
