import ImportAtlas.FileTree.Basic

namespace ImportAtlas

/-- A node that is no link, and how many more links the path that led to it may
lead through. -/
structure Reached where
  place : Place
  links : Nat
  node : FileNode

structure ReachedEntry where
  name : FileName
  isLink : Bool
  target : Option Reached

namespace Reached

def isDirectory (r : Reached) : Bool := r.node.isDirectory

def Below (r s : Reached) : Prop :=
  Prod.Lex (· < ·) (· < ·) (r.links, sizeOf r.node) (s.links, sizeOf s.node)

def step (t : FileTree) (r : Reached) (name : FileName) (node : FileNode) : Option Reached :=
  match node with
  | .link target => match r.links with
    | 0 => none
    | links + 1 =>
      match t.follow true links (if target.head? = some '/' then [] else r.place)
          (FileTree.pieces target) with
      | .error _ => none
      | .ok (place, left) => (t.node? place).map fun node => ⟨place, left, node⟩
  | node => some ⟨r.place ++ [name], r.links, node⟩

def isLink : FileNode → Bool
  | .link _ => true
  | _ => false

def nameLe (a b : FileName) : Bool := !decide (String.ofList b < String.ofList a)

def entries (t : FileTree) (r : Reached) : List ReachedEntry :=
  match r.node with
  | .directory es =>
    (es.mergeSort fun a b => nameLe a.1 b.1).map fun (name, node) =>
      ⟨name, isLink node, r.step t name node⟩
  | _ => []

theorem below_of_step {t : FileTree} {r s : Reached} {name : FileName} {node : FileNode}
    (hnode : sizeOf node < sizeOf r.node) (h : r.step t name node = some s) : Below s r := by
  unfold step at h
  split at h
  · split at h
    · contradiction
    · split at h
      · contradiction
      · rename_i hr _ _ _ hf
        obtain ⟨_, _, rfl⟩ := Option.map_eq_some_iff.1 h
        refine Prod.Lex.left _ _ ?_
        have := FileTree.followWithin_links_le hf
        simp only [hr]
        omega
  · cases h
    exact Prod.Lex.right _ hnode

theorem below_of_mem_entries {t : FileTree} {r s : Reached} {e : ReachedEntry}
    (he : e ∈ r.entries t) (hs : e.target = some s) : Below s r := by
  unfold entries at he
  split at he
  · rename_i es hr
    obtain ⟨⟨name, node⟩, hmem, rfl⟩ := List.mem_map.1 he
    refine below_of_step ?_ hs
    have hlt := List.sizeOf_lt_of_mem (List.mem_mergeSort.1 hmem)
    rw [hr]
    simp only [FileNode.directory.sizeOf_spec, Prod.mk.sizeOf_spec] at hlt ⊢
    omega
  · simp at he

def ofPath? (t : FileTree) (path : Path) : Option Reached :=
  match t.reach true path with
  | .error _ => none
  | .ok (place, links) => (t.node? place).map fun node => ⟨place, links, node⟩

end Reached

end ImportAtlas
