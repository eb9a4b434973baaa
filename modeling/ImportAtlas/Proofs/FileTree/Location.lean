import ImportAtlas.FileTree.Descent
import ImportAtlas.Proofs.FileTree.Way

namespace ImportAtlas

namespace FileNode

theorem mem_of_named? {name : FileName} {node : FileNode} {es : List (FileName × FileNode)}
    (h : named? name es = some node) : (name, node) ∈ es := by
  induction es with
  | nil => cases h
  | cons e rest ih =>
    simp only [named?] at h
    split at h
    · rename_i hn
      cases h
      exact hn ▸ List.mem_cons_self
    · exact List.mem_cons_of_mem e (ih h)

variable {p : FileNode → Bool}

theorem mem_placesIn {name : FileName} {node : FileNode} {place : Place}
    {es : List (FileName × FileNode)} (he : (name, node) ∈ es) (h : place ∈ node.places p) :
    name :: place ∈ placesIn p es := by
  induction es with
  | nil => cases he
  | cons e rest ih =>
    simp only [placesIn, List.mem_append]
    rcases List.mem_cons.1 he with rfl | he
    · exact .inl (List.mem_map_of_mem h)
    · exact .inr (ih he)

theorem nil_mem_places {node : FileNode} (h : p node = true) : [] ∈ node.places p := by
  cases node with
  | file bytes => simp [places, h]
  | link target => simp [places, h]
  | directory es => simp [places, h]

theorem mem_places {root node : FileNode} {place : Place} (hp : p node = true)
    (h : root.at? place = some node) : place ∈ root.places p := by
  induction place generalizing root with
  | nil =>
    cases h
    exact nil_mem_places hp
  | cons name rest ih =>
    obtain ⟨child, hchild, hrest⟩ := Option.bind_eq_some_iff.1 h
    cases root with
    | file => cases hchild
    | link => cases hchild
    | directory es =>
      simp only [places, List.mem_append]
      exact .inr (mem_placesIn (mem_of_named? hchild) (ih hrest))

end FileNode

namespace FileTree

variable {t : FileTree} {path canonical : Path}

theorem isFile_iff : t.isFile path = true ↔
    ∃ place bytes, t.locate true path = .ok place ∧ t.node? place = some (.file bytes) := by
  constructor
  · intro h
    unfold isFile find? at h
    cases hl : t.locate true path with
    | error => simp [hl] at h
    | ok place =>
      simp only [hl] at h
      split at h
      · rename_i hn
        exact ⟨place, _, rfl, hn⟩
      · cases h
  · rintro ⟨place, bytes, hl, hn⟩
    simp [isFile, find?, hl, hn]

theorem canonicalize_of_reach {r : Place × Nat} (h : t.reach true path = .ok r) :
    ∃ answer, t.canonicalize path = answer.map (fun r => pathOf r.1) ∧
      t.Restricted isWithinReach (t.startOf path) (pieces path.text) r answer := by
  obtain ⟨⟨hnul, hempty, -⟩, hfollow⟩ := reach_eq_ok.1 h
  refine ⟨_, ?_, restricted_followWithin _ hfollow⟩
  rw [canonicalize, if_neg (Bool.eq_false_iff.1 hnul), if_neg hempty]

theorem eq_pathOf_of_canonicalize {place : Place} (hl : t.locate true path = .ok place)
    (h : t.canonicalize path = .ok canonical) : canonical = pathOf place := by
  obtain ⟨r, hr, rfl⟩ := Outcome.map_eq_ok.1 hl
  obtain ⟨answer, hanswer, hrestricted⟩ := canonicalize_of_reach hr
  rw [hanswer] at h
  cases hrestricted with
  | admitted =>
    cases h
    rfl
  | refused => cases h

theorem mem_filePaths_of_canonicalize (hf : t.isFile path = true)
    (h : t.canonicalize path = .ok canonical) : canonical ∈ t.filePaths := by
  obtain ⟨place, bytes, hl, hn⟩ := isFile_iff.1 hf
  rw [eq_pathOf_of_canonicalize hl h]
  exact List.mem_map_of_mem (FileNode.mem_places rfl hn)

end FileTree

end ImportAtlas
