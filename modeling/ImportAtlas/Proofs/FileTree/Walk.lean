import Mathlib.Data.List.Induction
import ImportAtlas.FileTree.Reached
import ImportAtlas.Proofs.FileTree.Detour

namespace ImportAtlas

namespace FileTree

def turn (place : Place) (piece : FileName) : Place :=
  if Path.isIdle piece then place
  else if piece = ['.', '.'] then place.dropLast
  else place ++ [piece]

/-- Where pieces lead from a place, one after another. -/
def walk (place : Place) (todo : List FileName) : Place := todo.foldl turn place

variable {t : FileTree} {place q : Place} {piece : FileName} {todo : List FileName}

theorem walk_append (place : Place) (front back : List FileName) :
    walk place (front ++ back) = walk (walk place front) back :=
  List.foldl_append

theorem turn_of_idle (h : Path.isIdle piece = true) : turn place piece = place := if_pos h

theorem turn_of_isPlain (h : Path.IsPlain piece) : turn place piece = place ++ [piece] := by
  rw [turn, if_neg (by simp [h.not_isIdle]), if_neg h.ne_points]

theorem walk_steady (place : Place) (todo : List FileName) :
    walk place (Path.steady todo) = walk place todo := by
  induction todo generalizing place with
  | nil => rfl
  | cons piece todo ih =>
    rw [Path.steady_cons, walk_append, ih]
    cases hidle : Path.isIdle piece with
    | true => simp [Path.steady, walk, hidle, turn_of_idle]
    | false => simp [Path.steady, walk, hidle]

theorem walk_of_not_mem (h : ['.', '.'] ∉ todo) :
    walk place todo = place ++ Path.steady todo := by
  induction todo generalizing place with
  | nil => exact (List.append_nil place).symm
  | cons piece todo ih =>
    obtain ⟨hpiece, htodo⟩ := not_or.1 (mt List.mem_cons.2 h)
    rw [Path.steady_cons, ← List.append_assoc, walk, List.foldl_cons, ← walk, ih htodo]
    cases hidle : Path.isIdle piece with
    | true => simp [Path.steady, hidle, turn_of_idle]
    | false => simp [Path.steady, hidle, turn, Ne.symm hpiece]

theorem exists_walk_of_prefix (hq : place <+: q) (h : q <+: walk place todo) :
    ∃ front, front <+: todo ∧ walk place front = q := by
  induction todo using List.reverseRecOn with
  | nil => exact ⟨[], List.nil_prefix, (hq.eq_of_length_le h.length_le)⟩
  | append_singleton todo piece ih =>
    have hback (h : q <+: walk place todo) :
        ∃ front, front <+: todo ++ [piece] ∧ walk place front = q := by
      obtain ⟨front, hfront, hwalk⟩ := ih h
      exact ⟨front, hfront.trans (List.prefix_append _ _), hwalk⟩
    have hlast : walk place (todo ++ [piece]) = turn (walk place todo) piece := by
      rw [walk_append]
      rfl
    rw [hlast, turn] at h
    split at h
    · exact hback h
    split at h
    · exact hback (h.trans (List.dropLast_prefix _))
    · rename_i hidle hparent
      rcases List.prefix_concat_iff.1 h with rfl | h
      · exact ⟨_, List.prefix_rfl, by rw [hlast, turn, if_neg hidle, if_neg hparent]⟩
      · exact hback h

/-- Nothing at the place or below it is a link. -/
def LinkFree (t : FileTree) (place : Place) : Prop :=
  ∀ names target, t.node? (place ++ names) ≠ some (.link target)

theorem LinkFree.append (h : t.LinkFree place) (names : Place) : t.LinkFree (place ++ names) := by
  intro rest target
  rw [List.append_assoc]
  exact h (names ++ rest) target

theorem linkFree_of_places {node : FileNode} (hnode : t.node? place = some node)
    (h : node.places Reached.isLink = []) : t.LinkFree place := by
  intro names target hlink
  rw [node?, FileNode.at?_append] at hlink
  rw [node?] at hnode
  rw [hnode, Option.bind_some] at hlink
  have := FileNode.mem_places (p := Reached.isLink) rfl hlink
  rw [h] at this
  cases this

section Follow

variable {base : Place} {admits : Place → Bool} {links : Nat} {r : Place × Nat}

theorem followPieces_eq_walk {jump : Place → List FileName → Except FileFault (Place × Nat)}
    (hfree : t.LinkFree base) (hway : ∀ front, front <+: todo → base <+: walk place front)
    (h : t.followPieces true admits links jump place todo = .ok r) :
    r = (walk place todo, links) := by
  induction todo generalizing place with
  | nil =>
    cases h
    rfl
  | cons piece rest ih =>
    have hrest : ∀ front, front <+: rest → base <+: walk (turn place piece) front :=
      fun front hfront => hway (piece :: front) (List.cons_prefix_cons.2 ⟨rfl, hfront⟩)
    have hon (h : t.followPieces true admits links jump (turn place piece) rest = .ok r) :
        r = (walk place (piece :: rest), links) := ih hrest h
    rw [followPieces] at h
    split at h
    · cases h
    split at h
    · rename_i hidle
      exact hon (by rwa [turn_of_idle hidle])
    rename_i hidle
    split at h
    · rename_i hparent
      exact hon (by rwa [turn, if_neg hidle, if_pos hparent])
    rename_i hparent
    split at h
    · cases h
    have hturn : turn place piece = place ++ [piece] := by
      rw [turn, if_neg hidle, if_neg hparent]
    cases hnode : t.node? (place ++ [piece]) with
    | none =>
      rw [hnode] at h
      cases h
    | some node =>
      rw [hnode] at h
      cases node with
      | file bytes => exact hon (hturn ▸ h)
      | directory entries => exact hon (hturn ▸ h)
      | link target =>
        -- the link would be below the base
        obtain ⟨names, hnames⟩ := hrest [] List.nil_prefix
        rw [← hturn] at hnode
        exact absurd (hnames ▸ hnode) (hfree names target)

theorem followWithin_eq_walk (hfree : t.LinkFree base)
    (hway : ∀ front, front <+: todo → base <+: walk place front)
    (h : t.followWithin true admits links place todo = .ok r) : r = (walk place todo, links) := by
  cases links with
  | zero => exact followPieces_eq_walk hfree hway h
  | succ links => exact followPieces_eq_walk hfree hway h

theorem locate_eq_of_below {directory path : Path} {names : List FileName}
    (hfree : t.LinkFree place) (hplace : t.locate true directory = .ok place)
    (hbelow : directory.Below path names) (hpath : t.locate true path = .ok q) :
    q = place ++ names := by
  obtain ⟨s, hs, rfl⟩ := Outcome.map_eq_ok.1 hplace
  obtain ⟨r, hr, rfl⟩ := Outcome.map_eq_ok.1 hpath
  obtain ⟨habsolute, hsteady⟩ := steady_of_below hbelow (reach_eq_ok.1 hs).1.2.1
  have hplain : ∀ n ∈ names, Path.IsPlain n := fun n hn =>
    Path.isPlain_of_mem_components (hbelow ▸ List.mem_append_right _ (List.mem_map_of_mem hn))
  have hpoints : ['.', '.'] ∉ names := fun hmem => (hplain _ hmem).ne_points rfl
  have hfollow := follow_of_reach hr
  rw [startOf, habsolute, ← startOf, hsteady, follow, followWithin_append] at hfollow
  obtain ⟨s', hs', hrest⟩ := Outcome.bind_eq_ok.1 hfollow
  obtain rfl := Except.ok.inj (hs'.symm.trans (follow_of_reach hs))
  have hway : ∀ front, front <+: names → s'.1 <+: walk s'.1 front := fun front hfront => by
    rw [walk_of_not_mem fun hmem => hpoints (hfront.subset hmem)]
    exact List.prefix_append _ _
  rw [followWithin_eq_walk hfree hway hrest, walk_of_not_mem hpoints, Path.steady,
    List.filter_eq_self.2 fun n hn => by simp [(hplain n hn).not_isIdle]]

end Follow

end FileTree

end ImportAtlas
