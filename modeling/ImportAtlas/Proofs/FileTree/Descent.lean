import ImportAtlas.Proofs.FileTree.Canonical
import ImportAtlas.Proofs.Path.Ancestors

namespace ImportAtlas

namespace FileNode

def Named (node : FileNode) : Prop :=
  ∀ place ∈ node.places fun _ => true, ∀ n ∈ place, FileTree.IsName n

theorem Named.of_mem {entries : List (FileName × FileNode)} (h : (directory entries).Named)
    {name : FileName} {node : FileNode} (hmem : (name, node) ∈ entries) :
    FileTree.IsName name ∧ node.Named := by
  have hplace {place : Place} (hplace : place ∈ node.places fun _ => true) :
      name :: place ∈ (directory entries).places fun _ => true := by
    rw [places, List.mem_append]
    exact .inr (mem_placesIn hmem hplace)
  constructor
  · exact h _ (hplace (nil_mem_places rfl)) name List.mem_cons_self
  · exact fun place hp n hn => h _ (hplace hp) n (List.mem_cons_of_mem name hn)

theorem Named.of_at? {root node : FileNode} (h : root.Named) {place : Place}
    (hnode : root.at? place = some node) : node.Named := by
  induction place generalizing root with
  | nil =>
    cases hnode
    exact h
  | cons name rest ih =>
    obtain ⟨child, hchild, hrest⟩ := Option.bind_eq_some_iff.1 hnode
    cases root with
    | file => cases hchild
    | link => cases hchild
    | directory entries => exact ih (h.of_mem (mem_of_named? hchild)).2 hrest

end FileNode

variable {t : FileTree}

namespace Reached

theorem named_of_ofPath? (ht : t.WellNamed) {path : Path} {r : Reached}
    (h : ofPath? t path = some r) : r.node.Named := by
  unfold ofPath? at h
  split at h
  · cases h
  · obtain ⟨node, hnode, rfl⟩ := Option.map_eq_some_iff.1 h
    exact FileNode.Named.of_at? ht hnode

theorem named_of_step (ht : t.WellNamed) {r q : Reached} {name : FileName} {node : FileNode}
    (hnode : node.Named) (h : r.step t name node = some q) : q.node.Named := by
  unfold step at h
  split at h
  · split at h
    · cases h
    · split at h
      · cases h
      · obtain ⟨target, htarget, rfl⟩ := Option.map_eq_some_iff.1 h
        exact FileNode.Named.of_at? ht htarget
  · cases h
    exact hnode

theorem exists_entry_of_child? {r : Reached} {name : FileName} {child : FileNode}
    (hchild : r.node.child? name = some child) (hlink : ∀ target, child ≠ .link target) :
    ∃ e ∈ r.entries t, e.name = name ∧ e.isLink = false ∧
      e.target = some ⟨r.place ++ [name], r.links, child⟩ := by
  cases hnode : r.node with
  | file bytes =>
    rw [hnode] at hchild
    cases hchild
  | link target =>
    rw [hnode] at hchild
    cases hchild
  | directory entries =>
    rw [hnode] at hchild
    refine ⟨⟨name, isLink child, r.step t name child⟩, ?_, rfl, ?_, ?_⟩
    · simp only [Reached.entries, hnode]
      exact List.mem_map.2
        ⟨(name, child), List.mem_mergeSort.2 (FileNode.mem_of_named? hchild), rfl⟩
    · cases child with
      | link target => exact absurd rfl (hlink target)
      | file bytes => rfl
      | directory entries => rfl
    · cases child with
      | link target => exact absurd rfl (hlink target)
      | file bytes => rfl
      | directory entries => rfl

theorem named_of_mem_entries (ht : t.WellNamed) {r : Reached} (hr : r.node.Named)
    {e : ReachedEntry} (he : e ∈ r.entries t) :
    FileTree.IsName e.name ∧ ∀ q, e.target = some q → q.node.Named := by
  unfold entries at he
  split at he
  · rename_i entries hentries
    obtain ⟨⟨name, node⟩, hmem, rfl⟩ := List.mem_map.1 he
    rw [hentries] at hr
    obtain ⟨hname, hnode⟩ := hr.of_mem (List.mem_mergeSort.1 hmem)
    exact ⟨hname, fun q hq => named_of_step ht hnode hq⟩
  · cases he

end Reached

namespace FileTree

theorem steady_of_mem_filesBelow (ht : t.WellNamed) {skip : FileName → Bool} {above : List Place}
    {path file : Path} {r : Reached} (hr : r.node.Named)
    (h : file ∈ t.filesBelow skip above path r) : ∃ names,
      Path.steady (pieces file.text) = Path.steady (pieces path.text) ++ names ∧
      ∀ n ∈ names, Path.IsPlain n ∧ skip n = false := by
  fun_induction filesBelow t skip above path r with
  | case1 above path r bytes hnode =>
    obtain rfl := List.mem_singleton.1 h
    exact ⟨[], (List.append_nil _).symm, nofun⟩
  | case2 above path r hnode ih =>
    obtain ⟨⟨e, he⟩, -, h⟩ := List.mem_flatMap.1 h
    dsimp only at h
    split at h
    · cases h
    · rename_i q hq
      split at h
      · cases h
      · rename_i hskip
        obtain ⟨hname, htarget⟩ := Reached.named_of_mem_entries ht hr he
        obtain ⟨names, hsteady, hnames⟩ := ih e he q hq (htarget q hq) h
        refine ⟨e.name :: names, ?_, List.forall_mem_cons.2 ⟨⟨hname.toIsPlain, ?_⟩, hnames⟩⟩
        · rw [hsteady, pieces, Path.steady_join_piece path hname.slashFree,
            hname.toIsPlain.steady_eq, List.append_assoc, List.singleton_append, pieces]
        · simp only [Bool.or_eq_true, not_or] at hskip
          exact Bool.eq_false_iff.2 hskip.1

def descend (path : Path) (names : List FileName) : Path :=
  names.foldl (fun path name => path.join ⟨name⟩) path

theorem below_descend {path : Path} {names : List FileName}
    (hnames : ∀ n ∈ names, Path.IsPlain n) : path.Below (descend path names) names := by
  induction names using List.reverseRecOn with
  | nil => exact Path.Below.refl path
  | append_singleton names name ih =>
    obtain ⟨hnames, hname⟩ := List.forall_mem_append.1 hnames
    have hname := List.forall_mem_singleton.1 hname
    have hrelative : (Path.mk name).isAbsolute = false := by simpa using hname.isAbsolute []
    have hbelow := ih hnames
    rw [descend, List.foldl_append, List.foldl_cons, List.foldl_nil, ← descend]
    have hpoint : ['.'] ∉ Text.splitOn Path.isSeparator name := by
      simpa [hname.splitOn_eq] using hname.ne_point.symm
    rw [Path.Below, Path.components_join _ hrelative (.inr hpoint), hbelow, hname.steps_eq,
      List.map_append, List.append_assoc]
    rfl

theorem descend_mem_filesBelow {skip : FileName → Bool} {names : List FileName}
    {bytes : List UInt8} {r : Reached} (hfile : r.node.at? names = some (.file bytes))
    (hlinks : ∀ front target, front <+: names → r.node.at? front ≠ some (.link target))
    (hskip : ∀ n ∈ names, skip n = false) (above : List Place) (path : Path) :
    descend path names ∈ t.filesBelow skip above path r := by
  induction names generalizing above path r with
  | nil =>
    have hnode : r.node = .file bytes := Option.some.inj hfile
    rw [filesBelow, hnode]
    exact List.mem_singleton_self path
  | cons name rest ih =>
    obtain ⟨child, hchild, hrest⟩ := Option.bind_eq_some_iff.1 hfile
    have hlink (target : List Char) : child ≠ .link target := by
      rintro rfl
      refine hlinks [name] target (List.cons_prefix_cons.2 ⟨rfl, List.nil_prefix⟩) ?_
      rw [FileNode.at?, hchild]
      rfl
    obtain ⟨hname, hlater⟩ := List.forall_mem_cons.1 hskip
    obtain ⟨entry, hentry, rfl, hnotLink, htarget⟩ :=
      Reached.exists_entry_of_child? (t := t) hchild hlink
    have hmem := ih (r := ⟨r.place ++ [entry.name], r.links, child⟩) hrest
      (fun front target hfront hat => hlinks (entry.name :: front) target
        (List.cons_prefix_cons.2 ⟨rfl, hfront⟩) (by rw [FileNode.at?, hchild]; exact hat))
      hlater (r.place :: above) (path.join ⟨entry.name⟩)
    rw [filesBelow]
    split
    · rename_i hnode
      rw [hnode] at hchild
      cases hchild
    · refine List.mem_flatMap.2 ⟨⟨entry, hentry⟩, List.mem_attach _ _, ?_⟩
      dsimp only
      split
      · rename_i hnone
        rw [htarget] at hnone
        cases hnone
      · rename_i q hq
        rw [htarget] at hq
        obtain rfl := Option.some.inj hq
        rw [if_neg (by simp [hname, hnotLink])]
        exact hmem

end FileTree

end ImportAtlas
