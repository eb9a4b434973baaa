import ImportAtlas.Proofs.Path.Components

namespace ImportAtlas

namespace FileNode

theorem at?_append (front back : Place) (node : FileNode) :
    at? (front ++ back) node = (at? front node).bind (at? back) := by
  induction front generalizing node with
  | nil => rfl
  | cons name front ih =>
    change (node.child? name).bind (at? (front ++ back)) = ((node.child? name).bind _).bind _
    rw [Option.bind_assoc, funext ih]

theorem isDirectory_of_child? {name : FileName} {node child : FileNode}
    (h : node.child? name = some child) : node.isDirectory = true := by
  cases node with
  | file => cases h
  | link => cases h
  | directory => rfl

end FileNode

namespace FileTree

structure IsName (n : FileName) : Prop extends Path.IsPlain n where
  nulFree : '\x00' ∉ n
  short : Text.byteLength n ≤ nameLimit

instance (n : FileName) : Decidable (IsName n) :=
  decidable_of_iff
    ((n ≠ [] ∧ n ≠ ['.'] ∧ n ≠ ['.', '.'] ∧ '/' ∉ n) ∧ '\x00' ∉ n ∧ Text.byteLength n ≤ nameLimit)
    ⟨fun ⟨⟨hnil, hpoint, hpoints, hslash⟩, hnul, hshort⟩ =>
        ⟨⟨hnil, hpoint, hpoints, hslash⟩, hnul, hshort⟩,
      fun h => ⟨⟨h.ne_nil, h.ne_point, h.ne_points, h.slashFree⟩, h.nulFree, h.short⟩⟩

/-- Whatever lies in the tree has a name. -/
def WellNamed (t : FileTree) : Prop :=
  ∀ place ∈ t.root.places fun _ => true, ∀ n ∈ place, IsName n

instance (t : FileTree) : Decidable t.WellNamed :=
  inferInstanceAs (Decidable (∀ place ∈ _, ∀ n ∈ place, IsName n))

variable {t : FileTree} {admits : Place → Bool} {links : Nat} {place : Place} {node : FileNode}

theorem WellNamed.isName (h : t.WellNamed) (hnode : t.node? place = some node) :
    ∀ n ∈ place, IsName n :=
  h place (FileNode.mem_places rfl hnode)

theorem isDirectoryAt_of_node? {name : FileName} {rest : Place}
    (h : t.node? (place ++ name :: rest) = some node) : t.isDirectoryAt place = true := by
  rw [node?, FileNode.at?_append] at h
  obtain ⟨parent, hparent, hrest⟩ := Option.bind_eq_some_iff.1 h
  obtain ⟨child, hchild, -⟩ := Option.bind_eq_some_iff.1 hrest
  simp [isDirectoryAt, node?, hparent, FileNode.isDirectory_of_child? hchild]

theorem isDirectoryAt_dropLast (h : t.isDirectoryAt place = true) :
    t.isDirectoryAt place.dropLast = true := by
  rcases List.eq_nil_or_concat place with rfl | ⟨front, name, rfl⟩
  · exact h
  · rw [List.concat_eq_append] at h ⊢
    rw [List.dropLast_concat]
    cases hnode : t.node? (front ++ [name]) with
    | none => simp [isDirectoryAt, hnode] at h
    | some node => exact isDirectoryAt_of_node? hnode

theorem followPieces_names {jump : Place → List FileName → Except FileFault (Place × Nat)}
    {names : Place} (hnames : ∀ n ∈ names, IsName n) (hnode : t.node? (place ++ names) = some node)
    (hlink : ∀ target, node ≠ .link target)
    (hadmits : ∀ q, q <+: place ++ names → admits q = true) :
    t.followPieces true admits links jump place names = .ok (place ++ names, links) := by
  induction names generalizing place with
  | nil => simp [followPieces]
  | cons name rest ih =>
    have hname := hnames name List.mem_cons_self
    have hsplit : place ++ name :: rest = (place ++ [name]) ++ rest := by simp
    have hadmitted := hadmits (place ++ [name]) (hsplit ▸ List.prefix_append _ rest)
    have hrest := ih (fun n hn => hnames n (List.mem_cons_of_mem name hn)) (hsplit ▸ hnode)
      (hsplit ▸ hadmits)
    rw [← hsplit] at hrest
    rw [followPieces, if_neg (by simp [isDirectoryAt_of_node? hnode]),
      if_neg (by simp [hname.not_isIdle]), if_neg hname.ne_points,
      if_neg (by simp [hadmitted, hname.short])]
    -- the next place is a directory, or the node at the end
    cases hnext : t.node? (place ++ [name]) with
    | none =>
      rw [hsplit, node?, FileNode.at?_append] at hnode
      rw [node?] at hnext
      simp [hnext] at hnode
    | some next =>
      cases next with
      | file bytes => exact hrest
      | directory entries => exact hrest
      | link target =>
        cases rest with
        | nil =>
          rw [hnext] at hnode
          exact absurd (Option.some.inj hnode).symm (hlink target)
        | cons name' rest =>
          rw [hsplit] at hnode
          have := isDirectoryAt_of_node? hnode
          simp [isDirectoryAt, hnext, FileNode.isDirectory] at this

theorem leadsOver_end_of_followPieces
    {jump : Place → List FileName → Except FileFault (Place × Nat)} {todo : List FileName}
    {r : Place × Nat}
    (hjump : ∀ place todo, todo ≠ [] → jump place todo = .ok r →
      t.LeadsOver r.1 place todo ∨ t.isDirectoryAt r.1 = true)
    (h : t.followPieces true admits links jump place todo = .ok r) :
    t.LeadsOver r.1 place todo ∨ t.isDirectoryAt r.1 = true ∨ todo = [] ∧ r.1 = place := by
  induction todo generalizing place with
  | nil =>
    cases h
    exact .inr (.inr ⟨rfl, rfl⟩)
  | cons piece rest ih =>
    rw [followPieces] at h
    split at h
    · cases h
    rename_i hdirectory
    have hdirectory : t.isDirectoryAt place = true := by simpa using hdirectory
    split at h
    · rename_i hidle
      rcases ih h with h | h | ⟨-, h⟩
      · exact .inl (.idle hidle h)
      · exact .inr (.inl h)
      · exact .inr (.inl (h ▸ hdirectory))
    rename_i hidle
    have hidle := Bool.eq_false_iff.2 hidle
    split at h
    · rename_i hparent
      subst hparent
      rcases ih h with h | h | ⟨-, h⟩
      · exact .inl (.up h)
      · exact .inr (.inl h)
      · exact .inr (.inl (h ▸ isDirectoryAt_dropLast hdirectory))
    rename_i hparent
    split at h
    · cases h
    -- what is no link is gone over in the same way, be it a file or a directory
    have on (hlink : ∀ target, t.node? (place ++ [piece]) ≠ some (.link target))
        (h : t.followPieces true admits links jump (place ++ [piece]) rest = .ok r) :
        t.LeadsOver r.1 place (piece :: rest) ∨ t.isDirectoryAt r.1 = true := by
      rcases ih h with h | h | ⟨-, h⟩
      · exact .inl (.down hidle hparent hlink h)
      · exact .inr h
      · exact .inl (.here hidle hparent h)
    cases hnode : t.node? (place ++ [piece]) with
    | none => simp [hnode] at h
    | some node =>
      cases node with
      | link target =>
        simp only [hnode, Bool.not_true, Bool.and_false, Bool.false_eq_true, if_false] at h
        have hne : pieces target ++ rest ≠ [] := by
          simp [pieces, Text.splitOn_ne_nil]
        exact (hjump _ _ hne h).elim (fun h => .inl (.jump hidle hparent hnode h))
          fun h => .inr (.inl h)
      | file bytes =>
        simp only [hnode] at h
        exact (on (by simp [hnode]) h).imp_right .inl
      | directory entries =>
        simp only [hnode] at h
        exact (on (by simp [hnode]) h).imp_right .inl

theorem leadsOver_end {todo : List FileName} {r : Place × Nat} (htodo : todo ≠ [])
    (h : t.followWithin true admits links place todo = .ok r) :
    t.LeadsOver r.1 place todo ∨ t.isDirectoryAt r.1 = true := by
  induction links generalizing place todo with
  | zero =>
    have := leadsOver_end_of_followPieces (fun _ _ _ h => by cases h) h
    simpa [htodo] using this
  | succ links ih =>
    have := leadsOver_end_of_followPieces (fun _ _ hne h => ih hne h) h
    simpa [htodo] using this

theorem exists_append_of_prefix {q : Place} (h : q <+: place) :
    ∃ tail, ['/'].intercalate place = ['/'].intercalate q ++ tail := by
  induction q generalizing place with
  | nil => exact ⟨_, rfl⟩
  | cons name q ih =>
    cases place with
    | nil => simp at h
    | cons name' place =>
      obtain ⟨rfl, hrest⟩ := List.cons_prefix_cons.1 h
      obtain ⟨tail, htail⟩ := ih hrest
      rcases q with _ | ⟨next, q⟩
      · rcases place with _ | ⟨next, place⟩
        · exact ⟨[], by simp⟩
        · exact ⟨_, by rw [List.intercalate_cons_cons, List.intercalate_singleton,
            List.append_assoc]⟩
      · rcases place with _ | ⟨next', place⟩
        · simp at hrest
        · exact ⟨tail, by rw [List.intercalate_cons_cons, List.intercalate_cons_cons, htail,
            List.append_assoc (name ++ ['/'])]⟩

theorem isWithinReach_of_prefix {q : Place} (hq : q <+: place) (h : isWithinReach place = true) :
    isWithinReach q = true := by
  obtain ⟨tail, htail⟩ := exists_append_of_prefix hq
  have h := of_decide_eq_true h
  refine decide_eq_true ?_
  simp only [pathOf, htail, Text.byteLength_cons, Text.byteLength_append] at h ⊢
  omega

theorem pieces_pathOf (hne : place ≠ []) (hnames : ∀ n ∈ place, IsName n) :
    pieces (pathOf place).text = [] :: place := by
  have hsplit := Path.splitOn_intercalate hne fun n hn => (hnames n hn).slashFree
  rw [pieces, pathOf, Text.splitOn_cons_of_pos (by rfl), hsplit]

theorem nulFree_pathOf (hnames : ∀ n ∈ place, IsName n) :
    (pathOf place).text.contains '\x00' = false := by
  have hnul : '\x00' ∉ ['/'].intercalate place := by
    induction place with
    | nil => simp
    | cons name rest ih =>
      have hrest := ih fun n hn => hnames n (List.mem_cons_of_mem name hn)
      have hname := (hnames name List.mem_cons_self).nulFree
      rcases rest with _ | ⟨next, rest⟩
      · simpa using hname
      · rw [List.intercalate_cons_cons]
        simp only [List.mem_append, not_or]
        exact ⟨⟨hname, by decide⟩, hrest⟩
  simpa [pathOf] using hnul

variable {path canonical : Path}

theorem followWithin_pathOf (ht : t.WellNamed) (hne : place ≠ [])
    (hnode : t.node? place = some node) (hlink : ∀ target, node ≠ .link target)
    (hadmits : ∀ q, q <+: place → admits q = true) :
    t.followWithin true admits links (t.startOf (pathOf place)) (pieces (pathOf place).text) =
      .ok (place, links) := by
  have hnames := ht.isName hnode
  have hroot : t.isDirectoryAt [] = true := by
    obtain ⟨name, rest, rfl⟩ := List.exists_cons_of_ne_nil hne
    have hnode : t.node? ([] ++ name :: rest) = some node := hnode
    exact isDirectoryAt_of_node? hnode
  have hstart : t.startOf (pathOf place) = [] := rfl
  have hfollow {jump : Place → List FileName → Except FileFault (Place × Nat)} :
      t.followPieces true admits links jump [] ([] :: place) = .ok (place, links) := by
    rw [followPieces, if_neg (by simp [hroot]), if_pos (by rfl)]
    exact followPieces_names hnames hnode hlink hadmits
  rw [pieces_pathOf hne hnames, hstart]
  cases links with
  | zero => exact hfollow
  | succ links => exact hfollow

theorem canonicalize_pathOf (ht : t.WellNamed) (hne : place ≠ []) {bytes : List UInt8}
    (hnode : t.node? place = some (.file bytes)) (hshort : isWithinReach place = true) :
    t.canonicalize (pathOf place) = .ok (pathOf place) ∧ t.isFile (pathOf place) = true := by
  have hnames := ht.isName hnode
  have hnul := nulFree_pathOf hnames
  have hnot (target : List Char) : FileNode.file bytes ≠ .link target := nofun
  have htext : (pathOf place).text ≠ [] := nofun
  have hlong : ¬ pathLimit < Text.byteLength (pathOf place).text :=
    Nat.not_lt.2 (by simpa [isWithinReach] using hshort)
  have hlocate : t.locate true (pathOf place) = .ok place := by
    rw [locate, reach, if_neg (Bool.eq_false_iff.1 hnul), if_neg htext, if_neg hlong, follow,
      followWithin_pathOf ht hne hnode hnot fun _ _ => rfl]
    rfl
  constructor
  · rw [canonicalize, if_neg (Bool.eq_false_iff.1 hnul), if_neg htext,
      followWithin_pathOf ht hne hnode hnot fun q hq => isWithinReach_of_prefix hq hshort]
    rfl
  · exact isFile_iff.2 ⟨place, bytes, hlocate, hnode⟩

/-- All places on the way of a path have paths that can be looked up. -/
def StaysWithinReach (t : FileTree) (path : Path) : Prop :=
  ∀ q, t.LeadsOver q (t.startOf path) (pieces path.text) → isWithinReach q = true

/-- A path that stands for itself and leads to a file. -/
structure IsCanonicalFile (t : FileTree) (path : Path) : Prop where
  isAbsolute : path.isAbsolute = true
  isFile : t.isFile path = true
  canonicalize : t.canonicalize path = .ok path

theorem canonicalize_cases (ht : t.WellNamed) (hf : t.isFile path = true) :
    (t.StaysWithinReach path ∧
      ∃ canonical, t.canonicalize path = .ok canonical ∧ t.IsCanonicalFile canonical) ∨
    (¬ t.StaysWithinReach path ∧ t.canonicalize path = .error .nameTooLong) := by
  obtain ⟨place, bytes, hlocate, hnode⟩ := isFile_iff.1 hf
  obtain ⟨r, hr, rfl⟩ := Outcome.map_eq_ok.1 hlocate
  obtain ⟨answer, hanswer, hrestricted⟩ := canonicalize_of_reach hr
  cases hrestricted with
  | refused h hq =>
    refine .inr ⟨fun hreach => ?_, hanswer⟩
    rw [hreach _ h] at hq
    cases hq
  | admitted h =>
    have hfollow : t.followWithin true (fun _ => true) linkLimit (t.startOf path)
        (pieces path.text) = .ok r := (reach_eq_ok.1 hr).2
    have hend : t.LeadsOver r.1 (t.startOf path) (pieces path.text) := by
      refine (leadsOver_end (Text.splitOn_ne_nil _ _) hfollow).resolve_right ?_
      simp [isDirectoryAt, hnode, FileNode.isDirectory]
    obtain ⟨hcanonical, hfile⟩ := canonicalize_pathOf ht hend.ne_nil hnode (h _ hend)
    exact .inl ⟨h, _, hanswer, rfl, hfile, hcanonical⟩

end FileTree

end ImportAtlas
