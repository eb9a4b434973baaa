import ImportAtlas.Proofs.FileTree.Canonical
import ImportAtlas.Proofs.Path.Ancestors

namespace ImportAtlas.FileTree

open Outcome

variable {t : FileTree} {admits : Place → Bool} {links : Nat} {place : Place}
  {todo : List FileName} {r : Place × Nat}

theorem followPieces_of_admits
    {jump jump' : Place → List FileName → Except FileFault (Place × Nat)}
    (hjump : ∀ place todo, jump place todo = .ok r → jump' place todo = .ok r)
    (h : t.followPieces true admits links jump place todo = .ok r) :
    t.followPieces true (fun _ => true) links jump' place todo = .ok r := by
  induction todo generalizing place with
  | nil => exact h
  | cons piece rest ih =>
    rw [followPieces] at h ⊢
    by_cases hdirectory : (!t.isDirectoryAt place) = true
    · rw [if_pos hdirectory] at h
      cases h
    rw [if_neg hdirectory] at h ⊢
    by_cases hidle : Path.isIdle piece = true
    · rw [if_pos hidle] at h ⊢
      exact ih h
    rw [if_neg hidle] at h ⊢
    by_cases hparent : piece = ['.', '.']
    · rw [if_pos hparent] at h ⊢
      exact ih h
    rw [if_neg hparent] at h ⊢
    by_cases hlength : (nameLimit < Text.byteLength piece || !admits (place ++ [piece])) = true
    · rw [if_pos hlength] at h
      cases h
    rw [if_neg hlength] at h
    rw [if_neg (by simp_all)]
    cases hnode : t.node? (place ++ [piece]) with
    | none =>
      rw [hnode] at h
      cases h
    | some node =>
      rw [hnode] at h
      cases node with
      | file bytes => exact ih h
      | directory entries => exact ih h
      | link target =>
        simp only [Bool.not_true, Bool.and_false, Bool.false_eq_true, if_false] at h ⊢
        exact hjump _ _ h

theorem follow_of_followWithin (h : t.followWithin true admits links place todo = .ok r) :
    t.follow true links place todo = .ok r := by
  unfold follow
  induction links generalizing place todo with
  | zero => exact followPieces_of_admits (fun _ _ h => by cases h) h
  | succ links ih => exact followPieces_of_admits (fun _ _ => ih) h

theorem followPieces_append {back : List FileName}
    {jump : Place → List FileName → Except FileFault (Place × Nat)}
    {next : Place × Nat → Except FileFault (Place × Nat)}
    (hend : ∀ place, t.followPieces true admits links jump place back = next (place, links))
    (hjump : ∀ place todo, jump place (todo ++ back) = jump place todo >>= next)
    (place : Place) (front : List FileName) :
    t.followPieces true admits links jump place (front ++ back) =
      t.followPieces true admits links jump place front >>= next := by
  induction front generalizing place with
  | nil => exact hend place
  | cons piece front ih =>
    refine followPieces_cons_related (R := fun x y => x = y >>= next) (fun _ => rfl) ih ?_ place
    intro place target
    rw [← List.append_assoc]
    exact hjump place _

theorem followWithin_append (place : Place) (front back : List FileName) :
    t.followWithin true admits links place (front ++ back) =
      t.followWithin true admits links place front >>= fun r =>
        t.followWithin true admits r.2 r.1 back := by
  induction links generalizing place front with
  | zero => exact followPieces_append (fun _ => rfl) (fun _ _ => rfl) place front
  | succ links ih => exact followPieces_append (fun _ => rfl) ih place front

theorem isDirectoryAt_of_followWithin {piece : FileName}
    (h : t.followWithin true admits links place (piece :: todo) = .ok r) :
    t.isDirectoryAt place = true := by
  have hpieces {jump : Place → List FileName → Except FileFault (Place × Nat)}
      (h : t.followPieces true admits links jump place (piece :: todo) = .ok r) :
      t.isDirectoryAt place = true := by
    rw [followPieces] at h
    split at h
    · cases h
    · rename_i hdirectory
      simpa using hdirectory
  cases links with
  | zero => exact hpieces h
  | succ links => exact hpieces h

theorem canonicalize_eq_ok {path canonical : Path} : t.canonicalize path = .ok canonical ↔
    (path.text.contains '\x00' = false ∧ path.text ≠ []) ∧ ∃ r,
      t.followWithin true isWithinReach linkLimit (t.startOf path) (pieces path.text) = .ok r ∧
      pathOf r.1 = canonical := by
  rw [canonicalize]
  split
  · simp_all
  split
  · simp_all
  · simp_all [map_eq_ok]

theorem leadsOver_of_thins {q : Place} {kept : List FileName} (ht : Thins todo kept)
    (h : t.LeadsOver q place todo) : t.LeadsOver q place kept := by
  have hsteady {piece : FileName} (hidle : Path.isIdle piece = false) :
      ¬ Path.isIdle piece = true := by simp [hidle]
  induction h generalizing kept with
  | idle hidle _ ih =>
    cases ht with
    | keep _ ht => exact .idle hidle (ih ht)
    | drop _ ht => exact ih ht
  | up _ ih =>
    cases ht with
    | keep _ ht => exact .up (ih ht)
    | drop hidle ht => cases hidle
  | here hidle hparent hq =>
    cases ht with
    | keep _ ht => exact .here hidle hparent hq
    | drop hdropped ht => exact absurd hdropped (hsteady hidle)
  | down hidle hparent hnode _ ih =>
    cases ht with
    | keep _ ht => exact .down hidle hparent hnode (ih ht)
    | drop hdropped ht => exact absurd hdropped (hsteady hidle)
  | jump hidle hparent hnode _ ih =>
    cases ht with
    | keep _ ht => exact .jump hidle hparent hnode (ih (ht.append_left _))
    | drop hdropped ht => exact absurd hdropped (hsteady hidle)

theorem followWithin_eq_of_thins (admits : Place → Bool) {kept : List FileName}
    (ht : Thins todo kept)
    (h : t.follow true links place todo = .ok r) :
    t.followWithin true admits links place todo = t.followWithin true admits links place kept := by
  have htodo := restricted_followWithin admits h
  have hkept := restricted_followWithin admits (followWithin_of_thins ht h)
  generalize hanswer : t.followWithin true admits links place todo = answer at htodo
  cases htodo with
  | admitted => exact (followWithin_of_thins ht hanswer).symm
  | refused hover hq =>
    generalize t.followWithin true admits links place kept = answer' at hkept
    cases hkept with
    | admitted hadmits =>
      rw [hadmits _ (leadsOver_of_thins ht hover)] at hq
      cases hq
    | refused => rfl

theorem canonicalize_congr {p q : Path} {s : Place × Nat} (h : p.components = q.components)
    (hp : t.reach true p = .ok r) (hq : t.reach true q = .ok s) :
    t.canonicalize p = t.canonicalize q := by
  obtain ⟨⟨hpnul, hpne, -⟩, hpfollow⟩ := reach_eq_ok.1 hp
  obtain ⟨⟨hqnul, hqne, -⟩, hqfollow⟩ := reach_eq_ok.1 hq
  obtain ⟨habsolute, hsteady⟩ := Path.steady_eq_of_components hpne hqne h
  have hstart : t.startOf p = t.startOf q := by rw [startOf, startOf, habsolute]
  have hp' := followWithin_eq_of_thins isWithinReach (.steady _) hpfollow
  have hq' := followWithin_eq_of_thins isWithinReach (.steady _) hqfollow
  rw [canonicalize, canonicalize, if_neg (Bool.eq_false_iff.1 hpnul), if_neg hpne,
    if_neg (Bool.eq_false_iff.1 hqnul), if_neg hqne, hp', hq', hstart, pieces, pieces, hsteady]

def LeadsToDirectory (t : FileTree) (path : Path) : Prop :=
  ∃ r, t.follow true linkLimit (t.startOf path) (Path.steady (pieces path.text)) = .ok r ∧
    t.isDirectoryAt r.1 = true

theorem isDirectory_iff {path : Path} : t.isDirectory path = true ↔
    ∃ place, t.locate true path = .ok place ∧ t.isDirectoryAt place = true := by
  unfold isDirectory find?
  cases hlocate : t.locate true path with
  | error => simp
  | ok place =>
    cases hnode : t.node? place with
    | none => simp [isDirectoryAt, hnode]
    | some node => cases node <;> simp [isDirectoryAt, hnode, FileNode.isDirectory]

theorem exists_node_of_isDirectoryAt (h : t.isDirectoryAt place = true) :
    ∃ entries, t.node? place = some (.directory entries) := by
  unfold isDirectoryAt at h
  cases hnode : t.node? place with
  | none => simp [hnode] at h
  | some node =>
    cases node with
    | directory entries => exact ⟨entries, rfl⟩
    | file bytes => simp [hnode, FileNode.isDirectory] at h
    | link target => simp [hnode, FileNode.isDirectory] at h

theorem leadsToDirectory_of_isFile {path file : Path} {name : FileName}
    (hne : path.text ≠ []) (hfile : t.isFile file = true)
    (hcomponents : file.components = path.components ++ [.name name]) :
    t.LeadsToDirectory path := by
  obtain ⟨place, bytes, hplace, -⟩ := isFile_iff.1 hfile
  obtain ⟨r, hr, -⟩ := map_eq_ok.1 hplace
  have hname : Path.IsPlain name := Path.isPlain_of_mem_components (p := file) (by simp [hcomponents])
  have hrelative : (Path.mk name).isAbsolute = false := by simpa using hname.isAbsolute []
  have hjoin : (path.join ⟨name⟩).components = file.components := by
    rw [Path.components_join path hrelative (.inl hne), hname.steps_eq, hcomponents]
  have hjoinne : (path.join ⟨name⟩).text ≠ [] := by
    rw [ne_eq, ← Path.components_eq_nil_iff, hjoin, hcomponents]
    simp
  obtain ⟨habsolute, hsteady⟩ :=
    Path.steady_eq_of_components hjoinne (reach_eq_ok.1 hr).1.2.1 hjoin
  have hstart : t.startOf file = t.startOf path := by
    rw [startOf, startOf, ← habsolute, Path.isAbsolute_join path hrelative]
  have hpieces : Path.steady (pieces file.text) = Path.steady (pieces path.text) ++ [name] := by
    rw [pieces, ← hsteady, Path.steady_join path hrelative, hname.splitOn_eq]
    simp [Path.steady, hname.not_isIdle, pieces]
  have hfollow := follow_of_reach hr
  rw [hstart, hpieces, follow, followWithin_append] at hfollow
  obtain ⟨s, hs, hlast⟩ := bind_eq_ok.1 hfollow
  exact ⟨s, hs, isDirectoryAt_of_followWithin hlast⟩

theorem pieces_join {path : Path} {name : FileName} (hname : Path.IsPlain name)
    (hne : path.text ≠ []) : ∃ front,
      pieces (path.join ⟨name⟩).text = front ++ [name] ∧
      (pieces path.text = front ∨ pieces path.text = front ++ [[]]) := by
  have hrelative : (Path.mk name).isAbsolute = false := by simpa using hname.isAbsolute []
  simp only [Path.join, hrelative, hne, decide_false, Bool.or_false, Bool.false_eq_true, if_false]
  split
  · rename_i hlast
    obtain ⟨front, hfront⟩ := List.getLast?_eq_some_iff.1 hlast
    refine ⟨pieces front, ?_, .inr ?_⟩
    · rw [hfront, List.append_assoc, List.singleton_append, pieces, Text.splitOn_append rfl,
        hname.splitOn_eq, pieces]
    · rw [hfront, pieces, Text.splitOn_append rfl, pieces]
      rfl
  · exact ⟨pieces path.text, by rw [pieces, Text.splitOn_append rfl, hname.splitOn_eq, pieces],
      .inl rfl⟩

theorem exists_append_join {path : Path} {name : FileName} (hname : Path.IsPlain name)
    (hne : path.text ≠ []) : ∃ back, (path.join ⟨name⟩).text = path.text ++ back := by
  have hrelative : (Path.mk name).isAbsolute = false := by simpa using hname.isAbsolute []
  simp only [Path.join, hrelative, hne, decide_false, Bool.or_false, Bool.false_eq_true, if_false]
  split <;> exact ⟨_, rfl⟩

theorem isDirectory_of_isFile_join {path : Path} {name : FileName} (hname : Path.IsPlain name)
    (hne : path.text ≠ []) (h : t.isFile (path.join ⟨name⟩) = true) :
    t.isDirectory path = true := by
  have hrelative : (Path.mk name).isAbsolute = false := by simpa using hname.isAbsolute []
  obtain ⟨place, bytes, hplace, -⟩ := isFile_iff.1 h
  obtain ⟨r, hr, -⟩ := map_eq_ok.1 hplace
  obtain ⟨⟨hnul, -, hshort⟩, hfollow⟩ := reach_eq_ok.1 hr
  obtain ⟨back, hback⟩ := exists_append_join hname hne
  obtain ⟨front, hjoin, hpath⟩ := pieces_join hname hne
  have hstart : t.startOf (path.join ⟨name⟩) = t.startOf path := by
    rw [startOf, startOf, Path.isAbsolute_join path hrelative]
  rw [hback] at hnul hshort
  rw [hstart, hjoin, follow, followWithin_append] at hfollow
  obtain ⟨s, hs, hlast⟩ := bind_eq_ok.1 hfollow
  have hdirectory := isDirectoryAt_of_followWithin hlast
  have hreach : t.reach true path = .ok s := by
    refine reach_eq_ok.2 ⟨⟨by simp_all, hne, ?_⟩, ?_⟩
    · rw [Text.byteLength_append] at hshort
      omega
    · rcases hpath with hpath | hpath
      · rw [hpath]
        exact hs
      · have hend {links : Nat} {jump : Place → List FileName → Except FileFault (Place × Nat)} :
            t.followPieces true (fun _ => true) links jump s.1 [[]] = .ok (s.1, links) := by
          rw [followPieces, if_neg (by simp [hdirectory]), if_pos (by rfl), followPieces]
        rw [hpath, follow, followWithin_append, hs]
        change t.followWithin true _ s.2 s.1 [[]] = _
        rcases s with ⟨place, _ | links⟩
        · exact hend
        · exact hend
  exact isDirectory_iff.2 ⟨s.1, map_eq_ok.2 ⟨s, hreach, rfl⟩, hdirectory⟩

theorem LeadsToDirectory.mem_directoryPaths {path canonical : Path} (h : t.LeadsToDirectory path)
    (hcanonical : t.canonicalize path = .ok canonical) : canonical ∈ t.directoryPaths := by
  obtain ⟨s, hs, hdirectory⟩ := h
  obtain ⟨-, r, hr, rfl⟩ := canonicalize_eq_ok.1 hcanonical
  have hr := followWithin_of_thins (.steady _) (follow_of_followWithin hr)
  obtain rfl := Except.ok.inj (hr.symm.trans hs)
  refine List.mem_map_of_mem ?_
  cases hnode : t.node? r.1 with
  | none => simp [isDirectoryAt, hnode] at hdirectory
  | some node =>
    simp only [isDirectoryAt, hnode, Option.map_some, Option.getD_some] at hdirectory
    exact FileNode.mem_places hdirectory hnode

theorem components_ne_of_readText {path directory : Path} {text : String}
    (h : t.readText path = .ok text) (hdirectory : t.LeadsToDirectory directory)
    (hne : directory.text ≠ []) :
    path.components ≠ directory.components := by
  intro hcomponents
  obtain ⟨bytes, hbytes, -⟩ := bind_eq_ok.1 h
  obtain ⟨place, hplace, hnode⟩ := bind_eq_ok.1 hbytes
  obtain ⟨r, hr, rfl⟩ := map_eq_ok.1 hplace
  obtain ⟨s, hs, hisDirectory⟩ := hdirectory
  obtain ⟨habsolute, hsteady⟩ :=
    Path.steady_eq_of_components (reach_eq_ok.1 hr).1.2.1 hne hcomponents
  have hfollow := follow_of_reach hr
  rw [startOf, habsolute, ← startOf, pieces, hsteady, ← pieces, hs] at hfollow
  cases hfollow
  obtain ⟨entries, hentries⟩ := exists_node_of_isDirectoryAt hisDirectory
  rw [hentries] at hnode
  cases hnode

end ImportAtlas.FileTree
