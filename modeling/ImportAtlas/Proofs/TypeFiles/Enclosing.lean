import Mathlib.Data.List.Find
import ImportAtlas.Proofs.FileTree.Walk
import ImportAtlas.Proofs.Path.Relative
import ImportAtlas.Proofs.TypeFiles.Installed

namespace ImportAtlas

open Outcome

namespace Manifest

variable {t : FileTree}

def standsIn (t : FileTree) (directory : Path) : Bool := t.isFile (directory.join fileName)

theorem run_firstOf {directories : List Path} {c : ManifestCache}
    (hnodup : (directories.map Path.components).Nodup)
    (hfresh : ∀ d ∈ directories, c.find? (d.join fileName) = none) :
    ∃ c', (firstOf t directories).run c =
      (match directories.find? (standsIn t) with
        | none => .ok none
        | some d => (read t (d.join fileName)).map some, c') := by
  induction directories generalizing c with
  | nil => exact ⟨c, rfl⟩
  | cons head rest ih =>
    have hrun := fetch_of_find?_none (t := t) (hfresh head List.mem_cons_self)
    change (inDirectory t head).run c = _ at hrun
    rw [firstOf]
    by_cases hfile : standsIn t head = true
    · rw [List.find?_cons_of_pos hfile]
      rw [standsIn] at hfile
      simp only [look, hfile, if_true] at hrun ⊢
      cases hread : read t (head.join fileName) with
      | error e =>
        rw [hread] at hrun
        exact ⟨c, run_bind_of_error hrun⟩
      | ok m =>
        rw [hread] at hrun
        exact ⟨_, run_bind_of_gives hrun⟩
    · rw [List.find?_cons_of_neg hfile]
      rw [standsIn] at hfile
      simp only [look, hfile, Bool.false_eq_true, if_false] at hrun
      obtain ⟨hhead, hrest⟩ := List.nodup_cons.1 (List.map_cons ▸ hnodup)
      obtain ⟨c', hc'⟩ := ih (c := c.insert (head.join fileName) none) hrest fun d hd => by
        rw [ManifestCache.find?_insert, if_neg]
        · exact hfresh d (List.mem_cons_of_mem head hd)
        · rw [components_join_fileName, components_join_fileName, List.append_cancel_right_eq]
          exact fun heq => hhead (heq ▸ List.mem_map_of_mem hd)
      exact ⟨c', (run_bind_of_gives hrun).trans hc'⟩

end Manifest

namespace Path

open Text

variable {p d : Path}

theorem steady_prefix_of_mem_ancestors (h : p.isAbsolute = true) (hd : d ∈ p.ancestors) :
    steady (FileTree.pieces d.text) <+: steady (FileTree.pieces p.text) := by
  have hmem := List.mem_map_of_mem (f := fun d : Path => steady (FileTree.pieces d.text)) hd
  rw [map_steady_ancestors h] at hmem
  simpa using hmem

theorem text_prefix_of_mem_ancestors (h : p.isAbsolute = true) (hd : d ∈ p.ancestors) :
    d.text <+: p.text := by
  obtain ⟨cs, hcs⟩ := List.head?_eq_some_iff.1 (of_decide_eq_true h)
  have hsplit : splitOn isSeparator p.text = [] :: splitOn isSeparator cs := by
    rw [hcs, splitOn_cons_of_pos (by rfl)]
  simp only [ancestors, hsplit, if_true, List.append_nil] at hd
  rcases List.mem_cons.1 hd with rfl | hd
  · exact List.prefix_rfl
  obtain ⟨shorter, hshorter, rfl⟩ := List.mem_map.1 hd
  obtain ⟨back, hback⟩ := suffix_of_mem_shorterBodies hshorter
  have hprefix : [] :: shorter.reverse <+: splitOn isSeparator p.text := by
    refine hsplit ▸ List.cons_prefix_cons.2 ⟨rfl, back.reverse, ?_⟩
    rw [← List.reverse_append, hback, List.reverse_reverse]
  have htext : ['/'].intercalate (splitOn isSeparator p.text) = p.text := by
    rw [splitOn_eq_splitOnP]
    exact List.intercalate_splitOn '/'
  unfold ofPieces
  split
  · rw [hcs]
    exact List.cons_prefix_cons.2 ⟨rfl, List.nil_prefix⟩
  · obtain ⟨tail, htail⟩ := FileTree.exists_append_of_prefix hprefix
    exact ⟨tail, by rw [← htail, htext]⟩

theorem byteLength_join_le (h : p.isAbsolute = true) (hd : d ∈ p.ancestors) {q : Path}
    (hq : q.isAbsolute = false) :
    byteLength (d.join q).text ≤ byteLength (p.join q).text := by
  obtain ⟨back, hback⟩ := text_prefix_of_mem_ancestors h hd
  have hlength : byteLength p.text = byteLength d.text + byteLength back := by
    rw [← hback, byteLength_append]
  have hdne : d.text ≠ [] := by
    have := isAbsolute_of_mem_ancestors h hd
    rintro hnil
    simp [isAbsolute, hnil] at this
  have hpne : p.text ≠ [] := by simp [← hback, hdne]
  have hslash : byteLength ['/'] = 1 := rfl
  cases back with
  | nil =>
    rw [List.append_nil] at hback
    simp [join, hback]
  | cons c back =>
    have hc := c.utf8Size_pos
    simp only [join, hq, hdne, hpne, decide_false, Bool.or_false, Bool.false_eq_true, if_false]
    split <;> split <;>
      simp only [byteLength_append, byteLength_cons, byteLength_nil] at hlength hslash ⊢ <;> omega

end Path

namespace FileTree

variable {t : FileTree} {start d : Path} {place target q : Place} {todo : List FileName}

def placeOf (path : Path) : Place := walk [] (pieces path.text)

theorem follow_eq_walk (hfree : t.LinkFree []) {links : Nat} {r : Place × Nat}
    (h : t.follow true links place todo = .ok r) : r = (walk place todo, links) :=
  followWithin_eq_walk hfree (fun _ _ => List.nil_prefix) h

theorem locate_eq_placeOf (hfree : t.LinkFree []) (hstart : start.isAbsolute = true)
    (h : t.locate true start = .ok place) : place = placeOf start := by
  obtain ⟨r, hr, rfl⟩ := map_eq_ok.1 h
  rw [follow_eq_walk hfree (reach_eq_ok.1 hr).2, startOf, if_pos hstart]
  rfl

def hasManifest (t : FileTree) (place : Place) : Bool :=
  match t.node? (place ++ [Manifest.fileName.text]) with
  | some (.file _) => true
  | _ => false

theorem hasManifest_iff : t.hasManifest place = true ↔
    ∃ bytes, t.node? (place ++ [Manifest.fileName.text]) = some (.file bytes) := by
  unfold hasManifest
  split
  · rename_i bytes hnode
    exact ⟨fun _ => ⟨bytes, hnode⟩, fun _ => rfl⟩
  · rename_i hnot
    exact ⟨nofun, fun ⟨bytes, hnode⟩ => absurd hnode (hnot bytes)⟩

theorem placeOf_eq (path : Path) : placeOf path = walk [] (Path.steady (pieces path.text)) :=
  (walk_steady [] _).symm

theorem steady_join_fileName (d : Path) : Path.steady (pieces (d.join Manifest.fileName).text) =
    Path.steady (pieces d.text) ++ [Manifest.fileName.text] := by
  have hsteady := Path.steady_join_piece d Manifest.isPlain_fileName.slashFree
  rwa [Manifest.isPlain_fileName.steady_eq] at hsteady

theorem nulFree_join_fileName
    (hfront : Path.steady (pieces d.text) <+: Path.steady (pieces start.text))
    (h : start.text.contains '\x00' = false) :
    (d.join Manifest.fileName).text.contains '\x00' = false := by
  rw [Bool.eq_false_iff, ne_eq, contains_nul_iff, steady_join_fileName, List.flatten_append,
    List.mem_append]
  rintro (hnul | hnul)
  · obtain ⟨piece, hpiece, hmem⟩ := List.mem_flatten.1 hnul
    exact Bool.eq_false_iff.1 h
      (contains_nul_iff.2 (List.mem_flatten.2 ⟨piece, hfront.mem hpiece, hmem⟩))
  · revert hnul
    decide

section Enclosing

variable (hfree : t.LinkFree []) (hstart : start.isAbsolute = true)
  (htarget : t.locate true start = .ok target)

include hfree hstart htarget

theorem follow_of_prefix {front : List FileName}
    (hfront : front <+: Path.steady (pieces start.text)) :
    t.follow true linkLimit [] front = .ok (walk [] front, linkLimit) := by
  obtain ⟨back, hback⟩ := hfront
  obtain ⟨r, hr, -⟩ := map_eq_ok.1 htarget
  have hfollow := follow_of_reach hr
  rw [startOf, if_pos hstart, ← hback, follow, followWithin_append] at hfollow
  obtain ⟨s, hs, -⟩ := bind_eq_ok.1 hfollow
  rw [follow, hs, follow_eq_walk hfree hs]

omit htarget in
theorem exists_file_of_standsIn (hd : d ∈ start.ancestors) (h : Manifest.standsIn t d = true) :
    ∃ bytes, t.locate true (d.join Manifest.fileName) =
        .ok (placeOf d ++ [Manifest.fileName.text]) ∧
      t.node? (placeOf d ++ [Manifest.fileName.text]) = some (.file bytes) := by
  obtain ⟨place, bytes, hplace, hnode⟩ := isFile_iff.1 h
  have habsolute : (d.join Manifest.fileName).isAbsolute = true :=
    Path.isAbsolute_join_of_isAbsolute (Path.isAbsolute_of_mem_ancestors hstart hd) _
  obtain rfl : place = placeOf d ++ [Manifest.fileName.text] := by
    rw [locate_eq_placeOf hfree habsolute hplace, placeOf_eq, steady_join_fileName, walk_append,
      ← placeOf_eq]
    exact turn_of_isPlain Manifest.isPlain_fileName
  exact ⟨bytes, hplace, hnode⟩

theorem standsIn_iff (hd : d ∈ start.ancestors) : Manifest.standsIn t d = true ↔
    Text.byteLength (d.join Manifest.fileName).text ≤ pathLimit ∧
      t.hasManifest (placeOf d) = true := by
  constructor
  · intro h
    obtain ⟨bytes, hplace, hnode⟩ := exists_file_of_standsIn hfree hstart hd h
    obtain ⟨r, hr, -⟩ := map_eq_ok.1 hplace
    exact ⟨(reach_eq_ok.1 hr).1.2.2, hasManifest_iff.2 ⟨bytes, hnode⟩⟩
  · rintro ⟨hshort, hmanifest⟩
    obtain ⟨bytes, hnode⟩ := hasManifest_iff.1 hmanifest
    have habsolute : (d.join Manifest.fileName).isAbsolute = true :=
      Path.isAbsolute_join_of_isAbsolute (Path.isAbsolute_of_mem_ancestors hstart hd) _
    have hprefix := Path.steady_prefix_of_mem_ancestors hstart hd
    have hends : EndsInName (d.join Manifest.fileName) := by
      obtain ⟨front, hfront⟩ := Path.pieces_join_fileName d
      exact ⟨⟨front, _, hfront, by decide⟩, hshort⟩
    obtain ⟨r, hr, -⟩ := map_eq_ok.1 htarget
    have hnul := nulFree_join_fileName hprefix (reach_eq_ok.1 hr).1.1
    have hlast : t.followWithin true (fun _ => true) linkLimit (placeOf d)
        [Manifest.fileName.text] = .ok (placeOf d ++ [Manifest.fileName.text], linkLimit) :=
      followPieces_names (by decide) hnode nofun fun _ _ => rfl
    refine isFile_iff.2 ⟨_, bytes, map_eq_ok.2 ⟨(_, linkLimit), ?_, rfl⟩, hnode⟩
    rw [hends.reach_eq_follow hnul, startOf, if_pos habsolute, steady_join_fileName, follow,
      followWithin_append, ← follow, follow_of_prefix hfree hstart htarget hprefix, ← placeOf_eq]
    exact hlast

end Enclosing

end FileTree

namespace InstalledPackage

open FileTree

variable {t : FileTree} {start d : Path} {target place q : Place}

def searched (start : Path) : List Path :=
  start.ancestors.filter fun d => Text.byteLength (d.join Manifest.fileName).text ≤ pathLimit

/-- No manifest lies between the place of the nearest one and the target. -/
structure IsNearest (t : FileTree) (target place : Place) : Prop where
  above : place <+: target
  hasManifest : t.hasManifest place = true
  between : ∀ q, place <+: q → q <+: target → t.hasManifest q = true → q = place

/-- The search for the manifest of a path ends in a directory above the path, as it is
written.  That is the nearest one if it is above the target at all; it is, if no double
point leads back from it. -/
structure EndsIn (t : FileTree) (start : Path) (target : Place) (d : Path) (m : Manifest) :
    Prop where
  found : (searched start).find? (fun d => t.hasManifest (placeOf d)) = some d
  read : Manifest.read t (d.join Manifest.fileName) = .ok m
  above : ∀ back, Path.steady (pieces start.text) = Path.steady (pieces d.text) ++ back →
    ['.', '.'] ∉ back → placeOf d <+: target
  nearest : Text.byteLength (start.join Manifest.fileName).text ≤ pathLimit →
    (placeOf d <+: target ↔ IsNearest t target (placeOf d))

/-- The name of the package whose manifest is found in a directory: the one that the
manifest gives, or the last piece of the directory as it is written, unless that is a
double point. -/
def nameIn (d : Path) (m : Manifest) : Option String :=
  (m.text? "name").or
    (((Path.steady (pieces d.text)).getLast?.filter (· ≠ ['.', '.'])).map String.ofList)

def notFound (specifier : String) (root : Path) : AtlasError :=
  .resolution specifier root (.single .packageNotFound)

/-- What is answered for a specifier that leads to the target. -/
inductive Encloses (t : FileTree) (specifier : String) (root : Path) (target : Place) :
    Except AtlasError InstalledPackage → Prop
  | missing
      (hsearch : ∀ d ∈ searched (root.join (Path.ofString specifier)),
        t.hasManifest (placeOf d) = false)
      (hnone : Text.byteLength ((root.join (Path.ofString specifier)).join
        Manifest.fileName).text ≤ pathLimit → ∀ q, q <+: target → t.hasManifest q = false) :
      Encloses t specifier root target (.error (notFound specifier root))
  | nameless {d : Path} {m : Manifest}
      (h : EndsIn t (root.join (Path.ofString specifier)) target d m) (hname : nameIn d m = none) :
      Encloses t specifier root target (.error (notFound specifier root))
  | package {d : Path} {m : Manifest} {name : String}
      (h : EndsIn t (root.join (Path.ofString specifier)) target d m)
      (hname : nameIn d m = some name) (hplace : placeOf m.directory = placeOf d) :
      Encloses t specifier root target (.ok ⟨name, m.directory⟩)

theorem EndsIn.mem {m : Manifest} (h : EndsIn t start target d m) : d ∈ start.ancestors :=
  List.mem_of_mem_filter (List.mem_of_find?_eq_some h.found)

theorem searched_eq (hstart : start.isAbsolute = true)
    (hshort : Text.byteLength (start.join Manifest.fileName).text ≤ pathLimit) :
    searched start = start.ancestors :=
  List.filter_eq_self.2 fun _ hd =>
    decide_eq_true ((Path.byteLength_join_le hstart hd (by decide)).trans hshort)

theorem exists_ancestor (hstart : start.isAbsolute = true) {front : List FileName}
    (hfront : front <+: Path.steady (pieces start.text)) :
    ∃ d ∈ start.ancestors, Path.steady (pieces d.text) = front := by
  have hmem : front ∈ start.ancestors.map fun d => Path.steady (pieces d.text) := by
    rwa [Path.map_steady_ancestors hstart, List.mem_reverse, List.mem_inits]
  exact List.mem_map.1 hmem

theorem pairwise_ancestors (hstart : start.isAbsolute = true) : start.ancestors.Pairwise
    fun d d' => Path.steady (pieces d'.text) <+: Path.steady (pieces d.text) := by
  have hinits (todo : List FileName) : todo.inits.Pairwise (· <+: ·) := by
    induction todo with
    | nil => simp
    | cons piece todo ih =>
      rw [List.inits_cons, List.pairwise_cons, List.pairwise_map]
      exact ⟨fun _ _ => List.nil_prefix,
        ih.imp fun hprefix => List.cons_prefix_cons.2 ⟨rfl, hprefix⟩⟩
  rw [← List.pairwise_map (f := fun d : Path => Path.steady (pieces d.text))
    (R := fun front front' => front' <+: front), Path.map_steady_ancestors hstart,
    List.pairwise_reverse]
  exact hinits _

theorem placeOf_of_append {back : List FileName}
    (hback : Path.steady (pieces start.text) = Path.steady (pieces d.text) ++ back) :
    placeOf start = walk (placeOf d) back := by
  rw [placeOf_eq, hback, walk_append, ← placeOf_eq]

theorem isNearest_of_above (hstart : start.isAbsolute = true)
    (hshort : Text.byteLength (start.join Manifest.fileName).text ≤ pathLimit)
    (hfound : (searched start).find? (fun d => t.hasManifest (placeOf d)) = some d)
    (habove : placeOf d <+: placeOf start) : IsNearest t (placeOf start) (placeOf d) := by
  rw [searched_eq hstart hshort] at hfound
  obtain ⟨hmanifest, later, earlier, hsplit, hnone⟩ := List.find?_eq_some_iff_append.1 hfound
  refine ⟨habove, hmanifest, fun q hdq hq hmanifest' => ?_⟩
  obtain ⟨back, hback⟩ := Path.steady_prefix_of_mem_ancestors hstart
    (List.mem_of_find?_eq_some hfound)
  rw [placeOf_of_append hback.symm] at hq
  obtain ⟨front, hfront, rfl⟩ := exists_walk_of_prefix hdq hq
  obtain ⟨d', hd', hsteady⟩ := exists_ancestor hstart
    (hback ▸ (List.prefix_append_right_inj _).2 hfront)
  have hplace : placeOf d' = walk (placeOf d) front := placeOf_of_append hsteady
  have hlater : d' ∉ later := fun hmem => by
    have := hnone d' hmem
    rw [hplace, hmanifest'] at this
    cases this
  have hprefix : Path.steady (pieces d'.text) <+: Path.steady (pieces d.text) := by
    rw [hsplit] at hd'
    rcases List.mem_cons.1 ((List.mem_append.1 hd').resolve_left hlater) with rfl | hearlier
    · exact List.prefix_rfl
    · have hpairwise := pairwise_ancestors hstart
      rw [hsplit] at hpairwise
      exact (List.pairwise_cons.1 (List.pairwise_append.1 hpairwise).2.1).1 d' hearlier
  obtain rfl : front = [] := by
    rw [hsteady] at hprefix
    have := hprefix.length_le
    rw [List.length_append] at this
    exact List.eq_nil_of_length_eq_zero (by omega)
  rfl

theorem hasManifest_of_find?_none (hstart : start.isAbsolute = true)
    (hshort : Text.byteLength (start.join Manifest.fileName).text ≤ pathLimit)
    (hnone : ∀ d ∈ searched start, t.hasManifest (placeOf d) = false)
    (hq : q <+: placeOf start) : t.hasManifest q = false := by
  rw [placeOf_eq] at hq
  obtain ⟨front, hfront, rfl⟩ := exists_walk_of_prefix List.nil_prefix hq
  obtain ⟨d, hd, rfl⟩ := exists_ancestor hstart hfront
  rw [← placeOf_eq]
  exact hnone d (searched_eq hstart hshort ▸ hd)

theorem above_of_not_mem {back : List FileName}
    (hback : Path.steady (pieces start.text) = Path.steady (pieces d.text) ++ back)
    (hpoints : ['.', '.'] ∉ back) : placeOf d <+: placeOf start := by
  rw [placeOf_of_append hback, walk_of_not_mem hpoints]
  exact List.prefix_append _ _

theorem fileName?_of_isAbsolute (h : d.isAbsolute = true) :
    d.fileName? = (Path.steady (pieces d.text)).getLast?.filter (· ≠ ['.', '.']) := by
  obtain ⟨_ | ⟨c, cs⟩⟩ := d
  · cases h
  obtain rfl : c = '/' := by simpa [Path.isAbsolute] using h
  rw [Path.fileName?, Path.components_absolute, pieces]
  rcases List.eq_nil_or_concat' (Path.steady (Text.splitOn Path.isSeparator ('/' :: cs)))
    with hnil | ⟨front, last, hlast⟩
  · rw [hnil]
    rfl
  · have hmem : last ∈ Path.steady (Text.splitOn Path.isSeparator ('/' :: cs)) := by
      simp [hlast]
    rw [hlast, List.map_append, List.map_singleton, ← List.cons_append, List.getLast?_concat,
      List.getLast?_concat]
    by_cases hpoints : last = ['.', '.']
    · simp [hpoints, Path.componentOf, Option.filter]
    · rcases Path.componentOf_of_mem_steady hmem with hparent | hname
      · exact absurd (Path.componentOf_injective (hparent.trans (by decide))) hpoints
      · simp [hname, Option.filter, hpoints]

theorem ofManifest?_eq {m : Manifest} (hd : d.isAbsolute = true)
    (hcomponents : m.directory.components = d.components) :
    ofManifest? m = (nameIn d m).map (⟨·, m.directory⟩) := by
  rw [ofManifest?, nameIn, Path.fileName?_congr hcomponents, fileName?_of_isAbsolute hd]

theorem placeOf_congr {d' : Path} (h : d.components = d'.components) : placeOf d = placeOf d' := by
  rw [placeOf_eq, placeOf_eq, pieces, pieces, Path.steady_eq_filterMap, Path.steady_eq_filterMap, h]

theorem locate_of_kind {specifier : String} {root : Path}
    (h : SpecifierKind.of specifier = .relative ∨ SpecifierKind.of specifier = .absolute) :
    locate t specifier root = (do
      let manifest ← Manifest.nearest t (root.join (Path.ofString specifier))
      match manifest.bind ofManifest? with
      | some package => pure package
      | none => throw (notFound specifier root)) := by
  unfold locate
  rcases h with h | h
  · rw [h]
    rfl
  · rw [h]
    rfl

/-- All manifests are texts of JSON values. -/
def ManifestsParse (t : FileTree) : Prop :=
  ∀ place bytes, t.node? (place ++ [Manifest.fileName.text]) = some (.file bytes) →
    ∃ text value, Text.decodeUtf8 bytes = .ok text ∧ Json.parse text = .ok value

def isJson : FileNode → Bool
  | .file bytes => ((Text.decodeUtf8 bytes).toOption.any fun text => (Json.parse text).isOk)
  | _ => false

theorem manifestsParse_of_places (h : ∀ place ∈ t.root.places FileNode.isFile,
    place.getLast? = some Manifest.fileName.text → (t.node? place).any isJson = true) :
    ManifestsParse t := by
  intro place bytes hnode
  have hjson := h _ (FileNode.mem_places rfl hnode) List.getLast?_concat
  rw [hnode, Option.any_some, isJson] at hjson
  obtain ⟨text, htext, hvalue⟩ := (Option.any_eq_true _ _).1 hjson
  obtain ⟨value, hvalue⟩ := exists_of_isOk hvalue
  exact ⟨text, value, eq_ok_of_toOption htext, hvalue⟩

theorem EndsIn.exists_encloses {specifier : String} {root : Path} {m : Manifest}
    (h : EndsIn t (root.join (Path.ofString specifier)) target d m)
    (hstart : (root.join (Path.ofString specifier)).isAbsolute = true)
    (hm : m.path = d.join Manifest.fileName) (c : ManifestCache) :
    ∃ answer, (match ofManifest? m with
        | some package => pure package
        | none => throw (notFound specifier root) : Lookup InstalledPackage).run c = (answer, c) ∧
      Encloses t specifier root target answer := by
  have hcomponents : m.directory.components = d.components :=
    Manifest.components_directory (hm ▸ rfl)
  rw [ofManifest?_eq (Path.isAbsolute_of_mem_ancestors hstart h.mem) hcomponents]
  cases hname : nameIn d m with
  | none => exact ⟨_, rfl, .nameless h hname⟩
  | some name => exact ⟨_, rfl, .package h hname (placeOf_congr hcomponents)⟩

section Search

variable (hfree : t.LinkFree []) (hstart : start.isAbsolute = true)
  (htarget : t.locate true start = .ok target)

include hfree hstart htarget

theorem find?_standsIn : start.ancestors.find? (Manifest.standsIn t) =
    (searched start).find? fun d => t.hasManifest (placeOf d) := by
  rw [searched, List.find?_filter]
  refine List.find?_congr fun d hd => ?_
  rw [Bool.eq_iff_iff, standsIn_iff hfree hstart htarget hd, decide_eq_true_iff,
    decide_eq_true_iff]

omit htarget in
theorem exists_read (hparse : ManifestsParse t) (hd : d ∈ start.ancestors)
    (h : Manifest.standsIn t d = true) : ∃ value,
    Manifest.read t (d.join Manifest.fileName) = .ok ⟨d.join Manifest.fileName, value⟩ := by
  obtain ⟨bytes, hplace, hnode⟩ := exists_file_of_standsIn hfree hstart hd h
  obtain ⟨text, value, htext, hvalue⟩ := hparse _ bytes hnode
  have hbytes : t.readBytes (d.join Manifest.fileName) = .ok bytes := by
    rw [readBytes, hplace, ok_bind, hnode]
  have hstream : t.readStream (d.join Manifest.fileName) = .ok text := by
    rw [readStream, hbytes, ok_bind, htext]
    rfl
  exact ⟨value, by simp only [Manifest.read, hstream, hvalue]⟩

theorem exists_endsIn (hparse : ManifestsParse t)
    (hfound : (searched start).find? (fun d => t.hasManifest (placeOf d)) = some d) :
    ∃ value, EndsIn t start target d ⟨d.join Manifest.fileName, value⟩ := by
  obtain rfl := locate_eq_placeOf hfree hstart htarget
  have hfind := (find?_standsIn hfree hstart htarget).trans hfound
  obtain ⟨value, hread⟩ := exists_read hfree hstart hparse (List.mem_of_find?_eq_some hfind)
    (List.find?_some hfind)
  refine ⟨value, hfound, hread, fun _ => above_of_not_mem, fun hshort => ?_⟩
  exact ⟨isNearest_of_above hstart hshort hfound, fun hnearest => hnearest.above⟩

end Search

/-- The package that holds a path is described by the manifest in which the search ends, in
a tree without links whose manifests can be read. -/
theorem locate_encloses {specifier : String} {root : Path} (hfree : t.LinkFree [])
    (hparse : ManifestsParse t) (hroot : root.isAbsolute = true)
    (h : SpecifierKind.of specifier = .relative ∨ SpecifierKind.of specifier = .absolute)
    (htarget : t.locate true (root.join (Path.ofString specifier)) = .ok target) :
    ∃ answer c, (locate t specifier root).run .empty = (answer, c) ∧
      Encloses t specifier root target answer := by
  have hstart := Path.isAbsolute_join_of_isAbsolute hroot (Path.ofString specifier)
  obtain ⟨c, hnearest⟩ := Manifest.run_firstOf (t := t) (c := .empty)
    (Path.nodup_components_ancestors hstart) fun _ _ => rfl
  rw [find?_standsIn hfree hstart htarget] at hnearest
  rw [locate_of_kind h]
  cases hfound : (searched (root.join (Path.ofString specifier))).find?
      fun d => t.hasManifest (placeOf d) with
  | none =>
    rw [hfound] at hnearest
    have hnone (d) (hd : d ∈ searched (root.join (Path.ofString specifier))) :
        t.hasManifest (placeOf d) = false := by
      simpa using List.find?_eq_none.1 hfound d hd
    obtain rfl := locate_eq_placeOf hfree hstart htarget
    exact ⟨_, c, run_bind_of_gives hnearest, .missing hnone fun hshort q hq =>
      hasManifest_of_find?_none hstart hshort hnone hq⟩
  | some d =>
    obtain ⟨value, hends⟩ := exists_endsIn hfree hstart htarget hparse hfound
    rw [hfound] at hnearest
    simp only [hends.read] at hnearest
    obtain ⟨answer, hanswer, hencloses⟩ := hends.exists_encloses hstart rfl c
    exact ⟨answer, c, (run_bind_of_gives hnearest).trans hanswer, hencloses⟩

def strayTree : FileTree where
  root := .directory [("w".toList, .directory [
    ("a".toList, .directory [
      ("b".toList, .directory [
        ("package.json".toList, .file (Text.encodeUtf8 "\x7b\"name\":\"b\"\x7d".toList))]),
      ("x.js".toList, .file [])]),
    ("package.json".toList, .file (Text.encodeUtf8 "\x7b\"name\":\"w\"\x7d".toList))])]
  workingDirectory := ["w".toList]

theorem locate_strayTree :
    strayTree.LinkFree [] ∧ ManifestsParse strayTree ∧
    strayTree.locate true ((Path.ofString "/w/a/b").join (Path.ofString "../x.js")) =
      .ok ["w".toList, "a".toList, "x.js".toList] ∧
    IsNearest strayTree ["w".toList, "a".toList, "x.js".toList] ["w".toList] ∧
    ((locate strayTree "../x.js" (Path.ofString "/w/a/b")).run .empty).1.toOption =
      some ⟨"b", Path.ofString "/w/a/b"⟩ ∧
    ∃ answer c, (locate strayTree "../x.js" (Path.ofString "/w/a/b")).run .empty = (answer, c) ∧
      Encloses strayTree "../x.js" (Path.ofString "/w/a/b")
        ["w".toList, "a".toList, "x.js".toList] answer := by
  have hfree : strayTree.LinkFree [] := FileTree.linkFree_of_places rfl rfl
  have hparse : ManifestsParse strayTree := manifestsParse_of_places (by decide +kernel)
  have hplace : strayTree.locate true ((Path.ofString "/w/a/b").join (Path.ofString "../x.js")) =
      .ok ["w".toList, "a".toList, "x.js".toList] := eq_ok_of_toOption (by decide +kernel)
  have hbetween : ∀ q ∈ ["w".toList, "a".toList, "x.js".toList].inits,
      strayTree.hasManifest q = true → q.length ≤ 1 := by decide +kernel
  refine ⟨hfree, hparse, hplace, ⟨⟨_, rfl⟩, by decide +kernel, fun q habove hq hmanifest => ?_⟩,
    by decide +kernel, locate_encloses hfree hparse (by decide +kernel) (by decide +kernel) hplace⟩
  exact (habove.eq_of_length_le (hbetween q ((List.mem_inits _ _).2 hq) hmanifest)).symm

end InstalledPackage

end ImportAtlas
