import ImportAtlas.Proofs.FileTree.Walk
import ImportAtlas.Proofs.Path.OsPath
import ImportAtlas.Proofs.TypeFiles.Containment

namespace ImportAtlas

open Outcome Text

namespace Text

theorem exists_splitOn_stripHeads (cs : List Char) : ∃ n, splitOn Path.isSeparator cs =
    List.replicate n ['.'] ++ splitOn Path.isSeparator (stripHeads ['.', '/'] cs) := by
  generalize hhead : ['.', '/'] = head
  fun_induction stripHeads head cs with
  | case1 => cases hhead
  | case2 => exact ⟨0, rfl⟩
  | case3 cs h head rest hstrip ih =>
    obtain ⟨n, hn⟩ := ih hhead
    rw [← hhead, stripHead_eq_some] at hstrip
    refine ⟨n + 1, ?_⟩
    calc
      splitOn Path.isSeparator cs = splitOn Path.isSeparator (['.'] ++ '/' :: rest) := by
        rw [hstrip]
        rfl
      _ = ['.'] :: splitOn Path.isSeparator rest := splitOn_append rfl _ _
      _ = _ := by rw [hn, List.replicate_succ, List.cons_append]

theorem mem_splitOn_stripHeads_iff {cs piece : List Char} (hpiece : piece ≠ ['.']) :
    piece ∈ splitOn Path.isSeparator (stripHeads ['.', '/'] cs) ↔
      piece ∈ splitOn Path.isSeparator cs := by
  obtain ⟨n, hn⟩ := exists_splitOn_stripHeads cs
  simp [hn, List.mem_replicate, hpiece]

theorem isAbsolute_of_stripHeads {cs : List Char}
    (h : (Path.mk (stripHeads ['.', '/'] cs)).isAbsolute = false) :
    (Path.mk cs).isAbsolute = false := by
  cases cs with
  | nil => rfl
  | cons c cs =>
    rw [stripHeads] at h
    split at h
    · exact h
    · rename_i hstrip
      rw [stripHead_eq_some, List.cons_append, List.cons.injEq] at hstrip
      simp [Path.isAbsolute, hstrip.1]

end Text

namespace Declarations

variable {t : FileTree} {config : Config} {directory path : Path} {m : Manifest}
  {place : Place} {names front : List FileName}

/-- Its leading `./` dropped, the entry is a relative path without double points. -/
def IsInner (entry : String) : Prop :=
  let entry := stripHeads ['.', '/'] entry.toList
  (Path.mk entry).isAbsolute = false ∧ ['.', '.'] ∉ splitOn Path.isSeparator entry

instance (entry : String) : Decidable (IsInner entry) :=
  inferInstanceAs (Decidable (_ ∧ _))

/-- The manifest names nothing outside of its directory, and its list of files has no
patterns. -/
structure NamesInner (m : Manifest) : Prop where
  entry : ∀ entry, m.typesField? = some entry → IsInner entry
  files : ∀ entries, m.files? = some entries → ∀ entry ∈ entries,
    IsInner entry ∧ isPattern (stripHeads ['.', '/'] entry.toList) = false

theorem IsInner.isAbsolute {entry : String} (h : IsInner entry) :
    (Path.ofString entry).isAbsolute = false :=
  isAbsolute_of_stripHeads h.1

theorem IsInner.not_mem_points {entry : String} (h : IsInner entry) :
    ['.', '.'] ∉ splitOn Path.isSeparator entry.toList :=
  mt (mem_splitOn_stripHeads_iff (by decide)).2 h.2

theorem NamesInner.not_climbs (h : NamesInner m) : ¬ Climbs directory m := by
  rintro (⟨entry, hentry, hclimbs⟩ | ⟨entries, hentries, entry, hentry, hclimbs⟩)
  · exact (h.entry entry hentry).not_mem_points hclimbs
  · obtain ⟨hinner, hpattern⟩ := h.files entries hentries entry hentry
    unfold EntryClimbs at hclimbs
    dsimp only at hclimbs
    rw [if_neg (by simp [hpattern])] at hclimbs
    exact hinner.2 hclimbs

def IsListed (t : FileTree) (directory : Path) (entries : List String)
    (names : List FileName) : Prop :=
  ∃ entry ∈ entries,
    let entry := stripHeads ['.', '/'] entry.toList
    (entry ≠ [] ∧ entry.head? ≠ some '!') ∧
    (t.isFile (directory.join ⟨entry⟩) = true ∨ t.isDirectory (directory.join ⟨entry⟩) = true) ∧
    Path.steady (FileTree.pieces entry) <+: names

/-- What the manifest of a directory at a place publishes, by its names below the place. -/
inductive Publishes (t : FileTree) (config : Config) (directory : Path) (m : Manifest)
    (place : Place) : List FileName → Prop
  | manifest : Publishes t config directory m place [Manifest.fileName.text]
  | entry {entry : String} (h : m.typesField? = some entry)
      (hfile : t.isFile (directory.join (Path.ofString entry)) = true) :
      Publishes t config directory m place (Path.steady (FileTree.pieces entry.toList))
  | declaration {names : List FileName} {name : FileName} {bytes : List UInt8}
      (hlisted : ∀ entries, m.files? = some entries → IsListed t directory entries names)
      (hfile : t.node? (place ++ names) = some (.file bytes))
      (hname : names.getLast? = some name) (hdeclares : config.isDeclaration name = true) :
      Publishes t config directory m place names

def HasText (t : FileTree) (place : Place) (text : String) : Prop :=
  ∃ bytes, t.node? place = some (.file bytes) ∧ decodeUtf8 bytes = .ok text

theorem Publishes.slashFree (h : Publishes t config directory m place names) (ht : t.WellNamed) :
    ∀ n ∈ names, '/' ∉ n := by
  intro n hn
  cases h with
  | manifest => exact List.mem_singleton.1 hn ▸ Manifest.isPlain_fileName.slashFree
  | entry => exact Path.slashFree_of_mem_splitOn (List.mem_filter.1 hn).1
  | declaration _ hfile => exact (ht.isName hfile n (List.mem_append_right _ hn)).slashFree

theorem eq_steady_of_join {q : Path} (hne : directory.text ≠ []) (hq : q.isAbsolute = false)
    (hbelow : directory.Below (directory.join q) names) :
    names = Path.steady (FileTree.pieces q.text) := by
  have hsteady := (FileTree.steady_of_below hbelow hne).2
  rw [FileTree.pieces, Path.steady_join directory hq, FileTree.pieces,
    List.append_cancel_left_eq] at hsteady
  exact hsteady.symm

theorem isDeclaration_iff (hbelow : directory.Below path names) (hnames : names ≠ []) :
    isDeclaration config path = true ↔
      ∃ name, names.getLast? = some name ∧ config.isDeclaration name = true := by
  obtain ⟨front, name, rfl⟩ := (List.eq_nil_or_concat' names).resolve_left hnames
  have hname : path.fileName? = some name := by
    rw [Path.fileName?, hbelow, List.map_append, ← List.append_assoc]
    simp
  simp [isDeclaration, hname]

theorem isDeclaration_of_mem_below {file : Path} (h : file ∈ below t config path) :
    isDeclaration config file = true := by
  unfold below at h
  split at h
  · exact (List.mem_filter.1 h).2
  · cases h

theorem isDeclaration_of_mem_ofPath {file : Path} (h : file ∈ ofPath t config path) :
    isDeclaration config file = true := by
  unfold ofPath at h
  split at h
  · exact isDeclaration_of_mem_below h
  · split at h
    · rename_i hdeclares
      obtain rfl := List.mem_singleton.1 h
      exact hdeclares
    · cases h

theorem isListed_of_mem_listed (ht : t.WellNamed) (hne : directory.text ≠ [])
    {entries : List String} {entry : String} (hentry : entry ∈ entries) (hinner : IsInner entry)
    (hpattern : isPattern (stripHeads ['.', '/'] entry.toList) = false)
    (h : path ∈ listed t config directory entry) (hbelow : directory.Below path names) :
    IsListed t directory entries names ∧ isDeclaration config path = true := by
  unfold listed at h
  unfold IsInner at hinner
  dsimp only at h hinner
  split at h
  · cases h
  rename_i hnamed
  rw [if_neg (by simp [hpattern])] at h
  split at h
  · rename_i hexists
    refine ⟨⟨entry, hentry, by simpa using hnamed, ?_, ?_⟩, isDeclaration_of_mem_ofPath h⟩
    · simpa [or_comm] using hexists
    · obtain ⟨after, hsteady, -⟩ := exists_of_mem_ofPath ht h
      rw [FileTree.pieces, FileTree.pieces, Path.steady_join directory hinner.1, ← FileTree.pieces,
        (FileTree.steady_of_below hbelow hne).2, FileTree.pieces, List.append_assoc,
        List.append_cancel_left_eq] at hsteady
      exact ⟨after, hsteady.symm⟩
  · cases h

theorem publishes_of_mem_sources (ht : t.WellNamed) (hne : directory.text ≠ [])
    (hmanifest : m.path.components = (directory.join Manifest.fileName).components)
    (hinner : NamesInner m) {source : String × Path}
    (hsource : source ∈ (sources t config directory m).entries)
    (hbelow : directory.Below source.2 names) (hnames : names ≠ [])
    (hisFile : t.isFile source.2 = true) {bytes : List UInt8}
    (hfile : t.node? (place ++ names) = some (.file bytes)) :
    Publishes t config directory m place names := by
  rcases mem_entries_sources hsource with rfl | ⟨hleads, -⟩
  · rw [Path.Below, hmanifest, Manifest.components_join_fileName,
      List.append_cancel_left_eq] at hbelow
    have hname : [Manifest.fileName.text].map Path.Component.name = names.map .name := hbelow
    obtain rfl := List.map_injective_iff.2 (fun _ _ => Path.Component.name.inj) hname
    exact .manifest
  · have hdeclaration (hlisted : ∀ entries, m.files? = some entries →
          IsListed t directory entries names) (hdeclares : isDeclaration config source.2 = true) :
        Publishes t config directory m place names := by
      obtain ⟨name, hname, hdeclares⟩ := (isDeclaration_iff hbelow hnames).1 hdeclares
      exact .declaration hlisted hfile hname hdeclares
    cases hleads with
    | entry hentry hpath =>
      rw [hpath] at hbelow hisFile
      obtain rfl := eq_steady_of_join hne (hinner.entry _ hentry).isAbsolute hbelow
      exact .entry hentry hisFile
    | listed hentries hentry hpath =>
      obtain ⟨hentryInner, hpattern⟩ := hinner.files _ hentries _ hentry
      obtain ⟨hlisted, hdeclares⟩ :=
        isListed_of_mem_listed ht hne hentry hentryInner hpattern hpath hbelow
      refine hdeclaration (fun entries' hentries' => ?_) hdeclares
      obtain rfl := Option.some.inj (hentries.symm.trans hentries')
      exact hlisted
    | below hnone hpath =>
      refine hdeclaration (fun entries hentries => ?_) (isDeclaration_of_mem_below hpath)
      cases hnone.symm.trans hentries

theorem relativeTo_of_below (hbelow : directory.Below path names) :
    directory.relativeTo path = some (['/'].intercalate names) := by
  rw [Path.relativeTo, Path.dropFront_eq_some.2 hbelow, Option.map_some, Path.slashed, List.map_map]
  exact congrArg some (congrArg _ (List.map_id names))

theorem descend_mem_below (hplace : t.locate true path = .ok place) (hfree : t.LinkFree place)
    (hmodules : nodeModules ∉ names) {bytes : List UInt8}
    (hfile : t.node? (place ++ names) = some (.file bytes))
    (hdeclares : isDeclaration config (FileTree.descend path names) = true) :
    FileTree.descend path names ∈ below t config path := by
  obtain ⟨⟨place, links⟩, hreach, rfl⟩ := map_eq_ok.1 hplace
  rw [FileTree.node?, FileNode.at?_append] at hfile
  obtain ⟨node, hnode, hat⟩ := Option.bind_eq_some_iff.1 hfile
  have hreached : Reached.ofPath? t path = some ⟨place, links, node⟩ := by
    simp only [Reached.ofPath?, hreach]
    rw [FileTree.node?, hnode, Option.map_some]
  have hlinks (front : Place) (target : List Char) : node.at? front ≠ some (.link target) := by
    intro hlink
    refine hfree front target ?_
    rw [FileTree.node?, FileNode.at?_append, hnode]
    exact hlink
  unfold below
  rw [hreached]
  refine List.mem_filter.2 ⟨?_, hdeclares⟩
  refine FileTree.descend_mem_filesBelow hat (fun front target _ => hlinks front target) ?_ [] path
  intro n hn
  refine decide_eq_false ?_
  rintro rfl
  exact hmodules hn

theorem exists_mem_ofPath {base : Place} (hplace : t.locate true path = .ok base)
    (hfree : t.LinkFree base) (hbelow : directory.Below path front) {rest : List FileName}
    (hplain : ∀ n ∈ rest, Path.IsPlain n) (hmodules : nodeModules ∉ rest) {bytes : List UInt8}
    (hfile : t.node? (base ++ rest) = some (.file bytes)) {name : FileName}
    (hname : (front ++ rest).getLast? = some name)
    (hdeclares : config.isDeclaration name = true) :
    ∃ file ∈ ofPath t config path, directory.Below file (front ++ rest) := by
  have hdescend : directory.Below (FileTree.descend path rest) (front ++ rest) := by
    rw [Path.Below, FileTree.below_descend hplain, hbelow, List.map_append, List.append_assoc]
  refine ⟨_, ?_, hdescend⟩
  have hnames : front ++ rest ≠ [] := by
    intro hnil
    rw [hnil] at hname
    cases hname
  have hdeclaration := (isDeclaration_iff hdescend hnames).2 ⟨name, hname, hdeclares⟩
  unfold ofPath
  split
  · exact descend_mem_below hplace hfree hmodules hfile hdeclaration
  · rename_i hdirectory
    -- nothing lies below a file
    obtain rfl : rest = [] := by
      by_contra hrest
      obtain ⟨n, rest, rfl⟩ := List.exists_cons_of_ne_nil hrest
      exact hdirectory (FileTree.isDirectory_iff.2
        ⟨base, hplace, FileTree.isDirectoryAt_of_node? hfile⟩)
    rw [if_pos (show isDeclaration config path = true from hdeclaration)]
    exact List.mem_singleton_self path

theorem exists_mem_listed (hplace : t.locate true directory = .ok place)
    (hfree : t.LinkFree place) {entries : List String}
    (hinner : ∀ entry ∈ entries,
      IsInner entry ∧ isPattern (stripHeads ['.', '/'] entry.toList) = false)
    (hlisted : IsListed t directory entries names) (hplain : ∀ n ∈ names, Path.IsPlain n)
    (hmodules : nodeModules ∉ names) {bytes : List UInt8}
    (hfile : t.node? (place ++ names) = some (.file bytes)) {name : FileName}
    (hname : names.getLast? = some name) (hdeclares : config.isDeclaration name = true) :
    ∃ path ∈ entries.flatMap (listed t config directory), directory.Below path names := by
  obtain ⟨entry, hentry, ⟨hnonempty, hnegated⟩, hexists, rest, rfl⟩ := hlisted
  obtain ⟨⟨hrelative, hpoints⟩, hpattern⟩ := hinner entry hentry
  obtain ⟨r, hr, -⟩ := map_eq_ok.1 hplace
  have hbelow := (Path.Below.refl directory).join hrelative hpoints
    (.inl (FileTree.reach_eq_ok.1 hr).1.2.1)
  obtain ⟨base, hbase⟩ : ∃ base, t.locate true
      (directory.join ⟨stripHeads ['.', '/'] entry.toList⟩) = .ok base := by
    rcases hexists with hisFile | hisDirectory
    · obtain ⟨base, -, hbase, -⟩ := FileTree.isFile_iff.1 hisFile
      exact ⟨base, hbase⟩
    · obtain ⟨base, hbase, -⟩ := FileTree.isDirectory_iff.1 hisDirectory
      exact ⟨base, hbase⟩
  obtain rfl := FileTree.locate_eq_of_below hfree hplace hbelow hbase
  rw [← List.append_assoc] at hfile
  obtain ⟨path, hpath, hpathBelow⟩ := exists_mem_ofPath hbase (hfree.append _) hbelow
    (fun n hn => hplain n (List.mem_append_right _ hn))
    (fun hmem => hmodules (List.mem_append_right _ hmem)) hfile hname hdeclares
  refine ⟨path, List.mem_flatMap.2 ⟨entry, hentry, ?_⟩, hpathBelow⟩
  unfold listed
  dsimp only
  rw [if_neg (by simp [hnonempty, hnegated]), if_neg (by simp [hpattern]),
    if_pos (by simpa [or_comm] using hexists)]
  exact hpath

theorem mem_keys_of_publishes (ht : t.WellNamed) (hplace : t.locate true directory = .ok place)
    (hfree : t.LinkFree place) (hinner : NamesInner m) (hmodules : nodeModules ∉ names)
    (h : Publishes t config directory m place names) :
    String.ofList (['/'].intercalate names) ∈ (sources t config directory m).keys := by
  cases h with
  | manifest => exact OrderedMap.mem_keys_of_get? get?_sources_fileName
  | @entry entry hentry hfile =>
    obtain ⟨r, hr, -⟩ := map_eq_ok.1 hplace
    have hmodules' : nodeModules ∉ splitOn Path.isSeparator entry.toList := fun hmem =>
      hmodules (List.mem_filter.2 ⟨hmem, by decide⟩)
    have hkey : _ ∈ (sources t config directory m).keys :=
      mem_keys_sources (FileTree.reach_eq_ok.1 hr).1.2.1 hentry (hinner.entry _ hentry).isAbsolute
        hmodules' hfile
    rwa [Path.slashed, Path.map_text_steps] at hkey
  | declaration hlisted hfile hname hdeclares =>
    have hnames : names ≠ [] := by
      rintro rfl
      cases hname
    have hplain : ∀ n ∈ names, Path.IsPlain n := fun n hn =>
      (ht.isName hfile n (List.mem_append_right _ hn)).toIsPlain
    have hrelative : nodeModules ∉ splitOn Path.isSeparator (['/'].intercalate names) := by
      rwa [Path.splitOn_intercalate hnames fun n hn => (hplain n hn).slashFree]
    rw [sources]
    cases hfiles : m.files? with
    | none =>
      have hbelow : directory.Below _ names := FileTree.below_descend hplain
      have hmem : _ ∈ below t config directory :=
        descend_mem_below hplace hfree hmodules hfile
          ((isDeclaration_iff hbelow hnames).2 ⟨_, hname, hdeclares⟩)
      exact mem_keys_addSources (List.mem_append_right _ hmem) (relativeTo_of_below hbelow)
        hrelative
    | some entries =>
      obtain ⟨path, hpath, hbelow⟩ := exists_mem_listed hplace hfree (hinner.files entries hfiles)
        (hlisted entries hfiles) hplain hmodules hfile hname hdeclares
      exact mem_keys_addSources (List.mem_append_right _ hpath) (relativeTo_of_below hbelow)
        hrelative

end Declarations

namespace PackageTypes

open Declarations

variable {t : FileTree} {config : Config} {place : Place} {p : PackageTypes}

theorem IsRead.exists_names (h : p.IsRead t config) (ht : t.WellNamed)
    (hplace : t.locate true p.package.directory = .ok place) (hfree : t.LinkFree place)
    (hdirectory : t.LeadsToDirectory p.package.directory)
    (hmanifest : p.manifest.path.components = p.package.manifestPath.components)
    (hinner : NamesInner p.manifest) {relative text : String} (hfile : (relative, text) ∈ p.files) :
    ∃ names, (names ≠ [] ∧ relative = String.ofList (['/'].intercalate names)) ∧
      nodeModules ∉ names ∧ Publishes t config p.package.directory p.manifest place names ∧
      HasText t (place ++ names) text := by
  obtain ⟨r, hr, -⟩ := map_eq_ok.1 hplace
  have hne := (FileTree.reach_eq_ok.1 hr).1.2.1
  obtain ⟨source, hsource, rfl, htext⟩ := h.exists_source hfile
  obtain ⟨steps, hsteps, hparent⟩ :=
    exists_isBelow ht hdirectory hne hmanifest hsource htext
  obtain ⟨names, rfl, hmodules⟩ := hsteps.exists_names (mt hparent hinner.not_climbs)
  have hbelow : p.package.directory.Below source.2 names := hsteps.components
  have hnames : names ≠ [] := fun hnil => hsteps.ne_nil (by rw [hnil, List.map_nil])
  obtain ⟨bytes, hbytes, hdecode⟩ := bind_eq_ok.1 htext
  obtain ⟨q, hq, hnode⟩ := bind_eq_ok.1 hbytes
  obtain rfl := FileTree.locate_eq_of_below hfree hplace hbelow hq
  have hnode : t.node? (place ++ names) = some (.file bytes) := by
    split at hnode
    · rename_i hnode'
      cases hnode
      exact hnode'
    · cases hnode
    · cases hnode
  refine ⟨names, ⟨hnames, ?_⟩, hmodules, ?_, bytes, hnode, mapError_eq_ok.1 hdecode⟩
  · rw [hsteps.relative, Path.slashed, List.map_map]
    exact congrArg (fun names => String.ofList (['/'].intercalate names)) (List.map_id names)
  · exact publishes_of_mem_sources ht hne hmanifest hinner hsource hbelow hnames
      (FileTree.isFile_iff.2 ⟨_, bytes, hq, hnode⟩) hnode

theorem IsRead.exists_mem_files (h : p.IsRead t config) (ht : t.WellNamed)
    (hplace : t.locate true p.package.directory = .ok place) (hfree : t.LinkFree place)
    (hdirectory : t.LeadsToDirectory p.package.directory)
    (hmanifest : p.manifest.path.components = p.package.manifestPath.components)
    (hinner : NamesInner p.manifest) {names : List FileName} (hmodules : nodeModules ∉ names)
    (hpublishes : Publishes t config p.package.directory p.manifest place names) :
    ∃ text, (String.ofList (['/'].intercalate names), text) ∈ p.files ∧
      HasText t (place ++ names) text := by
  have hkey := mem_keys_of_publishes ht hplace hfree hinner hmodules hpublishes
  rw [← h.keys] at hkey
  obtain ⟨⟨relative, text⟩, hfile, rfl⟩ := List.mem_map.1 hkey
  obtain ⟨names', ⟨hne', hsame⟩, -, -, htext⟩ :=
    h.exists_names ht hplace hfree hdirectory hmanifest hinner hfile
  have ⟨bytes, hnode, _⟩ := htext
  -- the file could be known by other names that make the same text
  obtain rfl := Path.eq_of_intercalate (hpublishes.slashFree ht) hne'
    (fun n hn => (ht.isName hnode n (List.mem_append_right _ hn)).toIsPlain)
    (String.ofList_injective hsame)
  exact ⟨text, hfile, htext⟩

theorem isFile_of_gives {c c' : ManifestCache} {package : InstalledPackage} (hc : c.Coherent t)
    (h : Gives (ofPackage? t config package) c (some p) c') :
    p.manifest.path.components = package.manifestPath.components ∧
      t.isFile p.manifest.path = true := by
  obtain ⟨key, hkey, hmem⟩ := ManifestCache.exists_of_find? (find?_manifestPath h)
  obtain ⟨-, hlook⟩ := (kept_of_gives_ofPackage? h).2 hc _ hmem
  rw [Manifest.path_of_look hlook]
  exact ⟨hkey, Manifest.isFile_of_look hlook⟩

/-- The files of a package are those that its manifest publishes, packages installed
below it apart, and each has its text. -/
structure HasPublished (t : FileTree) (config : Config) (place : Place) (p : PackageTypes) :
    Prop where
  mem_files_iff : ∀ relative text, (relative, text) ∈ p.files ↔
    ∃ names, relative = String.ofList (['/'].intercalate names) ∧ nodeModules ∉ names ∧
      Publishes t config p.package.directory p.manifest place names ∧
      HasText t (place ++ names) text
  exists_text : ∀ names, nodeModules ∉ names →
    Publishes t config p.package.directory p.manifest place names →
    ∃ text, HasText t (place ++ names) text

/-- What is collected of a package in a directory without links. -/
theorem hasPublished_of_gives (ht : t.WellNamed) {c c' : ManifestCache} (hc : c.Coherent t)
    {package : InstalledPackage} (h : Gives (ofPackage? t config package) c (some p) c')
    (hplace : t.locate true package.directory = .ok place) (hfree : t.LinkFree place)
    (hinner : NamesInner p.manifest) : p.package = package ∧ p.HasPublished t config place := by
  obtain ⟨hmanifest, hisFile⟩ := isFile_of_gives hc h
  obtain ⟨-, -, -, hfound⟩ := gives_ofPackage? h
  obtain ⟨rfl, hread⟩ := hfound p rfl
  obtain ⟨r, hr, -⟩ := map_eq_ok.1 hplace
  have hdirectory : t.LeadsToDirectory p.package.directory := by
    rw [InstalledPackage.manifestPath, Manifest.components_join_fileName] at hmanifest
    exact FileTree.leadsToDirectory_of_isFile (FileTree.reach_eq_ok.1 hr).1.2.1 hisFile hmanifest
  have hsound {relative text : String} (hfile : (relative, text) ∈ p.files) :=
    hread.exists_names ht hplace hfree hdirectory hmanifest hinner hfile
  have hcomplete {names : List FileName} (hmodules : nodeModules ∉ names)
      (hpublishes : Publishes t config p.package.directory p.manifest place names) :=
    hread.exists_mem_files ht hplace hfree hdirectory hmanifest hinner hmodules hpublishes
  refine ⟨rfl, fun relative text => ⟨fun hfile => ?_, ?_⟩, fun names hmodules hpublishes => ?_⟩
  · obtain ⟨names, ⟨-, hrelative⟩, hnames⟩ := hsound hfile
    exact ⟨names, hrelative, hnames⟩
  · rintro ⟨names, rfl, hmodules, hpublishes, bytes, hnode, hdecode⟩
    obtain ⟨text', hfile, bytes', hnode', hdecode'⟩ := hcomplete hmodules hpublishes
    cases hnode.symm.trans hnode'
    cases hdecode.symm.trans hdecode'
    exact hfile
  · obtain ⟨text, -, htext⟩ := hcomplete hmodules hpublishes
    exact ⟨text, htext⟩

def listingTree : FileTree where
  root := .directory [("p".toList, .directory [
    ("package.json".toList, .file (encodeUtf8 ("\x7b\"types\": \"./t.ts\", \"files\": " ++
      "[\"././a.d.ts\", \"!b.d.ts\", \"c.js\", \"node_modules/d.d.ts\"]\x7d").toList)),
    ("t.ts".toList, .file (encodeUtf8 "t".toList)),
    ("a.d.ts".toList, .file (encodeUtf8 "a".toList)),
    ("b.d.ts".toList, .file (encodeUtf8 "b".toList)),
    ("c.js".toList, .file (encodeUtf8 "c".toList)),
    ("node_modules".toList, .directory [("d.d.ts".toList, .file (encodeUtf8 "d".toList))])])]
  workingDirectory := []

theorem hasPublished_listingTree : listingTree.WellNamed ∧ ∃ p c,
    Gives (ofPackage? listingTree Config.default ⟨"p", Path.ofString "/p"⟩) .empty (some p) c ∧
    listingTree.locate true (Path.ofString "/p") = .ok ["p".toList] ∧
    listingTree.LinkFree ["p".toList] ∧ NamesInner p.manifest ∧
    p.files.map Prod.fst = ["a.d.ts", "package.json", "t.ts"] ∧
    p.HasPublished listingTree Config.default ["p".toList] := by
  have ht : listingTree.WellNamed := by decide +kernel
  obtain ⟨found, c, h, hview⟩ := exists_gives_of_view (s := .empty)
    (x := ofPackage? listingTree Config.default ⟨"p", Path.ofString "/p"⟩)
    (f := Option.map fun p => (p.files.map Prod.fst, p.manifest.typesField?, p.manifest.files?))
    (b := some (["a.d.ts", "package.json", "t.ts"], some "./t.ts",
      some ["././a.d.ts", "!b.d.ts", "c.js", "node_modules/d.d.ts"])) (by decide +kernel)
  obtain ⟨p, rfl, hp⟩ := Option.map_eq_some_iff.1 hview
  rw [Prod.mk.injEq, Prod.mk.injEq] at hp
  obtain ⟨hfiles, htypes, hlist⟩ := hp
  have hplace : listingTree.locate true (Path.ofString "/p") = .ok ["p".toList] :=
    eq_ok_of_toOption (by decide +kernel)
  have hfree : listingTree.LinkFree ["p".toList] := FileTree.linkFree_of_places rfl rfl
  have hinner : NamesInner p.manifest := by
    constructor
    · intro entry hentry
      obtain rfl := Option.some.inj (htypes.symm.trans hentry)
      decide +kernel
    · intro entries hentries
      obtain rfl := Option.some.inj (hlist.symm.trans hentries)
      decide +kernel
  exact ⟨ht, p, c, h, hplace, hfree, hinner, hfiles,
    (hasPublished_of_gives ht (ManifestCache.coherent_empty _) h hplace hfree hinner).2⟩

def farTree : FileTree where
  root := .directory [("p".toList, .directory [
    ("package.json".toList, .file (encodeUtf8 "\x7b\"files\": [\"declarations.d.ts\"]\x7d".toList)),
    ("declarations.d.ts".toList, .file [])])]
  workingDirectory := []

def farDirectory : Path := ⟨"/".toList ++ (List.replicate 2039 ['.', '/']).flatten ++ ['p']⟩

/-- A file that is listed is left out if its path is too long, although the package is
collected; and names that are no texts can stand for one file only. -/
theorem unpublished_farTree :
    (∃ p c, Gives (ofPackage? farTree Config.default ⟨"p", farDirectory⟩) .empty (some p) c ∧
      farTree.locate true farDirectory = .ok ["p".toList] ∧
      farTree.LinkFree ["p".toList] ∧ NamesInner p.manifest ∧
      p.manifest.files? = some ["declarations.d.ts"] ∧
      farTree.node? ["p".toList, "declarations.d.ts".toList] = some (.file []) ∧
      Config.default.isDeclaration "declarations.d.ts".toList = true ∧
      p.files.map Prod.fst = ["package.json"]) ∧
    ∃ relative, (OsPath.ofPath (Path.ofString "/p")).relativeTo (.brokenName 0xFF) = some relative ∧
      (OsPath.ofPath (Path.ofString "/p")).relativeTo (.brokenName 0xFE) = some relative := by
  refine ⟨?_, Text.replacement :: ".d.ts".toList, by decide +kernel, by decide +kernel⟩
  obtain ⟨found, c, h, hview⟩ := exists_gives_of_view (s := .empty)
    (x := ofPackage? farTree Config.default ⟨"p", farDirectory⟩)
    (f := Option.map fun p => (p.files.map Prod.fst, p.manifest.typesField?, p.manifest.files?))
    (b := some (["package.json"], none, some ["declarations.d.ts"])) (by decide +kernel)
  obtain ⟨p, rfl, hp⟩ := Option.map_eq_some_iff.1 hview
  rw [Prod.mk.injEq, Prod.mk.injEq] at hp
  obtain ⟨hfiles, htypes, hlist⟩ := hp
  have hinner : NamesInner p.manifest := by
    constructor
    · intro entry hentry
      cases htypes.symm.trans hentry
    · intro entries hentries
      obtain rfl := Option.some.inj (hlist.symm.trans hentries)
      decide +kernel
  exact ⟨p, c, h, eq_ok_of_toOption (by decide +kernel), FileTree.linkFree_of_places rfl rfl, hinner,
    hlist, rfl, by decide +kernel, hfiles⟩

end PackageTypes

end ImportAtlas
