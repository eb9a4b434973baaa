import Mathlib.Data.Set.List
import ImportAtlas.Proofs.Glob.Root
import ImportAtlas.Proofs.Path.Relative
import ImportAtlas.Proofs.TypeFiles.Closure

namespace ImportAtlas

open Outcome Text

namespace Declarations

variable {t : FileTree} {config : Config} {directory path file : Path} {m : Manifest}
  {after rest : List FileName}

def EntryClimbs (directory : Path) (entry : String) : Prop :=
  let entry := stripHeads ['.', '/'] entry.toList
  if isPattern entry then Glob.Climbs directory.text entry
  else ['.', '.'] ∈ splitOn Path.isSeparator entry

/-- The manifest names files that may lie outside the directory. -/
def Climbs (directory : Path) (m : Manifest) : Prop :=
  (∃ entry, m.typesField? = some entry ∧ ['.', '.'] ∈ splitOn Path.isSeparator entry.toList) ∨
    ∃ entries, m.files? = some entries ∧ ∃ entry ∈ entries, EntryClimbs directory entry

/-- The path is one that the manifest leads to. -/
inductive Leads (t : FileTree) (config : Config) (directory : Path) (m : Manifest)
    (path : Path) : Prop
  | entry {entry : String} (h : m.typesField? = some entry)
      (hpath : path = directory.join (Path.ofString entry))
  | listed {entries : List String} {entry : String} (h : m.files? = some entries)
      (hentry : entry ∈ entries) (hpath : path ∈ listed t config directory entry)
  | below (h : m.files? = none) (hpath : path ∈ below t config directory)

theorem mem_entries_addSource {sources : Sources} {source : String × Path}
    (h : source ∈ (addSource directory sources path).entries) : source ∈ sources.entries ∨
      source.2 = path ∧ ∃ relative, directory.relativeTo path = some relative ∧
        source.1 = String.ofList relative ∧
        nodeModules ∉ splitOn Path.isSeparator relative := by
  unfold addSource at h
  split at h
  · exact .inl h
  · rename_i relative hrelative
    split at h
    · exact .inl h
    · rename_i hmodules
      unfold OrderedMap.insertNew at h
      split at h
      · exact .inl h
      · rcases OrderedMap.mem_entries_insert h with rfl | h
        · exact .inr ⟨rfl, relative, hrelative, rfl, by simpa using hmodules⟩
        · exact .inl h

theorem mem_entries_addSources {paths : List Path} {sources : Sources} {source : String × Path}
    (h : source ∈ (paths.foldl (addSource directory) sources).entries) :
    source ∈ sources.entries ∨ source.2 ∈ paths ∧
      ∃ relative, directory.relativeTo source.2 = some relative ∧
        source.1 = String.ofList relative ∧
        nodeModules ∉ splitOn Path.isSeparator relative := by
  induction paths generalizing sources with
  | nil => exact .inl h
  | cons path paths ih =>
    rcases ih h with h | ⟨hmem, h⟩
    · rcases mem_entries_addSource h with h | ⟨hpath, h⟩
      · exact .inl h
      · exact .inr ⟨hpath ▸ List.mem_cons_self, hpath ▸ h⟩
    · exact .inr ⟨List.mem_cons_of_mem path hmem, h⟩

theorem mem_entries_sources {source : String × Path}
    (h : source ∈ (sources t config directory m).entries) :
    source = (Manifest.fileName.toString, m.path) ∨ Leads t config directory m source.2 ∧
      ∃ relative, directory.relativeTo source.2 = some relative ∧
        source.1 = String.ofList relative ∧
        nodeModules ∉ splitOn Path.isSeparator relative := by
  rcases mem_entries_addSources h with h | ⟨hmem, h⟩
  · rcases OrderedMap.mem_entries_insert h with h | h
    · exact .inl h
    · cases h
  · refine .inr ⟨?_, h⟩
    rcases List.mem_append.1 hmem with hmem | hmem
    · obtain ⟨hentry, -⟩ := Option.filter_eq_some_iff.1 (Option.mem_toList.1 hmem)
      obtain ⟨entry, hfield, hpath⟩ := Option.map_eq_some_iff.1 hentry
      exact .entry hfield hpath.symm
    · split at hmem
      · rename_i entries hfiles
        obtain ⟨entry, hentry, hpath⟩ := List.mem_flatMap.1 hmem
        exact .listed hfiles hentry hpath
      · rename_i hfiles
        exact .below hfiles hmem

theorem exists_of_mem_below (ht : t.WellNamed) (h : file ∈ below t config path) :
    ∃ names, Path.steady (FileTree.pieces file.text) =
      Path.steady (FileTree.pieces path.text) ++ names ∧ ['.', '.'] ∉ names := by
  unfold below at h
  split at h
  · rename_i r hr
    obtain ⟨names, hsteady, hnames⟩ := FileTree.steady_of_mem_filesBelow ht
      (Reached.named_of_ofPath? ht hr) (List.mem_filter.1 h).1
    exact ⟨names, hsteady, fun hparent => (hnames _ hparent).1.ne_points rfl⟩
  · cases h

theorem exists_of_mem_ofPath (ht : t.WellNamed) (h : file ∈ ofPath t config path) :
    ∃ names, Path.steady (FileTree.pieces file.text) =
      Path.steady (FileTree.pieces path.text) ++ names ∧ ['.', '.'] ∉ names := by
  unfold ofPath at h
  split at h
  · exact exists_of_mem_below ht h
  · split at h
    · obtain rfl := List.mem_singleton.1 h
      exact ⟨[], (List.append_nil _).symm, nofun⟩
    · cases h

theorem parent_not_mem_of_join {q : Path} (hq : ['.', '.'] ∉ splitOn Path.isSeparator q.text)
    (hafter : ['.', '.'] ∉ after)
    (h : Path.steady (FileTree.pieces (directory.join q).text) ++ after =
      Path.steady (FileTree.pieces directory.text) ++ rest) : ['.', '.'] ∉ rest := by
  have hsteady : ['.', '.'] ∉ Path.steady (splitOn Path.isSeparator q.text) :=
    fun hmem => hq (List.mem_filter.1 hmem).1
  cases habsolute : q.isAbsolute with
  | true =>
    have hjoin : directory.join q = q := by simp [Path.join, habsolute]
    have hmem : ['.', '.'] ∉ Path.steady (FileTree.pieces directory.text) ++ rest := by
      rw [← h, hjoin, List.mem_append, not_or]
      exact ⟨hsteady, hafter⟩
    exact fun hrest => hmem (List.mem_append_right _ hrest)
  | false =>
    rw [FileTree.pieces, Path.steady_join directory habsolute, List.append_assoc,
      FileTree.pieces, List.append_cancel_left_eq] at h
    rw [← h, List.mem_append, not_or]
    exact ⟨hsteady, hafter⟩

theorem parent_not_mem_of_leads (ht : t.WellNamed) (h : Leads t config directory m path)
    (hclimbs : ¬ Climbs directory m)
    (hrest : Path.steady (FileTree.pieces path.text) =
      Path.steady (FileTree.pieces directory.text) ++ rest) : ['.', '.'] ∉ rest := by
  obtain ⟨htypes, hfiles⟩ := not_or.1 hclimbs
  cases h with
  | @entry entry hentry hpath =>
    subst hpath
    have hparent : ['.', '.'] ∉ splitOn Path.isSeparator (Path.ofString entry).text :=
      fun hparent => htypes ⟨entry, hentry, hparent⟩
    rw [← List.append_nil (Path.steady _)] at hrest
    exact parent_not_mem_of_join hparent List.not_mem_nil hrest
  | below _ hpath =>
    obtain ⟨names, hsteady, hnames⟩ := exists_of_mem_below ht hpath
    rw [hsteady, List.append_cancel_left_eq] at hrest
    exact hrest ▸ hnames
  | @listed entries entry hentries hentry hpath =>
    have hclimbs : ¬ EntryClimbs directory entry :=
      fun h => hfiles ⟨entries, hentries, entry, hentry, h⟩
    unfold listed at hpath
    unfold EntryClimbs at hclimbs
    dsimp only at hpath hclimbs
    generalize stripHeads ['.', '/'] entry.toList = entry at hpath hclimbs
    split at hpath
    · cases hpath
    split at hpath
    · rename_i hpattern
      rw [if_pos hpattern] at hclimbs
      obtain ⟨found, hfound, hpath⟩ := List.mem_flatMap.1 hpath
      obtain ⟨names, hsteady, hnames⟩ := exists_of_mem_ofPath ht hpath
      exact Glob.parent_not_mem_of_mem_paths ht hfound hclimbs hnames (hsteady ▸ hrest)
    · rename_i hpattern
      rw [if_neg hpattern] at hclimbs
      split at hpath
      · obtain ⟨names, hsteady, hnames⟩ := exists_of_mem_ofPath ht hpath
        exact parent_not_mem_of_join (q := ⟨entry⟩) hclimbs hnames (hsteady ▸ hrest)
      · cases hpath

end Declarations

/-- The source lies where its path relative to the directory says: some steps below the
directory, none of them into installed packages. -/
structure IsBelow (directory : Path) (source : String × Path) (steps : List Path.Component) :
    Prop where
  ne_nil : steps ≠ []
  relative : source.1 = String.ofList (Path.slashed steps)
  components : source.2.components = directory.components ++ steps
  steps : ∀ step ∈ steps, step = .parent ∨
    ∃ n, step = .name n ∧ Path.IsPlain n ∧ n ≠ nodeModules

variable {t : FileTree} {config : Config} {directory path : Path} {m : Manifest}
  {source : String × Path} {steps : List Path.Component}

theorem IsBelow.exists_names (h : IsBelow directory source steps) (hparent : .parent ∉ steps) :
    ∃ names : List FileName, steps = names.map .name ∧ nodeModules ∉ names := by
  have hrange : steps ∈ Set.range (List.map Path.Component.name) := by
    rw [Set.range_list_map]
    intro step hstep
    rcases h.steps step hstep with rfl | ⟨n, rfl, -⟩
    · exact absurd hstep hparent
    · exact ⟨n, rfl⟩
  obtain ⟨names, rfl⟩ := hrange
  refine ⟨names, rfl, fun hmodules => ?_⟩
  rcases h.steps _ (List.mem_map_of_mem hmodules) with hstep | ⟨n, hstep, -, hn⟩
  · cases hstep
  · exact hn (Path.Component.name.inj hstep).symm

theorem IsBelow.encloses (h : IsBelow directory source steps) (hparent : .parent ∉ steps) :
    directory.Encloses source.2 := by
  obtain ⟨names, rfl, -⟩ := h.exists_names hparent
  exact Path.Below.encloses h.components

theorem Declarations.exists_isBelow (ht : t.WellNamed) (hdirectory : t.LeadsToDirectory directory)
    (hne : directory.text ≠ [])
    (hmanifest : m.path.components = (directory.join Manifest.fileName).components)
    (hsource : source ∈ (sources t config directory m).entries) {text : String}
    (htext : t.readText source.2 = .ok text) :
    ∃ steps, IsBelow directory source steps ∧ (.parent ∈ steps → Climbs directory m) := by
  rcases mem_entries_sources hsource with rfl | ⟨hleads, relative, hrelative, hname, hmodules⟩
  · refine ⟨[.name Manifest.fileName.text], ⟨List.cons_ne_nil _ _, rfl, ?_, ?_⟩, by simp⟩
    · rw [hmanifest, Manifest.components_join_fileName]
    · intro step hstep
      obtain rfl := List.mem_singleton.1 hstep
      exact .inr ⟨_, rfl, Manifest.isPlain_fileName, by decide⟩
  · obtain ⟨steps, hsteps, rfl⟩ := Option.map_eq_some_iff.1 hrelative
    rw [Path.dropFront_eq_some] at hsteps
    have hshape := Path.steps_of_components hne hsteps
    have hnil : steps ≠ [] := by
      rintro rfl
      exact FileTree.components_ne_of_readText htext hdirectory hne (by simpa using hsteps)
    rw [Path.splitOn_slashed hnil hshape] at hmodules
    refine ⟨steps, ⟨hnil, hname, hsteps, fun step hstep => ?_⟩, fun hparent => ?_⟩
    · refine (hshape step hstep).imp_right fun ⟨n, hn, hplain⟩ => ⟨n, hn, hplain, ?_⟩
      rintro rfl
      exact hmodules (List.mem_map.2 ⟨step, hstep, by rw [hn]; rfl⟩)
    · by_contra hclimbs
      have hsteady : Path.steady (FileTree.pieces source.2.text) =
          Path.steady (FileTree.pieces directory.text) ++
            steps.filterMap Path.Component.piece? := by
        rw [FileTree.pieces, Path.steady_eq_filterMap, hsteps, List.filterMap_append,
          ← Path.steady_eq_filterMap, FileTree.pieces]
      exact parent_not_mem_of_leads ht hleads hclimbs hsteady
        (List.mem_filterMap.2 ⟨.parent, hparent, rfl⟩)

namespace Declarations

theorem mem_keys_addSource {sources : Sources} {relative : List Char}
    (hrelative : directory.relativeTo path = some relative)
    (hmodules : nodeModules ∉ splitOn Path.isSeparator relative) :
    String.ofList relative ∈ (addSource directory sources path).keys := by
  simp only [addSource, hrelative, List.contains_eq_mem, hmodules, decide_false,
    Bool.false_eq_true, if_false, OrderedMap.insertNew]
  split
  · rename_i hsome
    exact OrderedMap.mem_keys_iff.2 (Option.isSome_iff_exists.1 hsome)
  · exact OrderedMap.mem_keys_insert.2 (.inl rfl)

theorem mem_keys_addSources {paths : List Path} {sources : Sources} {relative : List Char}
    (hpath : path ∈ paths) (hrelative : directory.relativeTo path = some relative)
    (hmodules : nodeModules ∉ splitOn Path.isSeparator relative) :
    String.ofList relative ∈ (paths.foldl (addSource directory) sources).keys := by
  obtain ⟨front, back, rfl⟩ := List.append_of_mem hpath
  rw [List.foldl_append, List.foldl_cons]
  obtain ⟨kept, hkept⟩ := OrderedMap.mem_keys_iff.1 (mem_keys_addSource hrelative hmodules)
  exact OrderedMap.mem_keys_of_get? (get?_addSources hkept back)

theorem mem_keys_of_leads (h : Leads t config directory m path) (hfile : t.isFile path = true)
    {relative : List Char} (hrelative : directory.relativeTo path = some relative)
    (hmodules : nodeModules ∉ splitOn Path.isSeparator relative) :
    String.ofList relative ∈ (sources t config directory m).keys := by
  rw [sources]
  refine mem_keys_addSources ?_ hrelative hmodules
  cases h with
  | @entry entry hentry hpath =>
    have hnamed : entryPath? directory m = some path := by
      rw [entryPath?, hentry, hpath]
      rfl
    have hkept := Option.filter_eq_some_iff.2 ⟨hnamed, hfile⟩
    exact List.mem_append_left _ (Option.mem_toList.2 hkept)
  | listed hfiles hentry hpath =>
    rw [hfiles]
    exact List.mem_append_right _ (List.mem_flatMap.2 ⟨_, hentry, hpath⟩)
  | below hfiles hpath =>
    rw [hfiles]
    exact List.mem_append_right _ hpath

theorem mem_keys_sources {entry : String} (hne : directory.text ≠ [])
    (hentry : m.typesField? = some entry) (hrelative : (Path.ofString entry).isAbsolute = false)
    (hmodules : nodeModules ∉ splitOn Path.isSeparator entry.toList)
    (hfile : t.isFile (directory.join (Path.ofString entry))) :
    String.ofList (Path.slashed (Path.ofString entry).steps) ∈
      (sources t config directory m).keys :=
  mem_keys_of_leads (.entry hentry rfl) hfile (Path.relativeTo_join hne hrelative)
    (Path.not_mem_splitOn_slashed (by decide) hmodules)

end Declarations

namespace CollectionState

variable {root : InstalledPackage} {c₀ c : ManifestCache} {s : CollectionState}

def outsideTree : FileTree where
  root := .directory [
    ("node_modules".toList, .directory [("p".toList, .directory [("package.json".toList,
      .file (encodeUtf8 "\x7b\"files\": [], \"types\": \"../../secret.d.ts\"\x7d".toList))])]),
    ("secret.d.ts".toList, .file (encodeUtf8 "export \x7b\x7d".toList))]
  workingDirectory := []

end CollectionState

end ImportAtlas
