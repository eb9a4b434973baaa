import ImportAtlas.Proofs.FileTree.Directory
import ImportAtlas.Proofs.Resolution.Coherence
import ImportAtlas.TypeFiles.Package

namespace ImportAtlas

open Outcome

namespace Manifest

variable {t : FileTree} {c c' : ManifestCache}

theorem isPlain_fileName : Path.IsPlain fileName.text := by
  constructor <;> decide

theorem components_join_fileName (directory : Path) :
    (directory.join fileName).components = directory.components ++ [.name fileName.text] := by
  rw [Path.components_join directory (by decide) (.inr (by decide))]
  exact congrArg _ isPlain_fileName.steps_eq

theorem find?_of_gives_inDirectory {directory : Path} {o : Option Manifest}
    (h : Gives (inDirectory t directory) c o c') :
    c'.find? (directory.join fileName) = some o := by
  change fetch t _ c = _ at h
  unfold fetch at h
  split at h
  · rename_i hknown
    cases h
    exact hknown
  · split at h
    · split at h
      · cases h
        exact ManifestCache.find?_insert_self ..
      · cases h
    · cases h
      exact ManifestCache.find?_insert_self ..

theorem isFile_of_look {path : Path} {m : Manifest} (h : look t path = .ok (some m)) :
    t.isFile path = true := by
  unfold look at h
  split at h
  · assumption
  · cases h

theorem components_directory {directory : Path} {m : Manifest}
    (h : m.path.components = (directory.join fileName).components) :
    m.directory.components = directory.components := by
  rw [components_join_fileName] at h
  obtain ⟨parent, hparent, hcomponents⟩ := Path.exists_parent h
  rw [Manifest.directory, hparent]
  exact hcomponents

theorem find?_of_gives_firstOf {directories : List Path} {m : Manifest} (hc : c.Coherent t)
    (h : Gives (firstOf t directories) c (some m) c') :
    ∃ directory : Path, m.path.components = (directory.join fileName).components ∧
      c'.find? (directory.join fileName) = some (some m) := by
  induction directories generalizing c with
  | nil =>
    obtain ⟨hnone, -⟩ := gives_pure.1 h
    cases hnone
  | cons directory rest ih =>
    obtain ⟨o, c₁, hdirectory, h⟩ := gives_bind.1 h
    have hc₁ : c₁.Coherent t :=
      (Lookup.Kept.inDirectory directory).coherent_of_gives hc hdirectory
    cases o with
    | none => exact ih hc₁ h
    | some found =>
      obtain ⟨hm, rfl⟩ := gives_pure.1 h
      cases hm
      have hknown := find?_of_gives_inDirectory hdirectory
      obtain ⟨key, hkey, hmem⟩ := ManifestCache.exists_of_find? hknown
      have hpath := path_of_look (hc₁ _ hmem).2
      exact ⟨directory, hpath ▸ hkey, hknown⟩

end Manifest

namespace InstalledPackage

variable {t : FileTree} {c c' : ManifestCache} {package : InstalledPackage}

def manifestPath (package : InstalledPackage) : Path := package.directory.join Manifest.fileName

theorem find?_eq_some {name : String} {start : Path} (h : find? t name start = some package) :
    package.name = name ∧ package.directory ∈ packageDirectories t name start ∧
      t.isFile package.manifestPath = true := by
  obtain ⟨directory, hfind, rfl⟩ := Option.map_eq_some_iff.1 h
  exact ⟨rfl, List.mem_of_find?_eq_some hfind,
    List.find?_some (p := fun d : Path => t.isFile (d.join Manifest.fileName)) hfind⟩

def IsInstalled (t : FileTree) (c : ManifestCache) (package : InstalledPackage) : Prop :=
  t.isFile package.manifestPath = true ∨ ∃ m, c.find? package.manifestPath = some (some m)

theorem IsInstalled.mono (h : package.IsInstalled t c) (hgrows : c.Extends c') :
    package.IsInstalled t c' :=
  h.imp_right fun ⟨m, hm⟩ => ⟨m, hgrows _ _ hm⟩

theorem IsInstalled.exists_isFile (h : package.IsInstalled t c) (hc : c.Coherent t) :
    ∃ file : Path, file.components = package.manifestPath.components ∧ t.isFile file = true := by
  rcases h with hfile | ⟨m, hm⟩
  · exact ⟨_, rfl, hfile⟩
  · obtain ⟨key, hkey, hmem⟩ := ManifestCache.exists_of_find? hm
    exact ⟨key, hkey, Manifest.isFile_of_look (hc _ hmem).2⟩

theorem IsInstalled.leadsToDirectory (h : package.IsInstalled t c) (hc : c.Coherent t)
    (hne : package.directory.text ≠ []) : t.LeadsToDirectory package.directory := by
  obtain ⟨file, hcomponents, hfile⟩ := h.exists_isFile hc
  rw [manifestPath, Manifest.components_join_fileName] at hcomponents
  exact FileTree.leadsToDirectory_of_isFile hne hfile hcomponents

theorem IsInstalled.mem_directoryPaths {directory : Path} (h : package.IsInstalled t c)
    (hc : c.Coherent t) (hcanonical : t.canonicalize package.directory = .ok directory) :
    directory ∈ t.directoryPaths := by
  obtain ⟨⟨-, hne⟩, -⟩ := FileTree.canonicalize_eq_ok.1 hcanonical
  exact (h.leadsToDirectory hc hne).mem_directoryPaths hcanonical

/-- The manifest of the package was missed, under a spelling of its path that is
too long to be looked up. -/
def IsHidden (c : ManifestCache) (package : InstalledPackage) : Prop :=
  ∃ path : Path, (path, none) ∈ c.entries ∧ path.components = package.manifestPath.components ∧
    FileTree.pathLimit < Text.byteLength path.text

theorem IsInstalled.isHidden_of_gives (h : package.IsInstalled t c) (hc : c.Coherent t)
    (hnone : Gives (Manifest.inDirectory t package.directory) c none c') :
    package.IsHidden c ∧ c' = c := by
  change Manifest.fetch t package.manifestPath c = _ at hnone
  unfold Manifest.fetch at hnone
  split at hnone
  · rename_i known hknown
    cases hnone
    obtain ⟨key, hkey, hmem⟩ := ManifestCache.exists_of_find? hknown
    obtain ⟨⟨directory, rfl⟩, hlook⟩ := hc _ hmem
    refine ⟨⟨_, hmem, hkey, Nat.lt_of_not_le fun hshort => ?_⟩, rfl⟩
    -- otherwise the file would have been found there
    obtain ⟨file, hcomponents, hfile⟩ := h.exists_isFile hc
    obtain ⟨front, hfront⟩ := Path.pieces_join_fileName directory
    have hfound := FileTree.isFile_of_components (hcomponents.trans hkey.symm) hfront (by decide)
      hshort hfile
    simp only [Manifest.look, hfound, if_true] at hlook
    obtain ⟨_, _, hsome⟩ := map_eq_ok.1 hlook
    cases hsome
  · rename_i hunknown
    rcases h with hfile | ⟨m, hm⟩
    · rw [if_pos hfile] at hnone
      split at hnone <;> cases hnone
    · rw [hunknown] at hm
      cases hm

section Locate

variable {specifier : String} {root : Path}

def orRefuse (specifier : String) (root : Path) (reason : Unresolved)
    (found : Option InstalledPackage) : Lookup InstalledPackage :=
  match found with
  | some package => pure package
  | none => throw (.resolution specifier root (.single reason))

theorem gives_orRefuse {reason : Unresolved} {found : Option InstalledPackage}
    (h : Gives (orRefuse specifier root reason found) c package c') :
    found = some package ∧ c' = c := by
  cases found with
  | none => cases h
  | some found =>
    obtain ⟨rfl, rfl⟩ := gives_pure.1 h
    exact ⟨rfl, rfl⟩

theorem gives_locate (h : Gives (locate t specifier root) c package c') :
    (c' = c ∧ ∃ name, find? t name root = some package) ∨
      ∃ start m, Gives (Manifest.nearest t start) c (some m) c' ∧ ofManifest? m = some package := by
  have henclosing {start : Path}
      (h : Gives (do
        let manifest ← Manifest.nearest t start
        orRefuse specifier root .packageNotFound (manifest.bind ofManifest?)) c package c') :
      ∃ start m, Gives (Manifest.nearest t start) c (some m) c' ∧ ofManifest? m = some package := by
    obtain ⟨manifest, c₁, hnearest, h⟩ := gives_bind.1 h
    obtain ⟨hfound, rfl⟩ := gives_orRefuse h
    obtain ⟨m, rfl, hm⟩ := Option.bind_eq_some_iff.1 hfound
    exact ⟨start, m, hnearest, hm⟩
  unfold locate at h
  dsimp only at h
  split at h
  · split at h
    · cases h
    · obtain ⟨hfound, hc⟩ := gives_orRefuse h
      exact .inl ⟨hc, _, hfound⟩
  · exact .inr (henclosing h)
  · exact .inr (henclosing h)
  · cases h
  · cases h

theorem gives_locate_of_slash {m : Manifest} {path : List Char}
    (hnearest : Gives (Manifest.nearest t ⟨'/' :: path⟩) c (some m) c')
    (hm : ofManifest? m = some package) :
    Gives (locate t (String.ofList ('/' :: path)) root) c package c' := by
  have hkind : SpecifierKind.of (String.ofList ('/' :: path)) = .absolute := by
    simp [SpecifierKind.of, SpecifierKind.isAbsolutePath]
  have hjoin : root.join (Path.ofString (String.ofList ('/' :: path))) = ⟨'/' :: path⟩ := by
    simp [Path.join, Path.ofString, Path.isAbsolute]
  unfold locate
  simp only [hkind, hjoin]
  refine gives_bind.2 ⟨some m, c', hnearest, ?_⟩
  rw [Option.bind_some, hm]
  exact gives_pure.2 ⟨rfl, rfl⟩

theorem asks_locate {P : AtlasError → Prop}
    (hresolution : ∀ reason, P (.resolution specifier root (.single reason))) :
    Asks t P (locate t specifier root) := by
  have hrefuse (reason : Unresolved) (found : Option InstalledPackage) :
      Asks t P (orRefuse specifier root reason found) := by
    cases found with
    | none => exact .throw (hresolution reason)
    | some package => exact .pure package
  have henclosing := (Manifest.asks_firstOf (t := t) (P := P)
    (root.join (Path.ofString specifier)).ancestors).bind fun manifest =>
      hrefuse .packageNotFound (manifest.bind ofManifest?)
  unfold locate
  dsimp only
  split
  · split
    · exact .throw (hresolution _)
    · exact hrefuse _ _
  · exact henclosing
  · exact henclosing
  · exact .throw (hresolution _)
  · exact .throw (hresolution _)

theorem isInstalled_of_locate (hc : c.Coherent t)
    (h : Gives (locate t specifier root) c package c') :
    c'.Coherent t ∧ package.IsInstalled t c' ∧
      (c = .empty → ∀ d, ¬ Gives (Manifest.inDirectory t package.directory) c' none d) := by
  have hasks : Asks t (fun _ => True) (locate t specifier root) := asks_locate fun _ => .intro
  have hkept : c'.Coherent t := hasks.kept.coherent_of_gives hc h
  rcases gives_locate h with ⟨rfl, name, hfind⟩ | ⟨start, m, hnearest, hm⟩
  · have hinstalled : package.IsInstalled t c' := .inl (find?_eq_some hfind).2.2
    refine ⟨hkept, hinstalled, ?_⟩
    rintro rfl d hnone
    obtain ⟨⟨path, hmem, -⟩, -⟩ := hinstalled.isHidden_of_gives hc hnone
    cases hmem
  · obtain ⟨directory, hpath, hknown⟩ := Manifest.find?_of_gives_firstOf hc hnearest
    obtain ⟨name, -, rfl⟩ := Option.map_eq_some_iff.1 hm
    have hfind : c'.find? (m.directory.join Manifest.fileName) = some (some m) := by
      rw [← hknown, ManifestCache.find?, ManifestCache.find?, Manifest.components_join_fileName,
        Manifest.components_directory hpath, ← Manifest.components_join_fileName]
    refine ⟨hkept, .inr ⟨m, hfind⟩, fun _ d hnone => ?_⟩
    obtain ⟨hsome, -⟩ := (Manifest.gives_inDirectory_of_find? hfind).unique hnone
    cases hsome

end Locate

end InstalledPackage

end ImportAtlas
