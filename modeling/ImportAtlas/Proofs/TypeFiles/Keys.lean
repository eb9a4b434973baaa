import ImportAtlas.Proofs.Path.OsPath
import ImportAtlas.Proofs.TypeFiles.Containment

namespace ImportAtlas

open Outcome Text

namespace FileTree

variable {t : FileTree} {directory path path' : Path} {place place' : Place}

theorem locate_eq_of_relativeTo {relative : List Char} (hplace : t.locate true path = .ok place)
    (hplace' : t.locate true path' = .ok place')
    (h : directory.relativeTo path = some relative)
    (h' : directory.relativeTo path' = some relative) : place = place' := by
  obtain ⟨r, hr, rfl⟩ := map_eq_ok.1 hplace
  obtain ⟨s, hs, rfl⟩ := map_eq_ok.1 hplace'
  rw [reach_eq_of_components (Path.components_eq_of_relativeTo h h') hr hs]

end FileTree

namespace Declarations

variable {t : FileTree} {config : Config} {directory path : Path} {m : Manifest}

def Keyed (directory : Path) (sources : Sources) : Prop :=
  ∀ source ∈ sources.entries, directory.relativeTo source.2 = some source.1.toList

theorem Keyed.addSource {sources : Sources} (h : Keyed directory sources) (path : Path) :
    Keyed directory (addSource directory sources path) := by
  intro source hsource
  rcases mem_entries_addSource hsource with hsource | ⟨rfl, relative, hrelative, hkey, -⟩
  · exact h source hsource
  · rw [hkey, String.toList_ofList]
    exact hrelative

theorem Keyed.addSources {sources : Sources} (h : Keyed directory sources) (paths : List Path) :
    Keyed directory (paths.foldl (Declarations.addSource directory) sources) := by
  induction paths generalizing sources with
  | nil => exact h
  | cons path paths ih => exact ih (h.addSource path)

theorem keyed_sources
    (hmanifest : m.path.components = (directory.join Manifest.fileName).components) :
    Keyed directory (sources t config directory m) := by
  refine Keyed.addSources (fun source hsource => ?_) _
  rcases OrderedMap.mem_entries_insert hsource with rfl | hsource
  · rw [Manifest.components_join_fileName, ← Path.dropFront_eq_some] at hmanifest
    rw [Path.relativeTo, hmanifest]
    exact congrArg some String.toList_ofList.symm
  · cases hsource

/-- A path is inside a directory just if its components begin with those of the directory.
Its relative path, put below the directory, has its components just if what leads there
are texts, and then no other such path has the same one.  So no two files share a relative
path, and what is listed under that of a file that the manifest leads to is this file. -/
theorem relativeTo_characterized :
    (∀ base path : OsPath, (base.relativeTo path).isSome = true ↔
      base.components <+: path.components) ∧
    (∀ (base path : OsPath) relative, base.relativeTo path = some relative →
      ((base.join (.ofPath ⟨relative⟩)).components = path.components ↔ base.IsTextBelow path)) ∧
    (∀ base path path' : OsPath, base.components <+: path.components →
      base.components <+: path'.components → base.IsTextBelow path → base.IsTextBelow path' →
      (base.relativeTo path = base.relativeTo path' ↔ path.components = path'.components)) ∧
    (∀ directory path : Path,
      (OsPath.ofPath directory).relativeTo (.ofPath path) = directory.relativeTo path) ∧
    (∀ (t : FileTree) (directory path path' : Path) place place' relative relative',
      t.locate true path = .ok place → t.locate true path' = .ok place' → place ≠ place' →
      directory.relativeTo path = some relative → directory.relativeTo path' = some relative' →
      relative ≠ relative') ∧
    ∀ t config (directory : Path) (m : Manifest),
      m.path.components = (directory.join Manifest.fileName).components →
      ∀ path relative, Leads t config directory m path → t.isFile path = true →
        directory.relativeTo path = some relative →
        nodeModules ∉ splitOn Path.isSeparator relative →
        ∃ source ∈ (sources t config directory m).entries,
          source.1 = String.ofList relative ∧ source.2.components = path.components := by
  refine ⟨fun _ _ => OsPath.relativeTo_isSome_iff, fun _ _ _ => OsPath.components_join_iff, ?_,
    OsPath.relativeTo_ofPath, ?_, ?_⟩
  · intro base path path' hinside hinside' htext htext'
    obtain ⟨relative, hrelative⟩ :=
      Option.isSome_iff_exists.1 (OsPath.relativeTo_isSome_iff.2 hinside)
    refine ⟨fun h => ?_, OsPath.relativeTo_congr⟩
    exact OsPath.components_eq_of_relativeTo htext htext' hrelative (h ▸ hrelative)
  · rintro t directory path path' place place' relative _ hplace hplace' hne h h' rfl
    exact hne (FileTree.locate_eq_of_relativeTo hplace hplace' h h')
  · intro t config directory m hmanifest path relative hleads hfile hrelative hmodules
    obtain ⟨source, hsource, hkey⟩ :=
      List.mem_map.1 (mem_keys_of_leads hleads hfile hrelative hmodules)
    have hsame : directory.relativeTo source.2 = some relative := by
      rw [keyed_sources hmanifest source hsource, hkey, String.toList_ofList]
    exact ⟨source, hsource, hkey, Path.components_eq_of_relativeTo hsame hrelative⟩

/-- Names that are no texts share a relative path, which leads to none of them. -/
theorem relativeTo_brokenNames :
    let base := OsPath.ofPath (Path.ofString "/p")
    base.relativeTo (OsPath.brokenName 0xFF) = base.relativeTo (OsPath.brokenName 0xFE) ∧
    (OsPath.brokenName 0xFF).components ≠ (OsPath.brokenName 0xFE).components ∧
    base.relativeTo (OsPath.brokenName 0xFF) = some (Text.replacement :: ".d.ts".toList) ∧
    (base.join (.ofPath ⟨Text.replacement :: ".d.ts".toList⟩)).components ≠
      (OsPath.brokenName 0xFF).components := by
  decide +kernel

def outsideManifest : Manifest where
  path := Path.ofString "/node_modules/p/package.json"
  value := .object [("types", .string "../../secret.d.ts")]

theorem relativeTo_outsideTree :
    ((OsPath.ofPath (Path.ofString "")).join (.ofPath (Path.ofString "//a/b"))).components =
      (OsPath.ofPath (Path.ofString "/a//./b/")).components ∧
    ∃ source ∈ (sources CollectionState.outsideTree Config.default
        (Path.ofString "/node_modules/p") outsideManifest).entries,
      source.1 = "../../secret.d.ts" ∧
      source.2.components = (Path.ofString "/node_modules/p/../../secret.d.ts").components := by
  obtain ⟨-, hjoin, -, -, -, hlisted⟩ := relativeTo_characterized
  have hentry : outsideManifest.typesField? = some "../../secret.d.ts" := by decide +kernel
  refine ⟨(hjoin _ _ _ (by decide +kernel)).2 (OsPath.isTextBelow_ofPath _ _), ?_⟩
  exact hlisted CollectionState.outsideTree Config.default _ outsideManifest (by decide +kernel) _
    "../../secret.d.ts".toList (.entry hentry (by decide +kernel)) (by decide +kernel)
    (by decide +kernel) (by decide +kernel)

end Declarations

end ImportAtlas
