import ImportAtlas.Proofs.FileTree.Location
import ImportAtlas.Proofs.Outcome
import ImportAtlas.Resolution.Basic

namespace ImportAtlas

open Outcome

def StageOutcome.IsFound (t : FileTree) : StageOutcome → Prop
  | .resolved path => t.isFile path = true
  | .unresolved _ => True

theorem StageOutcome.isFound_ofOption {t : FileTree} {o : Option Path}
    (h : ∀ path ∈ o, t.isFile path = true) (reason : Unresolved) :
    (StageOutcome.ofOption reason o).IsFound t := by
  cases o with
  | none => exact .intro
  | some path => exact h path rfl

namespace Resolver

variable {t : FileTree} {config : Config}

theorem isFile_of_mem_fileOrExtended? {path : Path} :
    ∀ found ∈ fileOrExtended? t config path, t.isFile found = true := by
  intro found h
  unfold fileOrExtended? at h
  split at h
  · rename_i hf
    cases h
    exact hf
  · obtain ⟨name, _, h⟩ := Option.bind_eq_some_iff.1 h
    exact List.find?_some h

theorem isFile_of_mem_index? {directory : Path} :
    ∀ found ∈ index? t config directory, t.isFile found = true := by
  intro found h
  exact List.find?_some h

theorem ensures_directoryMain? (directory : Path) :
    Ensures (directoryMain? t config directory) fun o => ∀ found ∈ o, t.isFile found = true := by
  unfold directoryMain?
  split
  · exact .pure (by simp)
  · refine .after fun manifest => ?_
    dsimp only
    refine .pure fun found h => ?_
    rcases Option.or_eq_some_iff.1 h with h | ⟨_, h⟩
    · obtain ⟨main, _, h⟩ := Option.bind_eq_some_iff.1 h
      rcases Option.or_eq_some_iff.1 h with h | ⟨_, h⟩
      · exact isFile_of_mem_fileOrExtended? found h
      · exact isFile_of_mem_index? found h
    · exact isFile_of_mem_index? found h

theorem ensures_ofPath (stage : Stage) (path : Path) :
    Ensures (ofPath t config stage path) (·.IsFound t) := by
  cases stage with
  | esm =>
    simp only [ofPath]
    split
    · rename_i hf
      exact .pure hf
    · exact .pure .intro
  | commonJs =>
    simp only [ofPath]
    split
    · rename_i hf
      exact .pure (isFile_of_mem_fileOrExtended? _ hf)
    · exact (ensures_directoryMain? path).bind fun o ho =>
        .pure (StageOutcome.isFound_ofOption ho .notFound)

theorem isFile_of_mem_plainMain? {package : Path} {manifest : Option Manifest} :
    ∀ found ∈ plainMain? t package manifest, t.isFile found = true := by
  intro found h
  rcases Option.or_eq_some_iff.1 h with h | ⟨_, h⟩
  · obtain ⟨m, _, h⟩ := Option.bind_eq_some_iff.1 h
    rcases Option.or_eq_some_iff.1 h with h | ⟨_, h⟩
    · exact (Option.filter_eq_some_iff.1 h).2
    · obtain ⟨main, _, h⟩ := Option.bind_eq_some_iff.1 h
      exact List.find?_some h
  · exact (Option.filter_eq_some_iff.1 h).2

theorem isFound_ofExports (stage : Stage) (package : Path) (subpath : Option String)
    (field : Json) : (ofExports t config stage package subpath field).IsFound t := by
  unfold ofExports
  split
  · exact .intro
  · dsimp only
    split
    · rename_i hf
      exact hf
    · exact .intro

theorem ensures_inPackage (stage : Stage) (subpath : Option String) (package : Path) :
    Ensures (inPackage t config stage subpath package) (·.IsFound t) := by
  refine .after fun manifest => ?_
  split
  · exact .pure (isFound_ofExports stage package subpath _)
  · split
    · exact ensures_ofPath stage _
    · split
      · exact .pure (StageOutcome.isFound_ofOption isFile_of_mem_plainMain? _)
      · exact (ensures_directoryMain? package).bind fun o ho =>
          .pure (StageOutcome.isFound_ofOption ho .packageEntryNotFound)

theorem ensures_inPackages (stage : Stage) (subpath : Option String) {last : StageOutcome}
    (packages : List Path) (hlast : last.IsFound t) :
    Ensures (inPackages t config stage subpath last packages) (·.IsFound t) := by
  induction packages generalizing last with
  | nil => exact .pure hlast
  | cons package rest ih =>
    refine (ensures_inPackage stage subpath package).bind fun outcome ho => ?_
    split
    · exact .pure ho
    · exact ih ho

theorem ensures_ofBare (stage : Stage) (specifier : String) (base : Path) :
    Ensures (ofBare t config stage specifier base) (·.IsFound t) := by
  unfold ofBare
  split
  · exact .pure .intro
  · exact ensures_inPackages stage _ _ .intro

theorem ensures_ofPackageImport (stage : Stage) (specifier : String) (base : Path) :
    Ensures (ofPackageImport t config stage specifier base) (·.IsFound t) := by
  refine .after fun manifest => ?_
  split
  · exact .pure .intro
  · split
    · exact .pure .intro
    · split
      · exact ensures_ofPath stage _
      · exact ensures_ofBare stage _ _

theorem ensures_ofUrl (stage : Stage) (specifier : String) :
    Ensures (ofUrl t config stage specifier) (·.IsFound t) := by
  unfold ofUrl
  split
  · split
    · exact .pure .intro
    · split
      · exact ensures_ofPath stage _
      · exact .pure .intro
  · exact .pure .intro

theorem ensures_stage (stage : Stage) (specifier : String) (base : Path) :
    Ensures (Resolver.stage t config stage specifier base) (·.IsFound t) := by
  unfold Resolver.stage
  split
  · exact .pure .intro
  · split
    · exact ensures_ofPackageImport stage specifier base
    · exact ensures_ofPath stage _
    · exact ensures_ofPath stage _
    · exact ensures_ofUrl stage specifier
    · exact ensures_ofBare stage specifier base

end Resolver

theorem ModuleLocation.mem_filePaths_of_ofPath {t : FileTree} {path : Path} {l : ModuleLocation}
    (hf : t.isFile path = true) (h : ModuleLocation.ofPath t path = .ok l) :
    l.path ∈ t.filePaths := by
  unfold ModuleLocation.ofPath at h
  split at h
  · rename_i hc
    cases h
    exact FileTree.mem_filePaths_of_canonicalize hf hc
  · cases h

theorem Resolver.ensures_resolve {t : FileTree} {config : Config} (specifier : String)
    (base : Path) :
    Ensures (Resolver.resolve t config specifier base) (·.location.path ∈ t.filePaths) := by
  refine (ensures_stage .esm specifier base).bind fun esm hesm => ?_
  cases esm with
  | resolved path =>
    exact (Ensures.liftM fun _ h => ModuleLocation.mem_filePaths_of_ofPath hesm h).bind
      fun _ hl => .pure hl
  | unresolved reason =>
    refine (ensures_stage .commonJs specifier base).bind fun commonJs hcommonJs => ?_
    cases commonJs with
    | resolved path =>
      exact (Ensures.liftM fun _ h => ModuleLocation.mem_filePaths_of_ofPath hcommonJs h).bind
        fun _ hl => .pure hl
    | unresolved => exact .throw

end ImportAtlas
