import ImportAtlas.Proofs.Text.ByteOrder
import ImportAtlas.Proofs.TypeFiles.CollectionState

namespace ImportAtlas

open Outcome Text

namespace PackageTypes

section Recursion

variable (t : FileTree) (config : Config)

/-- Collect packages one after another.  What a package leads to is collected
before the next one: the package that declares its types, then its dependencies
in their order.  What is fresh after that is shared with all that follow. -/
def explore (fresh : List Path) : List InstalledPackage →
    Lookup (List PackageTypes × { left : List Path // left.length ≤ fresh.length })
  | [] => return ([], ⟨fresh, Nat.le_refl _⟩)
  | package :: rest =>
    match t.canonicalize package.directory with
    | .error fault => throw (.load package.directory fault)
    | .ok directory =>
      if hfresh : directory ∈ fresh then do
        let found ← ofPackage? t config package
        let (below, remaining) ← explore (Fresh.without directory fresh) (links found)
        have hremaining := Nat.lt_of_le_of_lt remaining.2 (Fresh.length_without_lt hfresh)
        let (others, left) ← explore remaining.1 rest
        return (found.toList ++ below ++ others,
          ⟨left.1, Nat.le_trans left.2 (Nat.le_of_lt hremaining)⟩)
      else explore fresh rest
termination_by packages => (fresh.length, packages.length)
decreasing_by
  · exact Prod.Lex.left _ _ (Fresh.length_without_lt hfresh)
  · exact Prod.Lex.left _ _ hremaining
  · exact Prod.Lex.right _ (Nat.lt_succ_self _)

/-- The packages that a specifier leads to, by recursion. -/
def depthFirst (specifier : String) (root : Path) : Lookup (List PackageTypes) := do
  let package ← InstalledPackage.locate t specifier root
  let (ps, _) ← explore t config t.directoryPaths [package]
  return ps

end Recursion

variable {t : FileTree} {config : Config}

theorem explore_cons_of_error {fresh : List Path} {package : InstalledPackage}
    {rest : List InstalledPackage} {fault : FileFault}
    (h : t.canonicalize package.directory = .error fault) :
    explore t config fresh (package :: rest) = throw (.load package.directory fault) := by
  rw [explore]
  split
  · rename_i h'
    rw [h] at h'
    cases h'
    rfl
  · rename_i h'
    rw [h] at h'
    cases h'

theorem explore_cons_of_ok {fresh : List Path} {package : InstalledPackage}
    {rest : List InstalledPackage} {directory : Path}
    (h : t.canonicalize package.directory = .ok directory) :
    explore t config fresh (package :: rest) =
      if hfresh : directory ∈ fresh then do
        let found ← ofPackage? t config package
        let (below, remaining) ← explore t config (Fresh.without directory fresh) (links found)
        have hremaining := Nat.lt_of_le_of_lt remaining.2 (Fresh.length_without_lt hfresh)
        let (others, left) ← explore t config remaining.1 rest
        return (found.toList ++ below ++ others,
          ⟨left.1, Nat.le_trans left.2 (Nat.le_of_lt hremaining)⟩)
      else explore t config fresh rest := by
  rw [explore]
  split
  · rename_i h'
    rw [h] at h'
    cases h'
  · rename_i h'
    rw [h] at h'
    cases h'
    rfl

theorem collect_append (fresh : List Path) (packages stack : List InstalledPackage) :
    collect t config fresh (packages ++ stack) = do
      let (ps, left) ← explore t config fresh packages
      let others ← collect t config left.1 stack
      return ps ++ others := by
  induction fresh, packages using explore.induct (t := t) generalizing stack with
  | case1 fresh => simp [explore]
  | case2 fresh package rest fault h =>
    rw [List.cons_append, collect_cons_of_error h, explore_cons_of_error h]
    rfl
  | case3 fresh package rest directory h hfresh ihlinks ihrest =>
    rw [List.cons_append, collect_cons_of_mem h hfresh, explore_cons_of_ok h, dif_pos hfresh]
    simp only [bind_assoc, pure_bind]
    refine bind_congr fun found => ?_
    rw [ihlinks found (rest ++ stack)]
    simp only [bind_assoc, pure_bind]
    refine bind_congr fun (below, remaining) => ?_
    rw [ihrest remaining stack]
    simp only [bind_assoc, pure_bind, List.append_assoc]
  | case4 fresh package rest directory h hfresh ih =>
    rw [List.cons_append, collect_cons_of_not_mem h hfresh, explore_cons_of_ok h, dif_neg hfresh]
    exact ih stack

theorem collect_singleton (fresh : List Path) (package : InstalledPackage) :
    collect t config fresh [package] = do
      let (ps, _) ← explore t config fresh [package]
      return ps := by
  rw [← List.append_nil [package], collect_append]
  simp only [List.append_nil, collect_nil, pure_bind]

end PackageTypes

namespace TypeFiles

variable {t : FileTree} {config : Config} {specifier : String} {root : Path} {fs : TypeFiles}
  {c c' : ManifestCache}

theorem find_eq_depthFirst (t : FileTree) (config : Config) (specifier : String) (root : Path) :
    find t config specifier root = do
      let ps ← PackageTypes.depthFirst t config specifier root
      return ofPackages config.virtualRoot ps := by
  simp only [find, PackageTypes.depthFirst, PackageTypes.collect_singleton, bind_assoc, pure_bind]

/-- What is kept of the files of some packages, if the first text of a virtual
path is. -/
structure KeepsFirst (root : String) (ps : List PackageTypes) (fs : TypeFiles) : Prop where
  texts : ∀ key, fs.files.get? key =
    ((ps.flatMap PackageTypes.packageFiles).find? (·.key root = key)).map PackageFile.text
  kept : ∀ front back, ps = front ++ back → ∀ key text,
    (ofPackages root front).files.get? key = some text → fs.files.get? key = some text
  duplicates : Diagnostic.withCode Diagnostic.duplicateTypePath fs.diagnostics =
    ((ps.flatMap PackageTypes.packageFiles).filter fun f =>
      fs.files.get? (f.key root) ≠ some f.text).map (·.ignored root)

/-- If the collection succeeds, it has read the packages of the recursion, each
with its files in the order of the bytes of their relative paths.  The first file
of a virtual path is kept, whatever packages follow, and the files with another
text than the one that is kept are noted, each once. -/
theorem keepsFirst_of_find (h : Gives (find t config specifier root) c fs c') :
    ∃ ps, Gives (PackageTypes.depthFirst t config specifier root) c ps c' ∧
      (∀ p ∈ ps, p.IsRead t config ∧
        p.files.Pairwise fun f g => encodeUtf8 f.1.toList < encodeUtf8 g.1.toList) ∧
      KeepsFirst config.virtualRoot ps fs := by
  rw [find_eq_depthFirst] at h
  obtain ⟨ps, c₁, hps, h⟩ := gives_bind.1 h
  obtain ⟨rfl, rfl⟩ := gives_pure.1 h
  have hread : ∀ p ∈ ps, p.IsRead t config := by
    have hensures : Ensures (PackageTypes.depthFirst t config specifier root)
        fun ps => ∀ p ∈ ps, p.IsRead t config := by
      simp only [PackageTypes.depthFirst, ← PackageTypes.collect_singleton]
      exact .after fun package => PackageTypes.ensures_collect _ [package]
    exact hensures c ps c₁ hps
  refine ⟨ps, hps, fun p hp => ⟨hread p hp, ?_⟩, get?_ofPackages ps, ?_, duplicates_ofPackages ps⟩
  · exact (hread p hp).sorted.imp encodeUtf8_lt_iff.2
  · rintro front back rfl key text htext
    exact get?_ofPackages_append htext back

def copiesTree : FileTree where
  root := .directory [("node_modules".toList, .directory [
    ("a".toList, .directory [("package.json".toList, .file (encodeUtf8
      "\x7b\"files\": [], \"dependencies\": \x7b\"c\": \"1\", \"b\": \"1\"\x7d\x7d".toList))]),
    ("b".toList, .directory [
      ("package.json".toList, .file (encodeUtf8 "\x7b\"files\": [\"b.d.ts\"]\x7d".toList)),
      ("b.d.ts".toList, .file (encodeUtf8 "outer".toList))]),
    ("c".toList, .directory [
      ("package.json".toList, .file (encodeUtf8
        "\x7b\"files\": [], \"dependencies\": \x7b\"b\": \"2\"\x7d\x7d".toList)),
      ("node_modules".toList, .directory [("b".toList, .directory [
        ("package.json".toList, .file (encodeUtf8 "\x7b\"files\": [\"b.d.ts\"]\x7d".toList)),
        ("b.d.ts".toList, .file (encodeUtf8 "inner".toList))])])])])]
  workingDirectory := []

theorem keepsFirst_copiesTree : ∃ fs c',
    Gives (find copiesTree Config.default "a" (Path.ofString "/")) .empty fs c' ∧
    (∃ ps, Gives (PackageTypes.depthFirst copiesTree Config.default "a" (Path.ofString "/"))
        .empty ps c' ∧
      (∀ p ∈ ps, p.IsRead copiesTree Config.default ∧
        p.files.Pairwise fun f g => encodeUtf8 f.1.toList < encodeUtf8 g.1.toList) ∧
      KeepsFirst "file:///node_modules/" ps fs) ∧
    fs.files.get? "file:///node_modules/b/b.d.ts" = some "inner" ∧
    fs.diagnostics = [.ofTakenTypePath "file:///node_modules/b/b.d.ts" "b"
      (Path.ofString "/node_modules/b/b.d.ts")] := by
  obtain ⟨s, c', h, hview⟩ := exists_gives_of_view (s := .empty)
    (x := do
      let package ← InstalledPackage.locate copiesTree "a" (Path.ofString "/")
      (CollectionState.start package).steps copiesTree Config.default 4)
    (f := fun s => (s.pending, (s.typeFiles "file:///node_modules/").files.get?
      "file:///node_modules/b/b.d.ts", (s.typeFiles "file:///node_modules/").diagnostics))
    (b := ([], some "inner", [.ofTakenTypePath "file:///node_modules/b/b.d.ts" "b"
      (Path.ofString "/node_modules/b/b.d.ts")])) (by decide +kernel)
  obtain ⟨package, c, hpackage, hsteps⟩ := gives_bind.1 h
  obtain ⟨hpending, hview⟩ := Prod.mk.inj hview
  obtain ⟨htext, hnotes⟩ := Prod.mk.inj hview
  have hfind := CollectionState.gives_find_of_steps (ManifestCache.coherent_empty _) hpackage
    hsteps hpending
  exact ⟨_, c', hfind, keepsFirst_of_find hfind, htext, hnotes⟩

end TypeFiles

end ImportAtlas
