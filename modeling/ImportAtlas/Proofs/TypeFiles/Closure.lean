import ImportAtlas.Proofs.Json.Keys
import ImportAtlas.Proofs.TypeFiles.CollectionState

/-! Which packages a collection has: each directory once, and with a package those
that it is linked to, unless a manifest is missed. -/

namespace ImportAtlas

open Outcome

namespace PackageTypes

variable {t : FileTree} {config : Config} {package : InstalledPackage} {p : PackageTypes}
  {c c' : ManifestCache}

theorem mem_entries_of_gives_some (h : Gives (ofPackage? t config package) c (some p) c')
    {path : Path} (hmissed : (path, none) ∈ c'.entries) : (path, none) ∈ c.entries := by
  obtain ⟨_, hmanifest, rfl, -⟩ := gives_ofPackage? h
  change Manifest.fetch t package.manifestPath c = (.ok (some p.manifest), c') at hmanifest
  unfold Manifest.fetch at hmanifest
  split at hmanifest
  · cases hmanifest
    exact hmissed
  · split at hmanifest
    · split at hmanifest
      · cases hmanifest
        exact (List.mem_cons.1 hmissed).resolve_left nofun
      · cases hmanifest
    · cases hmanifest

theorem find?_manifestPath (h : Gives (ofPackage? t config package) c (some p) c') :
    c'.find? package.manifestPath = some (some p.manifest) := by
  obtain ⟨_, hmanifest, rfl, -⟩ := gives_ofPackage? h
  exact Manifest.find?_of_gives_inDirectory hmanifest

end PackageTypes

namespace CollectionState

variable {t : FileTree} {config : Config} {root : InstalledPackage} {s s' : CollectionState}
  {c₀ c c' : ManifestCache}

/-- What the canonical path of a collected package's directory is, if there is one. -/
def place (t : FileTree) (p : PackageTypes) : Except FileFault Path :=
  t.canonicalize p.package.directory

/-- The run from a root package takes up a package whose directory none has been
taken up at before. -/
def TakesUp (t : FileTree) (config : Config) (root : InstalledPackage) (c₀ : ManifestCache)
    (directory : Path) (package : InstalledPackage) : Prop :=
  ∃ n s c rest, Gives ((start root).steps t config n) c₀ s c ∧ s.pending = package :: rest ∧
    t.canonicalize package.directory = .ok directory ∧ directory ∉ s.visited

theorem Moves.visited_subset (h : Moves t config s c s' c') : s.visited ⊆ s'.visited := by
  cases h with
  | done _ => exact List.Subset.refl _
  | seen _ _ _ => exact List.Subset.refl _
  | fresh _ _ _ _ => exact List.subset_append_left _ _

theorem visited_subset_of_steps {n : Nat} (h : Gives (s.steps t config n) c s' c') :
    s.visited ⊆ s'.visited :=
  keeps_steps (P := fun s' _ => s.visited ⊆ s'.visited)
    (fun _ _ _ _ _ _ h hmoves => List.Subset.trans h hmoves.visited_subset)
    (List.Subset.refl _) h

theorem Moves.mem_visited {package : InstalledPackage} {rest : List InstalledPackage}
    {directory : Path} (h : Moves t config s c s' c') (hpending : s.pending = package :: rest)
    (hcanonical : t.canonicalize package.directory = .ok directory) : directory ∈ s'.visited := by
  cases h with
  | done hdone =>
    rw [hdone] at hpending
    cases hpending
  | seen hpending' hcanonical' hseen =>
    cases hpending.symm.trans hpending'
    cases hcanonical.symm.trans hcanonical'
    exact hseen
  | fresh hpending' hcanonical' _ _ =>
    cases hpending.symm.trans hpending'
    cases hcanonical.symm.trans hcanonical'
    exact List.mem_append_right _ (List.mem_singleton_self directory)

theorem TakesUp.unique {directory : Path} {package package' : InstalledPackage}
    (h : TakesUp t config root c₀ directory package)
    (h' : TakesUp t config root c₀ directory package') : package = package' := by
  obtain ⟨n, s, c, rest, hsteps, hpending, hcanonical, hfresh⟩ := h
  obtain ⟨n', s', c', rest', hsteps', hpending', hcanonical', hfresh'⟩ := h'
  wlog hle : n ≤ n' generalizing n s c rest n' s' c' rest' package package'
  · exact (this n' s' c' rest' hsteps' hpending' hcanonical' hfresh' n s c rest hsteps hpending
      hcanonical hfresh (Nat.le_of_not_le hle)).symm
  obtain ⟨k, rfl⟩ := Nat.exists_eq_add_of_le hle
  rw [steps_add] at hsteps'
  obtain ⟨s₁, c₁, h₁, hlater⟩ := gives_bind.1 hsteps'
  obtain ⟨rfl, rfl⟩ := Gives.unique hsteps h₁
  cases k with
  | zero =>
    obtain ⟨rfl, -⟩ := gives_pure.1 hlater
    exact (List.cons.inj (hpending.symm.trans hpending')).1
  | succ k =>
    obtain ⟨s₂, c₂, hstep, hlater⟩ := gives_bind.1 hlater
    have hvisited := (gives_step hstep).mem_visited hpending hcanonical
    exact absurd (visited_subset_of_steps hlater hvisited) hfresh'

structure Collects (t : FileTree) (config : Config) (root : InstalledPackage)
    (c₀ : ManifestCache) (s : CollectionState) (c : ManifestCache) : Prop
    extends s.Sound t c where
  missed : ∀ path, (path, none) ∈ c.entries → (path, none) ∈ c₀.entries
  nodup : s.visited.Nodup
  listed : ∀ d ∈ s.visited, d ∈ t.directoryPaths
  places : (s.collected.map (place t)).Sublist (s.visited.map .ok)
  read : ∀ p ∈ s.collected, p.IsRead t config ∧
    c.find? p.package.manifestPath = some (some p.manifest)
  taken : ∀ d ∈ s.visited, ∃ q, TakesUp t config root c₀ d q ∧
    ((∃ p ∈ s.collected, p.package = q) ∨ q.IsHidden c₀)
  links : ∀ p ∈ s.collected, ∀ q ∈ p.linked,
    q ∈ s.pending ∨ ∃ d ∈ s.visited, t.canonicalize q.directory = .ok d
  root : s = start root ∧ c = c₀ ∨ ∃ p ∈ s.collected, p.package = root

namespace Collects

theorem start (h : c₀.Coherent t) (hroot : root.IsInstalled t c₀) :
    Collects t config root c₀ (start root) c₀ where
  coherent := h
  installed := fun _ hq => List.mem_singleton.1 hq ▸ hroot
  missed := fun _ => id
  nodup := List.nodup_nil
  listed := nofun
  places := .slnil
  read := nofun
  taken := nofun
  links := nofun
  root := .inl ⟨rfl, rfl⟩

variable {package : InstalledPackage} {rest : List InstalledPackage} {directory : Path}
  {found : Option PackageTypes}

theorem seen (h : Collects t config root c₀ s c) (hpending : s.pending = package :: rest)
    (hcanonical : t.canonicalize package.directory = .ok directory)
    (hseen : directory ∈ s.visited) : Collects t config root c₀ { s with pending := rest } c where
  toSound := h.toSound.moves (show Moves t config s c { s with pending := rest } c from
    .seen hpending hcanonical hseen)
  missed := h.missed
  nodup := h.nodup
  listed := h.listed
  places := h.places
  read := h.read
  taken := h.taken
  links := by
    intro p hp q hq
    rcases h.links p hp q hq with hmem | hvisited
    · rcases List.mem_cons.1 (hpending ▸ hmem) with rfl | hmem
      · exact .inr ⟨directory, hseen, hcanonical⟩
      · exact .inl hmem
    · exact .inr hvisited
  root := by
    rcases h.root with ⟨rfl, -⟩ | hroot
    · cases hseen
    · exact .inr hroot

theorem found_or_hidden (h : Collects t config root c₀ s c) (hpending : s.pending = package :: rest)
    (hfound : Gives (PackageTypes.ofPackage? t config package) c found c') :
    (∃ p, found = some p ∧ p.package = package) ∨
      found = none ∧ package.IsHidden c₀ ∧ c' = c := by
  obtain ⟨manifest, hmanifest, hsame, hread⟩ := PackageTypes.gives_ofPackage? hfound
  cases found with
  | some p => exact .inl ⟨p, rfl, (hread p rfl).1⟩
  | none =>
    cases hsame
    have hinstalled := h.installed package (hpending ▸ List.mem_cons_self)
    obtain ⟨⟨path, hmem, hpath⟩, hc⟩ := hinstalled.isHidden_of_gives h.coherent hmanifest
    exact .inr ⟨rfl, ⟨path, h.missed path hmem, hpath⟩, hc⟩

theorem visit {n : Nat} (h : Collects t config root c₀ s c)
    (hsteps : Gives ((CollectionState.start root).steps t config n) c₀ s c)
    (hpending : s.pending = package :: rest)
    (hcanonical : t.canonicalize package.directory = .ok directory)
    (hfresh : directory ∉ s.visited)
    (hfound : Gives (PackageTypes.ofPackage? t config package) c found c')
    (hroot : ∀ d, ¬ Gives (Manifest.inDirectory t root.directory) c₀ none d) :
    Collects t config root c₀ (s.visit directory found rest) c' := by
  have hinstalled := h.installed package (hpending ▸ List.mem_cons_self)
  obtain ⟨hgrows, -⟩ := PackageTypes.kept_of_gives_ofPackage? hfound
  obtain ⟨manifest, hmanifest, hsame, hread⟩ := PackageTypes.gives_ofPackage? hfound
  have hvisited {d : Path} (hd : d ∈ (s.visit directory found rest).visited) :
      d ∈ s.visited ∨ d = directory :=
    (List.mem_append.1 hd).imp_right List.mem_singleton.1
  have hhead : directory ∈ (s.visit directory found rest).visited :=
    List.mem_append_right _ (List.mem_singleton_self directory)
  -- either the package is collected, or its manifest is missed and nothing else changes
  have hcases := h.found_or_hidden hpending hfound
  constructor
  case toSound => exact h.toSound.moves (.fresh hpending hcanonical hfresh hfound)
  case missed =>
    intro path hpath
    rcases hcases with ⟨p, rfl, -⟩ | ⟨-, -, rfl⟩
    · exact h.missed path (PackageTypes.mem_entries_of_gives_some hfound hpath)
    · exact h.missed path hpath
  case nodup =>
    refine List.nodup_append.2 ⟨h.nodup, List.pairwise_singleton _ _, ?_⟩
    rintro d hd _ hd' rfl
    exact hfresh (List.mem_singleton.1 hd' ▸ hd)
  case listed =>
    intro d hd
    rcases hvisited hd with hd | rfl
    · exact h.listed d hd
    · exact hinstalled.mem_directoryPaths h.coherent hcanonical
  case places =>
    rw [CollectionState.visit, List.map_append, List.map_append]
    refine h.places.append ?_
    rcases hcases with ⟨p, rfl, hp⟩ | ⟨rfl, -⟩
    · simp [place, hp, hcanonical]
    · exact List.nil_sublist _
  case read =>
    intro p hp
    rcases List.mem_append.1 hp with hp | hp
    · exact ⟨(h.read p hp).1, hgrows _ _ (h.read p hp).2⟩
    · obtain rfl := Option.mem_toList.1 hp
      obtain ⟨hpackage, hisRead⟩ := hread p rfl
      exact ⟨hisRead, hpackage ▸ PackageTypes.find?_manifestPath hfound⟩
  case taken =>
    intro d hd
    rcases hvisited hd with hd | rfl
    · obtain ⟨q, hq, hcollected⟩ := h.taken d hd
      refine ⟨q, hq, ?_⟩
      rcases hcollected with ⟨p, hp, hpq⟩ | hhidden
      · exact .inl ⟨p, List.mem_append_left _ hp, hpq⟩
      · exact .inr hhidden
    · -- this step is the one that takes the directory up
      refine ⟨package, ⟨n, s, c, rest, hsteps, hpending, hcanonical, hfresh⟩, ?_⟩
      rcases hcases with ⟨p, hp, hpackage⟩ | ⟨-, hhidden, -⟩
      · exact .inl ⟨p, List.mem_append_right _ (Option.mem_toList.2 hp), hpackage⟩
      · exact .inr hhidden
  case links =>
    intro p hp q hq
    rcases List.mem_append.1 hp with hp | hp
    · rcases h.links p hp q hq with hmem | ⟨d, hd, hcanonical'⟩
      · rcases List.mem_cons.1 (hpending ▸ hmem) with rfl | hmem
        · exact .inr ⟨directory, hhead, hcanonical⟩
        · exact .inl (List.mem_append_right _ hmem)
      · exact .inr ⟨d, List.mem_append_left _ hd, hcanonical'⟩
    · exact .inl (List.mem_append_left _
        (PackageTypes.mem_links_iff.2 ⟨p, Option.mem_toList.1 hp, hq⟩))
  case root =>
    refine .inr ?_
    rcases h.root with ⟨rfl, rfl⟩ | ⟨p, hp, hpackage⟩
    · cases hpending
      rcases hcases with ⟨p, hp, hpackage⟩ | ⟨rfl, -⟩
      · exact ⟨p, List.mem_append_right _ (Option.mem_toList.2 hp), hpackage⟩
      · cases hsame
        exact absurd hmanifest (hroot c')
    · exact ⟨p, List.mem_append_left _ hp, hpackage⟩

theorem moves {n : Nat} (h : Collects t config root c₀ s c)
    (hsteps : Gives ((CollectionState.start root).steps t config n) c₀ s c)
    (hmoves : Moves t config s c s' c')
    (hroot : ∀ d, ¬ Gives (Manifest.inDirectory t root.directory) c₀ none d) :
    Collects t config root c₀ s' c' := by
  cases hmoves with
  | done _ => exact h
  | seen hpending hcanonical hseen => exact h.seen hpending hcanonical hseen
  | fresh hpending hcanonical hfresh hfound =>
    exact h.visit hsteps hpending hcanonical hfresh hfound hroot

theorem of_steps {specifier : String} {base : Path} {n : Nat}
    (hroot : Gives (InstalledPackage.locate t specifier base) .empty root c₀)
    (hsteps : Gives ((CollectionState.start root).steps t config n) c₀ s c) :
    Collects t config root c₀ s c := by
  obtain ⟨hcoherent, hinstalled, hfound⟩ :=
    InstalledPackage.isInstalled_of_locate (ManifestCache.coherent_empty t) hroot
  exact keeps_steps (fun _ _ _ _ _ hsteps h hmoves => h.moves hsteps hmoves (hfound rfl))
    (start hcoherent hinstalled) hsteps

theorem nodup_places (h : Collects t config root c₀ s c) : (s.collected.map (place t)).Nodup :=
  h.places.nodup (List.Pairwise.map (S := (· ≠ ·)) Except.ok
    (fun _ _ hne heq => hne (Except.ok.inj heq)) h.nodup)

variable {p : PackageTypes}

theorem exists_place (h : Collects t config root c₀ s c) (hp : p ∈ s.collected) :
    ∃ d ∈ s.visited, place t p = .ok d := by
  obtain ⟨d, hd, hplace⟩ := List.mem_map.1 (h.places.mem (List.mem_map_of_mem hp))
  exact ⟨d, hd, hplace.symm⟩

theorem manifest_eq (h : Collects t config root c₀ s c) (hp : p ∈ s.collected) :
    p.manifest.path.components = p.package.manifestPath.components ∧
      Manifest.read t p.manifest.path = .ok p.manifest := by
  obtain ⟨key, hkey, hmem⟩ := ManifestCache.exists_of_find? (h.read p hp).2
  obtain ⟨-, hlook⟩ := h.coherent _ hmem
  obtain rfl := Manifest.path_of_look hlook
  refine ⟨hkey, ?_⟩
  simp only [Manifest.look, Manifest.isFile_of_look hlook, if_true] at hlook
  obtain ⟨m, hread, hm⟩ := map_eq_ok.1 hlook
  rw [hread, Option.some.inj hm]

theorem leadsToDirectory (h : Collects t config root c₀ s c) (hp : p ∈ s.collected)
    {directory : Path} (hplace : place t p = .ok directory) :
    t.LeadsToDirectory p.package.directory := by
  have hinstalled : p.package.IsInstalled t c := .inr ⟨_, (h.read p hp).2⟩
  exact hinstalled.leadsToDirectory h.coherent (FileTree.canonicalize_eq_ok.1 hplace).1.2

end Collects

/-- A finished collection from a root package on, what was missed before that being
in the cache `c₀`: it has the root package, and with each package its manifest under
its virtual path and the packages that it is linked to, unless the one that was taken
up at the directory of such a package had been missed, and it has a note for each
dependency that is not found. -/
structure IsClosed (t : FileTree) (config : Config) (root : InstalledPackage)
    (c₀ : ManifestCache) (s : CollectionState) : Prop where
  manifests : ∀ p ∈ s.collected, p.manifest.path.components = p.package.manifestPath.components ∧
    Manifest.read t p.manifest.path = .ok p.manifest
  keys : ∀ p ∈ s.collected, TypeFiles.virtualPath config.virtualRoot p.package.name "package.json" ∈
    (s.typeFiles config.virtualRoot).files.keys
  links : ∀ p ∈ s.collected, ∀ q, (PackageTypes.declaring? t config p.package = some q ∨
      ∃ name ∈ p.manifest.dependencies,
        InstalledPackage.find? t name p.package.directory = some q) →
    ∃ d ∈ s.visited, t.canonicalize q.directory = .ok d ∧
      ∃ q', TakesUp t config root c₀ d q' ∧
        (∀ q'', TakesUp t config root c₀ d q'' → q'' = q') ∧
        ((∃ p' ∈ s.collected, p'.package = q') ∨ q'.IsHidden c₀)
  named : ∀ p ∈ s.collected, p.manifest.dependencies.Nodup
  notes : Diagnostic.withCode Diagnostic.typeDependencyMissing
      (s.typeFiles config.virtualRoot).diagnostics =
    s.collected.flatMap fun p => (p.manifest.dependencies.filter fun name =>
      (InstalledPackage.find? t name p.package.directory).isNone).map fun name =>
        .ofMissingDependency name p.package.name p.manifest.path
  root : ∃ p ∈ s.collected, p.package = root

theorem Collects.isClosed (h : Collects t config root c₀ s c) (hpending : s.pending = []) :
    s.IsClosed t config root c₀ := by
  constructor
  case root =>
    rcases h.root with ⟨rfl, -⟩ | hroot
    · cases hpending
    · exact hroot
  case manifests => exact fun p hp => h.manifest_eq hp
  case keys =>
    intro p hp
    obtain ⟨text, htext⟩ := (h.read p hp).1.mem_files
    exact TypeFiles.mem_keys_ofPackages.2 ⟨p, hp, _, List.mem_map_of_mem htext, rfl⟩
  case links =>
    intro p hp q hq
    rcases h.links p hp q ((h.read p hp).1.mem_linked_iff.2 hq) with hmem | ⟨d, hd, hcanonical⟩
    · rw [hpending] at hmem
      cases hmem
    · obtain ⟨q', hq', hcollected⟩ := h.taken d hd
      exact ⟨d, hd, hcanonical, q', hq', fun q'' hq'' => hq''.unique hq', hcollected⟩
  case named => exact fun p hp => Manifest.nodup_dependencies_of_read (h.manifest_eq hp).2
  case notes =>
    rw [typeFiles, TypeFiles.missing_ofPackages]
    refine List.flatMap_congr fun p hp => ?_
    rw [PackageTypes.missingNotes, (h.read p hp).1.missing]
    rfl

/-- Every collection ends.  Until then no directory is visited twice, all that are
visited are directories of the tree, and no two packages are collected from one
directory; and if it ends well, it is closed. -/
theorem find_collects_links (t : FileTree) (config : Config) (specifier : String) (base : Path) :
    (∀ e c, (InstalledPackage.locate t specifier base).run .empty = (.error e, c) →
      (TypeFiles.find t config specifier base).run .empty = (.error e, c)) ∧
    ∀ root c₀, (InstalledPackage.locate t specifier base).run .empty = (.ok root, c₀) →
      (∃ n r c, ((start root).steps t config n).run c₀ = (r, c) ∧
        (∀ s, r = .ok s → s.pending = []) ∧
        (TypeFiles.find t config specifier base).run .empty =
          (r.map (typeFiles config.virtualRoot), c)) ∧
      (∀ n s c, ((start root).steps t config n).run c₀ = (.ok s, c) →
        s.visited.Nodup ∧ (∀ d ∈ s.visited, d ∈ t.directoryPaths) ∧
        (s.collected.map (place t)).Nodup ∧
        ∀ p ∈ s.collected, ∃ d ∈ s.visited, place t p = .ok d) ∧
      ∀ n s c, ((start root).steps t config n).run c₀ = (.ok s, c) → s.pending = [] →
        s.IsClosed t config root c₀ := by
  constructor
  · intro e c h
    exact run_bind_of_error h
  · intro root c₀ h
    refine ⟨exists_steps config (ManifestCache.coherent_empty t) h, fun n s c hsteps => ?_,
      fun n s c hsteps hpending => ?_⟩
    · have hs := Collects.of_steps h hsteps
      exact ⟨hs.nodup, hs.listed, hs.nodup_places, fun p hp => hs.exists_place hp⟩
    · exact (Collects.of_steps h hsteps).isClosed hpending

def ringTree : FileTree where
  root := .directory [("node_modules".toList, .directory [
    ("a".toList, .directory [("package.json".toList, .file (Text.encodeUtf8
      "\x7b\"files\": [], \"dependencies\": \x7b\"b\": \"1\", \"c\": \"1\", \"d\": \"1\"\x7d\x7d".toList))]),
    ("b".toList, .directory [("package.json".toList, .file (Text.encodeUtf8
      "\x7b\"files\": [], \"dependencies\": \x7b\"a\": \"1\"\x7d\x7d".toList))]),
    ("c".toList, .link "b".toList)])]
  workingDirectory := []

theorem find_ringTree :
    (∃ e c, (InstalledPackage.locate ringTree "d" (Path.ofString "/")).run .empty =
        (.error e, c) ∧
      (TypeFiles.find ringTree Config.default "d" (Path.ofString "/")).run .empty =
        (.error e, c)) ∧
    ∃ root c₀ n s c, (InstalledPackage.locate ringTree "a" (Path.ofString "/")).run .empty =
        (.ok root, c₀) ∧
      (∃ n r c, ((start root).steps ringTree Config.default n).run c₀ = (r, c) ∧
        (∀ s, r = .ok s → s.pending = []) ∧
        (TypeFiles.find ringTree Config.default "a" (Path.ofString "/")).run .empty =
          (r.map (typeFiles "file:///node_modules/"), c)) ∧
      ((start root).steps ringTree Config.default n).run c₀ = (.ok s, c) ∧ s.pending = [] ∧
      s.visited = [Path.ofString "/node_modules/a", Path.ofString "/node_modules/b"] ∧
      (s.visited.Nodup ∧ (∀ d ∈ s.visited, d ∈ ringTree.directoryPaths) ∧
        (s.collected.map (place ringTree)).Nodup ∧
        ∀ p ∈ s.collected, ∃ d ∈ s.visited, place ringTree p = .ok d) ∧
      s.IsClosed ringTree Config.default root c₀ := by
  constructor
  · obtain ⟨e, c, h⟩ := exists_failure (s := .empty)
      (x := InstalledPackage.locate ringTree "d" (Path.ofString "/")) (by decide +kernel)
    exact ⟨e, c, h, (find_collects_links _ Config.default _ _).1 e c h⟩
  · obtain ⟨s, c, h, hview⟩ := exists_gives_of_view (s := .empty)
      (x := do
        let root ← InstalledPackage.locate ringTree "a" (Path.ofString "/")
        (start root).steps ringTree Config.default 4)
      (f := fun s => (s.pending, s.visited))
      (b := ([], [Path.ofString "/node_modules/a", Path.ofString "/node_modules/b"]))
      (by decide +kernel)
    obtain ⟨root, c₀, hroot, hsteps⟩ := gives_bind.1 h
    obtain ⟨hpending, hvisited⟩ := Prod.mk.inj hview
    obtain ⟨hends, honce, hclosed⟩ :=
      (find_collects_links ringTree Config.default _ _).2 root c₀ hroot
    exact ⟨root, c₀, 4, s, c, hroot, hends, hsteps, hpending, hvisited, honce 4 s c hsteps,
      hclosed 4 s c hsteps hpending⟩

def appTree : FileTree where
  root := .directory [("app".toList, .directory [
    ("package.json".toList, .file (Text.encodeUtf8
      "\x7b\"name\": \"app\", \"files\": [], \"dependencies\": \x7b\"dep\": \"1\"\x7d\x7d".toList)),
    ("node_modules".toList, .directory [("dep".toList, .directory [
      ("package.json".toList, .file (Text.encodeUtf8 "\x7b\"files\": []\x7d".toList))])])])]
  workingDirectory := []

def longWay : List Char :=
  '/' :: ("app/".toList ++ (List.replicate 2100 ['.', '/']).flatten ++
    "node_modules/dep".toList)

/-- A dependency that is there is left out, since its manifest was missed on the way
to the root package. -/
theorem missed_appTree : ∃ root c₀ n s c fs,
    (InstalledPackage.locate appTree (String.ofList longWay) (Path.ofString "/")).run .empty =
      (.ok root, c₀) ∧
    ((start root).steps appTree Config.default n).run c₀ = (.ok s, c) ∧ s.pending = [] ∧
    (TypeFiles.find appTree Config.default (String.ofList longWay) (Path.ofString "/")).run .empty =
      (.ok fs, c) ∧
    ∃ p ∈ s.collected, "dep" ∈ p.manifest.dependencies ∧ ∃ q d,
      InstalledPackage.find? appTree "dep" p.package.directory = some q ∧
      appTree.canonicalize q.directory = .ok d ∧ ∀ p' ∈ s.collected, place appTree p' ≠ .ok d := by
  obtain ⟨⟨m, s⟩, c, h, hview⟩ := exists_gives_of_view (s := .empty)
    (x := do
      let manifest ← Manifest.nearest appTree ⟨longWay⟩
      let s ← (start ⟨"app", Path.ofString "/app"⟩).steps appTree Config.default 2
      return (manifest, s))
    (f := fun (m, s) => (m.bind InstalledPackage.ofManifest?, s.pending,
      s.collected.map fun p => (p.package, p.manifest.dependencies)))
    (b := (some ⟨"app", Path.ofString "/app"⟩, [], [(⟨"app", Path.ofString "/app"⟩, ["dep"])]))
    (by decide +kernel)
  obtain ⟨o, c₀, hnearest, h⟩ := gives_bind.1 h
  obtain ⟨s', c', hsteps, h⟩ := gives_bind.1 h
  obtain ⟨heq, rfl⟩ := gives_pure.1 h
  obtain ⟨rfl, rfl⟩ := Prod.mk.inj heq
  obtain ⟨hm, hview⟩ := Prod.mk.inj hview
  obtain ⟨hpending, hcollected⟩ := Prod.mk.inj hview
  obtain ⟨m, rfl, hm⟩ := Option.bind_eq_some_iff.1 hm
  have hlocate : Gives (InstalledPackage.locate appTree (String.ofList longWay) (Path.ofString "/"))
      .empty ⟨"app", Path.ofString "/app"⟩ c₀ :=
    InstalledPackage.gives_locate_of_slash hnearest hm
  obtain ⟨p, hp, hpview⟩ := List.map_eq_singleton_iff.1 hcollected
  obtain ⟨hpackage, hdependencies⟩ := Prod.mk.inj hpview
  refine ⟨_, c₀, 2, s', c', _, hlocate, hsteps, hpending,
    gives_find_of_steps (ManifestCache.coherent_empty _) hlocate hsteps hpending, p, by simp [hp],
    by simp [hdependencies], ⟨"dep", Path.ofString "/app/node_modules/dep"⟩,
    Path.ofString "/app/node_modules/dep", ?_, ?_, ?_⟩
  · rw [hpackage]
    decide +kernel
  · exact eq_ok_of_toOption (by decide +kernel)
  · intro p' hp'
    rw [hp, List.mem_singleton] at hp'
    rw [hp', place, hpackage]
    exact fun heq => absurd (congrArg Except.toOption heq) (by decide +kernel)

end CollectionState

end ImportAtlas
