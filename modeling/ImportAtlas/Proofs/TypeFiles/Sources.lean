import Mathlib.Data.List.Forall2
import ImportAtlas.Proofs.OrderedMap
import ImportAtlas.Proofs.TypeFiles.Stack

namespace ImportAtlas

open Outcome

theorem Outcome.mapM_eq_ok {ε α β : Type} {f : α → Except ε β} {as : List α} {bs : List β} :
    as.mapM f = .ok bs ↔ List.Forall₂ (fun a b => f a = .ok b) as bs := by
  induction as generalizing bs with
  | nil =>
    rw [List.mapM_nil, pure_eq_ok, List.forall₂_nil_left_iff, eq_comm]
  | cons a as ih =>
    rw [List.mapM_cons, bind_eq_ok, List.forall₂_cons_left_iff]
    constructor
    · rintro ⟨b, hb, h⟩
      obtain ⟨rest, hrest, h⟩ := bind_eq_ok.1 h
      exact ⟨b, rest, hb, ih.1 hrest, (pure_eq_ok.1 h).symm⟩
    · rintro ⟨b, rest, hb, hrest, rfl⟩
      exact ⟨b, hb, bind_eq_ok.2 ⟨rest, ih.2 hrest, pure_eq_ok.2 rfl⟩⟩

theorem exists_of_forall₂ {α β : Type} {R : α → β → Prop} {as : List α} {bs : List β}
    (h : List.Forall₂ R as bs) {b : β} (hb : b ∈ bs) : ∃ a ∈ as, R a b := by
  induction h with
  | nil => cases hb
  | cons hab _ ih =>
    rcases List.mem_cons.1 hb with rfl | hb
    · exact ⟨_, List.mem_cons_self, hab⟩
    · obtain ⟨a, ha, hR⟩ := ih hb
      exact ⟨a, List.mem_cons_of_mem _ ha, hR⟩

namespace Declarations

variable {t : FileTree} {config : Config} {directory : Path} {m : Manifest}

theorem get?_addSource {sources : Sources} {key : String} {kept : Path}
    (h : sources.get? key = some kept) (path : Path) :
    (addSource directory sources path).get? key = some kept := by
  unfold addSource
  split
  · exact h
  · split
    · exact h
    · exact OrderedMap.get?_insertNew_of_some h _ _

theorem get?_addSources {sources : Sources} {key : String} {kept : Path}
    (h : sources.get? key = some kept) (paths : List Path) :
    (paths.foldl (addSource directory) sources).get? key = some kept := by
  induction paths generalizing sources with
  | nil => exact h
  | cons path paths ih => exact ih (get?_addSource h path)

theorem get?_sources_fileName :
    (sources t config directory m).get? Manifest.fileName.toString = some m.path :=
  get?_addSources (OrderedMap.get?_insert_self ..) _

end Declarations

namespace PackageTypes

variable {t : FileTree} {config : Config} {package : InstalledPackage} {m : Manifest}

def Holds (t : FileTree) (source : String × Path) (file : String × String) : Prop :=
  file.1 = source.1 ∧ t.readText source.2 = .ok file.2

/-- What is collected of a package is what its directory and its manifest say. -/
structure IsRead (t : FileTree) (config : Config) (p : PackageTypes) : Prop where
  files : List.Forall₂ (Holds t)
    (Declarations.sources t config p.package.directory p.manifest).entries p.files
  missingEntry : p.missingEntry = missingTypes? t p.package p.manifest
  linked : p.linked = (declaring? t config p.package).toList ++ dependencies t p.package p.manifest
  missing : p.missing = missingDependencies t p.package p.manifest

theorem readSource_eq_ok {source : String × Path} {file : String × String} :
    readSource t source = .ok file ↔ Holds t source file := by
  obtain ⟨relative, text⟩ := file
  unfold readSource Holds
  cases t.readText source.2 with
  | error fault => simp
  | ok contents => simp [eq_comm]

theorem isRead_of_read {p : PackageTypes} (h : read t config package m = .ok p) :
    p.package = package ∧ p.manifest = m ∧ p.IsRead t config := by
  obtain ⟨files, hfiles, h⟩ := bind_eq_ok.1 h
  cases pure_eq_ok.1 h
  refine ⟨rfl, rfl, ?_, rfl, rfl, rfl⟩
  exact (mapM_eq_ok.1 hfiles).imp fun _ _ => readSource_eq_ok.1

theorem gives_ofPackage? {c c' : ManifestCache} {found : Option PackageTypes}
    (h : Gives (ofPackage? t config package) c found c') :
    ∃ manifest, Gives (Manifest.inDirectory t package.directory) c manifest c' ∧
      found.map PackageTypes.manifest = manifest ∧
      ∀ p ∈ found, p.package = package ∧ p.IsRead t config := by
  obtain ⟨manifest, c₁, hmanifest, h⟩ := gives_bind.1 h
  cases manifest with
  | none =>
    obtain ⟨rfl, rfl⟩ := gives_pure.1 h
    exact ⟨none, hmanifest, rfl, nofun⟩
  | some m =>
    obtain ⟨p, c₂, hp, h⟩ := gives_bind.1 h
    obtain ⟨hread, rfl⟩ := gives_liftM.1 hp
    obtain ⟨rfl, rfl⟩ := gives_pure.1 h
    obtain ⟨hpackage, rfl, hisRead⟩ := isRead_of_read hread
    refine ⟨some _, hmanifest, rfl, ?_⟩
    rintro _ ⟨⟩
    exact ⟨hpackage, hisRead⟩

theorem ensures_collect (fresh : List Path) (stack : List InstalledPackage) :
    Ensures (collect t config fresh stack) fun ps => ∀ p ∈ ps, p.IsRead t config := by
  induction fresh, stack using stackInduction (t := t) with
  | nil fresh =>
    rw [collect_nil]
    exact .pure nofun
  | lost fresh package stack fault h =>
    rw [collect_cons_of_error h]
    exact .throw
  | seen fresh package stack directory h hfresh ih =>
    rw [collect_cons_of_not_mem h hfresh]
    exact ih
  | visit fresh package stack directory h hfresh ih =>
    rw [collect_cons_of_mem h hfresh]
    have hfound : Ensures (ofPackage? t config package) fun found =>
        ∀ p ∈ found, p.IsRead t config := by
      intro c found c' hfound
      obtain ⟨_, -, -, hread⟩ := gives_ofPackage? hfound
      exact fun p hp => (hread p hp).2
    refine hfound.bind fun found hfound => (ih _).bind fun others hothers => .pure ?_
    intro p hp
    rcases List.mem_append.1 hp with hp | hp
    · exact hfound p (Option.mem_toList.1 hp)
    · exact hothers p hp

theorem IsRead.exists_source {p : PackageTypes} (h : p.IsRead t config) {file : String × String}
    (hfile : file ∈ p.files) : ∃ source ∈
      (Declarations.sources t config p.package.directory p.manifest).entries, Holds t source file :=
  exists_of_forall₂ h.files hfile

theorem IsRead.keys {p : PackageTypes} (h : p.IsRead t config) :
    p.files.map Prod.fst = (Declarations.sources t config p.package.directory p.manifest).keys := by
  rw [OrderedMap.keys, eq_comm, ← List.forall₂_eq_eq_eq, List.forall₂_map_left_iff,
    List.forall₂_map_right_iff]
  exact h.files.imp fun _ _ hfile => hfile.1.symm

theorem IsRead.sorted {p : PackageTypes} (h : p.IsRead t config) :
    p.files.Pairwise fun f g => f.1 < g.1 := by
  have hsorted := (Declarations.sources t config p.package.directory p.manifest).sorted
  rw [← List.pairwise_map (f := Prod.fst) (R := (· < ·)), h.keys, OrderedMap.keys,
    List.pairwise_map]
  exact hsorted

theorem IsRead.mem_files {p : PackageTypes} (h : p.IsRead t config) :
    ∃ text, (Manifest.fileName.toString, text) ∈ p.files := by
  have hkey : Manifest.fileName.toString ∈ p.files.map Prod.fst := by
    rw [h.keys]
    exact OrderedMap.mem_keys_of_get? Declarations.get?_sources_fileName
  obtain ⟨⟨_, text⟩, hfile, rfl⟩ := List.mem_map.1 hkey
  exact ⟨text, hfile⟩

end PackageTypes

end ImportAtlas
