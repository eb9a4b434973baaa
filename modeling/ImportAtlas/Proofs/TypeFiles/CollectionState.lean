import ImportAtlas.Proofs.TypeFiles.Installed
import ImportAtlas.Proofs.TypeFiles.Placement

/-! A collection in steps.  One step takes up the next package, unless its directory
has been visited before.  What a step keeps is kept by every run of steps; that the
steps come to an end and make up the collection is shown in `exists_steps`. -/

namespace ImportAtlas

open Outcome

/-- A collection that is going on: the canonical directories that have been visited
and the packages that have been collected, both in order, and the packages that are
still to be taken up, the next one first. -/
structure CollectionState where
  visited : List Path
  collected : List PackageTypes
  pending : List InstalledPackage

namespace PackageTypes

variable {t : FileTree} {config : Config} {package q : InstalledPackage} {p : PackageTypes}
  {found : Option PackageTypes} {c c' : ManifestCache}

theorem IsRead.mem_linked_iff (h : p.IsRead t config) : q ∈ p.linked ↔
    declaring? t config p.package = some q ∨
      ∃ name ∈ p.manifest.dependencies, InstalledPackage.find? t name p.package.directory = some q := by
  rw [h.linked, List.mem_append, Option.mem_toList, dependencies, List.mem_filterMap]

theorem IsRead.isFile_of_mem_linked (h : p.IsRead t config) (hq : q ∈ p.linked) :
    t.isFile q.manifestPath = true := by
  rcases h.mem_linked_iff.1 hq with hq | ⟨name, -, hq⟩
  · unfold declaring? at hq
    split at hq
    · obtain ⟨_, -, hq⟩ := Option.bind_eq_some_iff.1 hq
      exact (InstalledPackage.find?_eq_some hq).2.2
    · cases hq
  · exact (InstalledPackage.find?_eq_some hq).2.2

theorem mem_links_iff : q ∈ links found ↔ ∃ p ∈ found, q ∈ p.linked := by
  cases found with
  | none => simp [links]
  | some p => simp [links]

theorem isInstalled_of_mem_links (h : Gives (ofPackage? t config package) c found c')
    (hq : q ∈ links found) (d : ManifestCache) : q.IsInstalled t d := by
  obtain ⟨_, -, -, hread⟩ := gives_ofPackage? h
  obtain ⟨p, hp, hq⟩ := mem_links_iff.1 hq
  exact .inl ((hread p hp).2.isFile_of_mem_linked hq)

theorem asks_ofPackage? : Asks t (fun _ => True) (ofPackage? t config package) := by
  refine (Asks.inDirectory package.directory).bind fun manifest => ?_
  cases manifest with
  | none => exact .pure none
  | some m => exact (Asks.liftM fun _ _ => .intro).bind fun p => .pure (some p)

theorem kept_of_gives_ofPackage? (h : Gives (ofPackage? t config package) c found c') :
    c.Extends c' ∧ (c.Coherent t → c'.Coherent t) := by
  have hasks : Asks t (fun _ => True) (ofPackage? t config package) := asks_ofPackage?
  exact ⟨(hasks.repeated h).grows, fun hc => hasks.kept.coherent_of_gives hc h⟩

end PackageTypes

namespace CollectionState

def start (package : InstalledPackage) : CollectionState := ⟨[], [], [package]⟩

/-- The type files that have been collected so far. -/
def typeFiles (root : String) (s : CollectionState) : TypeFiles := .ofPackages root s.collected

/-- The state after a visit.  What the package leads to is taken up next. -/
def visit (s : CollectionState) (directory : Path) (found : Option PackageTypes)
    (rest : List InstalledPackage) : CollectionState :=
  ⟨s.visited ++ [directory], s.collected ++ found.toList, PackageTypes.links found ++ rest⟩

section Steps

variable (t : FileTree) (config : Config)

def step (s : CollectionState) : Lookup CollectionState :=
  match s.pending with
  | [] => return s
  | package :: rest =>
    match t.canonicalize package.directory with
    | .error fault => throw (.load package.directory fault)
    | .ok directory =>
      if directory ∈ s.visited then return { s with pending := rest }
      else return s.visit directory (← PackageTypes.ofPackage? t config package) rest

def steps : Nat → CollectionState → Lookup CollectionState
  | 0, s => return s
  | n + 1, s => do steps n (← step t config s)

end Steps

variable {t : FileTree} {config : Config} {s s' : CollectionState} {c c' : ManifestCache}
  {package : InstalledPackage} {rest : List InstalledPackage} {directory : Path}

inductive Moves (t : FileTree) (config : Config) (s : CollectionState) (c : ManifestCache) :
    CollectionState → ManifestCache → Prop
  | done (h : s.pending = []) : Moves t config s c s c
  | seen {package : InstalledPackage} {rest : List InstalledPackage} {directory : Path}
      (hpending : s.pending = package :: rest)
      (hcanonical : t.canonicalize package.directory = .ok directory)
      (hseen : directory ∈ s.visited) : Moves t config s c { s with pending := rest } c
  | fresh {package : InstalledPackage} {rest : List InstalledPackage} {directory : Path}
      {found : Option PackageTypes} {c' : ManifestCache} (hpending : s.pending = package :: rest)
      (hcanonical : t.canonicalize package.directory = .ok directory)
      (hfresh : directory ∉ s.visited)
      (hfound : Gives (PackageTypes.ofPackage? t config package) c found c') :
      Moves t config s c (s.visit directory found rest) c'

theorem gives_step (h : Gives (s.step t config) c s' c') : Moves t config s c s' c' := by
  unfold step at h
  split at h
  · rename_i hpending
    obtain ⟨rfl, rfl⟩ := gives_pure.1 h
    exact .done hpending
  · rename_i hpending
    split at h
    · cases h
    · rename_i hcanonical
      split at h
      · rename_i hseen
        obtain ⟨rfl, rfl⟩ := gives_pure.1 h
        exact .seen hpending hcanonical hseen
      · rename_i hfresh
        obtain ⟨found, c₁, hfound, h⟩ := gives_bind.1 h
        obtain ⟨rfl, rfl⟩ := gives_pure.1 h
        exact .fresh hpending hcanonical hfresh hfound

theorem step_of_error {fault : FileFault} (hpending : s.pending = package :: rest)
    (h : t.canonicalize package.directory = .error fault) :
    s.step t config = throw (.load package.directory fault) := by
  simp only [step, hpending, h]

theorem step_of_ok (hpending : s.pending = package :: rest)
    (h : t.canonicalize package.directory = .ok directory) :
    s.step t config =
      if directory ∈ s.visited then return { s with pending := rest }
      else return s.visit directory (← PackageTypes.ofPackage? t config package) rest := by
  simp only [step, hpending, h]

structure Sound (t : FileTree) (s : CollectionState) (c : ManifestCache) : Prop where
  coherent : c.Coherent t
  installed : ∀ package ∈ s.pending, package.IsInstalled t c

theorem Sound.moves (h : s.Sound t c) (hmoves : Moves t config s c s' c') : s'.Sound t c' := by
  cases hmoves with
  | done _ => exact h
  | seen hpending _ _ =>
    exact ⟨h.coherent, fun q hq => h.installed q (hpending ▸ List.mem_cons_of_mem _ hq)⟩
  | @fresh package rest directory found c' hpending hcanonical hfresh hfound =>
    obtain ⟨hgrows, hcoherent⟩ := PackageTypes.kept_of_gives_ofPackage? hfound
    refine ⟨hcoherent h.coherent, fun q hq => ?_⟩
    rcases List.mem_append.1 hq with hq | hq
    · exact PackageTypes.isInstalled_of_mem_links hfound hq c'
    · exact (h.installed q (hpending ▸ List.mem_cons_of_mem _ hq)).mono hgrows

theorem exists_steps_of_collect {fresh : List Path} {stack : List InstalledPackage}
    {r : Except AtlasError (List PackageTypes)}
    (h : (PackageTypes.collect t config fresh stack).run c = (r, c')) (hs : s.Sound t c)
    (hpending : s.pending = stack)
    (hfresh : ∀ d, d ∈ fresh ↔ d ∈ t.directoryPaths ∧ d ∉ s.visited) :
    ∃ n r', (s.steps t config n).run c = (r', c') ∧ (∀ s', r' = .ok s' → s'.pending = []) ∧
      r'.map collected = r.map (s.collected ++ ·) := by
  induction fresh, stack using PackageTypes.stackInduction (t := t)
    generalizing s c c' r with
  | nil fresh =>
    rw [PackageTypes.collect_nil] at h
    cases h
    refine ⟨0, .ok s, rfl, ?_, ?_⟩
    · rintro _ ⟨⟩
      exact hpending
    · simp [Except.map]
  | lost fresh package stack fault hcanonical =>
    rw [PackageTypes.collect_cons_of_error hcanonical] at h
    cases h
    refine ⟨1, .error _, ?_, nofun, rfl⟩
    rw [steps, step_of_error hpending hcanonical]
    rfl
  | seen fresh package stack directory hcanonical hnot ih =>
    rw [PackageTypes.collect_cons_of_not_mem hcanonical hnot] at h
    -- what is not fresh any more has been visited, since it is a directory of the tree
    have hseen : directory ∈ s.visited := Decidable.byContradiction fun hunseen =>
      hnot ((hfresh _).2 ⟨(hs.installed package (hpending ▸ List.mem_cons_self)).mem_directoryPaths
        hs.coherent hcanonical, hunseen⟩)
    have hmoves : Moves t config s c { s with pending := stack } c :=
      .seen hpending hcanonical hseen
    obtain ⟨n, r', hsteps, hend⟩ := ih (s := { s with pending := stack }) h (hs.moves hmoves) rfl
      hfresh
    refine ⟨n + 1, r', ?_, hend⟩
    rw [steps, step_of_ok hpending hcanonical, if_pos hseen, pure_bind]
    exact hsteps
  | visit fresh package stack directory hcanonical hmem ih =>
    rw [PackageTypes.collect_cons_of_mem hcanonical hmem] at h
    have hunseen := ((hfresh _).1 hmem).2
    have hstep : s.step t config =
        return s.visit directory (← PackageTypes.ofPackage? t config package) stack := by
      rw [step_of_ok hpending hcanonical, if_neg hunseen]
    rcases hrun : (PackageTypes.ofPackage? t config package).run c with ⟨e | found, c₁⟩
    · rw [run_bind_of_error hrun] at h
      cases h
      refine ⟨1, .error e, ?_, nofun, rfl⟩
      rw [steps, hstep, run_bind_of_error (run_bind_of_error hrun)]
    · rw [run_bind_of_gives hrun] at h
      rcases hothers : (PackageTypes.collect t config (Fresh.without directory fresh)
        (PackageTypes.links found ++ stack)).run c₁ with ⟨others, c₂⟩
      rw [run_bind_pure hothers] at h
      cases h
      have hmoves : Moves t config s c (s.visit directory found stack) c₁ :=
        .fresh hpending hcanonical hunseen hrun
      obtain ⟨n, r', hsteps, hdone, hcollected⟩ := ih _ hothers (hs.moves hmoves) rfl fun d => by
        rw [Fresh.mem_without, hfresh]
        simp [visit, and_assoc]
      refine ⟨n + 1, r', ?_, hdone, ?_⟩
      · have hnext : Gives (s.step t config) c (s.visit directory found stack) c₁ := by
          rw [hstep]
          exact gives_bind.2 ⟨found, c₁, hrun, gives_pure.2 ⟨rfl, rfl⟩⟩
        rw [steps, run_bind_of_gives hnext]
        exact hsteps
      · rw [hcollected]
        cases others with
        | error e => rfl
        | ok others => simp [visit, Except.map]

theorem exists_steps (config : Config) {specifier : String} {root : Path} (hc : c.Coherent t)
    (h : Gives (InstalledPackage.locate t specifier root) c package c') :
    ∃ n r d, ((start package).steps t config n).run c' = (r, d) ∧
      (∀ s, r = .ok s → s.pending = []) ∧
      (TypeFiles.find t config specifier root).run c =
        (r.map (typeFiles config.virtualRoot), d) := by
  obtain ⟨hcoherent, hinstalled, -⟩ := InstalledPackage.isInstalled_of_locate hc h
  have hsound : (start package).Sound t c' :=
    ⟨hcoherent, fun q hq => List.mem_singleton.1 hq ▸ hinstalled⟩
  rcases hcollect : (PackageTypes.collect t config t.directoryPaths [package]).run c'
    with ⟨result, d⟩
  obtain ⟨n, r, hsteps, hdone, hcollected⟩ := exists_steps_of_collect hcollect hsound rfl fun d => by
    simp [start]
  refine ⟨n, r, d, hsteps, hdone, ?_⟩
  rw [TypeFiles.find, run_bind_of_gives h, run_bind_pure hcollect]
  cases r with
  | error e =>
    cases result with
    | error e' =>
      cases hcollected
      rfl
    | ok ps => cases hcollected
  | ok s =>
    cases result with
    | error e' => cases hcollected
    | ok ps =>
      have heq : s.collected = ps := by simpa [Except.map, start] using hcollected
      simp [Except.map, typeFiles, heq]

theorem steps_of_pending_nil (h : s.pending = []) (n : Nat) :
    s.steps t config n = return s := by
  induction n with
  | zero => rfl
  | succ n ih =>
    have hstep : s.step t config = return s := by simp only [step, h]
    rw [steps, hstep, pure_bind, ih]

theorem steps_add (s : CollectionState) (m n : Nat) :
    s.steps t config (m + n) = s.steps t config m >>= steps t config n := by
  induction m generalizing s with
  | zero => rw [Nat.zero_add, steps, pure_bind]
  | succ m ih => simp only [Nat.succ_add, steps, bind_assoc, ih]

theorem keeps_steps {s₀ : CollectionState} {c₀ : ManifestCache}
    {P : CollectionState → ManifestCache → Prop}
    (hstep : ∀ n s c s' c', Gives (s₀.steps t config n) c₀ s c → P s c →
      Moves t config s c s' c' → P s' c') (hs : P s₀ c₀) {n : Nat}
    (h : Gives (s₀.steps t config n) c₀ s c) : P s c := by
  induction n generalizing s c with
  | zero =>
    obtain ⟨rfl, rfl⟩ := gives_pure.1 h
    exact hs
  | succ n ih =>
    rw [steps_add] at h
    obtain ⟨s₁, c₁, hsteps, h⟩ := gives_bind.1 h
    obtain ⟨s₂, c₂, hlast, h⟩ := gives_bind.1 h
    obtain ⟨rfl, rfl⟩ := gives_pure.1 h
    exact hstep n s₁ c₁ _ _ hsteps (ih hsteps) (gives_step hlast)

theorem gives_find_of_steps {specifier : String} {root : Path} {d : ManifestCache} {n : Nat}
    (hc : c.Coherent t) (h : Gives (InstalledPackage.locate t specifier root) c package c')
    (hsteps : Gives ((start package).steps t config n) c' s d) (hpending : s.pending = []) :
    Gives (TypeFiles.find t config specifier root) c (s.typeFiles config.virtualRoot) d := by
  obtain ⟨m, r, d', hm, hdone, hfind⟩ := exists_steps config hc h
  have hlater : Gives ((start package).steps t config (n + m)) c' s d := by
    rw [steps_add]
    exact gives_bind.2 ⟨s, d, hsteps, by rw [steps_of_pending_nil hpending]; rfl⟩
  rw [Nat.add_comm, steps_add] at hlater
  cases r with
  | error e =>
    have hfails := run_bind_of_error (f := steps t config n) hm
    cases hfails.symm.trans hlater
  | ok s' =>
    obtain ⟨s'', d'', hm', hlater⟩ := gives_bind.1 hlater
    obtain ⟨rfl, rfl⟩ := Gives.unique hm hm'
    rw [steps_of_pending_nil (hdone _ rfl)] at hlater
    obtain ⟨rfl, rfl⟩ := gives_pure.1 hlater
    exact hfind

end CollectionState

end ImportAtlas
