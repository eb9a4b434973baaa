import ImportAtlas.Proofs.FileTree.Canonical
import ImportAtlas.Proofs.Resolution.Found

namespace ImportAtlas

open Outcome FileTree

namespace Resolver

variable {t : FileTree} {config : Config} {specifier : String} {base : Path}
  {c c' : ManifestCache} {found : Stage} {path : Path}

/-- The path that resolution takes, and the stage that has found it. -/
inductive Takes (t : FileTree) (config : Config) (specifier : String) (base : Path)
    (c : ManifestCache) : Stage → Path → ManifestCache → Prop
  | esm {path : Path} {c' : ManifestCache}
      (h : Gives (stage t config .esm specifier base) c (.resolved path) c') :
      Takes t config specifier base c .esm path c'
  | commonJs {reason : Unresolved} {path : Path} {c₁ c' : ManifestCache}
      (hesm : Gives (stage t config .esm specifier base) c (.unresolved reason) c₁)
      (h : Gives (stage t config .commonJs specifier base) c₁ (.resolved path) c') :
      Takes t config specifier base c .commonJs path c'

theorem isFile_of_stage (h : Gives (stage t config found specifier base) c (.resolved path) c') :
    t.isFile path = true :=
  ensures_stage found specifier base c _ c' h

namespace Takes

theorem isFile (h : Takes t config specifier base c found path c') : t.isFile path = true := by
  cases h with
  | esm h => exact isFile_of_stage h
  | commonJs _ h => exact isFile_of_stage h

theorem run_resolve (h : Takes t config specifier base c found path c') :
    (resolve t config specifier base).run c =
      ((ModuleLocation.ofPath t path).map (⟨·, found⟩), c') := by
  have located (stage : Stage) : (do
      return (⟨← liftM (ModuleLocation.ofPath t path), stage⟩ : Resolution) :
      Lookup Resolution).run c' = ((ModuleLocation.ofPath t path).map (⟨·, stage⟩), c') :=
    run_bind_pure rfl
  cases h with
  | esm h => exact (run_bind_of_gives h).trans (located .esm)
  | commonJs hesm h =>
    exact (run_bind_of_gives hesm).trans ((run_bind_of_gives h).trans (located .commonJs))

end Takes

theorem exists_takes {r : Resolution} (h : Gives (resolve t config specifier base) c r c') :
    ∃ path, Takes t config specifier base c r.stage path c' ∧
      ModuleLocation.ofPath t path = .ok r.location := by
  obtain ⟨esm, c₁, hesm, h⟩ := gives_bind.1 h
  cases esm with
  | resolved path =>
    obtain ⟨l, _, hl, h⟩ := gives_bind.1 h
    obtain ⟨hlocation, rfl⟩ := gives_liftM.1 hl
    obtain ⟨rfl, rfl⟩ := gives_pure.1 h
    exact ⟨path, .esm hesm, hlocation⟩
  | unresolved reason =>
    obtain ⟨commonJs, c₂, hcommonJs, h⟩ := gives_bind.1 h
    cases commonJs with
    | resolved path =>
      obtain ⟨l, _, hl, h⟩ := gives_bind.1 h
      obtain ⟨hlocation, rfl⟩ := gives_liftM.1 hl
      obtain ⟨rfl, rfl⟩ := gives_pure.1 h
      exact ⟨path, .commonJs hesm hcommonJs, hlocation⟩
    | unresolved => cases h

/-- Stages answer with files, and what resolution takes has a canonical location
just if its way can be looked up. -/
theorem located_of_resolved (hnames : t.WellNamed) (config : Config) (specifier : String)
    (base : Path) (c : ManifestCache) :
    (∀ found path c', Gives (stage t config found specifier base) c (.resolved path) c' →
      t.isFile path = true) ∧
    (∀ found path c', Takes t config specifier base c found path c' →
      (t.StaysWithinReach path → ∃ l,
        Gives (resolve t config specifier base) c ⟨l, found⟩ c' ∧ t.IsCanonicalFile l.path) ∧
      (¬ t.StaysWithinReach path →
        (resolve t config specifier base).run c = (.error (.load path .nameTooLong), c'))) ∧
    ∀ r c', Gives (resolve t config specifier base) c r c' →
      t.IsCanonicalFile r.location.path := by
  refine ⟨fun _ _ _ => isFile_of_stage, fun found path c' h => ?_, fun r c' h => ?_⟩
  · have hrun := h.run_resolve
    rcases canonicalize_cases hnames h.isFile with
      ⟨hreach, canonical, hcanonical, hfile⟩ | ⟨hreach, hfault⟩
    · refine ⟨fun _ => ⟨⟨canonical⟩, ?_, hfile⟩, fun hnot => absurd hreach hnot⟩
      rw [Gives, hrun, ModuleLocation.ofPath, hcanonical]
      rfl
    · refine ⟨fun hstays => absurd hstays hreach, fun _ => ?_⟩
      rw [hrun, ModuleLocation.ofPath, hfault]
      rfl
  · obtain ⟨path, htakes, hl⟩ := exists_takes h
    rw [ModuleLocation.ofPath] at hl
    rcases canonicalize_cases hnames htakes.isFile with
      ⟨-, canonical, hcanonical, hfile⟩ | ⟨-, hfault⟩
    · rw [hcanonical] at hl
      rw [← Except.ok.inj hl]
      exact hfile
    · rw [hfault] at hl
      cases hl

def nested (name : FileName) (node : FileNode) : Nat → FileNode
  | 0 => node
  | depth + 1 => .directory [(name, nested name node depth)]

def deepTree : FileTree where
  root := .directory [("w".toList, .directory [
    (List.replicate 250 'd', nested (List.replicate 250 'd')
      (nested (List.replicate 250 'e') (.directory [("x.js".toList, .file [])]) 10) 9),
    ("s".toList, .link (['/'].intercalate (List.replicate 10 (List.replicate 250 'd')))),
    ("x.js".toList, .link ("s/".toList ++
      ['/'].intercalate (List.replicate 10 (List.replicate 250 'e') ++ ["x.js".toList]))),
    ("y.js".toList, .link "lib/y.js".toList),
    ("lib".toList, .directory [("y.js".toList, .file [])])])]
  workingDirectory := ["w".toList]

theorem canonicalize_deepTree :
    deepTree.canonicalize (Path.ofString "/w/./x.js") = .error .nameTooLong := by
  decide +kernel

theorem located_deepTree : deepTree.WellNamed ∧
    (∃ c', deepTree.isFile (Path.ofString "/w/./x.js") = true ∧
      (resolve deepTree Config.default "./x.js" (Path.ofString "/w")).run .empty =
        (.error (.load (Path.ofString "/w/./x.js") .nameTooLong), c')) ∧
    ∃ l c', Gives (resolve deepTree Config.default "./y.js" (Path.ofString "/w")) .empty
      ⟨l, .esm⟩ c' ∧ deepTree.IsCanonicalFile l.path := by
  have hnames : deepTree.WellNamed := by decide +kernel
  refine ⟨hnames, ?_, ?_⟩
  · obtain ⟨_, c', h, rfl⟩ := exists_gives_of_view (s := .empty) (f := id)
      (x := stage deepTree Config.default .esm "./x.js" (Path.ofString "/w"))
      (b := .resolved (Path.ofString "/w/./x.js")) (by decide +kernel)
    obtain ⟨hfile, hlocated, -⟩ := located_of_resolved hnames Config.default "./x.js"
      (Path.ofString "/w") .empty
    refine ⟨c', hfile _ _ _ h, (hlocated _ _ _ (.esm h)).2 fun hstays => ?_⟩
    -- a path that stays within reach would be canonicalized
    rcases canonicalize_cases hnames (hfile _ _ _ h) with ⟨-, _, hcanonical, -⟩ | ⟨hnot, -⟩
    · cases canonicalize_deepTree.symm.trans hcanonical
    · exact hnot hstays
  · obtain ⟨r, c', h, hstage⟩ := exists_gives_of_view (s := .empty) (f := Resolution.stage)
      (x := resolve deepTree Config.default "./y.js" (Path.ofString "/w"))
      (b := .esm) (by decide +kernel)
    obtain ⟨l, found⟩ := r
    cases hstage
    exact ⟨l, c', h, (located_of_resolved hnames Config.default "./y.js" (Path.ofString "/w")
      .empty).2.2 _ c' h⟩

/-- A file is found and has no location. -/
theorem unlocated_deepTree : ∃ c',
    Gives (stage deepTree Config.default .esm "./x.js" (Path.ofString "/w")) .empty
      (.resolved (Path.ofString "/w/./x.js")) c' ∧
    (resolve deepTree Config.default "./x.js" (Path.ofString "/w")).run .empty =
      (.error (.load (Path.ofString "/w/./x.js") .nameTooLong), c') := by
  obtain ⟨_, c', h, rfl⟩ := exists_gives_of_view (s := .empty) (f := id)
    (x := stage deepTree Config.default .esm "./x.js" (Path.ofString "/w"))
    (b := .resolved (Path.ofString "/w/./x.js")) (by decide +kernel)
  refine ⟨c', h, ?_⟩
  rw [(Takes.esm h).run_resolve, ModuleLocation.ofPath, canonicalize_deepTree]
  rfl

end Resolver

end ImportAtlas
