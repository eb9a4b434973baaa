import ImportAtlas.Proofs.Outcome
import ImportAtlas.Proofs.Path.Components
import ImportAtlas.Resolution.Basic

namespace ImportAtlas

open Outcome Text

namespace Target

variable {scope : Scope} {star : Option (List Char)} {conditions : List String} {target : String}

/-- The target is `rest` below the directory of its manifest, and no segment of
`rest` leaves that place. -/
structure Confined (target : String) (rest : List Char) : Prop where
  text : target.toList = '.' :: '/' :: rest
  segments : ∀ segment ∈ splitOn Path.isSeparator rest, isEscape segment = false

mutual

theorem exists_ofText_of_evaluate : ∀ value : Json,
    evaluate scope star conditions value = some target → ∃ raw, ofText scope star raw = some target
  | .string raw, h => ⟨raw, h⟩
  | .array items, h => exists_ofText_of_evaluateItems items h
  | .object members, h => exists_ofText_of_evaluateMembers members h

theorem exists_ofText_of_evaluateItems : ∀ items : List Json,
    evaluateItems scope star conditions items = some target →
      ∃ raw, ofText scope star raw = some target
  | item :: rest, h => by
    rcases Option.or_eq_some_iff.1 h with h | ⟨-, h⟩
    · exact exists_ofText_of_evaluate item h
    · exact exists_ofText_of_evaluateItems rest h

theorem exists_ofText_of_evaluateMembers : ∀ members : List (String × Json),
    evaluateMembers scope star conditions members = some target →
      ∃ raw, ofText scope star raw = some target
  | (key, value) :: rest, h => by
    rcases Option.or_eq_some_iff.1 h with h | ⟨-, h⟩
    · split at h
      · exact exists_ofText_of_evaluate value h
      · cases h
    · exact exists_ofText_of_evaluateMembers rest h

end

theorem ofText_eq_some {raw : String} (h : ofText scope star raw = some target) :
    accepts scope raw.toList = true ∧ target.toList = fill star raw.toList ∧
      escapes target.toList = false := by
  unfold ofText at h
  dsimp only at h
  split at h
  · rename_i haccepts
    cases h
    rw [Bool.and_eq_true, Bool.not_eq_true'] at haccepts
    rw [String.toList_ofList]
    exact ⟨haccepts.1, rfl, haccepts.2⟩
  · cases h

theorem confined_of_ofText {raw : String} (h : ofText scope star raw = some target)
    {rest : List Char} (htext : target.toList = '.' :: '/' :: rest) : Confined target rest := by
  obtain ⟨-, -, hescapes⟩ := ofText_eq_some h
  refine ⟨htext, fun segment hsegment => ?_⟩
  have hsplit : splitOn Path.isSeparator ('.' :: '/' :: rest) =
      ['.'] :: splitOn Path.isSeparator rest :=
    splitOn_append (p := Path.isSeparator) (c := '/') rfl ['.'] rest
  rw [htext, escapes, show (fun c : Char => decide (c = '/')) = Path.isSeparator from rfl, hsplit,
    List.tail_cons, List.any_eq_false] at hescapes
  simpa using hescapes segment hsegment

theorem fill_cons {c : Char} (hc : c ≠ '*') (star : Option (List Char)) (cs : List Char) :
    fill star (c :: cs) = c :: fill star cs := by
  cases star with
  | none => rfl
  | some text => simp [fill, hc]

theorem exists_confined_of_ofText {raw : String} (h : ofText .exports star raw = some target) :
    ∃ rest, Confined target rest := by
  obtain ⟨haccepts, htext, -⟩ := ofText_eq_some h
  simp only [accepts, startsWith, Option.isSome_iff_exists, reduceCtorEq, decide_false,
    Bool.false_and, Bool.or_false] at haccepts
  obtain ⟨rest, hrest⟩ := haccepts
  rw [stripHead_eq_some.1 hrest, List.cons_append, List.singleton_append,
    fill_cons (by decide), fill_cons (by decide)] at htext
  exact ⟨_, confined_of_ofText h htext⟩

theorem exists_ofText_of_evaluateEntry {members : Json.Members} {key : String}
    (h : evaluateEntry scope members key conditions = some target) :
    ∃ star raw, ofText scope star raw = some target := by
  obtain ⟨⟨value, star⟩, -, h⟩ := Option.bind_eq_some_iff.1 h
  exact ⟨star, exists_ofText_of_evaluate value h⟩

theorem exists_confined_of_ofExports {field : Json} {subpath : String}
    (h : ofExports field subpath conditions = some target) : ∃ rest, Confined target rest := by
  have whole (h : (if subpath = "." then evaluate .exports none conditions field else none) =
      some target) : ∃ rest, Confined target rest := by
    split at h
    · obtain ⟨raw, hraw⟩ := exists_ofText_of_evaluate field h
      exact exists_confined_of_ofText hraw
    · cases h
  unfold ofExports at h
  dsimp only at h
  split at h
  · split at h
    · obtain ⟨star, raw, hraw⟩ := exists_ofText_of_evaluateEntry h
      exact exists_confined_of_ofText hraw
    · exact whole h
  · exact whole h

theorem confined_of_ofImports {field : Json} {specifier : String}
    (h : ofImports field specifier conditions = some target) {rest : List Char}
    (htext : target.toList = '.' :: '/' :: rest) : Confined target rest := by
  unfold ofImports at h
  split at h
  · obtain ⟨star, raw, hraw⟩ := exists_ofText_of_evaluateEntry h
    exact confined_of_ofText hraw htext
  · cases h

namespace Confined

variable {rest : List Char}

theorem not_mem_points (h : Confined target rest) :
    ['.', '.'] ∉ splitOn Path.isSeparator rest := by
  intro hmem
  have := h.segments _ hmem
  simp [isEscape] at this

theorem not_mem_point (h : Confined target rest) : ['.'] ∉ splitOn Path.isSeparator rest := by
  intro hmem
  have := h.segments _ hmem
  simp [isEscape] at this

theorem stripHeads_eq (h : Confined target rest) :
    stripHeads ['.', '/'] target.toList = rest := by
  have hnone : stripHead ['.', '/'] rest = none := by
    rw [Option.eq_none_iff_forall_ne_some]
    intro others hothers
    apply h.not_mem_point
    rw [stripHead_eq_some.1 hothers]
    have hsplit : splitOn Path.isSeparator (['.'] ++ '/' :: others) =
      splitOn Path.isSeparator ['.'] ++ splitOn Path.isSeparator others := splitOn_append rfl _ _
    rw [show ['.', '/'] ++ others = ['.'] ++ '/' :: others from rfl, hsplit]
    exact List.mem_append_left _ List.mem_cons_self
  have hone : stripHead ['.', '/'] target.toList = some rest :=
    stripHead_eq_some.2 h.text
  rw [stripHeads]
  split
  · rename_i hstrip
    rw [hone] at hstrip
    cases hstrip
  · rename_i hstrip
    rw [hone] at hstrip
    cases hstrip
    rw [stripHeads]
    split
    · rfl
    · rename_i hstrip
      rw [hnone] at hstrip
      cases hstrip

theorem isAbsolute_eq (hrest : rest.head? ≠ some '/') : (Path.mk rest).isAbsolute = false :=
  decide_eq_false hrest

theorem encloses (h : Confined target rest) (hrest : rest.head? ≠ some '/') (directory : Path) :
    directory.Encloses (directory.join ⟨rest⟩) :=
  ⟨⟨rest⟩, isAbsolute_eq hrest, h.not_mem_points, rfl⟩

theorem exists_below (h : Confined target rest) (hrest : rest.head? ≠ some '/')
    (hne : rest ≠ []) (directory : Path) :
    ∃ names, names ≠ [] ∧ directory.Below (directory.join ⟨rest⟩) names := by
  have hbelow := (Path.Below.refl directory).join (q := ⟨rest⟩) (isAbsolute_eq hrest)
    h.not_mem_points (.inr h.not_mem_point)
  refine ⟨_, ?_, hbelow⟩
  obtain ⟨c, rest, rfl⟩ := List.exists_cons_of_ne_nil hne
  have hc : c ≠ '/' := by simpa using hrest
  obtain ⟨piece, pieces, hsplit⟩ :=
    splitOn_cons_of_neg (p := Path.isSeparator) (decide_eq_false hc) rest
  have hpoint : c :: piece ≠ ['.'] := by
    intro heq
    exact h.not_mem_point (hsplit ▸ heq ▸ List.mem_cons_self)
  simp [hsplit, Path.steady, Path.isIdle, hpoint]

end Confined

end Target

namespace Resolver

variable {t : FileTree} {config : Config} {stage : Stage} {c c' : ManifestCache} {p : Path}

theorem exists_confined_of_ofExports {package : Path} {subpath : Option String} {field : Json}
    (h : ofExports t config stage package subpath field = .resolved p) :
    ∃ target rest, Target.ofExports field (exportKey subpath) (conditions config stage) =
      some target ∧ Target.Confined target rest ∧ p = package.join ⟨rest⟩ := by
  unfold ofExports at h
  split at h
  · cases h
  · rename_i target htarget
    obtain ⟨rest, hrest⟩ := Target.exists_confined_of_ofExports htarget
    rw [hrest.stripHeads_eq] at h
    dsimp only at h
    split at h
    · cases h
      exact ⟨target, rest, htarget, hrest, rfl⟩
    · cases h

theorem exists_manifest_of_inPackage {package : Path} {subpath : Option String}
    (h : Gives (inPackage t config stage subpath package) c (.resolved p) c') :
    ∃ manifest c₁, Gives (Manifest.inDirectory t package) c manifest c₁ ∧
      ∀ field, manifest.bind Manifest.exports? = some field →
        ofExports t config stage package subpath field = .resolved p := by
  obtain ⟨manifest, c₁, hmanifest, h⟩ := gives_bind.1 h
  refine ⟨manifest, c₁, hmanifest, fun field hfield => ?_⟩
  simp only [hfield] at h
  exact (gives_pure.1 h).1

theorem exists_package_of_inPackages {subpath : Option String} {last : StageOutcome}
    {packages : List Path} (hlast : last.isResolved = false)
    (h : Gives (inPackages t config stage subpath last packages) c (.resolved p) c') :
    ∃ front package back outcome c₁, packages = front ++ package :: back ∧
      Gives (inPackages t config stage subpath last front) c outcome c₁ ∧
      Gives (inPackage t config stage subpath package) c₁ (.resolved p) c' := by
  induction packages generalizing last c with
  | nil =>
    obtain ⟨rfl, -⟩ := gives_pure.1 h
    cases hlast
  | cons package rest ih =>
    obtain ⟨outcome, c₁, houtcome, h⟩ := gives_bind.1 h
    by_cases hstop : (stage = .esm || outcome.isResolved) = true
    · rw [if_pos hstop] at h
      obtain ⟨rfl, rfl⟩ := gives_pure.1 h
      exact ⟨[], package, rest, last, c, rfl, gives_pure.2 ⟨rfl, rfl⟩, houtcome⟩
    · rw [if_neg hstop] at h
      have hunresolved : outcome.isResolved = false := by
        rw [Bool.or_eq_true, not_or] at hstop
        exact Bool.not_eq_true _ ▸ hstop.2
      obtain ⟨front, found, back, outcome', c₂, rfl, hfront, hfound⟩ := ih hunresolved h
      refine ⟨package :: front, found, back, outcome', c₂, rfl, ?_, hfound⟩
      refine gives_bind.2 ⟨outcome, c₁, houtcome, ?_⟩
      rwa [if_neg hstop]

variable {directory path : Path} {names : List (List Char)}

theorem isPlain_withSuffix {n : List Char} (hn : Path.IsPlain n) {ext : String}
    (hext : '/' ∉ ext.toList) : Path.IsPlain (withSuffix n ext) := by
  have hslash : '/' ∉ withSuffix n ext := by
    rw [withSuffix, List.mem_append, not_or]
    exact ⟨hn.slashFree, hext⟩
  cases n with
  | nil => exact absurd rfl hn.ne_nil
  | cons d n =>
    refine ⟨List.cons_ne_nil _ _, fun h => ?_, fun h => ?_, hslash⟩
    · obtain ⟨rfl, hrest⟩ := List.cons.inj h
      obtain ⟨rfl, -⟩ := List.append_eq_nil_iff.1 hrest
      exact hn.ne_point rfl
    · obtain ⟨rfl, hrest⟩ := List.cons.inj h
      obtain ⟨rfl, -⟩ | ⟨rfl, -⟩ := List.append_eq_singleton_iff.1 hrest
      · exact hn.ne_point rfl
      · exact hn.ne_points rfl

section Probes

variable (hextensions : ∀ ext ∈ config.extensions, '/' ∉ ext.toList)
include hextensions

theorem below_of_mem_fileOrExtended? (h : directory.Below path names) (hnames : names ≠ []) :
    ∀ found ∈ fileOrExtended? t config path, ∃ names', directory.Below found names' := by
  intro found hfound
  unfold fileOrExtended? at hfound
  split at hfound
  · cases hfound
    exact ⟨names, h⟩
  · obtain ⟨name, hname, hfound⟩ := Option.bind_eq_some_iff.1 hfound
    obtain ⟨ext, hext, rfl⟩ := List.mem_map.1 (List.mem_of_find?_eq_some hfound)
    have hplain : Path.IsPlain name := by
      apply Path.isPlain_of_mem_components (p := path)
      rw [Path.components_of_fileName? hname]
      exact List.mem_append_right _ List.mem_cons_self
    exact ⟨_, h.withFileName hnames hname (isPlain_withSuffix hplain (hextensions ext hext))⟩

theorem below_of_mem_index? (h : directory.Below path names) :
    ∀ found ∈ index? t config path, ∃ names', directory.Below found names' := by
  intro found hfound
  obtain ⟨ext, hext, rfl⟩ := List.mem_map.1 (List.mem_of_find?_eq_some hfound)
  have hindex : Path.IsPlain "index".toList := by
    constructor <;> decide
  have hplain := isPlain_withSuffix hindex (hextensions ext hext)
  have habsolute := hplain.isAbsolute []
  rw [List.append_nil] at habsolute
  refine ⟨_, h.join habsolute ?_ (.inr ?_)⟩
  · rw [hplain.splitOn_eq, List.mem_singleton]
    exact hplain.ne_points.symm
  · rw [hplain.splitOn_eq, List.mem_singleton]
    exact hplain.ne_point.symm

end Probes

/-- The main file that the directory's manifest names, if it names one, is
written as a path below the directory. -/
def MainBelow (t : FileTree) (directory : Path) (c : ManifestCache) : Prop :=
  ∀ m c' main, Gives (Manifest.readable t directory) c (some m) c' → m.text? "main" = some main →
    (Path.ofString main).isAbsolute = false ∧
      ['.', '.'] ∉ splitOn Path.isSeparator main.toList

theorem below_of_directoryMain? (hextensions : ∀ ext ∈ config.extensions, '/' ∉ ext.toList)
    (hmain : MainBelow t path c) (h : directory.Below path names) (hnames : names ≠ [])
    (hp : Gives (directoryMain? t config path) c (some p) c') :
    ∃ names', directory.Below p names' := by
  unfold directoryMain? at hp
  split at hp
  · cases (gives_pure.1 hp).1
  · obtain ⟨manifest, c₁, hmanifest, hp⟩ := gives_bind.1 hp
    obtain ⟨hfound, -⟩ := gives_pure.1 hp
    rcases Option.or_eq_some_iff.1 hfound with hfound | ⟨-, hfound⟩
    · obtain ⟨main, htext, hfile⟩ := Option.bind_eq_some_iff.1 hfound
      obtain ⟨m, rfl, htext⟩ := Option.bind_eq_some_iff.1 htext
      obtain ⟨habsolute, hpoints⟩ := hmain m c₁ main hmanifest htext
      have hbelow := h.join habsolute hpoints (.inl (h.text_ne_nil hnames))
      rcases Option.or_eq_some_iff.1 hfile with hfile | ⟨-, hfile⟩
      · exact below_of_mem_fileOrExtended? hextensions hbelow (by simp [hnames]) p hfile
      · exact below_of_mem_index? hextensions hbelow p hfile
    · exact below_of_mem_index? hextensions h p hfound

theorem below_of_ofPath (hextensions : ∀ ext ∈ config.extensions, '/' ∉ ext.toList)
    (hmain : MainBelow t path c) (h : directory.Below path names) (hnames : names ≠ [])
    (hp : Gives (ofPath t config .commonJs path) c (.resolved p) c') :
    ∃ names', directory.Below p names' := by
  simp only [ofPath] at hp
  split at hp
  · rename_i hfound
    cases (gives_pure.1 hp).1
    exact below_of_mem_fileOrExtended? hextensions h hnames p hfound
  · obtain ⟨main, c₁, hfound, hp⟩ := gives_bind.1 hp
    obtain ⟨heq, -⟩ := gives_pure.1 hp
    cases main with
    | none => cases heq
    | some found =>
      cases heq
      exact below_of_directoryMain? hextensions hmain h hnames hfound

theorem eq_of_ofPath_esm (h : Gives (ofPath t config .esm path) c (.resolved p) c') :
    p = path := by
  simp only [ofPath] at h
  split at h
  · cases (gives_pure.1 h).1
    rfl
  · cases (gives_pure.1 h).1

theorem exists_target_of_ofPackageImport {specifier : String} {base : Path}
    (h : Gives (ofPackageImport t config stage specifier base) c (.resolved p) c') :
    ∃ m c₁ field target, Gives (Manifest.nearest t base) c (some m) c₁ ∧
      m.imports? = some field ∧
      Target.ofImports field specifier (conditions config stage) = some target ∧
      ∀ rest, target.toList = '.' :: '/' :: rest →
        Gives (ofPath t config stage (m.directory.join ⟨rest⟩)) c₁ (.resolved p) c' := by
  obtain ⟨manifest, c₁, hmanifest, h⟩ := gives_bind.1 h
  split at h
  · cases (gives_pure.1 h).1
  · rename_i m
    split at h
    · cases (gives_pure.1 h).1
    · rename_i target htarget
      obtain ⟨field, hfield, htarget⟩ := Option.bind_eq_some_iff.1 htarget
      refine ⟨m, c₁, field, target, hmanifest, hfield, htarget, fun rest hrest => ?_⟩
      have hstrip : stripHead ['.', '/'] target.toList = some rest := stripHead_eq_some.2 hrest
      rwa [hstrip] at h

/-- Where packages are left and where they are not.  A path that a package's
`exports` lead to is the target put below the package; a path that `imports`
lead to is one that is tried for the target put below the directory of the
manifest.  These lie below the directory unless what follows the point and the
slash of the target begins with a slash itself: then it takes the place of the
directory.  The second stage leaves the directory of `imports` also by an empty
target, by extensions with a slash, and by a main file that is named above. -/
theorem encapsulated_of_resolved {specifier : String} {base : Path} :
    ((ofBare t config stage specifier base).run c = (.ok (.resolved p), c') →
      ∃ parsed front package back outcome c₁ manifest c₂,
        PackageSpecifier.parse? specifier = some parsed ∧
        packageDirectories t parsed.name base = front ++ package :: back ∧
        (inPackages t config stage parsed.subpath (.unresolved .packageNotFound) front).run c =
          (.ok outcome, c₁) ∧
        (inPackage t config stage parsed.subpath package).run c₁ = (.ok (.resolved p), c') ∧
        (Manifest.inDirectory t package).run c₁ = (.ok manifest, c₂) ∧
        ∀ field, manifest.bind Manifest.exports? = some field →
          ∃ target rest, Target.ofExports field (exportKey parsed.subpath)
              (conditions config stage) = some target ∧
            Target.Confined target rest ∧ p = package.join ⟨rest⟩ ∧
            (rest.head? = some '/' → p = ⟨rest⟩) ∧
            (rest.head? ≠ some '/' → package.Encloses p)) ∧
    ((ofPackageImport t config stage specifier base).run c = (.ok (.resolved p), c') →
      ∃ m c₁ field target, (Manifest.nearest t base).run c = (.ok (some m), c₁) ∧
        m.imports? = some field ∧
        Target.ofImports field specifier (conditions config stage) = some target ∧
        ∀ rest, target.toList = '.' :: '/' :: rest →
          Target.Confined target rest ∧
          (stage = .esm → p = m.directory.join ⟨rest⟩) ∧
          (rest.head? ≠ some '/' →
            (stage = .commonJs → rest ≠ [] ∧ (∀ ext ∈ config.extensions, '/' ∉ ext.toList) ∧
              MainBelow t (m.directory.join ⟨rest⟩) c₁) →
            m.directory.Encloses p)) := by
  constructor
  · intro h
    unfold ofBare at h
    split at h
    · cases (gives_pure.1 h).1
    · rename_i parsed hparsed
      obtain ⟨front, package, back, outcome, c₁, hpackages, hfront, hpackage⟩ :=
        exists_package_of_inPackages rfl h
      obtain ⟨manifest, c₂, hmanifest, hfield⟩ := exists_manifest_of_inPackage hpackage
      refine ⟨parsed, front, package, back, outcome, c₁, manifest, c₂, hparsed, hpackages, hfront,
        hpackage, hmanifest, fun field heq => ?_⟩
      obtain ⟨target, rest, htarget, hconfined, rfl⟩ :=
        exists_confined_of_ofExports (hfield field heq)
      refine ⟨target, rest, htarget, hconfined, rfl, fun hslash => ?_, fun hslash => ?_⟩
      · simp [Path.join, Path.isAbsolute, hslash]
      · exact hconfined.encloses hslash package
  · intro h
    obtain ⟨m, c₁, field, target, hm, hfield, htarget, hpath⟩ := exists_target_of_ofPackageImport h
    refine ⟨m, c₁, field, target, hm, hfield, htarget, fun rest hrest => ?_⟩
    have hconfined := Target.confined_of_ofImports htarget hrest
    have hp := hpath rest hrest
    refine ⟨hconfined, ?_, fun hslash hprobes => ?_⟩
    · rintro rfl
      exact eq_of_ofPath_esm hp
    · -- the second stage may add an extension, an index file or a main file
      cases stage with
      | esm =>
        obtain rfl := eq_of_ofPath_esm hp
        exact hconfined.encloses hslash m.directory
      | commonJs =>
        obtain ⟨hne, hextensions, hmain⟩ := hprobes rfl
        obtain ⟨names, hnames, hbelow⟩ := hconfined.exists_below hslash hne m.directory
        obtain ⟨_, hfound⟩ := below_of_ofPath hextensions hmain hbelow hnames hp
        exact hfound.encloses

def sealedTree : FileTree where
  root := .directory [("w".toList, .directory [
    ("package.json".toList, .file (encodeUtf8
      "\x7b\"imports\": \x7b\"#lib\": \"./lib\"\x7d\x7d".toList)),
    ("secret.js".toList, .file []),
    ("lib".toList, .directory [("index.js".toList, .file [])]),
    ("node_modules".toList, .directory [("pkg".toList, .directory [
      ("package.json".toList, .file (encodeUtf8
        "\x7b\"exports\": \x7b\"./*\": \"./*\"\x7d\x7d".toList)),
      ("in.js".toList, .file [])])])])]
  workingDirectory := []

theorem encapsulated_sealedTree :
    (∃ p c', (ofBare sealedTree Config.default .esm "pkg/in.js" (Path.ofString "/w")).run .empty =
        (.ok (.resolved p), c') ∧ (Path.ofString "/w/node_modules/pkg").Encloses p) ∧
    (∃ p c', (ofBare sealedTree Config.default .esm "pkg//w/secret.js" (Path.ofString "/w")).run
        .empty = (.ok (.resolved p), c') ∧ p = Path.ofString "/w/secret.js") ∧
    ∃ p c', (ofPackageImport sealedTree Config.default .commonJs "#lib" (Path.ofString "/w")).run
        .empty = (.ok (.resolved p), c') ∧ (Path.ofString "/w").Encloses p := by
  -- The one package directory is looked into at once, with the cache as it is.
  have exported (specifier subpath target : String) (p : Path) (c' : ManifestCache)
      (hparse : PackageSpecifier.parse? specifier = some ⟨"pkg", some subpath⟩)
      (htarget : ((Manifest.inDirectory sealedTree (Path.ofString "/w/node_modules/pkg")).run
        .empty).1.toOption.map (fun o => (o.bind Manifest.exports?).map
          (Target.ofExports · ("./" ++ subpath) ["import", "node", "default"])) =
        some (some (some target)))
      (h : (ofBare sealedTree Config.default .esm specifier (Path.ofString "/w")).run .empty =
        (.ok (.resolved p), c')) : ∃ rest, target.toList = '.' :: '/' :: rest ∧
          (rest.head? = some '/' → p = ⟨rest⟩) ∧
          (rest.head? ≠ some '/' → (Path.ofString "/w/node_modules/pkg").Encloses p) := by
    obtain ⟨parsed, front, package, back, outcome, c₁, manifest, c₂, hparsed, hpackages, hfront,
      -, hmanifest, hfield⟩ := encapsulated_of_resolved.1 h
    rw [hparse] at hparsed
    cases hparsed
    have hdirectories : packageDirectories sealedTree "pkg" (Path.ofString "/w") =
        [Path.ofString "/w/node_modules/pkg"] := by decide +kernel
    rw [hdirectories, List.singleton_eq_append_iff] at hpackages
    obtain ⟨rfl, hpackage⟩ | ⟨-, hpackage⟩ := hpackages
    · cases hpackage
      obtain ⟨-, rfl⟩ := gives_pure.1 hfront
      obtain ⟨o, s, ho, hview⟩ := exists_gives_of_view htarget
      obtain ⟨rfl, -⟩ := Gives.unique hmanifest ho
      obtain ⟨field, hexports, heval⟩ := Option.map_eq_some_iff.1 hview
      obtain ⟨target', rest, htarget', hconfined, -, hslash, hinside⟩ := hfield field hexports
      have heq : some target = some target' := heval.symm.trans htarget'
      cases heq
      exact ⟨rest, hconfined.text, hslash, hinside⟩
    · cases hpackage
  refine ⟨?_, ?_, ?_⟩
  · obtain ⟨_, c', h, rfl⟩ := exists_gives_of_view (s := .empty) (f := id)
      (x := ofBare sealedTree Config.default .esm "pkg/in.js" (Path.ofString "/w"))
      (b := .resolved (Path.ofString "/w/node_modules/pkg/in.js")) (by decide +kernel)
    obtain ⟨rest, hrest, -, hinside⟩ := exported "pkg/in.js" "in.js" "./in.js" _ c' (by decide +kernel)
      (by decide +kernel) h
    cases hrest
    exact ⟨_, c', h, hinside (by decide)⟩
  · obtain ⟨_, c', h, rfl⟩ := exists_gives_of_view (s := .empty) (f := id)
      (x := ofBare sealedTree Config.default .esm "pkg//w/secret.js" (Path.ofString "/w"))
      (b := .resolved (Path.ofString "/w/secret.js")) (by decide +kernel)
    obtain ⟨rest, hrest, hslash, -⟩ := exported "pkg//w/secret.js" "/w/secret.js"
      ".//w/secret.js" _ c' (by decide +kernel) (by decide +kernel) h
    cases hrest
    exact ⟨_, c', h, hslash rfl⟩
  · obtain ⟨_, c', h, rfl⟩ := exists_gives_of_view (s := .empty) (f := id)
      (x := ofPackageImport sealedTree Config.default .commonJs "#lib" (Path.ofString "/w"))
      (b := .resolved (Path.ofString "/w/lib/index.js")) (by decide +kernel)
    obtain ⟨m, c₁, field, target, hm, hfield, htarget, hinside⟩ :=
      encapsulated_of_resolved.2 h
    -- The directory of the target has no manifest, so no main file is named.
    obtain ⟨_, s, hview, hdirectory⟩ := exists_gives_of_view (s := .empty)
      (x := do
        let m ← Manifest.nearest sealedTree (Path.ofString "/w")
        let lib ← Manifest.readable sealedTree (Path.ofString "/w/lib")
        return (m, lib.isNone))
      (f := fun o => o.1.map fun m => (m.directory, m.imports?.map
        (Target.ofImports · "#lib" ["require", "node", "default"]), o.2))
      (b := some (Path.ofString "/w", some (some "./lib"), true)) (by decide +kernel)
    obtain ⟨o, c₂, ho, hview⟩ := gives_bind.1 hview
    obtain ⟨rfl, rfl⟩ := Gives.unique hm ho
    obtain ⟨lib, c₃, hlib, hview⟩ := gives_bind.1 hview
    obtain ⟨rfl, -⟩ := gives_pure.1 hview
    simp only [Option.map_some, Option.some.injEq, Prod.mk.injEq, hfield] at hdirectory
    obtain ⟨hdirectory, heval, hnone⟩ := hdirectory
    have heq : some target = some "./lib" := htarget.symm.trans heval
    cases heq
    obtain ⟨-, -, hinside⟩ := hinside "lib".toList rfl
    rw [hdirectory] at hinside
    refine ⟨_, c', h, hinside (by decide) fun _ => ⟨by decide, by decide, ?_⟩⟩
    intro m' c₄ main hmain
    obtain ⟨rfl, -⟩ := Gives.unique hmain hlib
    cases hnone

end Resolver

end ImportAtlas
