import ImportAtlas.Proofs.Atlas.Listing

namespace ImportAtlas

open Outcome

namespace ModuleGraph

variable {t : FileTree} {config : Config} {norm : Normalizer} {s s' : Caches}

/-- The visits that a walk is asked for: the one of its entry, and those of
what modules import. -/
def Requested (entry : Import) (es : List Expansion) (v : Visit) : Prop :=
  v = entry.visit ∨ ∃ e ∈ es, ∃ i ∈ e.imports, v = i.visit

theorem mem_or_imported_of_expand {fresh : List ModuleLocation} {stack : List Visit}
    {es : List Expansion} (h : Gives (expand t config norm fresh stack) s es s') :
    ∀ e ∈ es, e.visit ∈ stack ∨ ∃ e' ∈ es, ∃ i ∈ e'.imports, e.visit = i.visit := by
  induction fresh, stack using stackInduction generalizing s es with
  | nil fresh =>
    rw [expand_nil] at h
    obtain ⟨rfl, -⟩ := gives_pure.1 h
    exact nofun
  | seen fresh v stack hseen ih =>
    rw [expand_cons_of_not_mem hseen] at h
    intro e he
    exact (ih h e he).imp_left (List.mem_cons_of_mem v)
  | visit fresh v stack hfresh ih =>
    obtain ⟨first, others, s₁, rfl, hfirst, hothers⟩ := gives_expand_cons_of_mem hfresh h
    intro e he
    rcases List.mem_cons.1 he with rfl | he
    · exact .inl ((Expansion.gives_ofVisit hfirst).1 ▸ List.mem_cons_self)
    · rcases ih _ hothers e he with hmem | ⟨e', he', i, hi, heq⟩
      · rcases List.mem_append.1 hmem with hmem | hmem
        · obtain ⟨i, hi, heq⟩ := List.mem_map.1 hmem
          exact .inr ⟨first, List.mem_cons_self, i, hi, heq.symm⟩
        · exact .inl (List.mem_cons_of_mem v hmem)
      · exact .inr ⟨e', List.mem_cons_of_mem first he', i, hi, heq⟩

variable {specifier : String} {base : Path} {entry : Import} {es : List Expansion}

theorem requested_of_walk (h : Gives (walk t config norm specifier base) s (entry, es) s') :
    ∀ e ∈ es, Requested entry es e.visit := by
  obtain ⟨s₁, -, hothers⟩ := exists_expand_of_walk h
  intro e he
  exact (mem_or_imported_of_expand hothers e he).imp_left List.mem_singleton.1

theorem exists_of_requested (h : Gives (walk t config norm specifier base) s (entry, es) s')
    {v : Visit} (hv : Requested entry es v) : ∃ e ∈ es, e.visit.location = v.location := by
  obtain ⟨hclosed, -⟩ := gives_walk h
  rcases hv with rfl | ⟨e, he, i, hi, rfl⟩
  · exact hclosed.visits entry.visit (List.mem_singleton_self _) (entry_of_walk h).2
  · exact hclosed.imports e he i hi ((hclosed.grounded e he).imports i hi).1

end ModuleGraph

namespace Atlas

/-- What an atlas says of the bare specifiers that a walk has met.  One of them
is listed if a module was visited by it, that is if it led to a module that no
other specifier had led to before; its path is that of the first such module. -/
structure ListsPackages (a : Atlas) (entry : Import) (es : List Expansion) : Prop where
  visited : ∀ v, ModuleGraph.Requested entry es v → ∃ e ∈ es, e.visit.location = v.location
  requested : ∀ e ∈ es, ModuleGraph.Requested entry es e.visit
  listed : ∀ v, ModuleGraph.Requested entry es v → isBare v.specifier = true →
    (v.specifier ∈ a.packagePaths.keys ↔ ∃ e ∈ es, e.visit.specifier = v.specifier)
  paths : ∀ key, a.packagePaths.get? key =
    (es.find? (·.visit.Names key)).map (·.visit.location.path)
  keys : ∀ key ∈ a.packagePaths.keys, key ∈ a.importMap.keys

theorem mem_keys_packagePaths_iff {entry : Import} {es : List Expansion} {key : String} :
    key ∈ (ofWalk entry es).packagePaths.keys ↔ ∃ e ∈ es, e.visit.Names key := by
  rw [OrderedMap.mem_keys_iff, get?_packagePaths_ofWalk]
  constructor
  · rintro ⟨path, hpath⟩
    obtain ⟨e, he, -⟩ := Option.map_eq_some_iff.1 hpath
    exact ⟨e, List.mem_of_find?_eq_some he, by simpa using List.find?_some he⟩
  · rintro ⟨e, he, hnames⟩
    cases hfind : es.find? (·.visit.Names key) with
    | none => exact absurd (decide_eq_true hnames) (List.find?_eq_none.1 hfind e he)
    | some first => exact ⟨_, rfl⟩

variable {t : FileTree} {config : Config} {norm : Normalizer} {specifier : String} {base : Path}
  {a : Atlas} {s s' : Caches}

/-- Every walk that succeeds lists the bare specifiers by which modules were
visited first, each with the path of the first of these modules and with a text. -/
theorem listsPackages_of_trace (h : (trace t config norm specifier base).run s = (.ok a, s')) :
    ∃ entry es, (ModuleGraph.walk t config norm specifier base).run s = (.ok (entry, es), s') ∧
      entry.specifier = specifier ∧ (∀ e ∈ es, e.Grounded t norm s'.modules) ∧
      a.ListsPackages entry es := by
  obtain ⟨⟨entry, es⟩, s₁, hwalk, h⟩ := gives_bind.1 h
  obtain ⟨rfl, rfl⟩ := gives_pure.1 h
  refine ⟨entry, es, hwalk, (ModuleGraph.entry_of_walk hwalk).1,
    (ModuleGraph.gives_walk hwalk).1.grounded, ?_⟩
  refine ⟨fun v hv => ModuleGraph.exists_of_requested hwalk hv,
    ModuleGraph.requested_of_walk hwalk, fun v _ hbare => ?_, get?_packagePaths_ofWalk entry es,
    fun key hkey => ?_⟩
  · rw [mem_keys_packagePaths_iff]
    constructor
    · rintro ⟨e, he, hnames⟩
      exact ⟨e, he, hnames.2⟩
    · rintro ⟨e, he, heq⟩
      exact ⟨e, he, by rw [heq, hbare], heq⟩
  · obtain ⟨path, hpath⟩ := OrderedMap.mem_keys_iff.1 hkey
    exact (lists_ofWalk entry es).owners key path hpath

def sidewaysTree : FileTree where
  root := .directory [
    ("a.js".toList, .file (Text.encodeUtf8 "import './node_modules/b/index.js'".toList)),
    ("c.js".toList, .file (Text.encodeUtf8 "import 'b'".toList)),
    ("node_modules".toList, .directory [("b".toList, .directory
      [("index.js".toList, .file (Text.encodeUtf8 "import '../../c.js'".toList))])])]
  workingDirectory := []

theorem listsPackages_sidewaysTree :
    ∃ a s', (trace sidewaysTree Config.default (.basic true) "./a.js" (Path.ofString "/")).run
        ⟨.empty, .empty⟩ = (.ok a, s') ∧
      ∃ entry es, (ModuleGraph.walk sidewaysTree Config.default (.basic true) "./a.js"
          (Path.ofString "/")).run ⟨.empty, .empty⟩ = (.ok (entry, es), s') ∧
        entry.specifier = "./a.js" ∧ (∀ e ∈ es, e.Grounded sidewaysTree (.basic true) s'.modules) ∧
        a.ListsPackages entry es ∧
        (∃ v, ModuleGraph.Requested entry es v ∧ v.Names "b") ∧
        a.packagePaths.get? "b" = none ∧ a.importMap.get? "b" = none := by
  obtain ⟨⟨entry, es⟩, s', hwalk, hview⟩ := exists_gives_of_view (s := ⟨.empty, .empty⟩)
    (x := ModuleGraph.walk sidewaysTree Config.default (.basic true) "./a.js" (Path.ofString "/"))
    (f := fun w => (w.2.any fun e => e.imports.any fun i => decide (i.visit.Names "b"),
      (ofWalk w.1 w.2).packagePaths.get? "b", (ofWalk w.1 w.2).importMap.get? "b"))
    (b := (true, none, none)) (by decide +kernel)
  obtain ⟨hasked, hview⟩ := Prod.mk.inj hview
  obtain ⟨hpath, htext⟩ := Prod.mk.inj hview
  obtain ⟨e, he, hany⟩ := List.any_eq_true.1 hasked
  obtain ⟨i, hi, hnames⟩ := List.any_eq_true.1 hany
  have h : Gives (trace sidewaysTree Config.default (.basic true) "./a.js" (Path.ofString "/"))
      ⟨.empty, .empty⟩ (ofWalk entry es) s' :=
    gives_bind.2 ⟨(entry, es), s', hwalk, gives_pure.2 ⟨rfl, rfl⟩⟩
  obtain ⟨entry', es', hwalk', hentry, hgrounded, hlists⟩ := listsPackages_of_trace h
  cases hwalk.symm.trans hwalk'
  exact ⟨_, s', h, entry, es, hwalk, hentry, hgrounded, hlists,
    ⟨i.visit, .inr ⟨e, he, i, hi, rfl⟩, of_decide_eq_true hnames⟩, hpath, htext⟩

end Atlas

end ImportAtlas
