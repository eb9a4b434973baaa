import ImportAtlas.Proofs.ModuleCache.SlotTable

namespace ImportAtlas

open Outcome Text

namespace ModuleCache

namespace Scene

/-- What a cache answers in the course of any history, while the files change.
The first load of a location that succeeds fixes its record; a load that fails
leaves no trace but an empty slot, which is not to be seen; the size counts the
locations that have been loaded.  Walks only load, so those that share a cache use
one id for each location. -/
theorem answers_of_history :
    (∀ (t : FileTree) (events : List Event) (event : Event),
      ((SlotTable.Scene.start t).after events).answer event =
        ((start t).after events).answer event) ∧
    (∀ (t : FileTree) (events : List Event) (location : ModuleLocation),
      ((SlotTable.Scene.start t).after events).table.slot? location = some none ↔
        (∃ specifier, .load location specifier ∈ events) ∧
          location ∉ (start t).successes events) ∧
    (∀ (t : FileTree) (before : List Event) (location : ModuleLocation) (specifier : String)
        (record : ModuleRecord),
      ((start t).after before).answer (.load location specifier) = .loaded (.ok record) →
      (∀ later,
        (∀ specifier', ((((start t).after before).next (.load location specifier)).after
          later).answer (.load location specifier') = .loaded (.ok record)) ∧
        ((((start t).after before).next (.load location specifier)).after later).answer
          (.get location) = .kept (some record)) ∧
      (location ∉ (start t).successes before →
        ((start t).after before).files.readText location.path = .ok record.contents ∧
        record.id = ModuleId.make specifier record.contents)) ∧
    (∀ (t : FileTree) (before : List Event) (location : ModuleLocation) (specifier : String)
        (e : AtlasError),
      ((start t).after before).answer (.load location specifier) = .loaded (.error e) →
      ((start t).after before).next (.load location specifier) = (start t).after before ∧
      ∀ later, location ∉ ((start t).after before).successes later → ∀ specifier',
        (((start t).after before).after later).answer (.load location specifier') =
          .loaded (ModuleRecord.read (((start t).after before).after later).files location
            specifier')) ∧
    (∀ (t : FileTree) (events : List Event), ((start t).after events).answer .count =
      .size ((start t).successes events).dedup.length) ∧
    (∀ (s : Scene) (events : List Event), s.modules.LoadsTo (s.after events).modules) ∧
    (∀ (t : FileTree) (config : Config) (norm : Normalizer) (specifier : String) (base : Path)
        (s : Caches), s.modules.LoadsTo
          ((ModuleGraph.walk t config norm specifier base).run s).2.modules) ∧
    ∀ (t₁ t₂ : FileTree) (config₁ config₂ : Config) (norm₁ norm₂ : Normalizer)
        (specifier₁ specifier₂ : String) (base₁ base₂ : Path) (s₁ s₁' s₂ s₂' : Caches)
        (entry₁ entry₂ : Import) (es₁ es₂ : List Expansion),
      (ModuleGraph.walk t₁ config₁ norm₁ specifier₁ base₁).run s₁ = (.ok (entry₁, es₁), s₁') →
      s₁'.modules.LoadsTo s₂.modules →
      (ModuleGraph.walk t₂ config₂ norm₂ specifier₂ base₂).run s₂ = (.ok (entry₂, es₂), s₂') →
      ∀ (l : ModuleLocation) (id id' : String), ModuleGraph.Names entry₁ es₁ l id →
        (ModuleGraph.Names entry₁ es₁ l id' ∨ ModuleGraph.Names entry₂ es₂ l id') →
        id = id' := by
  refine ⟨SlotTable.Scene.answer_after_start, SlotTable.Scene.slot?_after_start_eq_some_none,
    ?_, ?_, ?_, loadsTo_after, ?_, ?_⟩
  · intro t before location specifier record h
    exact ⟨kept_of_answer h, first_of_answer h⟩
  · intro t before location specifier e h
    exact unchanged_of_answer h
  · intro t events
    simp only [answer]
    rw [(accounts_start t events).size_eq]
  · intro t config norm specifier base s
    exact (ModuleGraph.loads_walk specifier base).loadsTo s
  · intro t₁ t₂ config₁ config₂ norm₁ norm₂ specifier₁ specifier₂ base₁ base₂ s₁ s₁' s₂ s₂'
      entry₁ entry₂ es₁ es₂ h₁ hbetween h₂ l id id' hid hid'
    rcases hid' with hid' | hid'
    · exact hid.unique h₁ hid'
    · exact hid.agree h₁ hbetween h₂ hid'

def lateFile : ModuleLocation := ⟨Path.ofString "/m.js"⟩

def lateEvents : List Event :=
  [.load lateFile "early", .edit (·.writeFile lateFile.path (encodeUtf8 "1".toList))]

theorem answers_of_lateEvents :
    ((SlotTable.Scene.start Atlas.cycleTree).after
      [.load lateFile "early"]).table.slot? lateFile = some none ∧
    (∃ e record,
      ((start Atlas.cycleTree).after []).answer (.load lateFile "early") = .loaded (.error e) ∧
      ((start Atlas.cycleTree).after lateEvents).answer (.load lateFile "./m.js") =
        .loaded (.ok record) ∧
      lateFile ∉ (start Atlas.cycleTree).successes lateEvents ∧
      ((start Atlas.cycleTree).after []).next (.load lateFile "early") =
        (start Atlas.cycleTree).after [] ∧
      record.id = ModuleId.make "./m.js" record.contents ∧
      ((((start Atlas.cycleTree).after lateEvents).next (.load lateFile "./m.js")).after
        [.edit (·.remove lateFile.path)]).answer (.load lateFile "late") =
          .loaded (.ok record)) ∧
    ∃ entry₁ entry₂ es₁ es₂ s₁ s₂ id id',
      (ModuleGraph.walk Atlas.cycleTree Config.default (.basic true) "./a.js" (Path.ofString "/")).run
        ⟨.empty, .empty⟩ = (.ok (entry₁, es₁), s₁) ∧
      (ModuleGraph.walk Atlas.cycleTree Config.default (.basic true) "b" (Path.ofString "/")).run s₁ =
        (.ok (entry₂, es₂), s₂) ∧
      ModuleGraph.Names entry₁ es₁ ⟨Path.ofString "/a.js"⟩ id ∧
      ModuleGraph.Names entry₂ es₂ ⟨Path.ofString "/a.js"⟩ id' ∧ id = id' := by
  obtain ⟨-, hempty, hkept, hfailed, -, -, -, hids⟩ := answers_of_history
  refine ⟨(hempty _ _ _).2 ⟨⟨"early", List.mem_singleton_self _⟩, by decide +kernel⟩, ?_, ?_⟩
  · obtain ⟨e, he⟩ := exists_error_of_isOk
      (x := (empty.load Atlas.cycleTree lateFile "early").1) (by decide +kernel)
    have hearly : ((start Atlas.cycleTree).after []).answer (.load lateFile "early") =
        .loaded (.error e) := congrArg Answer.loaded he
    obtain ⟨record, hrecord⟩ := exists_of_isOk (x := (((start Atlas.cycleTree).after
      lateEvents).modules.load ((start Atlas.cycleTree).after lateEvents).files lateFile
        "./m.js").1) (by decide +kernel)
    have hanswer : ((start Atlas.cycleTree).after lateEvents).answer (.load lateFile "./m.js") =
        .loaded (.ok record) := congrArg Answer.loaded hrecord
    have hfirst : lateFile ∉ (start Atlas.cycleTree).successes lateEvents := by decide +kernel
    obtain ⟨hlater, hread⟩ := hkept _ lateEvents lateFile "./m.js" record hanswer
    exact ⟨e, record, hearly, hanswer, hfirst, (hfailed _ [] lateFile "early" e hearly).1,
      (hread hfirst).2, (hlater [.edit (·.remove lateFile.path)]).1 "late"⟩
  · obtain ⟨⟨⟨entry₁, es₁⟩, entry₂, es₂⟩, s₂, h, hview⟩ := exists_gives_of_view
      (s := ⟨.empty, .empty⟩)
      (x := do
        let first ← ModuleGraph.walk Atlas.cycleTree Config.default (.basic true) "./a.js"
          (Path.ofString "/")
        let second ← ModuleGraph.walk Atlas.cycleTree Config.default (.basic true) "b"
          (Path.ofString "/")
        return (first, second))
      (f := fun (first, second) => (first.2.map (·.visit.location), second.2.map (·.visit.location)))
      (b := ([⟨Path.ofString "/a.js"⟩, ⟨Path.ofString "/node_modules/b/index.js"⟩],
        [⟨Path.ofString "/node_modules/b/index.js"⟩, ⟨Path.ofString "/a.js"⟩])) (by decide +kernel)
    obtain ⟨first, s₁, h₁, h⟩ := gives_bind.1 h
    obtain ⟨second, s, h₂, h⟩ := gives_bind.1 h
    obtain ⟨heq, rfl⟩ := gives_pure.1 h
    cases heq
    obtain ⟨hview₁, hview₂⟩ := Prod.mk.inj hview
    obtain ⟨e₁, he₁, hl₁⟩ := List.mem_map.1 (hview₁ ▸ List.mem_cons_self)
    obtain ⟨e₂, he₂, hl₂⟩ := List.mem_map.1
      (hview₂ ▸ List.mem_cons_of_mem _ (List.mem_singleton_self _))
    have hnames₁ : ModuleGraph.Names entry₁ es₁ _ e₁.id := .inl ⟨e₁, he₁, hl₁, rfl⟩
    have hnames₂ : ModuleGraph.Names entry₂ es₂ _ e₂.id := .inl ⟨e₂, he₂, hl₂, rfl⟩
    exact ⟨entry₁, entry₂, es₁, es₂, s₁, s, e₁.id, e₂.id, h₁, h₂, hnames₁, hnames₂,
      hids _ _ _ _ _ _ _ _ _ _ _ _ _ _ _ _ _ _ h₁ .refl h₂ _ _ _ hnames₁ (.inr hnames₂)⟩

end Scene

end ModuleCache

end ImportAtlas
