import ImportAtlas.Proofs.ModuleCache.Growth
import ImportAtlas.Proofs.ModuleGraph.Stack
import ImportAtlas.Proofs.Resolution.Found

/-! A walk is closed: each module that an expanded one imports is expanded too,
under the id that was spliced in for it. -/

namespace ImportAtlas

open Outcome

theorem Loading.run_lookup {α : Type} (l : Lookup α) (s : Caches) :
    (Loading.lookup l).run s =
      ((l.run s.manifests).1, { s with manifests := (l.run s.manifests).2 }) := rfl

theorem Loading.run_load (t : FileTree) (location : ModuleLocation) (specifier : String)
    (s : Caches) : (Loading.load t location specifier).run s =
      ((s.modules.load t location specifier).1,
        { s with modules := (s.modules.load t location specifier).2 }) := rfl

theorem Loading.gives_lookup {α : Type} {l : Lookup α} {s s' : Caches} {a : α} :
    Gives (Loading.lookup l) s a s' ↔
      Gives l s.manifests a s'.manifests ∧ s'.modules = s.modules := by
  rw [Gives, Gives, run_lookup]
  rcases l.run s.manifests with ⟨result, manifests⟩
  constructor
  · intro h
    cases h
    exact ⟨rfl, rfl⟩
  · rintro ⟨h, hm⟩
    cases h
    rw [← hm]

theorem Loading.gives_load {t : FileTree} {location : ModuleLocation} {specifier : String}
    {s s' : Caches} {record : ModuleRecord}
    (h : Gives (Loading.load t location specifier) s record s') :
    s.modules.load t location specifier = (.ok record, s'.modules) ∧
      s'.manifests = s.manifests := by
  rw [Gives, run_load] at h
  rcases hl : s.modules.load t location specifier with ⟨result, modules⟩
  rw [hl] at h
  cases h
  exact ⟨rfl, rfl⟩

theorem Loading.gives_load_of {t : FileTree} {location : ModuleLocation} {specifier : String}
    {manifests : ManifestCache} {c d : ModuleCache} {record : ModuleRecord}
    (h : c.load t location specifier = (.ok record, d)) :
    Gives (Loading.load t location specifier) ⟨manifests, c⟩ record ⟨manifests, d⟩ := by
  rw [Gives, run_load, h]

/-- The id that an import names is that of its module in the cache. -/
def Import.Loaded (t : FileTree) (modules : ModuleCache) (i : Import) : Prop :=
  i.resolution.location ∈ t.locations ∧
    ∃ record, modules.get? i.resolution.location = some record ∧ record.id = i.id

/-- What an expansion is made of, as the cache has it: the record of its module,
and the references of the normalized text with an import for each. -/
structure Expansion.Grounded (t : FileTree) (norm : Normalizer) (modules : ModuleCache)
    (e : Expansion) : Prop where
  source : ∃ record text references,
    modules.get? e.visit.location = some record ∧ record.id = e.id ∧
    norm.normalize e.visit.location.path record.contents = .ok text ∧
    scan text = .ok references ∧
    splice text references (fun r => idOf e.imports r.specifier) = .ok e.text ∧
    e.imports.map Import.specifier = Expansion.specifiers references
  imports : ∀ i ∈ e.imports, i.Loaded t modules

theorem Expansion.exists_idOf {imports : List Import} {references : List Reference}
    (h : imports.map Import.specifier = specifiers references) {r : Reference}
    (hr : r ∈ references) : ∃ i ∈ imports, idOf imports r.specifier = some i.id := by
  have hmem : r.specifier ∈ imports.map Import.specifier := by
    rw [h, specifiers, List.mem_eraseDups]
    exact List.mem_map_of_mem hr
  obtain ⟨i, hi, heq⟩ := List.mem_map.1 hmem
  cases hf : imports.find? (·.specifier = r.specifier) with
  | none =>
    have := List.find?_eq_none.1 hf i hi
    simp [heq] at this
  | some j => exact ⟨j, List.mem_of_find?_eq_some hf, by simp [idOf, hf]⟩

theorem Import.Loaded.mono {t : FileTree} {c d : ModuleCache} {i : Import} (h : i.Loaded t c)
    (hcd : c.Extends d) : i.Loaded t d := by
  obtain ⟨hl, record, hr, hid⟩ := h
  exact ⟨hl, record, hcd _ _ hr, hid⟩

theorem Expansion.Grounded.mono {t : FileTree} {norm : Normalizer} {c d : ModuleCache} {e : Expansion}
    (h : e.Grounded t norm c) (hcd : c.Extends d) : e.Grounded t norm d := by
  obtain ⟨record, text, references, hr, hrest⟩ := h.source
  exact ⟨⟨record, text, references, hcd _ _ hr, hrest⟩, fun i hi => (h.imports i hi).mono hcd⟩

variable {t : FileTree} {config : Config} {norm : Normalizer} {s s' : Caches}

theorem FileTree.mem_locations {l : ModuleLocation} (h : l.path ∈ t.filePaths) :
    l ∈ t.locations :=
  List.mem_map.2 ⟨l.path, h, rfl⟩

namespace Loading

theorem loadsTo_load {location : ModuleLocation} {specifier : String} {record : ModuleRecord}
    (h : Gives (Loading.load t location specifier) s record s') :
    s.modules.LoadsTo s'.modules := by
  have hl : (s.modules.load t location specifier).2 = s'.modules := by rw [(gives_load h).1]
  exact hl ▸ .load t location specifier .refl

end Loading

namespace Expansion

theorem gives_follow {directory : Path} {specifier : String} {i : Import}
    (h : Gives (follow t config directory specifier) s i s') :
    i.specifier = specifier ∧ i.Loaded t s'.modules ∧ s.modules.LoadsTo s'.modules := by
  obtain ⟨resolution, s₁, hresolution, h⟩ := gives_bind.1 h
  obtain ⟨record, s₂, hrecord, h⟩ := gives_bind.1 h
  obtain ⟨rfl, rfl⟩ := gives_pure.1 h
  obtain ⟨hlookup, hmodules⟩ := Loading.gives_lookup.1 hresolution
  have hfile := Resolver.ensures_resolve specifier directory _ _ _ hlookup
  refine ⟨rfl, ⟨FileTree.mem_locations hfile, record, ?_, rfl⟩, ?_⟩
  · exact ModuleCache.get?_of_load (Loading.gives_load hrecord).1
  · rw [← hmodules]
    exact Loading.loadsTo_load hrecord

theorem gives_followAll {directory : Path} {specifiers : List String} {is : List Import}
    (h : Gives (specifiers.mapM (follow t config directory)) s is s') :
    is.map Import.specifier = specifiers ∧ (∀ i ∈ is, i.Loaded t s'.modules) ∧
      s.modules.LoadsTo s'.modules := by
  induction specifiers generalizing s is with
  | nil =>
    rw [List.mapM_nil] at h
    obtain ⟨rfl, rfl⟩ := gives_pure.1 h
    exact ⟨rfl, by simp, .refl⟩
  | cons specifier rest ih =>
    rw [List.mapM_cons] at h
    obtain ⟨i, s₁, hi, h⟩ := gives_bind.1 h
    obtain ⟨others, s₂, hothers, h⟩ := gives_bind.1 h
    obtain ⟨rfl, rfl⟩ := gives_pure.1 h
    obtain ⟨hspecifier, hloaded, hgrows⟩ := gives_follow hi
    obtain ⟨hrest, hall, hgrows'⟩ := ih hothers
    refine ⟨by simp [hspecifier, hrest], ?_, hgrows.trans hgrows'⟩
    intro j hj
    rcases List.mem_cons.1 hj with rfl | hj
    · exact hloaded.mono hgrows'.extend
    · exact hall j hj

theorem gives_ofVisit {visit : Visit} {e : Expansion}
    (h : Gives (ofVisit t config norm visit) s e s') :
    e.visit = visit ∧ e.Grounded t norm s'.modules ∧ s.modules.LoadsTo s'.modules := by
  obtain ⟨record, s₁, hrecord, h⟩ := gives_bind.1 h
  obtain ⟨text, s₁', hnormalized, h⟩ := gives_bind.1 h
  obtain ⟨references, s₂, hreferences, h⟩ := gives_bind.1 h
  obtain ⟨imports, s₃, himports, h⟩ := gives_bind.1 h
  obtain ⟨spliced, s₄, hspliced, h⟩ := gives_bind.1 h
  obtain ⟨rfl, rfl⟩ := gives_pure.1 h
  obtain ⟨hnormal, rfl⟩ := gives_liftM.1 hnormalized
  obtain ⟨hscan, rfl⟩ := gives_liftM.1 hreferences
  obtain ⟨hsplice, rfl⟩ := gives_liftM.1 hspliced
  obtain ⟨hspecifiers, hloaded, hgrows⟩ := gives_followAll himports
  have hget := ModuleCache.get?_of_load (Loading.gives_load hrecord).1
  refine ⟨rfl, ⟨⟨record, text, references, hgrows.extend _ _ hget, rfl, hnormal,
    mapError_eq_ok.1 hscan, mapError_eq_ok.1 hsplice, hspecifiers⟩, hloaded⟩, ?_⟩
  exact (Loading.loadsTo_load hrecord).trans hgrows

end Expansion

namespace ModuleGraph

structure Closed (t : FileTree) (norm : Normalizer) (modules : ModuleCache)
    (fresh : List ModuleLocation) (stack : List Visit) (es : List Expansion) : Prop where
  grounded : ∀ e ∈ es, e.Grounded t norm modules
  visits : ∀ v ∈ stack, v.location ∈ fresh → ∃ e ∈ es, e.visit.location = v.location
  imports : ∀ e ∈ es, ∀ i ∈ e.imports, i.resolution.location ∈ fresh →
    ∃ e' ∈ es, e'.visit.location = i.resolution.location

theorem Closed.seen {modules : ModuleCache} {fresh : List ModuleLocation} {v : Visit}
    {stack : List Visit} {es : List Expansion} (hseen : v.location ∉ fresh)
    (h : Closed t norm modules fresh stack es) : Closed t norm modules fresh (v :: stack) es := by
  refine ⟨h.grounded, ?_, h.imports⟩
  intro u hu hfresh
  rcases List.mem_cons.1 hu with rfl | hu
  · exact absurd hfresh hseen
  · exact h.visits u hu hfresh

theorem Closed.cons {modules : ModuleCache} {fresh : List ModuleLocation} {rest : List Visit}
    {e : Expansion} {es : List Expansion} (he : e.Grounded t norm modules)
    (h : Closed t norm modules (Fresh.without e.visit.location fresh)
      (e.imports.map Import.visit ++ rest) es) :
    Closed t norm modules fresh (e.visit :: rest) (e :: es) := by
  -- A fresh location is the one that has just been expanded, or still fresh.
  have found : ∀ l ∈ fresh, (l ≠ e.visit.location → ∃ e' ∈ es, e'.visit.location = l) →
      ∃ e' ∈ e :: es, e'.visit.location = l := by
    intro l _ hl
    by_cases heq : l = e.visit.location
    · exact ⟨e, List.mem_cons_self, heq.symm⟩
    · obtain ⟨e', he', hloc⟩ := hl heq
      exact ⟨e', List.mem_cons_of_mem e he', hloc⟩
  refine ⟨?_, ?_, ?_⟩
  · intro e' he'
    rcases List.mem_cons.1 he' with rfl | he'
    · exact he
    · exact h.grounded e' he'
  · intro v hv hfresh
    refine found _ hfresh fun hne => ?_
    rcases List.mem_cons.1 hv with rfl | hv
    · exact absurd rfl hne
    · exact h.visits v (List.mem_append_right _ hv) (Fresh.mem_without.2 ⟨hfresh, hne⟩)
  · intro e' he' i hi hfresh
    refine found _ hfresh fun hne => ?_
    have hstill := Fresh.mem_without.2 ⟨hfresh, hne⟩
    rcases List.mem_cons.1 he' with rfl | he'
    · exact h.visits i.visit (List.mem_append_left _ (List.mem_map_of_mem hi)) hstill
    · exact h.imports e' he' i hi hstill

theorem gives_expand_cons_of_mem {fresh : List ModuleLocation} {v : Visit} {stack : List Visit}
    {es : List Expansion} (hfresh : v.location ∈ fresh)
    (h : Gives (expand t config norm fresh (v :: stack)) s es s') :
    ∃ e others s₁, es = e :: others ∧ Gives (Expansion.ofVisit t config norm v) s e s₁ ∧
      Gives (expand t config norm (Fresh.without v.location fresh)
        (e.imports.map Import.visit ++ stack)) s₁ others s' := by
  rw [expand_cons_of_mem hfresh] at h
  obtain ⟨e, s₁, he, h⟩ := gives_bind.1 h
  obtain ⟨others, s₂, hothers, h⟩ := gives_bind.1 h
  obtain ⟨rfl, rfl⟩ := gives_pure.1 h
  exact ⟨e, others, s₁, rfl, he, hothers⟩

theorem gives_expand {fresh : List ModuleLocation} {stack : List Visit} {es : List Expansion}
    (h : Gives (expand t config norm fresh stack) s es s') :
    Closed t norm s'.modules fresh stack es ∧ s.modules.LoadsTo s'.modules := by
  induction fresh, stack using stackInduction generalizing s es with
  | nil fresh =>
    rw [expand_nil] at h
    obtain ⟨rfl, rfl⟩ := gives_pure.1 h
    exact ⟨⟨fun _ => nofun, fun _ => nofun, fun _ => nofun⟩, .refl⟩
  | seen fresh v stack hseen ih =>
    rw [expand_cons_of_not_mem hseen] at h
    obtain ⟨hclosed, hgrows⟩ := ih h
    exact ⟨hclosed.seen hseen, hgrows⟩
  | visit fresh v stack hfresh ih =>
    obtain ⟨e, others, s₁, rfl, he, hothers⟩ := gives_expand_cons_of_mem hfresh h
    obtain ⟨rfl, hgrounded, hgrows⟩ := Expansion.gives_ofVisit he
    obtain ⟨hclosed, hgrows'⟩ := ih _ hothers
    exact ⟨.cons (hgrounded.mono hgrows'.extend) hclosed, hgrows.trans hgrows'⟩

section Walk

variable {specifier : String} {base : Path} {entry : Import} {es : List Expansion}

theorem exists_expand_of_walk (h : Gives (walk t config norm specifier base) s (entry, es) s') :
    ∃ s₁, Gives (Expansion.follow t config base specifier) s entry s₁ ∧
      Gives (expand t config norm t.locations [entry.visit]) s₁ es s' := by
  obtain ⟨i, s₁, hi, h⟩ := gives_bind.1 h
  obtain ⟨others, s₂, hothers, h⟩ := gives_bind.1 h
  obtain ⟨heq, rfl⟩ := gives_pure.1 h
  cases heq
  exact ⟨s₁, hi, hothers⟩

theorem gives_walk (h : Gives (walk t config norm specifier base) s (entry, es) s') :
    Closed t norm s'.modules t.locations [entry.visit] es ∧ s.modules.LoadsTo s'.modules := by
  obtain ⟨s₁, hentry, hothers⟩ := exists_expand_of_walk h
  obtain ⟨-, -, hgrows⟩ := Expansion.gives_follow hentry
  obtain ⟨hclosed, hgrows'⟩ := gives_expand hothers
  exact ⟨hclosed, hgrows.trans hgrows'⟩

theorem entry_of_walk (h : Gives (walk t config norm specifier base) s (entry, es) s') :
    entry.specifier = specifier ∧ entry.resolution.location ∈ t.locations := by
  obtain ⟨s₁, hentry, -⟩ := exists_expand_of_walk h
  obtain ⟨hspecifier, hloaded, -⟩ := Expansion.gives_follow hentry
  exact ⟨hspecifier, hloaded.1⟩

theorem head_of_walk (h : Gives (walk t config norm specifier base) s (entry, es) s') :
    ∃ first others, es = first :: others ∧ first.visit = entry.visit := by
  obtain ⟨s₁, -, hothers⟩ := exists_expand_of_walk h
  obtain ⟨first, others, s₂, rfl, hfirst, -⟩ :=
    gives_expand_cons_of_mem (v := entry.visit) (entry_of_walk h).2 hothers
  exact ⟨first, others, rfl, (Expansion.gives_ofVisit hfirst).1⟩

end Walk

theorem Closed.exists_id {modules : ModuleCache} {stack : List Visit} {es : List Expansion}
    (h : Closed t norm modules t.locations stack es) {e : Expansion} (he : e ∈ es) {i : Import}
    (hi : i ∈ e.imports) : ∃ e' ∈ es, e'.id = i.id := by
  obtain ⟨hlocation, record, hrecord, hid⟩ := (h.grounded e he).imports i hi
  obtain ⟨e', he', heq⟩ := h.imports e he i hi hlocation
  obtain ⟨record', _, _, hrecord', hid', _⟩ := (h.grounded e' he').source
  rw [heq, hrecord] at hrecord'
  cases hrecord'
  exact ⟨e', he', hid'.symm.trans hid⟩

end ModuleGraph

end ImportAtlas
