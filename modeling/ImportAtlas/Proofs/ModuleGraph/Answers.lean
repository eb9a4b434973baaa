import ImportAtlas.Proofs.ModuleGraph.Closure
import ImportAtlas.Proofs.Resolution.Replay

namespace ImportAtlas

open Outcome

def ModuleCache.textOf (t : FileTree) (c : ModuleCache) (l : ModuleLocation) :
    Except FileFault String :=
  match c.get? l with
  | some record => .ok record.contents
  | none => t.readText l.path

theorem ModuleCache.textOf_of_get? {t : FileTree} {c : ModuleCache} {l : ModuleLocation}
    {record : ModuleRecord} (h : c.get? l = some record) : c.textOf t l = .ok record.contents := by
  rw [textOf, h]

theorem ModuleCache.textOf_load {t : FileTree} {c d : ModuleCache} {location : ModuleLocation}
    {specifier : String} {record : ModuleRecord}
    (h : c.load t location specifier = (.ok record, d)) (l : ModuleLocation) :
    d.textOf t l = c.textOf t l := by
  unfold load at h
  split at h
  · cases h
    rfl
  · rename_i hnone
    split at h
    · cases h
    · rename_i hread
      cases h
      by_cases hl : record.location = l
      · have hlocation := location_of_read hread
        rw [textOf_of_get? (hl ▸ get?_add_self c record), textOf, ← hl, hlocation, hnone]
        unfold ModuleRecord.read at hread
        split at hread
        · cases hread
        · rename_i htext
          cases hread
          exact htext.symm
      · rw [textOf, get?_add_of_ne hl, ← textOf]

structure Caches.Grows (t : FileTree) (s s' : Caches) : Prop where
  manifests : s.manifests.Extends s'.manifests
  faithful : s.manifests.Faithful t → s'.manifests.Faithful t
  texts : ∀ l, s'.modules.textOf t l = s.modules.textOf t l

theorem Caches.Grows.refl (t : FileTree) (s : Caches) : s.Grows t s := ⟨.refl _, id, fun _ => rfl⟩

theorem Caches.Grows.trans {t : FileTree} {s s₁ s₂ : Caches} (h : s.Grows t s₁)
    (h' : s₁.Grows t s₂) : s.Grows t s₂ :=
  ⟨h.manifests.trans h'.manifests, h'.faithful ∘ h.faithful,
    fun l => (h'.texts l).trans (h.texts l)⟩

def Import.Settled (t : FileTree) (config : Config) (manifests : ManifestCache)
    (directory : Path) (i : Import) : Prop :=
  ∀ d : ManifestCache, manifests.Extends d → d.Faithful t →
    Gives (Resolver.resolve t config i.specifier directory) d i.resolution d

theorem Import.Settled.mono {t : FileTree} {config : Config} {c d : ManifestCache}
    {directory : Path} {i : Import} (h : i.Settled t config c directory) (hcd : c.Extends d) :
    i.Settled t config d directory :=
  fun e hde => h e (hcd.trans hde)

namespace Expansion

variable {t : FileTree} {config : Config} {norm : Normalizer} {s s' : Caches}

theorem grows_load {location : ModuleLocation} {specifier : String} {record : ModuleRecord}
    (h : Gives (Loading.load t location specifier) s record s') : s.Grows t s' := by
  obtain ⟨hload, hmanifests⟩ := Loading.gives_load h
  exact ⟨hmanifests ▸ .refl _, fun hs => hmanifests ▸ hs, ModuleCache.textOf_load hload⟩

theorem settled_follow {directory : Path} {specifier : String} {i : Import}
    (h : Gives (follow t config directory specifier) s i s') :
    s.Grows t s' ∧ i.Settled t config s'.manifests directory := by
  obtain ⟨resolution, s₁, hresolution, h⟩ := gives_bind.1 h
  obtain ⟨record, s₂, hrecord, h⟩ := gives_bind.1 h
  obtain ⟨rfl, rfl⟩ := gives_pure.1 h
  obtain ⟨hlookup, hmodules⟩ := Loading.gives_lookup.1 hresolution
  have hrepeated := Resolver.repeated_resolve hlookup
  have hgrows : s.Grows t s₁ :=
    ⟨hrepeated.grows, hrepeated.faithful, fun l => by rw [hmodules]⟩
  have hload := grows_load hrecord
  exact ⟨hgrows.trans hload, fun d hd => hrepeated.again d (hload.manifests.trans hd)⟩

theorem settled_followAll {directory : Path} {specifiers : List String} {is : List Import}
    (h : Gives (specifiers.mapM (follow t config directory)) s is s') :
    s.Grows t s' ∧ ∀ i ∈ is, i.Settled t config s'.manifests directory := by
  induction specifiers generalizing s is with
  | nil =>
    rw [List.mapM_nil] at h
    obtain ⟨rfl, rfl⟩ := gives_pure.1 h
    exact ⟨.refl t s, nofun⟩
  | cons specifier rest ih =>
    rw [List.mapM_cons] at h
    obtain ⟨i, s₁, hi, h⟩ := gives_bind.1 h
    obtain ⟨others, s₂, hothers, h⟩ := gives_bind.1 h
    obtain ⟨rfl, rfl⟩ := gives_pure.1 h
    obtain ⟨hgrows, hsettled⟩ := settled_follow hi
    obtain ⟨hgrows', hall⟩ := ih hothers
    refine ⟨hgrows.trans hgrows', fun j hj => ?_⟩
    rcases List.mem_cons.1 hj with rfl | hj
    · exact hsettled.mono hgrows'.manifests
    · exact hall j hj

theorem settled_ofVisit {visit : Visit} {e : Expansion}
    (h : Gives (ofVisit t config norm visit) s e s') :
    s.Grows t s' ∧ ∀ i ∈ e.imports, i.Settled t config s'.manifests e.visit.location.directory := by
  obtain ⟨record, s₁, hrecord, h⟩ := gives_bind.1 h
  obtain ⟨text, s₁', hnormal, h⟩ := gives_bind.1 h
  obtain ⟨references, s₂, hreferences, h⟩ := gives_bind.1 h
  obtain ⟨imports, s₃, himports, h⟩ := gives_bind.1 h
  obtain ⟨spliced, s₄, hspliced, h⟩ := gives_bind.1 h
  obtain ⟨rfl, rfl⟩ := gives_pure.1 h
  obtain ⟨-, rfl⟩ := gives_liftM.1 hnormal
  obtain ⟨-, rfl⟩ := gives_liftM.1 hreferences
  obtain ⟨-, rfl⟩ := gives_liftM.1 hspliced
  obtain ⟨hgrows, hsettled⟩ := settled_followAll himports
  exact ⟨(grows_load hrecord).trans hgrows, hsettled⟩

end Expansion

end ImportAtlas
