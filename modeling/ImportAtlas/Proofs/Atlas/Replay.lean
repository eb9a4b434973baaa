import ImportAtlas.Proofs.Atlas.Keys
import ImportAtlas.Proofs.ModuleGraph.Shape

/-! Walks can be replayed.  A walk that has succeeded gives the same answer with
every cache that has the modules that it left, and loads nothing more. -/

namespace ImportAtlas

open Outcome Text

def Loading.Replays {α : Type} (x : Loading α) : Prop :=
  ∀ ⦃manifests c a manifests' c'⦄, Gives x ⟨manifests, c⟩ a ⟨manifests', c'⟩ →
    c.Extends c' ∧ ∀ d : ModuleCache, c'.Extends d → Gives x ⟨manifests, d⟩ a ⟨manifests', d⟩

namespace Loading

theorem replays_load (t : FileTree) (location : ModuleLocation) (specifier : String) :
    Replays (load t location specifier) := by
  intro manifests c record manifests' c' h
  obtain ⟨hload, hmanifests⟩ := gives_load h
  cases hmanifests
  constructor
  · have hgrows := ModuleCache.extends_load c t location specifier
    rwa [hload] at hgrows
  · intro d hd
    have hknown := hd _ _ (ModuleCache.get?_of_load hload)
    exact gives_load_of (ModuleCache.load_of_get? hknown t specifier)

theorem Replays.bind {α β : Type} {x : Loading α} {f : α → Loading β} (hx : Replays x)
    (hf : ∀ a, Replays (f a)) : Replays (x >>= f) := by
  intro manifests c b manifests' c' h
  obtain ⟨a, ⟨manifests₁, c₁⟩, ha, hb⟩ := gives_bind.1 h
  obtain ⟨hgrows, hagain⟩ := hx ha
  obtain ⟨hgrows', hagain'⟩ := hf a hb
  refine ⟨hgrows.trans hgrows', fun d hd => ?_⟩
  exact gives_bind.2 ⟨a, ⟨manifests₁, d⟩, hagain d (hgrows'.trans hd), hagain' d hd⟩

end Loading

theorem Loads.replays {t : FileTree} {α : Type} {x : Loading α} (h : Loads t x) :
    x.Replays := by
  induction h with
  | pure a =>
    intro manifests c b manifests' c' h
    obtain ⟨rfl, heq⟩ := gives_pure.1 h
    cases heq
    exact ⟨.refl c, fun d _ => gives_pure.2 ⟨rfl, rfl⟩⟩
  | liftM x =>
    intro manifests c a manifests' c' h
    obtain ⟨hx, heq⟩ := gives_liftM.1 h
    cases heq
    exact ⟨.refl c, fun d _ => gives_liftM.2 ⟨hx, rfl⟩⟩
  | lookup l =>
    intro manifests c a manifests' c' h
    obtain ⟨hl, hmodules⟩ := Loading.gives_lookup.1 h
    cases hmodules
    exact ⟨.refl c, fun d _ => Loading.gives_lookup.2 ⟨hl, rfl⟩⟩
  | load location specifier => exact Loading.replays_load t location specifier
  | bind _ _ ihx ihf => exact ihx.bind ihf

namespace Atlas

/-- A walk that has succeeded succeeds again with every cache that has what it
left: with the same atlas, and the cache stays as it is.  The modules that other
requests have added since do not matter. -/
theorem trace_again {t : FileTree} {config : Config} {norm : Normalizer} {specifier : String}
    {base : Path} {manifests manifests' : ManifestCache} {c c₁ c₂ : ModuleCache} {a : Atlas}
    (h : (trace t config norm specifier base).run ⟨manifests, c⟩ = (.ok a, ⟨manifests', c₁⟩))
    (hc₂ : c₁.Extends c₂) :
    (trace t config norm specifier base).run ⟨manifests, c₂⟩ = (.ok a, ⟨manifests', c₂⟩) := by
  have hloads : Loads t (trace t config norm specifier base) :=
    (ModuleGraph.loads_walk specifier base).bind fun _ => .pure _
  exact (hloads.replays h).2 c₂ hc₂

def asideTree : FileTree where
  root := .directory [("a.js".toList, .file (encodeUtf8 "import './b.js'".toList)),
    ("b.js".toList, .file (encodeUtf8 "export {}".toList)),
    ("c.js".toList, .file (encodeUtf8 "export {}".toList))]
  workingDirectory := []

theorem trace_again_asideTree : ∃ a s₁ record c₂,
    (trace asideTree Config.default (.basic true) "./a.js" (Path.ofString "/")).run ⟨.empty, .empty⟩ =
      (.ok a, s₁) ∧
    s₁.modules.get? ⟨Path.ofString "/c.js"⟩ = none ∧
    s₁.modules.load asideTree ⟨Path.ofString "/c.js"⟩ "./c.js" = (.ok record, c₂) ∧
    s₁.modules.Extends c₂ ∧
    (trace asideTree Config.default (.basic true) "./a.js" (Path.ofString "/")).run ⟨.empty, c₂⟩ =
      (.ok a, ⟨s₁.manifests, c₂⟩) := by
  have hnone : (((trace asideTree Config.default (.basic true) "./a.js" (Path.ofString "/")).run
      ⟨.empty, .empty⟩).2.modules.get? ⟨Path.ofString "/c.js"⟩) = none := by decide +kernel
  obtain ⟨a, s₁, h⟩ : ∃ a s₁, Gives
      (trace asideTree Config.default (.basic true) "./a.js" (Path.ofString "/"))
      ⟨.empty, .empty⟩ a s₁ :=
    exists_gives (by decide +kernel)
  rw [show (trace asideTree Config.default (.basic true) "./a.js" (Path.ofString "/")).run _ = _
    from h] at hnone
  have hgrows := ModuleCache.extends_load s₁.modules asideTree ⟨Path.ofString "/c.js"⟩ "./c.js"
  obtain ⟨record, hread⟩ := exists_of_isOk
    (x := ModuleRecord.read asideTree ⟨Path.ofString "/c.js"⟩ "./c.js") (by decide +kernel)
  have hload : s₁.modules.load asideTree ⟨Path.ofString "/c.js"⟩ "./c.js" =
      (.ok record, s₁.modules.add record) := by
    rw [ModuleCache.load, hnone]
    simp only [hread]
  rw [hload] at hgrows
  exact ⟨a, s₁, record, _, h, hnone, hload, hgrows, trace_again h hgrows⟩

end Atlas

end ImportAtlas
