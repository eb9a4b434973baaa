import ImportAtlas.Proofs.Atlas.Listing
import ImportAtlas.Proofs.Atlas.WalkState

namespace ImportAtlas.WalkState

open Outcome

variable {t : FileTree} {config : Config} {norm : Normalizer} {specifier : String} {base : Path}
  {modules : ModuleCache} {w w' : WalkState} {v : Visit} {c c' : Caches}

/-- The visit puts its text under the key, whatever stands there: its module is
new, and the key is its bare specifier, by which no module was visited before. -/
def Displaces (w : WalkState) (v : Visit) (key : String) : Prop :=
  v.location ∉ w.visited ∧ v.Names key ∧ w.atlas.packagePaths.get? key = none

structure KeepsTexts (w : WalkState) (v : Visit) (w' : WalkState) : Prop where
  kept : ∀ key text, w.atlas.importMap.get? key = some text → ¬w.Displaces v key →
    w'.atlas.importMap.get? key = some text
  displaced : ∀ key ∈ w.atlas.importMap.keys, w.Displaces v key →
    ModuleId.isUniqueId key = true ∧ ∃ e ∈ w.expanded, e.id = key
  warned : v.location ∉ w.visited → ∃ e added, w'.expanded = w.expanded ++ [e] ∧ e.visit = v ∧
    w'.atlas.diagnostics = w.atlas.diagnostics ++ added ∧
    ∀ key, e.Claims key → ∃ text, w'.atlas.importMap.get? key = some text ∧
      (w.Displaces v key → text = e.text) ∧
      (text ≠ e.text → ∃ d ∈ added, d.Ignores v.location.path)

theorem lists_atlas (w : WalkState) :
    w.atlas.Lists (fun key => ∃ e ∈ w.expanded, e.Claims key)
      (fun text => ∃ e ∈ w.expanded, text = e.text) :=
  Atlas.lists_ofWalk w.entry w.expanded

theorem exists_id_of_mem_keys {key : String} (hkey : key ∈ w.atlas.importMap.keys)
    (hpath : w.atlas.packagePaths.get? key = none) : ∃ e ∈ w.expanded, e.id = key := by
  obtain ⟨e, he, hclaims⟩ := (lists_atlas w).keys key |>.1 hkey
  rcases hclaims with rfl | ⟨hbare, rfl⟩
  · exact ⟨e, he, rfl⟩
  · rw [atlas, Atlas.get?_packagePaths_ofWalk, Option.map_eq_none_iff, List.find?_eq_none] at hpath
    exact absurd (decide_eq_true ⟨hbare, rfl⟩) (hpath e he)

theorem Grounded.isUniqueId (h : Grounded t norm modules w c) (hmodules : modules.Loaded)
    {e : Expansion} (he : e ∈ w.expanded) : ModuleId.isUniqueId e.id = true := by
  obtain ⟨record, _, _, hrecord, hid, _⟩ := (h.expanded e he).source
  obtain ⟨name, hname⟩ := (ModuleCache.Loaded.named (hmodules.trans h.grows)).id_of_get? hrecord
  rw [← hid, hname]
  exact ModuleId.isUniqueId_make name record.contents

/-- The first text stays under its key: whatever is visited at a state of a
walk, only a bare specifier that has the form of an id displaces a text, and
else a module with another text than the one kept under a key that it claims is
warned about. -/
theorem keepsTexts_of_visit (hmodules : modules.Loaded)
    (hw : Reached t config norm specifier base modules w c) (rest : List Visit)
    (h : Gives (visit t config norm { w with pending := rest } v) c w' c') :
    w.KeepsTexts v w' := by
  have hdisplaced : ∀ key ∈ w.atlas.importMap.keys, w.Displaces v key →
      ModuleId.isUniqueId key = true ∧ ∃ e ∈ w.expanded, e.id = key := by
    rintro key hkey ⟨-, -, hpath⟩
    obtain ⟨e, he, rfl⟩ := exists_id_of_mem_keys hkey hpath
    exact ⟨hw.grounded.isUniqueId hmodules he, e, he, rfl⟩
  obtain ⟨hseen, rfl, -⟩ | ⟨hfresh, e, rfl, he⟩ := gives_visit h
  · exact ⟨fun _ _ hkey _ => hkey, hdisplaced, fun hfresh => absurd hseen hfresh⟩
  · obtain ⟨rfl, -, -⟩ := Expansion.gives_ofVisit he
    have hatlas : (expand { w with pending := rest } e).atlas = w.atlas.add e :=
      atlas_expand { w with pending := rest } e
    refine ⟨fun key text hkey hnot => ?_, hdisplaced, fun _ => ?_⟩
    · have hnot : ¬(e.visit.Names key ∧ w.atlas.packagePaths.get? key = none) :=
        fun hd => hnot ⟨hfresh, hd⟩
      rw [hatlas, Atlas.get?_importMap_add, if_neg hnot, hkey, Option.some_or]
    · obtain ⟨added, hadded, hwarns⟩ := Atlas.exists_diagnostics_add w.atlas e
      refine ⟨e, added, rfl, rfl, by rw [hatlas, hadded], fun key hclaims => ?_⟩
      obtain ⟨text, htext⟩ := OrderedMap.mem_keys_iff.1
        ((lists_atlas (expand { w with pending := rest } e)).keys key |>.2
          ⟨e, List.mem_append_right _ (List.mem_singleton_self e), hclaims⟩)
      refine ⟨text, htext, fun hd => ?_, fun hne => hwarns key hclaims ?_⟩
      · rw [hatlas, Atlas.get?_importMap_add, if_pos hd.2] at htext
        exact (Option.some.inj htext).symm
      · rw [← hatlas, htext]
        exact fun heq => hne (Option.some.inj heq)

def namesakeTree : FileTree where
  root := .directory [("x.js".toList, .file (Text.encodeUtf8 "import './c.js'".toList)),
    ("c.js".toList, .file (Text.encodeUtf8 "import 'x-5ac29cd'".toList)),
    ("node_modules".toList, .directory [("x-5ac29cd".toList, .directory
      [("index.js".toList, .file (Text.encodeUtf8 "export const x = 2;".toList))])])]
  workingDirectory := []

def namesakeVisit : Visit :=
  ⟨"x-5ac29cd", ⟨Path.ofString "/node_modules/x-5ac29cd/index.js"⟩⟩

theorem keepsTexts_namesakeTree : ModuleCache.empty.Loaded ∧ ∃ w c w' c',
    Reached namesakeTree Config.default (.basic true) "./x.js" (Path.ofString "/") .empty w c ∧
    Gives (visit namesakeTree Config.default (.basic true) { w with pending := [] } namesakeVisit)
      c w' c' ∧
    w.KeepsTexts namesakeVisit w' ∧
    w.atlas.importMap.get? "x-5ac29cd" = some "import \"c-01490b0\"" ∧
    w'.atlas.importMap.get? "x-5ac29cd" = some "export const x = 2;" ∧
    w'.atlas.diagnostics = [] := by
  have hloaded : ModuleCache.empty.Loaded := .refl
  obtain ⟨⟨w, w'⟩, c', h, hview⟩ := exists_gives_of_view (s := ⟨.empty, .empty⟩)
    (x := do
      let entry ← Expansion.follow namesakeTree Config.default (Path.ofString "/") "./x.js"
      let w₁ ← step namesakeTree Config.default (.basic true) (start entry)
      let w₂ ← step namesakeTree Config.default (.basic true) w₁
      let w₃ ← visit namesakeTree Config.default (.basic true) { w₂ with pending := [] } namesakeVisit
      return (w₂, w₃))
    (f := fun (w, w') => (w.atlas.importMap.get? "x-5ac29cd",
      w'.atlas.importMap.get? "x-5ac29cd", w'.atlas.diagnostics))
    (b := (some "import \"c-01490b0\"", some "export const x = 2;", [])) (by decide +kernel)
  obtain ⟨entry, c₀, hentry, h⟩ := gives_bind.1 h
  obtain ⟨w₁, c₁, h₁, h⟩ := gives_bind.1 h
  obtain ⟨w₂, c₂, h₂, h⟩ := gives_bind.1 h
  obtain ⟨w₃, c₃, h₃, h⟩ := gives_bind.1 h
  obtain ⟨hpair, rfl⟩ := gives_pure.1 h
  obtain ⟨rfl, rfl⟩ := Prod.mk.inj hpair
  obtain ⟨hbefore, hview⟩ := Prod.mk.inj hview
  obtain ⟨hafter, hnotes⟩ := Prod.mk.inj hview
  have hw : Reached namesakeTree Config.default (.basic true) "./x.js" (Path.ofString "/") .empty
      w₂ c₂ :=
    ⟨entry, c₀, hentry, .step (.step .refl h₁) h₂⟩
  exact ⟨hloaded, w₂, c₂, w₃, c₃, hw, h₃, keepsTexts_of_visit hloaded hw [] h₃, hbefore, hafter,
    hnotes⟩

end ImportAtlas.WalkState
