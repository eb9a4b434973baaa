import ImportAtlas.Proofs.ModuleGraph.Closure
import ImportAtlas.Proofs.ModuleGraph.Shape

namespace ImportAtlas

open Outcome

theorem Loads.loadsTo {t : FileTree} {α : Type} {x : Loading α} (h : Loads t x) (s : Caches) :
    s.modules.LoadsTo (x.run s).2.modules := by
  induction h generalizing s with
  | pure a => exact .refl
  | liftM x => exact .refl
  | lookup l => exact .refl
  | load location specifier => exact .load t location specifier .refl
  | @bind _ _ x f _ _ ihx ihf =>
    have hs := ihx s
    rcases hr : x.run s with ⟨e | a, s'⟩
    · rw [run_bind_of_error hr]
      rwa [hr] at hs
    · rw [run_bind_of_gives hr]
      rw [hr] at hs
      exact hs.trans (ihf a s')

namespace ModuleGraph

variable {t : FileTree} {config : Config} {norm : Normalizer} {specifier : String} {base : Path}
  {s s' : Caches} {entry : Import} {es : List Expansion}

/-- The walk says that the module at the location has the id: it expands the
module under that id, or the id is spliced in for an import of it. -/
def Names (entry : Import) (es : List Expansion) (location : ModuleLocation) (id : String) :
    Prop :=
  (∃ e ∈ es, e.visit.location = location ∧ e.id = id) ∨
    ∃ i ∈ entry :: es.flatMap Expansion.imports, i.resolution.location = location ∧ i.id = id

theorem get?_of_names (h : Gives (walk t config norm specifier base) s (entry, es) s')
    {location : ModuleLocation} {id : String} (hnames : Names entry es location id) :
    ∃ record, s'.modules.get? location = some record ∧ record.id = id := by
  obtain ⟨hclosed, -⟩ := gives_walk h
  have loaded (i : Import) (hi : i ∈ entry :: es.flatMap Expansion.imports) :
      i.Loaded t s'.modules := by
    rcases List.mem_cons.1 hi with rfl | hi
    · obtain ⟨s₁, hentry, hothers⟩ := exists_expand_of_walk h
      obtain ⟨-, hloaded, -⟩ := Expansion.gives_follow hentry
      exact hloaded.mono (gives_expand hothers).2.extend
    · obtain ⟨e, he, hi⟩ := List.mem_flatMap.1 hi
      exact (hclosed.grounded e he).imports i hi
  rcases hnames with ⟨e, he, rfl, rfl⟩ | ⟨i, hi, rfl, rfl⟩
  · obtain ⟨record, _, _, hget, hid, -⟩ := (hclosed.grounded e he).source
    exact ⟨record, hget, hid⟩
  · exact (loaded i hi).2

theorem Names.unique (h : Gives (walk t config norm specifier base) s (entry, es) s')
    {location : ModuleLocation} {id id' : String} (hnames : Names entry es location id)
    (hnames' : Names entry es location id') : id = id' := by
  obtain ⟨record, hget, rfl⟩ := get?_of_names h hnames
  obtain ⟨record', hget', rfl⟩ := get?_of_names h hnames'
  rw [hget] at hget'
  cases hget'
  rfl

theorem Names.agree (h : Gives (walk t config norm specifier base) s (entry, es) s')
    {t₂ : FileTree} {config₂ : Config} {norm₂ : Normalizer} {specifier₂ : String} {base₂ : Path}
    {s₂ s₂' : Caches} {entry₂ : Import} {es₂ : List Expansion}
    (hbetween : s'.modules.LoadsTo s₂.modules)
    (h₂ : Gives (walk t₂ config₂ norm₂ specifier₂ base₂) s₂ (entry₂, es₂) s₂')
    {location : ModuleLocation} {id id₂ : String} (hnames : Names entry es location id)
    (hnames₂ : Names entry₂ es₂ location id₂) : id = id₂ := by
  obtain ⟨record, hget, rfl⟩ := get?_of_names h hnames
  obtain ⟨record₂, hget₂, rfl⟩ := get?_of_names h₂ hnames₂
  have hgrows := hbetween.trans (gives_walk h₂).2
  rw [hgrows.extend location record hget] at hget₂
  cases hget₂
  rfl

end ModuleGraph

end ImportAtlas
