import ImportAtlas.ModuleCache

namespace ImportAtlas.ModuleCache

/-- The second cache has all records of the first. -/
def Extends (c d : ModuleCache) : Prop :=
  ∀ location record, c.get? location = some record → d.get? location = some record

theorem Extends.refl (c : ModuleCache) : c.Extends c := fun _ _ h => h

theorem Extends.trans {c d e : ModuleCache} (hcd : c.Extends d) (hde : d.Extends e) :
    c.Extends e :=
  fun location record h => hde location record (hcd location record h)

/-- The caches that loads lead to.  The tree of files may be another one at each
load. -/
inductive LoadsTo (c : ModuleCache) : ModuleCache → Prop
  | refl : LoadsTo c c
  | load {d : ModuleCache} (t : FileTree) (location : ModuleLocation) (specifier : String) :
      LoadsTo c d → LoadsTo c (d.load t location specifier).2

/-- The caches that there are: those that loads have filled. -/
def Loaded (c : ModuleCache) : Prop := LoadsTo empty c

def Named (c : ModuleCache) : Prop :=
  ∀ record ∈ c.records, ∃ specifier, record.id = ModuleId.make specifier record.contents

theorem id_of_read {t : FileTree} {location : ModuleLocation} {specifier : String}
    {record : ModuleRecord} (h : ModuleRecord.read t location specifier = .ok record) :
    record.id = ModuleId.make specifier record.contents := by
  unfold ModuleRecord.read at h
  split at h
  · cases h
  · cases h
    rfl

theorem get?_of_load {c d : ModuleCache} {t : FileTree} {location : ModuleLocation}
    {specifier : String} {record : ModuleRecord}
    (h : c.load t location specifier = (.ok record, d)) : d.get? location = some record := by
  unfold load at h
  split at h
  · rename_i hc
    cases h
    exact hc
  · split at h
    · cases h
    · rename_i hr
      cases h
      exact location_of_read hr ▸ get?_add_self c record

theorem extends_load (c : ModuleCache) (t : FileTree) (location : ModuleLocation)
    (specifier : String) : c.Extends (c.load t location specifier).2 := by
  intro other kept hkept
  unfold load
  split
  · exact hkept
  · rename_i hc
    split
    · exact hkept
    · rename_i hr
      rw [get?_add_of_ne, hkept]
      intro heq
      rw [location_of_read hr] at heq
      rw [← heq, hc] at hkept
      cases hkept

theorem Named.load {c : ModuleCache} (h : c.Named) (t : FileTree) (location : ModuleLocation)
    (specifier : String) : (c.load t location specifier).2.Named := by
  unfold ModuleCache.load
  split
  · exact h
  · split
    · exact h
    · rename_i hr
      intro other hother
      rcases List.mem_cons.1 hother with rfl | hother
      · exact ⟨specifier, id_of_read hr⟩
      · exact h other hother

namespace LoadsTo

variable {c d e : ModuleCache}

theorem trans (hcd : LoadsTo c d) (hde : LoadsTo d e) : LoadsTo c e := by
  induction hde with
  | refl => exact hcd
  | load t location specifier _ ih => exact .load t location specifier ih

theorem extend (h : LoadsTo c d) : c.Extends d := by
  induction h with
  | refl =>
    intro location record hr
    exact hr
  | load t location specifier _ ih =>
    intro other record hr
    exact extends_load _ t location specifier other record (ih other record hr)

theorem named (h : LoadsTo c d) (hc : c.Named) : d.Named := by
  induction h with
  | refl => exact hc
  | load t location specifier _ ih => exact ih.load t location specifier

end LoadsTo

theorem Loaded.named {c : ModuleCache} (h : c.Loaded) : c.Named :=
  LoadsTo.named h fun record hr => by cases hr

theorem Named.id_of_get? {c : ModuleCache} (h : c.Named) {location : ModuleLocation}
    {record : ModuleRecord} (hr : c.get? location = some record) :
    ∃ specifier, record.id = ModuleId.make specifier record.contents :=
  h record (List.mem_of_find?_eq_some hr)

end ImportAtlas.ModuleCache
