import ImportAtlas.Proofs.Atlas.Keys

namespace ImportAtlas

/-- The visit was made by the bare specifier. -/
def Visit.Names (v : Visit) (key : String) : Prop := isBare v.specifier = true ∧ v.specifier = key

instance (v : Visit) (key : String) : Decidable (v.Names key) :=
  inferInstanceAs (Decidable (_ ∧ _))

structure Diagnostic.Ignores (d : Diagnostic) (path : Path) : Prop where
  severity : d.severity = .warning
  code : d.code = duplicateBareKey ∨ d.code = duplicateModuleId
  path : d.path = some path.toString

namespace Atlas

variable {a : Atlas}

@[simp] theorem importMap_noteImports (a : Atlas) (is : List Import) :
    (is.foldl noteImport a).importMap = a.importMap := by
  induction is generalizing a with
  | nil => rfl
  | cons i is ih => rw [List.foldl_cons, ih, importMap_noteImport]

@[simp] theorem packagePaths_noteImports (a : Atlas) (is : List Import) :
    (is.foldl noteImport a).packagePaths = a.packagePaths := by
  induction is generalizing a with
  | nil => rfl
  | cons i is ih => rw [List.foldl_cons, ih, packagePaths_noteImport]

@[simp] theorem packagePaths_listId (a : Atlas) (id text : String) (path : Path) :
    (a.listId id text path).packagePaths = a.packagePaths := by
  unfold listId
  split
  · split <;> rfl
  · rfl

theorem get?_packagePaths_listBare (a : Atlas) (specifier text : String) (path : Path)
    (key : String) : (a.listBare specifier text path).packagePaths.get? key =
      (a.packagePaths.get? key).or (if specifier = key then some path else none) := by
  unfold listBare
  split
  · rename_i owner howner
    rw [OrderedMap.or_of_get? howner]
    split <;> rfl
  · rename_i hnone
    exact OrderedMap.get?_insert_of_none hnone key path

theorem get?_importMap_listId (a : Atlas) (id text : String) (path : Path) (key : String) :
    (a.listId id text path).importMap.get? key =
      (a.importMap.get? key).or (if id = key then some text else none) := by
  unfold listId
  split
  · rename_i kept hkept
    rw [OrderedMap.or_of_get? hkept]
    split <;> rfl
  · rename_i hnone
    exact OrderedMap.get?_insert_of_none hnone key text

theorem get?_importMap_listBare (a : Atlas) (specifier text : String) (path : Path)
    (key : String) : (a.listBare specifier text path).importMap.get? key =
      if specifier = key ∧ a.packagePaths.get? key = none then some text
      else a.importMap.get? key := by
  unfold listBare
  split
  · rename_i owner howner
    have htaken : ¬(specifier = key ∧ a.packagePaths.get? key = none) := by
      rintro ⟨rfl, hnone⟩
      simp [howner] at hnone
    rw [if_neg htaken]
    split <;> rfl
  · rename_i hnone
    rw [OrderedMap.get?_insert]
    by_cases hkey : specifier = key
    · rw [if_pos hkey, if_pos ⟨hkey, hkey ▸ hnone⟩]
    · rw [if_neg hkey, if_neg fun h => hkey h.1]

theorem get?_packagePaths_add (a : Atlas) (e : Expansion) (key : String) :
    (a.add e).packagePaths.get? key =
      (a.packagePaths.get? key).or
        (if e.visit.Names key then some e.visit.location.path else none) := by
  unfold add
  dsimp only
  rw [packagePaths_listId]
  split
  · rename_i hbare
    rw [get?_packagePaths_listBare, packagePaths_noteImports]
    simp only [Visit.Names, hbare, true_and]
  · rename_i hbare
    rw [packagePaths_noteImports, if_neg fun h => hbare h.1, Option.or_none]

theorem get?_importMap_add (a : Atlas) (e : Expansion) (key : String) :
    (a.add e).importMap.get? key =
      if e.visit.Names key ∧ a.packagePaths.get? key = none then some e.text
      else (a.importMap.get? key).or (if e.id = key then some e.text else none) := by
  unfold add
  dsimp only
  rw [get?_importMap_listId]
  split
  · rename_i hbare
    rw [get?_importMap_listBare, packagePaths_noteImports, importMap_noteImports]
    simp only [Visit.Names, hbare, true_and]
    split
    · rw [Option.some_or]
    · rfl
  · rename_i hbare
    have hnot : ¬(e.visit.Names key ∧ a.packagePaths.get? key = none) := fun h => hbare h.1.1
    rw [importMap_noteImports, if_neg hnot]

theorem get?_packagePaths_addAll (a : Atlas) (es : List Expansion) (key : String) :
    (es.foldl add a).packagePaths.get? key =
      (a.packagePaths.get? key).or
        ((es.find? (·.visit.Names key)).map (·.visit.location.path)) := by
  induction es generalizing a with
  | nil => simp
  | cons e es ih =>
    rw [List.foldl_cons, ih, get?_packagePaths_add, Option.or_assoc, List.find?_cons]
    by_cases h : e.visit.Names key <;> simp [h]

theorem get?_packagePaths_ofWalk (entry : Import) (es : List Expansion) (key : String) :
    (ofWalk entry es).packagePaths.get? key =
      (es.find? (·.visit.Names key)).map (·.visit.location.path) := by
  rw [ofWalk, get?_packagePaths_addAll, packagePaths_noteImport]
  exact Option.none_or

theorem exists_diagnostics_noteImports (a : Atlas) (is : List Import) :
    ∃ added, (is.foldl noteImport a).diagnostics = a.diagnostics ++ added := by
  induction is generalizing a with
  | nil => exact ⟨[], (List.append_nil _).symm⟩
  | cons i is ih =>
    obtain ⟨later, hlater⟩ := ih (a.noteImport i)
    rw [List.foldl_cons, hlater]
    unfold noteImport
    split
    · exact ⟨later, rfl⟩
    · exact ⟨_ :: later, List.append_assoc _ _ _⟩

theorem exists_diagnostics_listBare (a : Atlas) (specifier text : String) (path : Path) :
    ∃ added, (a.listBare specifier text path).diagnostics = a.diagnostics ++ added ∧
      ((a.listBare specifier text path).importMap.get? specifier ≠ some text →
        ∃ d ∈ added, d.Ignores path) := by
  unfold listBare
  split
  · split
    · rename_i hsame
      exact ⟨[], (List.append_nil _).symm, fun h => absurd hsame h⟩
    · exact ⟨[_], rfl, fun _ => ⟨_, List.mem_singleton_self _, rfl, .inl rfl, rfl⟩⟩
  · exact ⟨[], (List.append_nil _).symm, fun h => absurd (OrderedMap.get?_insert_self ..) h⟩

theorem exists_diagnostics_listId (a : Atlas) (id text : String) (path : Path) :
    ∃ added, (a.listId id text path).diagnostics = a.diagnostics ++ added ∧
      ((a.listId id text path).importMap.get? id ≠ some text → ∃ d ∈ added, d.Ignores path) := by
  unfold listId
  split
  · rename_i kept hkept
    split
    · rename_i hsame
      exact ⟨[], (List.append_nil _).symm, fun h => absurd (hsame ▸ hkept) h⟩
    · exact ⟨[_], rfl, fun _ => ⟨_, List.mem_singleton_self _, rfl, .inr rfl, rfl⟩⟩
  · exact ⟨[], (List.append_nil _).symm, fun h => absurd (OrderedMap.get?_insert_self ..) h⟩

theorem exists_diagnostics_add (a : Atlas) (e : Expansion) :
    ∃ added, (a.add e).diagnostics = a.diagnostics ++ added ∧
      ∀ key, e.Claims key → (a.add e).importMap.get? key ≠ some e.text →
        ∃ d ∈ added, d.Ignores e.visit.location.path := by
  obtain ⟨notes, hnotes⟩ := exists_diagnostics_noteImports a e.imports
  unfold add
  dsimp only
  split
  · rename_i hbare
    obtain ⟨ofBare, hofBare, hwarnsBare⟩ := exists_diagnostics_listBare
      (e.imports.foldl noteImport a) e.visit.specifier e.text e.visit.location.path
    obtain ⟨ofId, hofId, hwarnsId⟩ := exists_diagnostics_listId
      ((e.imports.foldl noteImport a).listBare e.visit.specifier e.text e.visit.location.path)
      e.id e.text e.visit.location.path
    refine ⟨notes ++ ofBare ++ ofId, by simp [hofId, hofBare, hnotes], ?_⟩
    rintro key (rfl | ⟨-, rfl⟩) hkey
    · obtain ⟨d, hd, hignores⟩ := hwarnsId hkey
      exact ⟨d, List.mem_append_right _ hd, hignores⟩
    · rw [get?_importMap_listId] at hkey
      obtain ⟨d, hd, hignores⟩ := hwarnsBare fun h => hkey (by rw [h, Option.some_or])
      exact ⟨d, List.mem_append_left _ (List.mem_append_right _ hd), hignores⟩
  · rename_i hbare
    obtain ⟨ofId, hofId, hwarnsId⟩ := exists_diagnostics_listId (e.imports.foldl noteImport a)
      e.id e.text e.visit.location.path
    refine ⟨notes ++ ofId, by simp [hofId, hnotes], ?_⟩
    rintro key (rfl | ⟨hbare', -⟩) hkey
    · obtain ⟨d, hd, hignores⟩ := hwarnsId hkey
      exact ⟨d, List.mem_append_right _ hd, hignores⟩
    · exact absurd hbare' hbare

end Atlas

end ImportAtlas
