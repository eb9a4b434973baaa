import ImportAtlas.Proofs.ModuleId.Form

namespace ImportAtlas.ModuleId

open Text

variable {A k : List Char} {c : Char} {kind : SpecifierKind}

theorem lastSegment_of_forall (h : ∀ d ∈ k, Url.isSlash d = false) : lastSegment k = k := by
  rw [lastSegment, cutAtLast_of_forall h]

theorem lastSegment_append (hk : ∀ d ∈ k, Url.isSlash d = false) (hc : Url.isSlash c = true) :
    lastSegment (A ++ c :: k) = k := by
  rw [lastSegment, cutAtLast_append hk hc]

theorem lastSegment_append_of_any (h : k.any Url.isSlash = true) :
    lastSegment (A ++ k) = lastSegment k := by
  rcases forall_or_exists_last Url.isSlash k with hk | ⟨s, c, rest, rfl, hc, hrest⟩
  · obtain ⟨c, hc, hslash⟩ := List.any_eq_true.1 h
    rw [hk c hc] at hslash
    contradiction
  · rw [← List.append_assoc, lastSegment_append hrest hc, lastSegment_append hrest hc]

theorem isSlash_of_isSafe (h : isSafe c = true) : Url.isSlash c = false := by
  rw [Bool.eq_false_iff]
  intro hslash
  have hc : c = '/' ∨ c = '\\' := by simpa [Url.isSlash] using hslash
  rcases hc with rfl | rfl
  · contradiction
  · contradiction

/-- The name of a file, made of safe characters, behind the slash of a directory or on its
own. -/
inductive EndsInFile (file : List Char) : List Char → Prop
  | alone : EndsInFile file file
  | below (directory : List Char) : EndsInFile file (directory ++ '/' :: file)

theorem EndsInFile.lastSegment_append {file cs : List Char} (h : EndsInFile file cs)
    (hfile : ∀ c ∈ file, Url.isSlash c = false) (hk : ∀ c ∈ k, Url.isSlash c = false) :
    lastSegment (cs ++ k) = file ++ k := by
  have hall : ∀ c ∈ file ++ k, Url.isSlash c = false := by
    intro c hc
    exact (List.mem_append.1 hc).elim (hfile c) (hk c)
  cases h with
  | alone => exact lastSegment_of_forall hall
  | below directory =>
    rw [List.append_assoc, List.cons_append]
    exact ModuleId.lastSegment_append hall (by decide)

theorem shortNameOf_congr {cs ds : List Char}
    (h : ((lastSegment cs).dropWhile (· = '#')).takeWhile isSafe =
      ((lastSegment ds).dropWhile (· = '#')).takeWhile isSafe) :
    shortNameOf kind cs = shortNameOf kind ds := by
  unfold shortNameOf
  rw [h]

theorem takeWhile_isSafe_append {file : List Char} (hfile : ∀ c ∈ file, isSafe c = true)
    (hne : file ≠ []) (hk : ∀ c ∈ k.head?, isSafe c = false) :
    ((file ++ k).dropWhile (· = '#')).takeWhile isSafe = file := by
  obtain ⟨c, file, rfl⟩ := List.exists_cons_of_ne_nil hne
  have hc : c ≠ '#' := by
    rintro rfl
    exact absurd (hfile '#' List.mem_cons_self) (by decide)
  rw [List.cons_append, List.dropWhile_cons_of_neg (by simpa using hc), ← List.cons_append,
    List.takeWhile_append_of_pos hfile]
  cases k with
  | nil => simp
  | cons d k => simp [hk d rfl]

/-- A query or a fragment behind the name of a file does not change the name, unless there
is a slash in it: then the name is that of what comes after the last one. -/
theorem shortName_append_suffix {specifier suffix : String} {file : List Char} {mark : Char}
    (hspecifier : EndsInFile file specifier.toList) (hne : file ≠ [])
    (hfile : ∀ c ∈ file, isSafe c = true) (hsuffix : suffix.toList.head? = some mark)
    (hmark : mark = '?' ∨ mark = '#')
    (hkind : SpecifierKind.of (specifier ++ suffix) = SpecifierKind.of specifier) :
    shortName (specifier ++ suffix) =
      if suffix.toList.any Url.isSlash then
        String.ofList (shortNameOf (SpecifierKind.of specifier) suffix.toList)
      else shortName specifier := by
  rw [shortName, hkind, String.toList_append]
  split
  · rename_i hslash
    exact congrArg String.ofList (shortNameOf_congr (by rw [lastSegment_append_of_any hslash]))
  · rename_i hslash
    have hslash : ∀ c ∈ suffix.toList, Url.isSlash c = false := by simpa using hslash
    have hnone : ∀ c ∈ file, Url.isSlash c = false := fun c hc => isSlash_of_isSafe (hfile c hc)
    have hsafe : ∀ c ∈ suffix.toList.head?, isSafe c = false := by
      rw [hsuffix]
      rintro c ⟨⟩
      rcases hmark with rfl | rfl <;> decide
    have hsegment := hspecifier.lastSegment_append hnone (k := []) (by simp)
    rw [List.append_nil, List.append_nil] at hsegment
    rw [shortName]
    refine congrArg String.ofList (shortNameOf_congr ?_)
    have hwhole := takeWhile_isSafe_append hfile hne (k := []) (by simp)
    rw [List.append_nil] at hwhole
    rw [hspecifier.lastSegment_append hnone hslash, takeWhile_isSafe_append hfile hne hsafe,
      hsegment, hwhole]

theorem shortName_append_version :
    EndsInFile "beta.js".toList "./lib/beta.js".toList ∧ "beta.js".toList ≠ [] ∧
    (∀ c ∈ "beta.js".toList, isSafe c = true) ∧ "?v=1.2#top".toList.head? = some '?' ∧
    SpecifierKind.of ("./lib/beta.js" ++ "?v=1.2#top") = SpecifierKind.of "./lib/beta.js" ∧
    shortName ("./lib/beta.js" ++ "?v=1.2#top") = "beta" := by
  have hfile : EndsInFile "beta.js".toList "./lib/beta.js".toList := .below "./lib".toList
  have hsafe : ∀ c ∈ "beta.js".toList, isSafe c = true := List.all_eq_true.1 (by decide)
  have hkind : SpecifierKind.of ("./lib/beta.js" ++ "?v=1.2#top") =
      SpecifierKind.of "./lib/beta.js" := by decide +kernel
  refine ⟨hfile, by decide, hsafe, by decide, hkind, ?_⟩
  rw [shortName_append_suffix hfile (by decide) hsafe (by decide) (.inl rfl) hkind]
  decide +kernel

/-- A slash in a query is taken for one of the path. -/
theorem shortName_append_path :
    SpecifierKind.of ("./foo.js" ++ "?x=a/b") = SpecifierKind.of "./foo.js" ∧
    shortName "./foo.js" = "foo" ∧ shortName ("./foo.js" ++ "?x=a/b") = "b" := by
  decide +kernel

end ImportAtlas.ModuleId
