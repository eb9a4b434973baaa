import ImportAtlas.Proofs.FileTree.Detour
import ImportAtlas.Proofs.TypeFiles.Closure

namespace ImportAtlas

open Outcome

theorem rel_find? {α β : Type} {R : α → β → Prop} {p : α → Bool} {q : β → Bool} {as : List α}
    {bs : List β} (h : List.Forall₂ R as bs) (hpq : ∀ a ∈ as, ∀ b ∈ bs, R a b → p a = q b) :
    Option.Rel R (as.find? p) (bs.find? q) := by
  induction h with
  | nil => exact .none
  | @cons a b as bs hab _ ih =>
    have hhead := hpq a List.mem_cons_self b List.mem_cons_self hab
    cases hp : p a with
    | true =>
      rw [List.find?_cons_of_pos hp, List.find?_cons_of_pos (hhead ▸ hp)]
      exact .some hab
    | false =>
      rw [List.find?_cons_of_neg (by simp [hp]), List.find?_cons_of_neg (by simp [← hhead, hp])]
      exact ih fun a ha b hb => hpq a (List.mem_cons_of_mem _ ha) b (List.mem_cons_of_mem _ hb)

theorem forall₂_of_map_eq {α β γ : Type} {f : α → γ} {g g' : β → γ} {as as' : List α} {bs : List β}
    (h : as.map f = bs.map g) (h' : as'.map f = bs.map g') :
    List.Forall₂ (fun a a' => ∃ b, f a = g b ∧ f a' = g' b) as as' := by
  induction bs generalizing as as' with
  | nil =>
    rw [List.map_eq_nil_iff.1 h, List.map_eq_nil_iff.1 h']
    exact .nil
  | cons b bs ih =>
    obtain ⟨a, as, rfl, ha, has⟩ := List.map_eq_cons_iff.1 h
    obtain ⟨a', as', rfl, ha', has'⟩ := List.map_eq_cons_iff.1 h'
    exact .cons ⟨b, ha, ha'⟩ (ih has has')

namespace InstalledPackage

variable {t : FileTree} {name : String} {start start' : Path}

def candidatesIn (name : String) (above : List Path) : List Path :=
  (above.filter (·.fileName? ≠ some nodeModules)).map fun directory =>
    (directory.join ⟨nodeModules⟩).join (Path.ofString name)

/-- The first package of a name that has a manifest and is installed in one of some
directories. -/
def firstIn? (t : FileTree) (name : String) (above : List Path) : Option InstalledPackage :=
  ((candidatesIn name above).find? fun directory =>
    t.isFile (directory.join Manifest.fileName)).map (⟨name, ·⟩)

theorem text_ne_nil_of_mem_candidatesIn {directory : Path} {above : List Path}
    (h : directory ∈ candidatesIn name above) : directory.text ≠ [] := by
  obtain ⟨above, -, rfl⟩ := List.mem_map.1 h
  exact Path.text_join_ne_nil (.inl (Path.text_join_ne_nil (.inr (by decide))))

theorem find?_eq_firstIn? : find? t name start = firstIn? t name start.ancestors := by
  have hsame : ∀ directory ∈ packageCandidates name start,
      decide (t.isDirectory directory = true ∧ t.isFile (directory.join Manifest.fileName) = true) =
        t.isFile (directory.join Manifest.fileName) := by
    intro directory hmem
    rw [Bool.decide_and, Bool.decide_eq_true, Bool.decide_eq_true, Bool.and_eq_right_iff_imp]
    exact FileTree.isDirectory_of_isFile_join Manifest.isPlain_fileName
      (text_ne_nil_of_mem_candidatesIn hmem)
  rw [find?, packageDirectories, List.find?_filter, ← List.head?_filter, List.filter_congr hsame,
    List.head?_filter]
  rfl

theorem firstIn?_append (above above' : List Path) :
    firstIn? t name (above ++ above') = (firstIn? t name above).or (firstIn? t name above') := by
  rw [firstIn?, firstIn?, firstIn?, candidatesIn, List.filter_append, List.map_append,
    List.find?_append, Option.map_or]
  rfl

/-- A lookup is not cut short: all paths where a manifest is looked for are short
enough, and none leads through too many links. -/
def LooksWithinLimits (t : FileTree) (name : String) (start : Path) : Prop :=
  ∀ directory ∈ packageCandidates name start,
    Text.byteLength (directory.join Manifest.fileName).text ≤ FileTree.pathLimit ∧
    t.locate true (directory.join Manifest.fileName) ≠ .error .tooManyLinks

instance {ε α : Type} [DecidableEq ε] (x : Except ε α) (e : ε) : Decidable (x = .error e) :=
  match x with
  | .ok _ => isFalse nofun
  | .error e' => decidable_of_iff (e' = e) (by simp)

instance (t : FileTree) (name : String) (start : Path) : Decidable (LooksWithinLimits t name start) :=
  inferInstanceAs (Decidable (∀ directory ∈ packageCandidates name start,
    _ ≤ FileTree.pathLimit ∧ ¬ t.locate true (directory.join Manifest.fileName) = _))

structure SamePackage (t : FileTree) (package package' : InstalledPackage) : Prop where
  name : package.name = package'.name
  canonical : t.canonicalize package.directory = t.canonicalize package'.directory

structure SameLevel (t : FileTree) (p q : Path) : Prop where
  meet : t.Meet p q
  skipped : p.fileName? = some nodeModules ↔ q.fileName? = some nodeModules

theorem forall₂_candidatesIn (name : String) {above above' : List Path}
    (h : List.Forall₂ (SameLevel t) above above') :
    List.Forall₂ t.Meet (candidatesIn name above) (candidatesIn name above') := by
  rw [candidatesIn, candidatesIn, List.forall₂_map_left_iff, List.forall₂_map_right_iff]
  refine (List.rel_filter (fun p q hpq => ?_) h).imp fun p q hpq => ?_
  · simp [hpq.skipped]
  · exact (hpq.meet.join _).join _

theorem endsInName_join_fileName {directory : Path}
    (h : Text.byteLength (directory.join Manifest.fileName).text ≤ FileTree.pathLimit) :
    FileTree.EndsInName (directory.join Manifest.fileName) := by
  obtain ⟨front, hfront⟩ := Path.pieces_join_fileName directory
  exact ⟨⟨front, _, hfront, by decide⟩, h⟩

theorem firstIn?_rel (ht : t.WellNamed) {above above' : List Path}
    (h : List.Forall₂ (SameLevel t) above above') (hsub : above ⊆ start.ancestors)
    (hsub' : above' ⊆ start'.ancestors) (hlooks : LooksWithinLimits t name start)
    (hlooks' : LooksWithinLimits t name start') :
    Option.Rel (SamePackage t) (firstIn? t name above) (firstIn? t name above') := by
  have hmem {above : List Path} {start : Path} (hsub : above ⊆ start.ancestors) :
      candidatesIn name above ⊆ packageCandidates name start :=
    List.map_subset _ (List.filter_subset _ hsub)
  -- candidates that meet have the manifest both or neither, so the first of each meet
  have hfile : ∀ directory ∈ candidatesIn name above, ∀ directory' ∈ candidatesIn name above',
      t.Meet directory directory' → t.isFile (directory.join Manifest.fileName) =
        t.isFile (directory'.join Manifest.fileName) := by
    intro directory hin directory' hin' hmeet
    obtain ⟨hshort, hlinks⟩ := hlooks directory (hmem hsub hin)
    obtain ⟨hshort', -⟩ := hlooks' directory' (hmem hsub' hin')
    have hlocate := (hmeet.join Manifest.fileName).locate_eq ht (endsInName_join_fileName hshort)
      (endsInName_join_fileName hshort') hlinks
    rw [FileTree.isFile, FileTree.isFile, FileTree.find?, FileTree.find?, hlocate]
  have hrel := rel_find? (forall₂_candidatesIn name h) hfile
  have hreach {directory : Path} {above : List Path}
      (hfound : (candidatesIn name above).find? (fun directory =>
        t.isFile (directory.join Manifest.fileName)) = some directory) :
      ∃ r, t.reach true directory = .ok r := by
    have hdirectory := FileTree.isDirectory_of_isFile_join Manifest.isPlain_fileName
      (text_ne_nil_of_mem_candidatesIn (List.mem_of_find?_eq_some hfound))
      (List.find?_some (p := fun d : Path => t.isFile (d.join Manifest.fileName)) hfound)
    obtain ⟨place, hplace, -⟩ := FileTree.isDirectory_iff.1 hdirectory
    obtain ⟨r, hr, -⟩ := map_eq_ok.1 hplace
    exact ⟨r, hr⟩
  rw [firstIn?, firstIn?]
  generalize hfound : (candidatesIn name above).find? _ = found at hrel ⊢
  generalize hfound' : (candidatesIn name above').find? _ = found' at hrel ⊢
  cases hrel with
  | none => exact .none
  | some hmeet =>
    obtain ⟨r, hr⟩ := hreach hfound
    obtain ⟨r', hr'⟩ := hreach hfound'
    exact .some ⟨rfl, hmeet.canonicalize_eq ht hr hr'⟩

theorem forall₂_ancestors_of_components (h : start.components = start'.components) :
    List.Forall₂ (SameLevel t) start.ancestors start'.ancestors := by
  have h := Path.ancestors_congr h
  rw [← List.forall₂_eq_eq_eq, List.forall₂_map_left_iff, List.forall₂_map_right_iff] at h
  exact h.imp fun p q hpq => ⟨.spelling hpq, by rw [Path.fileName?_congr hpq]⟩

/-- A directory and its canonical path end in the same names, below a directory and
below the canonical path of that one. -/
structure SharesTail (t : FileTree) (front base : Path) (names : List FileName)
    (start canonical : Path) : Prop where
  arrival : front.Below start names
  ending : base.Below canonical names
  resolved : t.canonicalize front = .ok base
  skipped : front.fileName? = some nodeModules ↔ base.fileName? = some nodeModules

theorem below_fileName?_iff {directory p : Path} {names : List FileName} {n : FileName}
    (h : directory.Below p names) : p.fileName? = some n ↔
      names.getLast? = some n ∨ names = [] ∧ directory.fileName? = some n := by
  rcases List.eq_nil_or_concat names with rfl | ⟨names, m, rfl⟩
  · rw [Path.Below, List.map_nil, List.append_nil] at h
    simp [Path.fileName?_congr h]
  · simp [Path.fileName?, show p.components = _ from h, ← List.append_assoc]

theorem SharesTail.forall₂_ancestors {front base : Path} {names : List FileName}
    (h : SharesTail t front base names start start') (ht : t.WellNamed)
    (hdirectory : t.LeadsToDirectory start) :
    List.Forall₂ (SameLevel t) (start.ancestors.take (names.length + 1))
      (start'.ancestors.take (names.length + 1)) := by
  have hne : front.text ≠ [] := (FileTree.canonicalize_eq_ok.1 h.resolved).1.2
  obtain ⟨place, left, hbase, hfront⟩ := FileTree.exists_leadsTo h.resolved
  have hplace := hfront.isDirectoryAt h.arrival hne hdirectory
  obtain ⟨entries, hnode⟩ := FileTree.exists_node_of_isDirectoryAt hplace
  refine (forall₂_of_map_eq h.arrival.ancestors_take h.ending.ancestors_take).imp ?_
  rintro p q ⟨names, hp, hq⟩
  have hp : front.Below p names := hp
  have hq : base.Below q names := hq
  refine ⟨.detour hplace hfront (.of_below hp (hbase ▸ hq) hne (ht.isName hnode)), ?_⟩
  rw [below_fileName?_iff hp, below_fileName?_iff hq, h.skipped]

theorem find?_rel {k : Nat}
    (h : Option.Rel (SamePackage t) (firstIn? t name (start.ancestors.take k))
      (firstIn? t name (start'.ancestors.take k)))
    (habove : firstIn? t name (start'.ancestors.take k) ≠ none ∨
      firstIn? t name (start.ancestors.drop k) = none ∧
        firstIn? t name (start'.ancestors.drop k) = none) :
    Option.Rel (SamePackage t) (find? t name start) (find? t name start') := by
  rw [find?_eq_firstIn?, find?_eq_firstIn?, ← List.take_append_drop k start.ancestors,
    ← List.take_append_drop k start'.ancestors, firstIn?_append, firstIn?_append]
  rcases habove with hfound | ⟨hnone, hnone'⟩
  · generalize firstIn? t name (start.ancestors.take k) = found at h ⊢
    generalize firstIn? t name (start'.ancestors.take k) = found' at h hfound ⊢
    cases h with
    | none => exact absurd rfl hfound
    | some h => exact .some h
  · rwa [hnone, hnone', Option.or_none, Option.or_none]

end InstalledPackage

namespace CollectionState

open InstalledPackage

variable {t : FileTree} {config : Config} {root : InstalledPackage} {s : CollectionState}
  {c₀ c : ManifestCache} {p : PackageTypes} {name : String} {found found' : Option InstalledPackage}

/-- What the collection does about a package that is needed agrees with a lookup:
the name is reported missing just if nothing is found, and what is found has been
taken up, or will be. -/
structure Agrees (t : FileTree) (s : CollectionState) (p : PackageTypes) (name : String)
    (found : Option InstalledPackage) : Prop where
  missing : name ∈ p.missing ↔ found = none
  linked : ∀ q, found = some q → ∃ q' ∈ p.linked, q'.SamePackage t q ∧
    (q' ∈ s.pending ∨ ∃ d ∈ s.visited, t.canonicalize q'.directory = .ok d)

theorem Collects.agrees (h : Collects t config root c₀ s c) (hp : p ∈ s.collected)
    (hname : name ∈ p.manifest.dependencies) :
    s.Agrees t p name (find? t name p.package.directory) where
  missing := by
    rw [(h.read p hp).1.missing, PackageTypes.missingDependencies, List.mem_filter]
    simp [hname]
  linked := by
    intro q hq
    have hlinked : q ∈ p.linked := (h.read p hp).1.mem_linked_iff.2 (.inr ⟨name, hname, hq⟩)
    exact ⟨q, hlinked, ⟨rfl, rfl⟩, h.links p hp q hlinked⟩

theorem Agrees.of_rel (h : s.Agrees t p name found)
    (hrel : Option.Rel (SamePackage t) found found') : s.Agrees t p name found' := by
  cases hrel with
  | none => exact h
  | @some q q' hsame =>
    refine ⟨by simp [h.missing], ?_⟩
    rintro _ ⟨⟩
    obtain ⟨q₁, hq₁, hsame₁, htaken⟩ := h.linked q rfl
    exact ⟨q₁, hq₁, ⟨hsame₁.name.trans hsame.name, hsame₁.canonical.trans hsame.canonical⟩, htaken⟩

/-- In every run the packages that a package needs are those that a lookup from the
directory finds by which it was reached.  A lookup from its canonical directory finds
the same if that is the same directory spelled differently; and otherwise, if both
end in the same names, unless one of them finds something above those only. -/
theorem agrees_of_steps (ht : t.WellNamed) {specifier : String} {base : Path} {n : Nat}
    (hroot : (locate t specifier base).run .empty = (.ok root, c₀))
    (hsteps : ((start root).steps t config n).run c₀ = (.ok s, c)) :
    ∀ p ∈ s.collected, ∀ name ∈ p.manifest.dependencies,
      s.Agrees t p name (find? t name p.package.directory) ∧
      ∀ directory, place t p = .ok directory →
        LooksWithinLimits t name p.package.directory → LooksWithinLimits t name directory →
        (p.package.directory.components = directory.components →
          s.Agrees t p name (find? t name directory)) ∧
        ∀ front base names, SharesTail t front base names p.package.directory directory →
          (firstIn? t name (directory.ancestors.take (names.length + 1)) ≠ none ∨
            firstIn? t name (p.package.directory.ancestors.drop (names.length + 1)) = none ∧
              firstIn? t name (directory.ancestors.drop (names.length + 1)) = none) →
          s.Agrees t p name (find? t name directory) := by
  have hcollects := Collects.of_steps hroot hsteps
  intro p hp name hname
  have hagrees := hcollects.agrees hp hname
  refine ⟨hagrees, fun directory hplace hlooks hlooks' => ⟨fun hcomponents => ?_, ?_⟩⟩
  · refine hagrees.of_rel ?_
    rw [find?_eq_firstIn?, find?_eq_firstIn?]
    exact firstIn?_rel ht (forall₂_ancestors_of_components hcomponents) (List.Subset.refl _)
      (List.Subset.refl _) hlooks hlooks'
  · intro front base names hshares habove
    have hlevels := hshares.forall₂_ancestors ht (hcollects.leadsToDirectory hp hplace)
    exact hagrees.of_rel (find?_rel (firstIn?_rel ht hlevels (List.take_subset _ _)
      (List.take_subset _ _) hlooks hlooks') habove)

def sideTree : FileTree where
  root := .directory [
    ("real".toList, .directory [("node_modules".toList, .directory [
      ("a".toList, .directory [("package.json".toList, .file (Text.encodeUtf8
        "\x7b\"files\": [], \"dependencies\": \x7b\"b\": \"1\"\x7d\x7d".toList))]),
      ("b".toList, .directory [("package.json".toList, .file (Text.encodeUtf8
        "\x7b\"files\": []\x7d".toList))])])]),
    ("app".toList, .link "real".toList)]
  workingDirectory := []

theorem agrees_sideTree : sideTree.WellNamed ∧ ∃ root c₀ n s c p,
    (locate sideTree "a" (Path.ofString "/app")).run .empty = (.ok root, c₀) ∧
    ((start root).steps sideTree Config.default n).run c₀ = (.ok s, c) ∧
    p ∈ s.collected ∧ "b" ∈ p.manifest.dependencies ∧
    p.package.directory = Path.ofString "/app/node_modules/a" ∧
    place sideTree p = .ok (Path.ofString "/real/node_modules/a") ∧
    LooksWithinLimits sideTree "b" (Path.ofString "/app/node_modules/a") ∧
    LooksWithinLimits sideTree "b" (Path.ofString "/real/node_modules/a") ∧
    SharesTail sideTree (Path.ofString "/app") (Path.ofString "/real") [nodeModules, ['a']]
      (Path.ofString "/app/node_modules/a") (Path.ofString "/real/node_modules/a") ∧
    firstIn? sideTree "b" ((Path.ofString "/real/node_modules/a").ancestors.take 3) ≠ none ∧
    s.Agrees sideTree p "b" (find? sideTree "b" (Path.ofString "/real/node_modules/a")) := by
  have ht : sideTree.WellNamed := by decide +kernel
  obtain ⟨s, c, h, hview⟩ := exists_gives_of_view (s := .empty)
    (x := do
      let root ← locate sideTree "a" (Path.ofString "/app")
      (start root).steps sideTree Config.default 1)
    (f := fun s => s.collected.map fun p => (p.package, p.manifest.dependencies))
    (b := [(⟨"a", Path.ofString "/app/node_modules/a"⟩, ["b"])]) (by decide +kernel)
  obtain ⟨root, c₀, hroot, hsteps⟩ := gives_bind.1 h
  obtain ⟨p, hp, hpview⟩ := List.map_eq_singleton_iff.1 hview
  obtain ⟨hpackage, hdependencies⟩ := Prod.mk.inj hpview
  have hmem : p ∈ s.collected := by simp [hp]
  have hname : "b" ∈ p.manifest.dependencies := by simp [hdependencies]
  have hdirectory : p.package.directory = Path.ofString "/app/node_modules/a" := by rw [hpackage]
  have hplace : place sideTree p = .ok (Path.ofString "/real/node_modules/a") := by
    rw [place, hdirectory]
    exact eq_ok_of_toOption (by decide +kernel)
  have hlooks : LooksWithinLimits sideTree "b" (Path.ofString "/app/node_modules/a") := by
    decide +kernel
  have hlooks' : LooksWithinLimits sideTree "b" (Path.ofString "/real/node_modules/a") := by
    decide +kernel
  have hshares : SharesTail sideTree (Path.ofString "/app") (Path.ofString "/real")
      [nodeModules, ['a']] (Path.ofString "/app/node_modules/a")
      (Path.ofString "/real/node_modules/a") :=
    ⟨by unfold Path.Below; decide +kernel, by unfold Path.Below; decide +kernel,
      eq_ok_of_toOption (by decide +kernel), by decide +kernel⟩
  have hfound : firstIn? sideTree "b" ((Path.ofString "/real/node_modules/a").ancestors.take 3) ≠
      none := by
    decide +kernel
  exact ⟨ht, root, c₀, 1, s, c, p, hroot, hsteps, hmem, hname, hdirectory, hplace, hlooks, hlooks',
    hshares, hfound,
    ((agrees_of_steps ht hroot hsteps p hmem "b" hname).2 _ hplace (hdirectory ▸ hlooks)
      hlooks').2 _ _ [nodeModules, ['a']] (hdirectory ▸ hshares) (.inl hfound)⟩

end CollectionState

end ImportAtlas
