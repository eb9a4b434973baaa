import ImportAtlas.Proofs.Path.Components
import ImportAtlas.Proofs.Resolution.Replay

/-! A cache of manifests that agrees with the files.  Lookups with two such caches
take the same course, as long as the paths that are looked for are short enough:
then a manifest is found under every spelling of its path, or under none. -/

namespace ImportAtlas

open Outcome

namespace Manifest

def look (t : FileTree) (path : Path) : Except AtlasError (Option Manifest) :=
  if t.isFile path then (read t path).map some else .ok none

theorem fetch_of_find?_none {t : FileTree} {path : Path} {c : ManifestCache}
    (h : c.find? path = none) : fetch t path c =
      (look t path, match look t path with
        | .ok m => c.insert path m
        | .error _ => c) := by
  simp only [fetch, look, h]
  by_cases hfile : t.isFile path = true
  · simp only [hfile, if_true]
    cases read t path <;> rfl
  · simp [hfile]

theorem run_readable {t : FileTree} (directory : Path) (c : ManifestCache) :
    (readable t directory).run c = (.ok (((inDirectory t directory).run c).1.toOption.getD none),
      ((inDirectory t directory).run c).2) := by
  rcases hread : ((inDirectory t directory).run c :
    Except AtlasError (Option Manifest) × ManifestCache) with ⟨e | m, c'⟩
  · exact run_tryCatch_of_error (f := fun _ => Pure.pure none) hread
  · exact run_tryCatch_of_gives (f := fun _ => Pure.pure none) hread

theorem path_of_look {t : FileTree} {path : Path} {m : Manifest} (h : look t path = .ok (some m)) :
    m.path = path := by
  unfold look at h
  split at h
  · obtain ⟨found, hread, hfound⟩ := map_eq_ok.1 h
    obtain rfl := Option.some.inj hfound
    unfold read at hread
    split at hread
    · cases hread
    · split at hread
      · cases hread
      · cases hread
        rfl
  · cases h

end Manifest

namespace ManifestCache

/-- All that is kept is what is found in some directory. -/
def Coherent (t : FileTree) (c : ManifestCache) : Prop :=
  ∀ e ∈ c.entries, (∃ directory : Path, e.1 = directory.join Manifest.fileName) ∧
    Manifest.look t e.1 = .ok e.2

/-- Nothing was looked for at a path that is too long. -/
def Fits (c : ManifestCache) : Prop :=
  ∀ e ∈ c.entries, Text.byteLength e.1.text ≤ FileTree.pathLimit

instance (c : ManifestCache) : Decidable c.Fits :=
  inferInstanceAs (Decidable (∀ e ∈ c.entries, Text.byteLength e.1.text ≤ FileTree.pathLimit))

theorem Fits.mono {c d : ManifestCache} (hd : d.Fits) (h : c.entries ⊆ d.entries) : c.Fits :=
  fun e he => hd e (h he)

theorem coherent_empty (t : FileTree) : empty.Coherent t := nofun

theorem exists_of_find? {c : ManifestCache} {path : Path} {o : Option Manifest}
    (h : c.find? path = some o) : ∃ key, key.components = path.components ∧ (key, o) ∈ c.entries := by
  obtain ⟨⟨key, _⟩, he, rfl⟩ := Option.map_eq_some_iff.1 h
  exact ⟨key, by simpa using List.find?_some he, List.mem_of_find?_eq_some he⟩

theorem Coherent.faithful {t : FileTree} {c : ManifestCache} (h : c.Coherent t) : c.Faithful t := by
  intro path m hm
  obtain ⟨key, hcomponents, hmem⟩ := exists_of_find? hm
  obtain ⟨-, hlook⟩ := h _ hmem
  unfold Manifest.look at hlook
  split at hlook
  · obtain ⟨found, hread, hfound⟩ := map_eq_ok.1 hlook
    obtain rfl := Option.some.inj hfound
    exact ⟨key, hcomponents, hread⟩
  · cases hlook

end ManifestCache

structure Lookup.Kept (t : FileTree) {α : Type} (x : Lookup α) : Prop where
  grows : ∀ c, c.entries ⊆ (x.run c).2.entries
  coherent : ∀ c, c.Coherent t → (x.run c).2.Coherent t

namespace Lookup.Kept

variable {t : FileTree} {α β : Type}

theorem coherent_of_gives {x : Lookup α} {a : α} {c c' : ManifestCache} (hx : Kept t x)
    (hc : c.Coherent t) (h : Gives x c a c') : c'.Coherent t := by
  have hkept := hx.coherent c hc
  rwa [show x.run c = _ from h] at hkept

theorem pure (a : α) : Kept t (Pure.pure a : Lookup α) :=
  ⟨fun _ => List.Subset.refl _, fun _ => id⟩

theorem throw (e : AtlasError) : Kept t (MonadExcept.throw e : Lookup α) :=
  ⟨fun _ => List.Subset.refl _, fun _ => id⟩

theorem inDirectory (directory : Path) : Kept t (Manifest.inDirectory t directory) := by
  have hrun (c : ManifestCache) : (Manifest.inDirectory t directory).run c =
    Manifest.fetch t (directory.join Manifest.fileName) c := rfl
  constructor
  · intro c
    rw [hrun]
    cases hfind : c.find? (directory.join Manifest.fileName) with
    | some known => simp [Manifest.fetch, hfind]
    | none =>
      rw [Manifest.fetch_of_find?_none hfind]
      cases Manifest.look t (directory.join Manifest.fileName) with
      | error e => exact List.Subset.refl _
      | ok m => exact List.subset_cons_self _ _
  · intro c hc
    rw [hrun]
    cases hfind : c.find? (directory.join Manifest.fileName) with
    | some known => simpa [Manifest.fetch, hfind] using hc
    | none =>
      rw [Manifest.fetch_of_find?_none hfind]
      cases hlook : Manifest.look t (directory.join Manifest.fileName) with
      | error e => exact hc
      | ok m =>
        intro e he
        rcases List.mem_cons.1 he with rfl | he
        · exact ⟨⟨directory, rfl⟩, hlook⟩
        · exact hc e he

theorem run_bind_snd (x : Lookup α) (f : α → Lookup β) (c : ManifestCache) :
    ((x >>= f).run c).2 = (x.run c).2 ∨ ∃ a, ((x >>= f).run c).2 = ((f a).run (x.run c).2).2 := by
  rcases hrun : (x.run c : Except AtlasError α × ManifestCache) with ⟨e | a, c'⟩
  · exact .inl (congrArg Prod.snd (run_bind_of_error hrun))
  · exact .inr ⟨a, congrArg Prod.snd (run_bind_of_gives hrun)⟩

theorem grows_bind (x : Lookup α) {f : α → Lookup β} (hf : ∀ a, Kept t (f a))
    (c : ManifestCache) : (x.run c).2.entries ⊆ ((x >>= f).run c).2.entries := by
  rcases run_bind_snd x f c with h | ⟨a, h⟩
  · rw [h]
    exact List.Subset.refl _
  · rw [h]
    exact (hf a).grows _

theorem bind {x : Lookup α} {f : α → Lookup β} (hx : Kept t x) (hf : ∀ a, Kept t (f a)) :
    Kept t (x >>= f) := by
  refine ⟨fun c => List.Subset.trans (hx.grows c) (grows_bind x hf c), fun c hc => ?_⟩
  rcases run_bind_snd x f c with h | ⟨a, h⟩
  · rw [h]
    exact hx.coherent c hc
  · rw [h]
    exact (hf a).coherent _ (hx.coherent c hc)

theorem readable (directory : Path) : Kept t (Manifest.readable t directory) := by
  have hkept := inDirectory (t := t) directory
  constructor
  · intro c
    rw [Manifest.run_readable]
    exact hkept.grows c
  · intro c hc
    rw [Manifest.run_readable]
    exact hkept.coherent c hc

end Lookup.Kept

theorem Asks.kept {t : FileTree} {P : AtlasError → Prop} {α : Type} {x : Lookup α}
    (h : Asks t P x) : Lookup.Kept t x := by
  induction h with
  | pure a => exact .pure a
  | throw _ => exact .throw _
  | inDirectory directory => exact .inDirectory directory
  | readable directory => exact .readable directory
  | bind _ _ ihx ihf => exact ihx.bind ihf

theorem Asks.grows_bind {t : FileTree} {α β : Type} (x : Lookup α) {f : α → Lookup β}
    (hf : ∀ a, Asks t (fun _ => True) (f a)) (c : ManifestCache) :
    (x.run c).2.entries ⊆ ((x >>= f).run c).2.entries :=
  Lookup.Kept.grows_bind x (fun a => (hf a).kept) c

namespace Path

theorem pieces_join_fileName (directory : Path) : ∃ front,
    FileTree.pieces (directory.join Manifest.fileName).text = front ++ [Manifest.fileName.text] := by
  have hname : Text.splitOn isSeparator Manifest.fileName.text = [Manifest.fileName.text] := by
    decide
  have habsolute : Manifest.fileName.isAbsolute = false := by decide
  by_cases hempty : directory.text = []
  · exact ⟨[], by simpa [join, hempty, FileTree.pieces] using hname⟩
  by_cases hslash : directory.text.getLast? = some '/'
  · obtain ⟨front, hfront⟩ := List.getLast?_eq_some_iff.1 hslash
    refine ⟨Text.splitOn isSeparator front, ?_⟩
    have htext : (directory.join Manifest.fileName).text =
        front ++ '/' :: Manifest.fileName.text := by
      simp [join, habsolute, hfront]
    rw [FileTree.pieces, htext, Text.splitOn_append rfl, hname]
  · refine ⟨Text.splitOn isSeparator directory.text, ?_⟩
    have htext : (directory.join Manifest.fileName).text =
        directory.text ++ '/' :: Manifest.fileName.text := by
      simp [join, habsolute, hempty, hslash]
    rw [FileTree.pieces, htext, Text.splitOn_append rfl, hname]

end Path

namespace Manifest

variable {t : FileTree} {c d : ManifestCache}

theorem look_of_components {p q : Path} {m : Option Manifest}
    (hcomponents : p.components = q.components) (hp : ∃ directory : Path, p = directory.join fileName)
    (hq : ∃ directory : Path, q = directory.join fileName)
    (hpshort : Text.byteLength p.text ≤ FileTree.pathLimit)
    (hqshort : Text.byteLength q.text ≤ FileTree.pathLimit) (h : look t p = .ok m) :
    ∃ m', look t q = .ok m' ∧ m.map value = m'.map value := by
  have file {p q : Path} (hcomponents : p.components = q.components)
      (hq : ∃ directory : Path, q = directory.join fileName)
      (hqshort : Text.byteLength q.text ≤ FileTree.pathLimit) (hp : t.isFile p = true) :
      t.isFile q = true := by
    obtain ⟨directory, rfl⟩ := hq
    obtain ⟨front, hfront⟩ := Path.pieces_join_fileName directory
    exact FileTree.isFile_of_components hcomponents hfront (by decide) hqshort hp
  unfold look at h ⊢
  split at h
  · rename_i hpfile
    have hqfile := file hcomponents hq hqshort hpfile
    obtain ⟨found, hread, rfl⟩ := map_eq_ok.1 h
    unfold read at hread
    split at hread
    · cases hread
    · rename_i text htext
      split at hread
      · cases hread
      · rename_i value hparse
        cases hread
        have htext' := FileTree.readStream_eq_of_components hcomponents.symm hqfile htext
        refine ⟨some ⟨q, value⟩, ?_, rfl⟩
        simp [hqfile, read, htext', hparse, Except.map]
  · rename_i hpfile
    cases h
    have hqfile : ¬ t.isFile q = true := fun hqfile =>
      hpfile (file hcomponents.symm hp hpshort hqfile)
    exact ⟨none, by simp [hqfile], rfl⟩

end Manifest

structure Manifest.LooksAt (t : FileTree) (path key : Path) : Prop where
  components : key.components = path.components
  join : ∃ directory : Path, key = directory.join fileName
  short : Text.byteLength key.text ≤ FileTree.pathLimit
  known : key = path ∨ ∃ m, look t key = .ok m

theorem Manifest.exists_looksAt {t : FileTree} {directory : Path} {c : ManifestCache}
    (hc : c.Coherent t) (hfits : ((inDirectory t directory).run c).2.Fits) :
    ∃ key, LooksAt t (directory.join fileName) key ∧
      ((inDirectory t directory).run c).1 = look t key := by
  change ((fetch t (directory.join fileName) c).2).Fits at hfits
  change ∃ key, _ ∧ (fetch t (directory.join fileName) c).1 = look t key
  cases hfind : c.find? (directory.join fileName) with
  | some known =>
    simp only [fetch, hfind] at hfits ⊢
    obtain ⟨key, hcomponents, hmem⟩ := ManifestCache.exists_of_find? hfind
    obtain ⟨hjoin, hlook⟩ := hc _ hmem
    exact ⟨key, ⟨hcomponents, hjoin, hfits _ hmem, .inr ⟨known, hlook⟩⟩, hlook.symm⟩
  | none =>
    rw [fetch_of_find?_none hfind] at hfits ⊢
    refine ⟨_, ⟨rfl, ⟨directory, rfl⟩, ?_, .inl rfl⟩, rfl⟩
    cases hlook : look t (directory.join fileName) with
    | ok m =>
      simp only [hlook] at hfits
      exact hfits _ List.mem_cons_self
    | error e =>
      -- what cannot be read is a file, and its path has been followed
      have hfile : t.isFile (directory.join fileName) = true := by
        unfold look at hlook
        split at hlook
        · assumption
        · cases hlook
      obtain ⟨place, -, hplace, -⟩ := FileTree.isFile_iff.1 hfile
      obtain ⟨r, hr, -⟩ := map_eq_ok.1 hplace
      exact (FileTree.reach_eq_ok.1 hr).1.2.2

def Lookup.Alike (t : FileTree) {α β : Type} (E : AtlasError → AtlasError → Prop)
    (R : α → β → Prop) (x : Lookup α) (y : Lookup β) (c d : ManifestCache) : Prop :=
  c.Coherent t → d.Coherent t → (x.run c).2.Fits → (y.run d).2.Fits →
    Agree E R (x.run c).1 (y.run d).1

namespace Lookup.Alike

variable {t : FileTree} {α β α' β' : Type} {E : AtlasError → AtlasError → Prop}
  {R : α → β → Prop} {S : α' → β' → Prop} {c d : ManifestCache}

theorem pure {a : α} {b : β} (h : R a b) : Alike t E R (Pure.pure a) (Pure.pure b) c d :=
  fun _ _ _ _ => .ok h

theorem throw {e e' : AtlasError} (h : E e e') :
    Alike t E R (MonadExcept.throw e : Lookup α) (MonadExcept.throw e' : Lookup β) c d :=
  fun _ _ _ _ => .error h

theorem liftM {x : Except AtlasError α} (h : ∀ e, x = .error e → E e e) :
    Alike t E Eq (MonadLiftT.monadLift x : Lookup α) (MonadLiftT.monadLift x : Lookup α) c d := by
  cases x with
  | error e => exact .throw (h e rfl)
  | ok a => exact .pure rfl

theorem bind {x : Lookup α} {y : Lookup β} {f : α → Lookup α'} {g : β → Lookup β'}
    (h : Alike t E R x y c d) (hx : Asks t (fun _ => True) x) (hy : Asks t (fun _ => True) y)
    (hf : ∀ a, Asks t (fun _ => True) (f a)) (hg : ∀ b, Asks t (fun _ => True) (g b))
    (hfg : ∀ a b c' d', Gives x c a c' → Gives y d b d' → R a b → Alike t E S (f a) (g b) c' d') :
    Alike t E S (x >>= f) (y >>= g) c d := by
  intro hc hd hcfits hdfits
  have hagree := h hc hd (hcfits.mono (Asks.grows_bind x hf c))
    (hdfits.mono (Asks.grows_bind y hg d))
  have hxc := hx.kept.coherent c hc
  have hyd := hy.kept.coherent d hd
  rcases hxrun : (x.run c : Except AtlasError α × ManifestCache) with ⟨e | a, c'⟩ <;>
    rcases hyrun : (y.run d : Except AtlasError β × ManifestCache) with ⟨e' | b, d'⟩ <;>
    simp only [hxrun, hyrun] at hagree hxc hyd
  · cases hagree with
    | error he =>
      rw [run_bind_of_error hxrun, run_bind_of_error hyrun]
      exact .error he
  · cases hagree
  · cases hagree
  · cases hagree with
    | ok hab =>
      rw [run_bind_of_gives hxrun] at hcfits ⊢
      rw [run_bind_of_gives hyrun] at hdfits ⊢
      exact hfg a b c' d' hxrun hyrun hab hxc hyd hcfits hdfits

theorem inDirectory (directory : Path) :
    Alike t Eq (fun m m' => m.map Manifest.value = m'.map Manifest.value)
      (Manifest.inDirectory t directory) (Manifest.inDirectory t directory) c d := by
  intro hc hd hcfits hdfits
  obtain ⟨key, hkey, hrun⟩ := Manifest.exists_looksAt hc hcfits
  obtain ⟨key', hkey', hrun'⟩ := Manifest.exists_looksAt hd hdfits
  have hcomponents : key.components = key'.components := hkey.components.trans hkey'.components.symm
  have related {m : Option Manifest} (hlook : Manifest.look t key = .ok m) :=
    Manifest.look_of_components hcomponents hkey.join hkey'.join hkey.short hkey'.short hlook
  have related' {m : Option Manifest} (hlook : Manifest.look t key' = .ok m) :=
    Manifest.look_of_components hcomponents.symm hkey'.join hkey.join hkey'.short hkey.short hlook
  rw [hrun, hrun']
  cases hlook : Manifest.look t key with
  | ok m =>
    obtain ⟨m', hlook', hvalue⟩ := related hlook
    rw [hlook']
    exact .ok hvalue
  | error e =>
    have hnot {m : Option Manifest} (hlook' : Manifest.look t key' = .ok m) : False := by
      obtain ⟨_, hok, -⟩ := related' hlook'
      cases hlook.symm.trans hok
    obtain rfl := hkey.known.resolve_right fun ⟨_, hok⟩ => by cases hlook.symm.trans hok
    obtain rfl := hkey'.known.resolve_right fun ⟨_, hok⟩ => hnot hok
    rw [hlook]
    exact .error rfl

theorem readable (directory : Path) :
    Alike t Eq (fun m m' => m.map Manifest.value = m'.map Manifest.value)
      (Manifest.readable t directory) (Manifest.readable t directory) c d := by
  intro hc hd hcfits hdfits
  rw [Manifest.run_readable] at hcfits hdfits ⊢
  rw [Manifest.run_readable]
  have hagree := inDirectory directory hc hd hcfits hdfits
  refine .ok ?_
  revert hagree
  generalize ((Manifest.inDirectory t directory).run c).1 = m
  generalize ((Manifest.inDirectory t directory).run d).1 = m'
  rintro (h | _)
  · exact h
  · rfl

end Lookup.Alike

end ImportAtlas
