import ImportAtlas.Proofs.FileTree.Spelling
import ImportAtlas.Proofs.Resolution.Failure

namespace ImportAtlas

open Outcome

namespace ManifestCache

def Extends (c d : ManifestCache) : Prop :=
  ∀ path known, c.find? path = some known → d.find? path = some known

theorem Extends.refl (c : ManifestCache) : c.Extends c := fun _ _ h => h

theorem Extends.trans {c d e : ManifestCache} (hcd : c.Extends d) (hde : d.Extends e) :
    c.Extends e :=
  fun path known h => hde path known (hcd path known h)

def Faithful (t : FileTree) (c : ManifestCache) : Prop :=
  ∀ path m, c.find? path = some (some m) →
    ∃ q : Path, q.components = path.components ∧ Manifest.read t q = .ok m

theorem faithful_empty (t : FileTree) : empty.Faithful t := nofun

theorem find?_insert (c : ManifestCache) (path other : Path) (m : Option Manifest) :
    (c.insert path m).find? other =
      if path.components = other.components then some m else c.find? other := by
  unfold insert find?
  rw [List.find?_cons]
  split <;> simp_all

theorem extends_insert {c : ManifestCache} {path : Path} (h : c.find? path = none)
    (m : Option Manifest) : c.Extends (c.insert path m) := by
  intro other known hother
  rw [find?_insert, if_neg]
  · exact hother
  · intro heq
    have hsame : c.find? path = c.find? other := by simp only [find?, heq]
    rw [hsame, hother] at h
    cases h

theorem Faithful.insert {t : FileTree} {c : ManifestCache} (h : c.Faithful t) {path : Path}
    {m : Option Manifest} (hm : ∀ kept, m = some kept → Manifest.read t path = .ok kept) :
    (c.insert path m).Faithful t := by
  intro other kept hkept
  rw [find?_insert] at hkept
  split at hkept
  · rename_i heq
    exact ⟨path, heq, hm kept (Option.some.inj hkept)⟩
  · exact h other kept hkept

theorem find?_insert_self (c : ManifestCache) (path : Path) (m : Option Manifest) :
    (c.insert path m).find? path = some m := by
  rw [find?_insert, if_pos rfl]

end ManifestCache

structure Lookup.Repeated {α : Type} (t : FileTree) (x : Lookup α) (c : ManifestCache) (a : α)
    (c' : ManifestCache) : Prop where
  grows : c.Extends c'
  faithful : c.Faithful t → c'.Faithful t
  again : ∀ d : ManifestCache, c'.Extends d → d.Faithful t → Gives x d a d

namespace Manifest

variable {t : FileTree} {directory : Path} {c c' d : ManifestCache} {o : Option Manifest}

theorem gives_inDirectory_of_find? (h : d.find? (directory.join fileName) = some o) :
    Gives (inDirectory t directory) d o d := by
  change fetch t _ d = _
  rw [fetch, h]

theorem repeated_inDirectory (h : Gives (inDirectory t directory) c o c') :
    Lookup.Repeated t (inDirectory t directory) c o c' := by
  change fetch t _ c = _ at h
  unfold fetch at h
  split at h
  · rename_i hknown
    cases h
    exact ⟨.refl c, id, fun d hd _ => gives_inDirectory_of_find? (hd _ _ hknown)⟩
  · rename_i hnone
    have again (m : Option Manifest) (d : ManifestCache)
        (hd : (c.insert (directory.join fileName) m).Extends d) (_ : d.Faithful t) :
        Gives (inDirectory t directory) d m d :=
      gives_inDirectory_of_find? (hd _ _ (ManifestCache.find?_insert_self ..))
    split at h
    · split at h
      · rename_i m hread
        cases h
        refine ⟨ManifestCache.extends_insert hnone _, fun hc => hc.insert ?_, again _⟩
        rintro kept ⟨⟩
        exact hread
      · cases h
    · cases h
      exact ⟨ManifestCache.extends_insert hnone _, fun hc => hc.insert nofun, again _⟩

theorem find?_of_unread {path : Path} {e : AtlasError} (hd : d.Faithful t)
    (hfile : t.isFile path = true) (hread : read t path = .error e) :
    ∀ m, d.find? path ≠ some (some m) := by
  intro m hm
  obtain ⟨q, hq, hm⟩ := hd path m hm
  unfold read at hm hread
  split at hm
  · cases hm
  · rename_i text htext
    rw [FileTree.readStream_eq_of_components hq.symm hfile htext] at hread
    split at hm
    · cases hm
    · rename_i hparse
      simp only [hparse] at hread
      cases hread

theorem repeated_readable (h : Gives (readable t directory) c o c') :
    Lookup.Repeated t (readable t directory) c o c' := by
  rcases gives_tryCatch.1 h with hread | ⟨e, c₁, herror, hnone⟩
  · have hrepeated := repeated_inDirectory hread
    exact ⟨hrepeated.grows, hrepeated.faithful,
      fun d hd hfaithful => gives_tryCatch.2 (.inl (hrepeated.again d hd hfaithful))⟩
  · obtain ⟨rfl, hfile, hread⟩ := unread_of_error herror
    obtain ⟨rfl, rfl⟩ := gives_pure.1 hnone
    refine ⟨.refl _, id, fun d _ hfaithful => gives_tryCatch.2 ?_⟩
    cases hfind : d.find? (directory.join fileName) with
    | none =>
      refine .inr ⟨e, d, ?_, gives_pure.2 ⟨rfl, rfl⟩⟩
      change fetch t _ d = _
      simp only [fetch, hfind, hfile, hread, if_true]
    | some known =>
      cases known with
      | none => exact .inl (gives_inDirectory_of_find? hfind)
      | some m => exact absurd hfind (find?_of_unread hfaithful hfile hread m)

end Manifest

theorem Asks.repeated {t : FileTree} {P : AtlasError → Prop} {α : Type} {x : Lookup α}
    (h : Asks t P x) {c c' : ManifestCache} {a : α} (hx : Gives x c a c') :
    Lookup.Repeated t x c a c' := by
  induction h generalizing c c' with
  | pure b =>
    obtain ⟨rfl, rfl⟩ := gives_pure.1 hx
    exact ⟨.refl c, id, fun _ _ _ => gives_pure.2 ⟨rfl, rfl⟩⟩
  | throw _ => cases hx
  | inDirectory directory => exact Manifest.repeated_inDirectory hx
  | readable directory => exact Manifest.repeated_readable hx
  | bind _ _ ihx ihf =>
    obtain ⟨b, c₁, hb, hf⟩ := gives_bind.1 hx
    have hfirst := ihx hb
    have hsecond := ihf b hf
    refine ⟨hfirst.grows.trans hsecond.grows, hsecond.faithful ∘ hfirst.faithful,
      fun d hd hfaithful => gives_bind.2 ⟨b, d, ?_, hsecond.again d hd hfaithful⟩⟩
    exact hfirst.again d (hsecond.grows.trans hd) hfaithful

theorem Resolver.repeated_resolve {t : FileTree} {config : Config} {specifier : String}
    {base : Path} {c c' : ManifestCache} {resolution : Resolution}
    (h : Gives (resolve t config specifier base) c resolution c') :
    Lookup.Repeated t (resolve t config specifier base) c resolution c' :=
  (asks_resolve (P := fun _ => True) specifier base (fun _ => .intro) fun _ _ => .intro).repeated h

end ImportAtlas
