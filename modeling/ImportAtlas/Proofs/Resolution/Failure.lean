import ImportAtlas.Proofs.Outcome
import ImportAtlas.Proofs.Resolution.Shape

namespace ImportAtlas

open Outcome

/-- The error is about something else than a splice. -/
def AtlasError.Spares (e : AtlasError) : Prop := e.code ≠ spliceCode

theorem AtlasError.Spares.of_ne {e : AtlasError} (h : ∀ f, e ≠ .splice f) : e.Spares := by
  cases e with
  | splice f => exact absurd rfl (h f)
  | _ => simp [Spares, code, spliceCode, resolutionCode, loadCode, scanCode]

variable {t : FileTree} {config : Config}

namespace Manifest

theorem spares_of_read {path : Path} {e : AtlasError} (h : read t path = .error e) : e.Spares := by
  unfold read at h
  split at h
  · cases h
    exact .of_ne nofun
  · split at h
    · cases h
      exact .of_ne nofun
    · cases h

theorem unread_of_error {directory : Path} {c c' : ManifestCache} {e : AtlasError}
    (h : (inDirectory t directory).run c = (.error e, c')) :
    c' = c ∧ t.isFile (directory.join fileName) = true ∧
      read t (directory.join fileName) = .error e := by
  change fetch t _ c = _ at h
  unfold fetch at h
  split at h
  · cases h
  · split at h
    · rename_i hfile
      split at h
      · cases h
      · rename_i hread
        cases h
        exact ⟨rfl, hfile, hread⟩
    · cases h

variable {P : AtlasError → Prop}

theorem fails_inDirectory (hread : ∀ path e, read t path = .error e → P e) (directory : Path) :
    Fails (inDirectory t directory) P := by
  intro c e c' h
  obtain ⟨-, -, herror⟩ := unread_of_error h
  exact hread _ e herror

theorem fails_readable (directory : Path) : Fails (readable t directory) P :=
  .tryCatch fun _ => .pure

end Manifest

theorem Asks.fails {P : AtlasError → Prop} {α : Type} {x : Lookup α} (h : Asks t P x)
    (hread : ∀ path e, Manifest.read t path = .error e → P e) : Fails x P := by
  induction h with
  | pure a => exact .pure
  | throw he => exact .throw he
  | inDirectory directory => exact Manifest.fails_inDirectory hread directory
  | readable directory => exact Manifest.fails_readable directory
  | bind _ _ ihx ihf => exact ihx.bind ihf

theorem Resolver.fails_resolve (specifier : String) (base : Path) :
    Fails (resolve t config specifier base) AtlasError.Spares :=
  (asks_resolve specifier base (fun _ => .of_ne nofun) fun _ _ => .of_ne nofun).fails
    fun _ _ => Manifest.spares_of_read

end ImportAtlas
