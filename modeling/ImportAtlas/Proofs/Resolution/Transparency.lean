import ImportAtlas.Proofs.Resolution.Coherence

namespace ImportAtlas

open Outcome

namespace Resolver

variable {t : FileTree} {config : Config} {c d : ManifestCache}

end Resolver

end ImportAtlas
