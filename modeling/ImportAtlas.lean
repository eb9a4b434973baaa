import ImportAtlas.Atlas
import ImportAtlas.CommandLine.Run
import ImportAtlas.FileTree.Edit
import ImportAtlas.Main
import ImportAtlas.Session
import ImportAtlas.Proofs.Outcome
import ImportAtlas.Proofs.Resolution.Encapsulation
import ImportAtlas.Proofs.Resolution.Canonical
import ImportAtlas.Proofs.Resolution.Sequence
import ImportAtlas.Proofs.Manifest.Pattern
import ImportAtlas.Proofs.Manifest.Condition
import ImportAtlas.Proofs.Erasure.Clean
import ImportAtlas.Proofs.Erasure.TypeOnly
import ImportAtlas.Proofs.Erasure.SourceMap
import ImportAtlas.Proofs.ModuleCache.Growth
import ImportAtlas.Proofs.ModuleGraph.Closure
import ImportAtlas.Proofs.ModuleGraph.Sharing
import ImportAtlas.Proofs.ModuleCache.Answers
import ImportAtlas.Proofs.ModuleId.Identity
import ImportAtlas.Proofs.ModuleId.Suffix
import ImportAtlas.Proofs.Atlas.Keys
import ImportAtlas.Proofs.Atlas.Consistency
import ImportAtlas.Proofs.Atlas.DepthFirst
import ImportAtlas.Proofs.Atlas.PackagePaths
import ImportAtlas.Proofs.Atlas.Precedence
import ImportAtlas.Proofs.Atlas.Reachability
import ImportAtlas.Proofs.Atlas.Replay
import ImportAtlas.Proofs.Declaration.Source
import ImportAtlas.Proofs.Reference.ByteScan
import ImportAtlas.Proofs.Reference.Enclosure
import ImportAtlas.Proofs.Reference.LineEnd
import ImportAtlas.Proofs.Reference.Member
import ImportAtlas.Proofs.Reference.Separation
import ImportAtlas.Proofs.Specifier.PackageName
import ImportAtlas.Proofs.Splice
import ImportAtlas.Proofs.FileTree.Canonical
import ImportAtlas.Proofs.TypeFiles.DepthFirst
import ImportAtlas.Proofs.TypeFiles.Closure
import ImportAtlas.Proofs.TypeFiles.Visibility
import ImportAtlas.Proofs.TypeFiles.Containment
import ImportAtlas.Proofs.TypeFiles.Keys
import ImportAtlas.Proofs.TypeFiles.Publication
import ImportAtlas.Proofs.TypeFiles.Enclosing
