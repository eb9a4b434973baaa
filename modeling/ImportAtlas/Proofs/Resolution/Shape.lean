import ImportAtlas.Resolution.Basic

/-! What resolution is made of: it asks for manifests one after another, and
what it asks next rests on the answers.  Whatever holds of the questions and of
their composition holds of resolution. -/

namespace ImportAtlas

inductive Asks (t : FileTree) (P : AtlasError → Prop) : {α : Type} → Lookup α → Prop
  | pure {α : Type} (a : α) : Asks t P (Pure.pure a : Lookup α)
  | throw {α : Type} {e : AtlasError} : P e → Asks t P (MonadExcept.throw e : Lookup α)
  | inDirectory (directory : Path) : Asks t P (Manifest.inDirectory t directory)
  | readable (directory : Path) : Asks t P (Manifest.readable t directory)
  | bind {α β : Type} {x : Lookup α} {f : α → Lookup β} :
      Asks t P x → (∀ a, Asks t P (f a)) → Asks t P (x >>= f)

variable {t : FileTree} {config : Config} {P : AtlasError → Prop}

theorem Asks.liftM {α : Type} {x : Except AtlasError α} (h : ∀ e, x = .error e → P e) :
    Asks t P (MonadLiftT.monadLift x : Lookup α) := by
  cases x with
  | error e => exact .throw (h e rfl)
  | ok a => exact .pure a

theorem Manifest.asks_firstOf (directories : List Path) : Asks t P (firstOf t directories) := by
  induction directories with
  | nil => exact .pure none
  | cons directory rest ih =>
    refine (Asks.inDirectory directory).bind fun m => ?_
    cases m with
    | none => exact ih
    | some m => exact .pure (some m)

namespace Resolver

theorem asks_directoryMain? (directory : Path) : Asks t P (directoryMain? t config directory) := by
  unfold directoryMain?
  split
  · exact .pure none
  · exact (Asks.readable directory).bind fun _ => .pure _

theorem asks_ofPath (stage : Stage) (path : Path) : Asks t P (ofPath t config stage path) := by
  cases stage with
  | esm =>
    simp only [ofPath]
    split
    · exact .pure _
    · exact .pure _
  | commonJs =>
    simp only [ofPath]
    split
    · exact .pure _
    · exact (asks_directoryMain? path).bind fun _ => .pure _

theorem asks_inPackage (stage : Stage) (subpath : Option String) (package : Path) :
    Asks t P (inPackage t config stage subpath package) := by
  refine (Asks.inDirectory package).bind fun manifest => ?_
  split
  · exact .pure _
  · split
    · exact asks_ofPath stage _
    · split
      · exact .pure _
      · exact (asks_directoryMain? package).bind fun _ => .pure _

theorem asks_inPackages (stage : Stage) (subpath : Option String) (last : StageOutcome)
    (packages : List Path) : Asks t P (inPackages t config stage subpath last packages) := by
  induction packages generalizing last with
  | nil => exact .pure last
  | cons package rest ih =>
    refine (asks_inPackage stage subpath package).bind fun outcome => ?_
    split
    · exact .pure outcome
    · exact ih outcome

theorem asks_ofBare (stage : Stage) (specifier : String) (base : Path) :
    Asks t P (ofBare t config stage specifier base) := by
  unfold ofBare
  split
  · exact .pure _
  · exact asks_inPackages stage _ _ _

theorem asks_afterNearest (stage : Stage) (specifier : String) (manifest : Option Manifest) :
    Asks t P (match manifest with
      | none => return .unresolved .importsNotFound
      | some m => match m.imports?.bind fun field =>
          Target.ofImports field specifier (conditions config stage) with
        | none => return .unresolved .importsNotFound
        | some target => match Text.stripHead ['.', '/'] target.toList with
          | some relative => ofPath t config stage (m.directory.join ⟨relative⟩)
          | none => ofBare t config stage target m.directory) := by
  split
  · exact .pure _
  · split
    · exact .pure _
    · split
      · exact asks_ofPath stage _
      · exact asks_ofBare stage _ _

theorem asks_ofPackageImport (stage : Stage) (specifier : String) (base : Path) :
    Asks t P (ofPackageImport t config stage specifier base) :=
  (Manifest.asks_firstOf base.ancestors).bind (asks_afterNearest stage specifier)

theorem asks_ofUrl (stage : Stage) (specifier : String) :
    Asks t P (ofUrl t config stage specifier) := by
  unfold ofUrl
  split
  · split
    · exact .pure _
    · split
      · exact asks_ofPath stage _
      · exact .pure _
  · exact .pure _

theorem asks_stage (stage : Stage) (specifier : String) (base : Path) :
    Asks t P (Resolver.stage t config stage specifier base) := by
  unfold Resolver.stage
  split
  · exact .pure _
  · split
    · exact asks_ofPackageImport stage specifier base
    · exact asks_ofPath stage _
    · exact asks_ofPath stage _
    · exact asks_ofUrl stage specifier
    · exact asks_ofBare stage specifier base

theorem asks_located (hload : ∀ path fault, P (.load path fault)) (stage : Stage) (path : Path) :
    Asks t P (do return (⟨← liftM (ModuleLocation.ofPath t path), stage⟩ : Resolution)) := by
  refine (Asks.liftM fun e he => ?_).bind fun _ => .pure _
  unfold ModuleLocation.ofPath at he
  split at he
  · cases he
  · cases he
    exact hload _ _

section

variable (specifier : String) (base : Path)
  (hresolution : ∀ failure, P (.resolution specifier base failure))
  (hload : ∀ path fault, P (.load path fault))

include hresolution hload

theorem asks_afterCommonJs (esm : Unresolved) (commonJs : StageOutcome) :
    Asks t P (match commonJs with
      | .resolved path => do
        return (⟨← liftM (ModuleLocation.ofPath t path), .commonJs⟩ : Resolution)
      | .unresolved commonJs => throw (.resolution specifier base (.stages esm commonJs))) := by
  cases commonJs with
  | resolved path => exact asks_located hload .commonJs path
  | unresolved => exact .throw (hresolution _)

theorem asks_afterEsm (esm : StageOutcome) : Asks t P (match esm with
    | .resolved path => do
      return (⟨← liftM (ModuleLocation.ofPath t path), .esm⟩ : Resolution)
    | .unresolved esm => do
      match ← stage t config .commonJs specifier base with
      | .resolved path => return ⟨← liftM (ModuleLocation.ofPath t path), .commonJs⟩
      | .unresolved commonJs => throw (.resolution specifier base (.stages esm commonJs))) := by
  cases esm with
  | resolved path => exact asks_located hload .esm path
  | unresolved reason =>
    exact (asks_stage .commonJs specifier base).bind
      (asks_afterCommonJs specifier base hresolution hload reason)

theorem asks_resolve : Asks t P (resolve t config specifier base) :=
  (asks_stage .esm specifier base).bind (asks_afterEsm specifier base hresolution hload)

end

end Resolver

end ImportAtlas
