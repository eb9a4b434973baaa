import ImportAtlas.Atlas
import ImportAtlas.Proofs.ModuleGraph.Closure
import ImportAtlas.Proofs.Reference.Spans
import ImportAtlas.Proofs.Resolution.Failure

namespace ImportAtlas

open Outcome

variable {t : FileTree} {config : Config} {norm : Normalizer}

/-- The normalizer does not stop at a splice itself. -/
def Normalizer.Spares (norm : Normalizer) : Prop :=
  ∀ path text e, norm.normalize path text = .error e → e.Spares

theorem Normalizer.spares_basic (maps : Bool) : (basic maps).Spares := nofun

namespace Loading

theorem fails_lookup {α : Type} {l : Lookup α} (h : Fails l AtlasError.Spares) :
    Fails (lookup l) AtlasError.Spares := by
  intro s e s' he
  rw [run_lookup] at he
  have hfirst : (l.run s.manifests).1 = .error e := congrArg Prod.fst he
  refine h s.manifests e (l.run s.manifests).2 ?_
  rw [← hfirst]
  rfl

theorem fails_load (location : ModuleLocation) (specifier : String) :
    Fails (load t location specifier) AtlasError.Spares := by
  intro s e s' he
  rw [run_load] at he
  have hload : (s.modules.load t location specifier).1 = .error e := congrArg Prod.fst he
  unfold ModuleCache.load at hload
  split at hload
  · cases hload
  · split at hload
    · rename_i hr
      cases hload
      unfold ModuleRecord.read at hr
      split at hr
      · cases hr
        exact .of_ne fun _ h => by cases h
      · cases hr
    · cases hload

end Loading

namespace Expansion

theorem fails_follow (directory : Path) (specifier : String) :
    Fails (follow t config directory specifier) AtlasError.Spares :=
  (Loading.fails_lookup (Resolver.fails_resolve specifier directory)).bind fun _ =>
    (Loading.fails_load _ specifier).bind fun _ => .pure

theorem fails_followAll (directory : Path) (specifiers : List String) :
    Fails (specifiers.mapM (follow t config directory)) AtlasError.Spares := by
  induction specifiers with
  | nil =>
    rw [List.mapM_nil]
    exact .pure
  | cons specifier rest ih =>
    rw [List.mapM_cons]
    exact (fails_follow directory specifier).bind fun _ => ih.bind fun _ => .pure

theorem exists_of_mapError {ε ε' α : Type} {x : Except ε α} {f : ε → ε'} {e : ε'}
    (h : x.mapError f = .error e) : ∃ e', x = .error e' ∧ f e' = e := by
  cases x with
  | error e' =>
    cases h
    exact ⟨e', rfl, rfl⟩
  | ok a => cases h

theorem fails_ofVisit (hnorm : norm.Spares) (visit : Visit) :
    Fails (ofVisit t config norm visit) AtlasError.Spares := by
  refine (Loading.fails_load _ _).bind fun record => ?_
  refine (Fails.liftM (hnorm _ _)).bind fun text => ?_
  refine (Fails.liftM fun e he => ?_).bind_gives fun s references s₁ hreferences => ?_
  · obtain ⟨_, -, rfl⟩ := exists_of_mapError he
    exact .of_ne nofun
  · obtain ⟨hscan, -⟩ := gives_liftM.1 hreferences
    have hscan := mapError_eq_ok.1 hscan
    suffices Fails _ AtlasError.Spares from this s₁
    refine (fails_followAll _ _).bind_gives fun s imports s₂ himports => ?_
    obtain ⟨hspecifiers, -⟩ := gives_followAll himports
    have hnamed : ∀ r ∈ references, (idOf imports r.specifier).isSome = true := by
      intro r hr
      obtain ⟨i, -, hi⟩ := exists_idOf hspecifiers hr
      rw [hi, Option.isSome_some]
    obtain ⟨out, hout⟩ := exists_splice hscan hnamed
    suffices Fails _ AtlasError.Spares from this s₂
    refine (Fails.liftM fun e he => ?_).bind fun _ => .pure
    rw [spliceIds, hout] at he
    cases he

end Expansion

namespace ModuleGraph

theorem fails_expand (hnorm : norm.Spares) (fresh : List ModuleLocation) (stack : List Visit) :
    Fails (expand t config norm fresh stack) AtlasError.Spares := by
  induction fresh, stack using stackInduction with
  | nil fresh =>
    rw [expand_nil]
    exact .pure
  | seen fresh v stack hseen ih =>
    rw [expand_cons_of_not_mem hseen]
    exact ih
  | visit fresh v stack hfresh ih =>
    rw [expand_cons_of_mem hfresh]
    exact (Expansion.fails_ofVisit hnorm v).bind fun _ => (ih _).bind fun _ => .pure

theorem fails_walk (hnorm : norm.Spares) (specifier : String) (base : Path) :
    Fails (walk t config norm specifier base) AtlasError.Spares :=
  (Expansion.fails_follow base specifier).bind fun _ => (fails_expand hnorm _ _).bind fun _ => .pure

end ModuleGraph

/-- What a scan answers is consistent with the text: the references come in
order and apart, each spans a quoted literal, and all can be replaced.  So no
walk fails for want of a place to put an id, if the normalizer does not. -/
theorem references_consistent :
    (∀ (text : String) (references : List Reference), scan text = .ok references →
      (references.Pairwise fun r s => r.stop ≤ s.start) ∧
      (∀ r ∈ references, r.Spans text.toList ∧ r.start + 2 ≤ r.stop ∧
        r.stop ≤ Text.byteLength text.toList ∧ (Text.cut? r.start text.toList).isSome = true ∧
        (Text.cut? r.stop text.toList).isSome = true) ∧
      ∀ idFor : Reference → Option String, (∀ r ∈ references, (idFor r).isSome = true) →
        ∃ out, splice text references idFor = .ok out) ∧
    (∀ maps, (Normalizer.basic maps).Spares) ∧
    ∀ (t : FileTree) (config : Config) (norm : Normalizer) (specifier : String) (base : Path)
      (caches caches' : Caches) (e : AtlasError), norm.Spares →
      (Atlas.trace t config norm specifier base).run caches = (.error e, caches') →
      e.code ≠ AtlasError.spliceCode := by
  refine ⟨?_, Normalizer.spares_basic, ?_⟩
  · intro text references h
    refine ⟨pairwise_of_scan h, fun r hr => ?_, fun _ => exists_splice h⟩
    have hspan := spans_of_scan h r hr
    exact ⟨hspan, hspan.start_add_two_le, hspan.stop_le, hspan.cut_start, hspan.cut_stop⟩
  · intro t config norm specifier base caches caches' e hnorm h
    exact (ModuleGraph.fails_walk hnorm specifier base).bind (fun _ => .pure) caches e caches' h

def emptyTree : FileTree where
  root := .directory []
  workingDirectory := []

theorem references_consistent_dynamic :
    (scan "f(import(`./a`), 1)" = .ok [⟨"./a", 9, 14, .dynamic⟩] ∧
      Reference.Spans ⟨"./a", 9, 14, .dynamic⟩ "f(import(`./a`), 1)".toList ∧
      ∃ out, splice "f(import(`./a`), 1)" [⟨"./a", 9, 14, .dynamic⟩]
        (fun _ => some "a-0000000") = .ok out) ∧
    ∃ e caches, (Atlas.trace emptyTree Config.default (.basic true) "./a.js" (Path.ofString "/")).run
      ⟨.empty, .empty⟩ = (.error e, caches) ∧ e.code ≠ AtlasError.spliceCode := by
  have hscan : scan "f(import(`./a`), 1)" = .ok [⟨"./a", 9, 14, .dynamic⟩] :=
    eq_ok_of_toOption (by decide +kernel)
  obtain ⟨_, hspans, hsplice⟩ := references_consistent.1 _ _ hscan
  refine ⟨⟨hscan, (hspans _ (List.mem_singleton_self _)).1, hsplice _ fun _ _ => rfl⟩, ?_⟩
  obtain ⟨e, caches, h⟩ := exists_failure
    (x := Atlas.trace emptyTree Config.default (.basic true) "./a.js" (Path.ofString "/"))
    (s := ⟨.empty, .empty⟩) (by decide +kernel)
  obtain ⟨-, hbasic, hspares⟩ := references_consistent
  exact ⟨e, caches, h, hspares _ _ _ _ _ _ _ _ (hbasic true) h⟩

end ImportAtlas
