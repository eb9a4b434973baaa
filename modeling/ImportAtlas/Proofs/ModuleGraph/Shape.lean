import ImportAtlas.Proofs.ModuleGraph.Stack

namespace ImportAtlas

inductive Loads (t : FileTree) : {α : Type} → Loading α → Prop
  | pure {α : Type} (a : α) : Loads t (Pure.pure a : Loading α)
  | liftM {α : Type} (x : Except AtlasError α) : Loads t (MonadLiftT.monadLift x : Loading α)
  | lookup {α : Type} (l : Lookup α) : Loads t (Loading.lookup l)
  | load (location : ModuleLocation) (specifier : String) :
      Loads t (Loading.load t location specifier)
  | bind {α β : Type} {x : Loading α} {f : α → Loading β} :
      Loads t x → (∀ a, Loads t (f a)) → Loads t (x >>= f)

variable {t : FileTree} {config : Config} {norm : Normalizer}

theorem Loads.mapM {α β : Type} {f : α → Loading β} (hf : ∀ a, Loads t (f a)) (as : List α) :
    Loads t (as.mapM f) := by
  induction as with
  | nil =>
    rw [List.mapM_nil]
    exact .pure []
  | cons a as ih =>
    rw [List.mapM_cons]
    exact (hf a).bind fun b => ih.bind fun bs => .pure (b :: bs)

namespace Expansion

theorem loads_follow (directory : Path) (specifier : String) :
    Loads t (follow t config directory specifier) := by
  refine (Loads.lookup _).bind fun resolution => ?_
  exact (Loads.load resolution.location specifier).bind fun _ => .pure _

theorem loads_ofVisit (visit : Visit) : Loads t (ofVisit t config norm visit) := by
  refine (Loads.load visit.location visit.specifier).bind fun record => ?_
  refine (Loads.liftM _).bind fun text => ?_
  refine (Loads.liftM _).bind fun references => ?_
  refine (Loads.mapM (loads_follow visit.location.directory) _).bind fun imports => ?_
  exact (Loads.liftM _).bind fun _ => .pure _

end Expansion

namespace ModuleGraph

theorem loads_expand (fresh : List ModuleLocation) (stack : List Visit) :
    Loads t (expand t config norm fresh stack) := by
  induction fresh, stack using stackInduction with
  | nil fresh =>
    rw [expand_nil]
    exact .pure []
  | seen fresh v stack hseen ih =>
    rw [expand_cons_of_not_mem hseen]
    exact ih
  | visit fresh v stack hfresh ih =>
    rw [expand_cons_of_mem hfresh]
    exact (Expansion.loads_ofVisit v).bind fun _ => (ih _).bind fun _ => .pure _

theorem loads_walk (specifier : String) (base : Path) :
    Loads t (walk t config norm specifier base) :=
  (Expansion.loads_follow base specifier).bind fun _ => (loads_expand _ _).bind fun _ => .pure _

end ModuleGraph

end ImportAtlas
