import ImportAtlas.ModuleGraph.Walk

namespace ImportAtlas.ModuleGraph

variable {t : FileTree} {config : Config} {norm : Normalizer} {fresh : List ModuleLocation}
  {visit : Visit} {stack : List Visit}

theorem expand_nil : expand t config norm fresh [] = pure [] := by
  rw [expand]
  split
  · rfl
  · rename_i h
    cases h

theorem expand_cons_of_not_mem (h : visit.location ∉ fresh) :
    expand t config norm fresh (visit :: stack) = expand t config norm fresh stack := by
  have hdrop : (visit :: stack).dropWhile (·.location ∉ fresh) =
      stack.dropWhile (·.location ∉ fresh) := by
    rw [List.dropWhile_cons_of_pos (by simpa using h)]
  rw [expand, expand.eq_def t config norm fresh stack]
  split
  · rename_i hnil
    rw [hdrop] at hnil
    split
    · rfl
    · rename_i hcons
      rw [hnil] at hcons
      cases hcons
  · rename_i hcons
    rw [hdrop] at hcons
    split
    · rename_i hnil
      rw [hcons] at hnil
      cases hnil
    · rename_i hcons'
      rw [hcons] at hcons'
      cases hcons'
      rfl

theorem expand_cons_of_mem (h : visit.location ∈ fresh) :
    expand t config norm fresh (visit :: stack) = do
      let expansion ← Expansion.ofVisit t config norm visit
      let others ← expand t config norm (Fresh.without visit.location fresh)
        (expansion.imports.map Import.visit ++ stack)
      return expansion :: others := by
  have hdrop : (visit :: stack).dropWhile (·.location ∉ fresh) = visit :: stack :=
    List.dropWhile_cons_of_neg (by simpa using h)
  rw [expand]
  split
  · rename_i hnil
    rw [hdrop] at hnil
    cases hnil
  · rename_i hcons
    rw [hdrop] at hcons
    cases hcons
    rfl

@[elab_as_elim]
theorem stackInduction {motive : List ModuleLocation → List Visit → Prop}
    (nil : ∀ fresh, motive fresh [])
    (seen : ∀ fresh visit stack, visit.location ∉ fresh → motive fresh stack →
      motive fresh (visit :: stack))
    (visit : ∀ fresh visit stack, visit.location ∈ fresh →
      (∀ stack', motive (Fresh.without visit.location fresh) stack') →
      motive fresh (visit :: stack))
    (fresh : List ModuleLocation) (stack : List Visit) : motive fresh stack := by
  induction hn : fresh.length using Nat.strongRecOn generalizing fresh stack with
  | ind n ih =>
    induction stack with
    | nil => exact nil fresh
    | cons v stack ihs =>
      by_cases h : v.location ∈ fresh
      · refine visit fresh v stack h fun stack' => ?_
        exact ih _ (hn ▸ Fresh.length_without_lt h) _ stack' rfl
      · exact seen fresh v stack h ihs

end ImportAtlas.ModuleGraph
