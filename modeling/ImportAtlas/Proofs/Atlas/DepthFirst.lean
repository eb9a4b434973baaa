import ImportAtlas.Atlas
import ImportAtlas.Proofs.ModuleGraph.Stack

namespace ImportAtlas.Atlas

variable (t : FileTree) (config : Config) (norm : Normalizer)

/-- Visit modules one after another.  A module that is still fresh is expanded
and listed, and what it imports is visited before the next one; what is fresh
after that is shared with all that follow. -/
def explore (fresh : List ModuleLocation) (a : Atlas) :
    List Visit → Loading (Atlas × { left : List ModuleLocation // left.length ≤ fresh.length })
  | [] => return (a, ⟨fresh, Nat.le_refl _⟩)
  | visit :: rest =>
    if hfresh : visit.location ∈ fresh then do
      let expansion ← Expansion.ofVisit t config norm visit
      let (a, below) ← explore (Fresh.without visit.location fresh) (a.add expansion)
        (expansion.imports.map Import.visit)
      have hbelow := Nat.lt_of_le_of_lt below.2 (Fresh.length_without_lt hfresh)
      let (a, left) ← explore below.1 a rest
      return (a, ⟨left.1, Nat.le_trans left.2 (Nat.le_of_lt hbelow)⟩)
    else explore fresh a rest
termination_by visits => (fresh.length, visits.length)
decreasing_by
  · exact Prod.Lex.left _ _ (Fresh.length_without_lt hfresh)
  · exact Prod.Lex.left _ _ hbelow
  · exact Prod.Lex.right _ (Nat.lt_succ_self _)

/-- The import map of an entry specifier, by recursion. -/
def traceDepthFirst (specifier : String) (base : Path) : Loading Atlas := do
  let entry ← Expansion.follow t config base specifier
  let (a, _) ← explore t config norm t.locations (empty.noteImport entry) [entry.visit]
  return a

variable {t config norm}

theorem expand_append (fresh : List ModuleLocation) (a : Atlas) (visits stack : List Visit) :
    (do
      let es ← ModuleGraph.expand t config norm fresh (visits ++ stack)
      return es.foldl add a) = do
      let (a, left) ← explore t config norm fresh a visits
      let es ← ModuleGraph.expand t config norm left.1 stack
      return es.foldl add a := by
  induction fresh, a, visits using explore.induct generalizing stack with
  | case1 fresh a => simp [explore]
  | case2 fresh a visit rest hfresh ihimports ihrest =>
    rw [List.cons_append, ModuleGraph.expand_cons_of_mem hfresh, explore, dif_pos hfresh]
    simp only [bind_assoc, pure_bind, List.foldl_cons]
    refine bind_congr fun expansion => ?_
    rw [ihimports expansion (rest ++ stack)]
    exact bind_congr fun (a, below) => ihrest a below stack
  | case3 fresh a visit rest hfresh ih =>
    rw [List.cons_append, ModuleGraph.expand_cons_of_not_mem hfresh, explore, dif_neg hfresh]
    exact ih stack

/-- Walking with a stack is the recursion.  From all caches both give the same
atlas, with its notes in the same order, and the same caches, or the same error. -/
theorem trace_eq_traceDepthFirst (specifier : String) (base : Path) :
    trace t config norm specifier base = traceDepthFirst t config norm specifier base := by
  simp only [trace, traceDepthFirst, ModuleGraph.walk, ofWalk, bind_assoc, pure_bind]
  refine bind_congr fun entry => ?_
  have h := @expand_append t config norm t.locations (empty.noteImport entry) [entry.visit] []
  simpa only [List.append_nil, ModuleGraph.expand_nil, pure_bind, List.foldl_nil] using h

end ImportAtlas.Atlas
