import ImportAtlas.Proofs.Outcome
import ImportAtlas.TypeFiles.Collection

namespace ImportAtlas.PackageTypes

variable {t : FileTree} {config : Config} {fresh : List Path} {package : InstalledPackage}
  {stack : List InstalledPackage} {directory : Path}

theorem collect_nil : collect t config fresh [] = pure [] := by
  rw [collect]

theorem collect_cons_of_error {fault : FileFault}
    (h : t.canonicalize package.directory = .error fault) :
    collect t config fresh (package :: stack) = throw (.load package.directory fault) := by
  rw [collect]
  split
  · rename_i fault' h'
    rw [h] at h'
    cases h'
    rfl
  · rename_i h'
    rw [h] at h'
    cases h'

theorem collect_cons_of_not_mem (h : t.canonicalize package.directory = .ok directory)
    (hfresh : directory ∉ fresh) :
    collect t config fresh (package :: stack) = collect t config fresh stack := by
  rw [collect]
  split
  · rename_i h'
    rw [h] at h'
    cases h'
  · rename_i h'
    rw [h] at h'
    cases h'
    rw [dif_neg hfresh]

def links (found : Option PackageTypes) : List InstalledPackage :=
  found.elim [] linked

theorem collect_cons_of_mem (h : t.canonicalize package.directory = .ok directory)
    (hfresh : directory ∈ fresh) :
    collect t config fresh (package :: stack) = do
      let found ← ofPackage? t config package
      let others ← collect t config (Fresh.without directory fresh) (links found ++ stack)
      return found.toList ++ others := by
  rw [collect]
  split
  · rename_i h'
    rw [h] at h'
    cases h'
  · rename_i h'
    rw [h] at h'
    cases h'
    rw [dif_pos hfresh]
    refine bind_congr fun found => ?_
    cases found with
    | none => simp [links]
    | some types => rfl

@[elab_as_elim]
theorem stackInduction {motive : List Path → List InstalledPackage → Prop}
    (nil : ∀ fresh, motive fresh [])
    (lost : ∀ fresh package stack fault, t.canonicalize package.directory = .error fault →
      motive fresh (package :: stack))
    (seen : ∀ fresh package stack directory, t.canonicalize package.directory = .ok directory →
      directory ∉ fresh → motive fresh stack → motive fresh (package :: stack))
    (visit : ∀ fresh package stack directory, t.canonicalize package.directory = .ok directory →
      directory ∈ fresh → (∀ stack', motive (Fresh.without directory fresh) stack') →
      motive fresh (package :: stack))
    (fresh : List Path) (stack : List InstalledPackage) : motive fresh stack := by
  induction hn : fresh.length using Nat.strongRecOn generalizing fresh stack with
  | ind n ih =>
    induction stack with
    | nil => exact nil fresh
    | cons package stack ihs =>
      cases h : t.canonicalize package.directory with
      | error fault => exact lost fresh package stack fault h
      | ok directory =>
        by_cases hfresh : directory ∈ fresh
        · refine visit fresh package stack directory h hfresh fun stack' => ?_
          exact ih _ (hn ▸ Fresh.length_without_lt hfresh) _ stack' rfl
        · exact seen fresh package stack directory h hfresh ihs

end ImportAtlas.PackageTypes
