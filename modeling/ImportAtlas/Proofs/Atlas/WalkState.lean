import ImportAtlas.Proofs.Atlas.Keys

/-! A walk in steps.  One step takes the next visit and expands its module,
unless that has been expanded before.  What a step keeps is kept by every run
of steps; that the steps make up the walk is shown in `WalkState.exists_ends`. -/

namespace ImportAtlas

open Outcome

/-- A walk that is going on: the modules that have been expanded, in order, and
the visits that are still to be made, the next one first. -/
structure WalkState where
  entry : Import
  expanded : List Expansion
  pending : List Visit

namespace WalkState

def start (entry : Import) : WalkState := ⟨entry, [], [entry.visit]⟩

def visited (w : WalkState) : List ModuleLocation := w.expanded.map (·.visit.location)

/-- What has been listed so far. -/
def atlas (w : WalkState) : Atlas := .ofWalk w.entry w.expanded

def expand (w : WalkState) (e : Expansion) : WalkState :=
  { w with expanded := w.expanded ++ [e], pending := e.imports.map Import.visit ++ w.pending }

@[simp] theorem visited_start (entry : Import) : (start entry).visited = [] := rfl

@[simp] theorem visited_expand (w : WalkState) (e : Expansion) :
    (w.expand e).visited = w.visited ++ [e.visit.location] :=
  List.map_append

@[simp] theorem atlas_expand (w : WalkState) (e : Expansion) :
    (w.expand e).atlas = w.atlas.add e := by
  simp [atlas, expand, Atlas.ofWalk]

section Steps

variable (t : FileTree) (config : Config) (norm : Normalizer)

def visit (w : WalkState) (v : Visit) : Loading WalkState :=
  if v.location ∈ w.visited then return w
  else return w.expand (← Expansion.ofVisit t config norm v)

def step (w : WalkState) : Loading WalkState :=
  match w.pending with
  | [] => return w
  | v :: rest => visit t config norm { w with pending := rest } v

/-- Some steps lead from a state to another. -/
inductive Leads (w : WalkState) (c : Caches) : WalkState → Caches → Prop
  | refl : Leads w c w c
  | step {w₁ w₂ : WalkState} {c₁ c₂ : Caches} : Leads w c w₁ c₁ →
      Gives (w₁.step t config norm) c₁ w₂ c₂ → Leads w c w₂ c₂

/-- The states of the walk from an entry specifier, the cache holding some
modules when it begins. -/
def Reached (specifier : String) (base : Path) (modules : ModuleCache) (w : WalkState)
    (c : Caches) : Prop :=
  ∃ entry c₀, Gives (Expansion.follow t config base specifier) ⟨.empty, modules⟩ entry c₀ ∧
    Leads t config norm (start entry) c₀ w c

end Steps

variable {t : FileTree} {config : Config} {norm : Normalizer} {w w' : WalkState} {v : Visit}
  {c c' : Caches}

theorem Leads.trans {w₁ w₂ : WalkState} {c₁ c₂ : Caches} (h : Leads t config norm w c w₁ c₁)
    (h' : Leads t config norm w₁ c₁ w₂ c₂) : Leads t config norm w c w₂ c₂ := by
  induction h' with
  | refl => exact h
  | step _ hstep ih => exact ih.step hstep

theorem gives_visit (h : Gives (w.visit t config norm v) c w' c') :
    (v.location ∈ w.visited ∧ w' = w ∧ c' = c) ∨
      (v.location ∉ w.visited ∧ ∃ e, w' = w.expand e ∧
        Gives (Expansion.ofVisit t config norm v) c e c') := by
  unfold visit at h
  split at h
  · rename_i hseen
    obtain ⟨rfl, rfl⟩ := gives_pure.1 h
    exact .inl ⟨hseen, rfl, rfl⟩
  · rename_i hfresh
    obtain ⟨e, c₁, he, h⟩ := gives_bind.1 h
    obtain ⟨rfl, rfl⟩ := gives_pure.1 h
    exact .inr ⟨hfresh, e, rfl, he⟩

theorem gives_step (h : Gives (w.step t config norm) c w' c') :
    (w' = w ∧ c' = c) ∨ ∃ v rest, w.pending = v :: rest ∧
      Gives (visit t config norm { w with pending := rest } v) c w' c' := by
  unfold step at h
  split at h
  · obtain ⟨rfl, rfl⟩ := gives_pure.1 h
    exact .inl ⟨rfl, rfl⟩
  · rename_i v rest hpending
    exact .inr ⟨v, rest, hpending, h⟩

theorem Leads.entry (h : Leads t config norm w c w' c') : w'.entry = w.entry := by
  induction h with
  | refl => rfl
  | step _ hstep ih =>
    rw [← ih]
    obtain ⟨rfl, -⟩ | ⟨v, rest, -, hvisit⟩ := gives_step hstep
    · rfl
    · obtain ⟨-, rfl, -⟩ | ⟨-, e, rfl, -⟩ := gives_visit hvisit
      · rfl
      · rfl

/-- What has been expanded is as the cache has it, each module once, and the
cache has grown from the modules that it held at first. -/
structure Grounded (t : FileTree) (norm : Normalizer) (modules : ModuleCache) (w : WalkState)
    (c : Caches) : Prop where
  nodup : w.visited.Nodup
  expanded : ∀ e ∈ w.expanded, e.Grounded t norm c.modules
  grows : modules.LoadsTo c.modules

namespace Grounded

variable {modules : ModuleCache}

theorem start (entry : Import) (h : modules.LoadsTo c.modules) :
    Grounded t norm modules (start entry) c :=
  ⟨List.nodup_nil, fun _ => nofun, h⟩

theorem visit (h : Grounded t norm modules w c)
    (hvisit : Gives (w.visit t config norm v) c w' c') : Grounded t norm modules w' c' := by
  obtain ⟨-, rfl, rfl⟩ | ⟨hfresh, e, rfl, he⟩ := gives_visit hvisit
  · exact h
  · obtain ⟨hv, hgrounded, hgrows⟩ := Expansion.gives_ofVisit he
    refine ⟨?_, ?_, h.grows.trans hgrows⟩
    · rw [visited_expand, hv]
      refine List.nodup_append.2 ⟨h.nodup, List.pairwise_singleton _ _, ?_⟩
      rintro l hl _ hv' rfl
      exact hfresh (List.mem_singleton.1 hv' ▸ hl)
    · intro e' he'
      rcases List.mem_append.1 he' with he' | he'
      · exact (h.expanded e' he').mono hgrows.extend
      · exact List.mem_singleton.1 he' ▸ hgrounded

theorem step (h : Grounded t norm modules w c)
    (hstep : Gives (w.step t config norm) c w' c') : Grounded t norm modules w' c' := by
  obtain ⟨rfl, rfl⟩ | ⟨v, rest, -, hvisit⟩ := gives_step hstep
  · exact h
  · exact visit (w := { w with pending := rest }) ⟨h.nodup, h.expanded, h.grows⟩ hvisit

theorem leads (h : Grounded t norm modules w c) (hleads : Leads t config norm w c w' c') :
    Grounded t norm modules w' c' := by
  induction hleads with
  | refl => exact h
  | step _ hstep ih => exact ih.step hstep

end Grounded

theorem Reached.grounded {specifier : String} {base : Path} {modules : ModuleCache}
    (h : Reached t config norm specifier base modules w c) : Grounded t norm modules w c := by
  obtain ⟨entry, c₀, hentry, hleads⟩ := h
  obtain ⟨-, -, hgrows⟩ := Expansion.gives_follow hentry
  exact (Grounded.start entry hgrows).leads hleads

end WalkState

end ImportAtlas
