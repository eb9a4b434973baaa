import ImportAtlas.Proofs.Atlas.WalkState
import ImportAtlas.Proofs.ModuleGraph.Stack

namespace ImportAtlas

open Outcome

namespace WalkState

section Ends

variable (t : FileTree) (config : Config) (norm : Normalizer)

/-- The steps from a state come to an end: no visit is left, or one fails. -/
inductive Ends : WalkState → Caches → Except AtlasError WalkState → Caches → Prop
  | done {w : WalkState} {c : Caches} : w.pending = [] → Ends w c (.ok w) c
  | fail {w : WalkState} {c c' : Caches} {e : AtlasError} : w.pending ≠ [] →
      (w.step t config norm).run c = (.error e, c') → Ends w c (.error e) c'
  | step {w w₁ : WalkState} {c c₁ c' : Caches} {r : Except AtlasError WalkState} :
      w.pending ≠ [] → Gives (w.step t config norm) c w₁ c₁ → Ends w₁ c₁ r c' → Ends w c r c'

end Ends

variable {t : FileTree} {config : Config} {norm : Normalizer} {w w' : WalkState} {v : Visit}
  {c c' : Caches} {rest : List Visit}

theorem Ends.leads {r : Except AtlasError WalkState} (h : Ends t config norm w c r c') :
    ∀ w', r = .ok w' → Leads t config norm w c w' c' ∧ w'.pending = [] := by
  induction h with
  | done hpending =>
    rintro w' ⟨⟩
    exact ⟨.refl, hpending⟩
  | fail _ _ => exact nofun
  | step _ hstep _ ih =>
    intro w' hr
    obtain ⟨hleads, hpending⟩ := ih w' hr
    exact ⟨.trans (.step .refl hstep) hleads, hpending⟩

theorem step_eq (hpending : w.pending = v :: rest) :
    w.step t config norm = visit t config norm { w with pending := rest } v := by
  simp only [step, hpending]

theorem step_of_seen (hpending : w.pending = v :: rest) (h : v.location ∈ w.visited) :
    w.step t config norm = return { w with pending := rest } := by
  rw [step_eq hpending]
  exact if_pos h

theorem step_of_fresh (hpending : w.pending = v :: rest) (h : v.location ∉ w.visited) :
    w.step t config norm = do
      return expand { w with pending := rest } (← Expansion.ofVisit t config norm v) := by
  rw [step_eq hpending]
  exact if_neg h

theorem ends_of_expand {fresh : List ModuleLocation} {stack : List Visit}
    {result : Except AtlasError (List Expansion)}
    (h : (ModuleGraph.expand t config norm fresh stack).run c = (result, c'))
    (hpending : w.pending = stack) (hlocated : ∀ v ∈ stack, v.location ∈ t.locations)
    (hfresh : ∀ l, l ∈ fresh ↔ l ∈ t.locations ∧ l ∉ w.visited) :
    Ends t config norm w c
      (result.map fun es => { w with expanded := w.expanded ++ es, pending := [] }) c' := by
  induction fresh, stack using ModuleGraph.stackInduction generalizing w c c' result with
  | nil fresh =>
    rw [ModuleGraph.expand_nil] at h
    cases h
    have hw : { w with expanded := w.expanded ++ [], pending := [] } = w := by
      rw [List.append_nil, ← hpending]
    change Ends t config norm w c (.ok { w with expanded := w.expanded ++ [], pending := [] }) c
    rw [hw]
    exact .done hpending
  | seen fresh v stack hseen ih =>
    rw [ModuleGraph.expand_cons_of_not_mem hseen] at h
    -- what is not fresh has been visited: visits lead to files of the tree only
    have hvisited : v.location ∈ w.visited :=
      Decidable.byContradiction fun hnot =>
        hseen ((hfresh _).2 ⟨hlocated v List.mem_cons_self, hnot⟩)
    refine .step (hpending ▸ List.cons_ne_nil v stack)
      (step_of_seen hpending hvisited ▸ gives_pure.2 ⟨rfl, rfl⟩) ?_
    exact ih (w := { w with pending := stack }) h rfl
      (fun u hu => hlocated u (List.mem_cons_of_mem v hu)) hfresh
  | visit fresh v stack hmem ih =>
    rw [ModuleGraph.expand_cons_of_mem hmem] at h
    have hnot := ((hfresh _).1 hmem).2
    have hne : w.pending ≠ [] := hpending ▸ List.cons_ne_nil v stack
    rcases he : (Expansion.ofVisit t config norm v).run c with ⟨e | e, c₁⟩
    · rw [run_bind_of_error he] at h
      cases h
      exact .fail hne (step_of_fresh hpending hnot ▸ run_bind_of_error he)
    · rw [run_bind_of_gives he] at h
      rcases hothers : (ModuleGraph.expand t config norm (Fresh.without v.location fresh)
        (e.imports.map Import.visit ++ stack)).run c₁ with ⟨others, c₂⟩
      rw [run_bind_pure hothers] at h
      cases h
      obtain ⟨hv, hgrounded, -⟩ := Expansion.gives_ofVisit he
      have hnext : Gives (w.step t config norm) c (expand { w with pending := stack } e) c₁ := by
        rw [step_of_fresh hpending hnot]
        exact gives_bind.2 ⟨e, c₁, he, gives_pure.2 ⟨rfl, rfl⟩⟩
      have hends := ih _ (w := expand { w with pending := stack } e) hothers rfl
        (fun u hu => ?_) (fun l => ?_)
      · refine .step hne hnext ?_
        cases others with
        | error error => exact hends
        | ok es => simpa [expand, Except.map] using hends
      · rcases List.mem_append.1 hu with hu | hu
        · obtain ⟨i, hi, rfl⟩ := List.mem_map.1 hu
          exact (hgrounded.imports i hi).1
        · exact hlocated u (List.mem_cons_of_mem v hu)
      · rw [Fresh.mem_without, hfresh, visited_expand, hv]
        simp [visited, and_assoc]

theorem exists_ends {specifier : String} {base : Path} {s s₁ : Caches} {entry : Import}
    (h : Gives (Expansion.follow t config base specifier) s entry s₁) :
    ∃ r s', Ends t config norm (start entry) s₁ r s' ∧
      (Atlas.trace t config norm specifier base).run s = (r.map atlas, s') := by
  rcases hexpand : (ModuleGraph.expand t config norm t.locations [entry.visit]).run s₁
    with ⟨result, s'⟩
  have hlocated := (Expansion.gives_follow h).2.1.1
  refine ⟨_, s', ends_of_expand hexpand rfl ?_ fun l => ?_, ?_⟩
  · intro v hv
    exact List.mem_singleton.1 hv ▸ hlocated
  · simp
  · simp only [Atlas.trace, ModuleGraph.walk, bind_assoc, pure_bind]
    rw [run_bind_of_gives h, run_bind_pure hexpand]
    cases result with
    | error e => rfl
    | ok es => rfl

end WalkState

end ImportAtlas
