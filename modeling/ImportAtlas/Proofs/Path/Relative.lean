import ImportAtlas.Proofs.Path.Ancestors

namespace ImportAtlas.Path

open Text

variable {directory path : Path} {steps : List Component}

theorem Component.eq_of_piece? {c : Component} {piece : List Char} (h : c.piece? = some piece) :
    c = .parent ∨ c = .name piece := by
  cases c with
  | root => cases h
  | current => cases h
  | parent => exact .inl rfl
  | name text => exact .inr (congrArg Component.name (Option.some.inj h))

theorem componentOf_of_mem_steady {pieces : List (List Char)} {piece : List Char}
    (h : piece ∈ steady pieces) : componentOf piece = .parent ∨ componentOf piece = .name piece :=
  Component.eq_of_piece? (piece?_componentOf (by simpa using (List.mem_filter.1 h).2))

def Component.IsStep (c : Component) : Prop := c = .parent ∨ ∃ n, c = .name n ∧ IsPlain n

namespace Component.IsStep

variable {c : Component}

theorem slashFree (h : c.IsStep) : '/' ∉ c.text := by
  rcases h with rfl | ⟨n, rfl, hn⟩
  · decide
  · exact hn.slashFree

theorem isIdle_text (h : c.IsStep) : isIdle c.text = false := by
  rcases h with rfl | ⟨n, rfl, hn⟩
  · decide
  · exact hn.not_isIdle

theorem componentOf_text (h : c.IsStep) : componentOf c.text = c := by
  rcases h with rfl | ⟨n, rfl, hn⟩
  · decide
  · exact hn.componentOf_eq

end Component.IsStep

theorem steps_of_components (hne : directory.text ≠ [])
    (h : path.components = directory.components ++ steps) : ∀ step ∈ steps, step.IsStep := by
  intro step hstep
  obtain ⟨component, others, hdirectory⟩ :=
    List.exists_cons_of_ne_nil (mt components_eq_nil_iff.1 hne)
  have hpath : path.text ≠ [] := by
    rw [ne_eq, ← components_eq_nil_iff, h, hdirectory]
    nofun
  obtain ⟨first, rest, hsplit⟩ :=
    List.exists_cons_of_ne_nil (splitOn_ne_nil isSeparator path.text)
  have hmem : step ∈ (steady rest).map componentOf := by
    rw [hdirectory, components_eq_leading hpath hsplit, List.cons_append, List.cons.injEq] at h
    rw [h.2]
    exact List.mem_append_right _ hstep
  obtain ⟨piece, hpiece, rfl⟩ := List.mem_map.1 hmem
  have hin : componentOf piece ∈ path.components := h ▸ List.mem_append_right _ hstep
  refine (componentOf_of_mem_steady hpiece).imp_right fun hname => ⟨piece, hname, ?_⟩
  exact isPlain_of_mem_components (hname ▸ hin)

theorem eq_of_intercalate {names names' : List (List Char)} (hnames : ∀ n ∈ names, '/' ∉ n)
    (hne' : names' ≠ []) (hplain' : ∀ n ∈ names', IsPlain n)
    (h : ['/'].intercalate names = ['/'].intercalate names') : names = names' := by
  have hsplit' := splitOn_intercalate hne' fun n hn => (hplain' n hn).slashFree
  by_cases hne : names = []
  · subst hne
    rw [← h] at hsplit'
    exact absurd rfl (hplain' [] (hsplit' ▸ List.mem_cons_self)).ne_nil
  · rw [← splitOn_intercalate hne hnames, h, hsplit']

theorem splitOn_slashed (hne : steps ≠ []) (hsteps : ∀ step ∈ steps, step.IsStep) :
    splitOn isSeparator (slashed steps) = steps.map Component.text := by
  refine splitOn_intercalate (by simpa using hne) fun piece hpiece => ?_
  obtain ⟨step, hstep, rfl⟩ := List.mem_map.1 hpiece
  exact (hsteps step hstep).slashFree

theorem map_text_steps (q : Path) :
    q.steps.map Component.text = steady (splitOn isSeparator q.text) := by
  rw [steps, List.map_map]
  calc
    (steady (splitOn isSeparator q.text)).map (Component.text ∘ componentOf) =
        (steady (splitOn isSeparator q.text)).map id :=
      List.map_congr_left fun piece _ => text_componentOf piece
    _ = steady (splitOn isSeparator q.text) := List.map_id _

theorem relativeTo_join {q : Path} (hne : directory.text ≠ []) (hq : q.isAbsolute = false) :
    directory.relativeTo (directory.join q) = some (slashed q.steps) :=
  Option.map_eq_some_iff.2 ⟨_, dropFront_eq_some.2 (components_join directory hq (.inl hne)), rfl⟩

theorem not_mem_splitOn_slashed {q : Path} {n : List Char} (hn : n ≠ [])
    (h : n ∉ splitOn isSeparator q.text) : n ∉ splitOn isSeparator (slashed q.steps) := by
  rw [slashed, map_text_steps]
  by_cases hsteady : steady (splitOn isSeparator q.text) = []
  · rw [hsteady]
    exact fun hmem => hn (List.mem_singleton.1 hmem)
  · rw [splitOn_intercalate hsteady fun piece hpiece =>
      slashFree_of_mem_splitOn (List.mem_filter.1 hpiece).1]
    exact fun hmem => h (List.mem_filter.1 hmem).1

theorem slashed_cons (c : Component) (hne : steps ≠ []) :
    slashed (c :: steps) = c.text ++ '/' :: slashed steps := by
  obtain ⟨step, steps, rfl⟩ := List.exists_cons_of_ne_nil hne
  simp [slashed, List.intercalate_cons_cons]

theorem steps_slashed (hsteps : ∀ step ∈ steps, step.IsStep) :
    (Path.mk (slashed steps)).steps = steps := by
  by_cases hne : steps = []
  · rw [hne]
    exact steps_empty
  · have hsteady : steady (steps.map Component.text) = steps.map Component.text := by
      rw [steady, List.filter_eq_self]
      intro piece hpiece
      obtain ⟨step, hstep, rfl⟩ := List.mem_map.1 hpiece
      rw [(hsteps step hstep).isIdle_text, Bool.not_false]
    rw [Path.steps, splitOn_slashed hne hsteps, hsteady, List.map_map]
    calc
      steps.map (componentOf ∘ Component.text) = steps.map id :=
        List.map_congr_left fun step hstep => (hsteps step hstep).componentOf_text
      _ = steps := List.map_id _

theorem isAbsolute_slashed (hsteps : ∀ step ∈ steps, step.IsStep) :
    (Path.mk (slashed steps)).isAbsolute = false := by
  cases steps with
  | nil => rfl
  | cons step rest =>
    have hsplit := splitOn_slashed (List.cons_ne_nil step rest) hsteps
    have hstep : step.text ≠ [] := fun hnil => by
      have hidle := (hsteps step List.mem_cons_self).isIdle_text
      rw [hnil] at hidle
      cases hidle
    cases htext : slashed (step :: rest) with
    | nil => rfl
    | cons c cs =>
      rw [htext, List.map_cons] at hsplit
      simpa [isAbsolute] using mt (splitOn_head_eq_nil_iff hsplit).2 hstep

theorem components_text_leading {first : List Char} (hfirst : '/' ∉ first) :
    (Path.mk (leading first).text).components = [leading first] := by
  by_cases hnil : first = []
  · rw [hnil]
    decide
  · have htext : (leading first).text = first := by
      rw [leading, if_neg hnil, text_componentOf]
    rw [htext, components_eq_leading hnil (splitOn_of_slashFree hfirst)]
    rfl

theorem components_slashed (path : Path) :
    (Path.mk (slashed path.components)).components = path.components := by
  by_cases hpath : path.text = []
  · rw [components_eq_nil_iff.2 hpath]
    rfl
  · obtain ⟨first, rest, hsplit⟩ :=
      List.exists_cons_of_ne_nil (splitOn_ne_nil isSeparator path.text)
    have hfirst : '/' ∉ first := slashFree_of_mem_splitOn (hsplit ▸ List.mem_cons_self)
    have hfront := components_text_leading hfirst
    have hne : (leading first).text ≠ [] := fun hnil => by
      rw [hnil] at hfront
      cases hfront
    have hcomponents := components_eq_leading hpath hsplit
    generalize (steady rest).map componentOf = steps at hcomponents
    rw [hcomponents]
    by_cases hsteps : steps = []
    · rw [hsteps]
      simpa [slashed] using hfront
    · have hpath : path.components = (Path.mk (leading first).text).components ++ steps := by
        rw [hcomponents, hfront, List.singleton_append]
      have hplain := steps_of_components hne hpath
      rw [slashed_cons _ hsteps, components_append_separator hne, hfront,
        steps_slashed hplain, List.singleton_append]

theorem relativeTo_isSome_iff :
    (directory.relativeTo path).isSome = true ↔ directory.components <+: path.components := by
  rw [relativeTo, Option.isSome_map, Option.isSome_iff_exists]
  exact exists_congr fun steps => dropFront_eq_some.trans eq_comm

theorem components_join_of_relativeTo {relative : List Char}
    (h : directory.relativeTo path = some relative) :
    (directory.join ⟨relative⟩).components = path.components := by
  obtain ⟨steps, hsteps, rfl⟩ := Option.map_eq_some_iff.1 h
  rw [dropFront_eq_some] at hsteps
  by_cases hne : directory.text = []
  · rw [components_eq_nil_iff.2 hne, List.nil_append] at hsteps
    have hjoin : directory.join ⟨slashed steps⟩ = ⟨slashed steps⟩ := by
      simp [join, hne]
    rw [hjoin, ← hsteps, components_slashed]
  · have hplain := steps_of_components hne hsteps
    rw [components_join directory (isAbsolute_slashed hplain) (.inl hne), steps_slashed hplain,
      hsteps]

theorem relativeTo_congr {path' : Path} (h : path.components = path'.components) :
    directory.relativeTo path = directory.relativeTo path' := by
  rw [relativeTo, h, ← relativeTo]

theorem components_eq_of_relativeTo {path' : Path} {relative : List Char}
    (h : directory.relativeTo path = some relative)
    (h' : directory.relativeTo path' = some relative) : path.components = path'.components :=
  (components_join_of_relativeTo h).symm.trans (components_join_of_relativeTo h')

end ImportAtlas.Path
