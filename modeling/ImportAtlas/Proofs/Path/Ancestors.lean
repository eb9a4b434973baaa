import Mathlib.Data.List.Induction
import Mathlib.Data.List.Infix
import Mathlib.Data.List.Nodup
import ImportAtlas.Proofs.Path.Components

namespace ImportAtlas.Path

open Text

theorem components_eq_nil_iff {p : Path} : p.components = [] ↔ p.text = [] := by
  constructor
  · intro h
    by_contra hne
    obtain ⟨first, rest, hsplit⟩ :=
      List.exists_cons_of_ne_nil (splitOn_ne_nil isSeparator p.text)
    rw [components_eq_leading hne hsplit] at h
    cases h
  · intro h
    simp [components, h]

def Component.piece? : Component → Option (List Char)
  | .root => none
  | .current => none
  | .parent => some ['.', '.']
  | .name text => some text

theorem piece?_componentOf {piece : List Char} (h : isIdle piece = false) :
    (componentOf piece).piece? = some piece := by
  unfold componentOf
  split
  · rename_i hparent
    rw [hparent]
    rfl
  · split
    · rename_i hpoint
      rw [hpoint] at h
      cases h
    · rfl

theorem steady_eq_filterMap (p : Path) :
    steady (splitOn isSeparator p.text) = p.components.filterMap Component.piece? := by
  by_cases hp : p.text = []
  · rw [components_eq_nil_iff.2 hp, hp]
    rfl
  · obtain ⟨first, rest, hsplit⟩ :=
      List.exists_cons_of_ne_nil (splitOn_ne_nil isSeparator p.text)
    have hrest : ((steady rest).map componentOf).filterMap Component.piece? = steady rest := by
      rw [List.filterMap_map]
      refine (List.filterMap_congr fun piece hpiece => ?_).trans List.filterMap_some
      exact piece?_componentOf (by simpa [steady] using (List.mem_filter.1 hpiece).2)
    have hfirst : (leading first).piece?.toList = steady [first] := by
      cases hidle : isIdle first with
      | true =>
        rcases (by simpa [isIdle] using hidle : first = [] ∨ first = ['.']) with rfl | rfl
        · rfl
        · rfl
      | false =>
        have hne : first ≠ [] := by
          rintro rfl
          cases hidle
        simp [leading, hne, piece?_componentOf hidle, steady, hidle]
    rw [components_eq_leading hp hsplit, hsplit, steady_cons, ← hfirst,
      List.filterMap_cons, hrest]
    cases (leading first).piece? <;> rfl

theorem isAbsolute_iff {p : Path} : p.isAbsolute = true ↔ p.components.head? = some .root := by
  obtain ⟨_ | ⟨c, cs⟩⟩ := p
  · simp [isAbsolute, components]
  · by_cases hc : c = '/'
    · subst hc
      simp [components_absolute, isAbsolute]
    · obtain ⟨first, rest, -, hrest⟩ := components_relative hc cs
      simp [hrest, isAbsolute, hc, componentOf_ne_root]

theorem components_join_congr {p p' : Path} (h : p.components = p'.components) (q : Path) :
    (p.join q).components = (p'.join q).components := by
  have hempty : p.text = [] ↔ p'.text = [] := by
    rw [← components_eq_nil_iff, h, components_eq_nil_iff]
  by_cases hp : p.text = []
  · simp [join, hp, hempty.1 hp]
  cases hq : q.isAbsolute with
  | true => simp [join, hq]
  | false =>
    rw [components_join p hq (.inl hp), components_join p' hq (.inl (mt hempty.2 hp)), h]

theorem text_join_ne_nil {p q : Path} (h : p.text ≠ [] ∨ q.text ≠ []) : (p.join q).text ≠ [] := by
  unfold join
  split
  · rename_i hq
    rcases h with hp | hq'
    · rintro hempty
      simp [isAbsolute, hp, hempty] at hq
    · exact hq'
  · rename_i hp
    split
    · intro hempty
      simp_all
    · exact List.append_ne_nil_of_right_ne_nil _ (List.cons_ne_nil '/' q.text)

theorem isAbsolute_join (p : Path) {q : Path} (hq : q.isAbsolute = false) :
    (p.join q).isAbsolute = p.isAbsolute := by
  obtain ⟨_ | ⟨c, cs⟩⟩ := p
  · simp only [join, decide_true, Bool.or_true, if_true, hq]
    rfl
  · simp only [join, hq, List.cons_ne_nil, decide_false, Bool.or_false, Bool.false_eq_true, if_false]
    split <;> rfl

theorem isAbsolute_join_of_isAbsolute {p : Path} (h : p.isAbsolute = true) (q : Path) :
    (p.join q).isAbsolute = true := by
  cases hq : q.isAbsolute with
  | true => simp [join, hq]
  | false => rw [isAbsolute_join p hq, h]

theorem fileName?_congr {p p' : Path} (h : p.components = p'.components) :
    p.fileName? = p'.fileName? := by
  rw [fileName?, fileName?, h]

theorem steady_join (p : Path) {q : Path} (hq : q.isAbsolute = false) :
    steady (splitOn isSeparator (p.join q).text) =
      steady (splitOn isSeparator p.text) ++ steady (splitOn isSeparator q.text) := by
  by_cases hp : p.text = []
  · simp [join, hp, splitOn, steady, isIdle]
  simp only [join, hq, hp, decide_false, Bool.or_false, Bool.false_eq_true, if_false]
  split
  · rename_i hlast
    obtain ⟨front, hp', hcut⟩ := exists_splitOn_append_of_getLast? hlast
    rw [hcut, hp', steady_append, steady_append]
    simp [steady, isIdle]
  · rw [splitOn_append rfl, steady_append]

theorem steady_join_piece (p : Path) {n : List Char} (h : '/' ∉ n) :
    steady (splitOn isSeparator (p.join ⟨n⟩).text) =
      steady (splitOn isSeparator p.text) ++ steady [n] := by
  have hrelative : (Path.mk n).isAbsolute = false := by
    cases n with
    | nil => rfl
    | cons c n =>
      have hc : c ≠ '/' := fun hc => h (hc ▸ List.mem_cons_self)
      simp [isAbsolute, hc]
  rw [steady_join p hrelative, splitOn_of_slashFree h]

theorem IsPlain.steady_eq {n : List Char} (h : IsPlain n) : steady [n] = [n] := by
  simp [steady, h.not_isIdle]

theorem suffix_of_mem_shorterBodies {body shorter : List (List Char)}
    (h : shorter ∈ shorterBodies body) : shorter <:+ body := by
  induction body with
  | nil => cases h
  | cons first body ih =>
    rw [shorterBodies] at h
    split at h
    · exact (ih h).trans (List.suffix_cons first body)
    · rcases List.mem_cons.1 h with rfl | h
      · exact (List.dropWhile_suffix isIdle).trans (List.suffix_cons first body)
      · exact (ih h).trans (List.suffix_cons first body)

theorem map_steady_shorterBodies (body : List (List Char)) :
    (shorterBodies body).map steady = (steady body).tails.tail := by
  induction body with
  | nil => rfl
  | cons piece body ih =>
    cases h : isIdle piece with
    | true =>
      have hsteady : steady (piece :: body) = steady body := List.filter_cons_of_neg (by simp [h])
      simpa [shorterBodies, h, hsteady] using ih
    | false =>
      have hsteady : steady (piece :: body) = piece :: steady body :=
        List.filter_cons_of_pos (by simp [h])
      have htails : (steady body).tails = steady body :: (steady body).tails.tail := by
        cases steady body <;> rfl
      rw [hsteady, List.tails, List.tail_cons, htails, ← ih]
      simp [shorterBodies, h, steady_dropWhile]

theorem components_ancestors {p : Path} {first : List Char} {rest : List (List Char)}
    (hp : p.text ≠ []) (hsplit : splitOn isSeparator p.text = first :: rest) :
    p.ancestors.map components =
      (steady rest).reverse.tails.map (fun above => leading first :: above.reverse.map componentOf) ++
        if first = [] then [] else [[]] := by
  have hbodies : ((shorterBodies rest.reverse).map (ofPieces first)).map components =
      (steady rest).reverse.tails.tail.map
        fun above => leading first :: above.reverse.map componentOf := by
    rw [← steady_reverse, ← map_steady_shorterBodies, List.map_map, List.map_map]
    refine List.map_congr_left fun shorter hshorter => ?_
    rw [Function.comp_apply, components_ofPieces]
    · rw [Function.comp_apply, steady_reverse]
    · intro piece hpiece
      refine slashFree_of_mem_splitOn (?_ : piece ∈ splitOn isSeparator p.text)
      rw [hsplit]
      rcases List.mem_cons.1 hpiece with rfl | hpiece
      · exact List.mem_cons_self
      · have := (suffix_of_mem_shorterBodies hshorter).mem (List.mem_reverse.1 hpiece)
        exact List.mem_cons_of_mem first (List.mem_reverse.1 this)
  have htails : (steady rest).reverse.tails =
      (steady rest).reverse :: (steady rest).reverse.tails.tail := by
    cases (steady rest).reverse <;> rfl
  rw [ancestors, hsplit]
  simp only [List.map_cons, List.map_append, hbodies]
  rw [htails, List.map_cons, List.reverse_reverse, components_eq_leading hp hsplit,
    List.cons_append]
  split <;> rfl

theorem leading_eq_root_iff {first : List Char} : leading first = .root ↔ first = [] := by
  unfold leading
  split
  · simp [*]
  · simp [*, componentOf_ne_root]

theorem components_ancestors_of_isAbsolute {p : Path} (h : p.isAbsolute = true) :
    p.ancestors.map components = (steady (splitOn isSeparator p.text)).inits.reverse.map
      fun front => .root :: front.map componentOf := by
  obtain ⟨cs, hcs⟩ := List.head?_eq_some_iff.1 (of_decide_eq_true h)
  have hsplit : splitOn isSeparator p.text = [] :: splitOn isSeparator cs := by
    rw [hcs, splitOn_cons_of_pos (by rfl)]
  rw [components_ancestors (by simp [hcs]) hsplit, if_pos rfl, List.append_nil, List.tails_reverse,
    hsplit]
  simp [steady, isIdle, leading, Function.comp_def]

section Absolute

variable {p d : Path}

theorem map_steady_ancestors (h : p.isAbsolute = true) :
    p.ancestors.map (fun d => steady (FileTree.pieces d.text)) =
      (steady (FileTree.pieces p.text)).inits.reverse := by
  have hfront {front : List (List Char)} (hfront : front <+: steady (FileTree.pieces p.text)) :
      (Component.root :: front.map componentOf).filterMap Component.piece? = front := by
    rw [List.filterMap_cons_none rfl, List.filterMap_map]
    refine (List.filterMap_congr fun piece hpiece => ?_).trans List.filterMap_some
    have hsteady := (List.mem_filter.1 (hfront.mem hpiece)).2
    exact piece?_componentOf (by simpa using hsteady)
  calc
    p.ancestors.map (fun d => steady (FileTree.pieces d.text)) =
        (p.ancestors.map components).map (List.filterMap Component.piece?) := by
      rw [List.map_map]
      exact List.map_congr_left fun d _ => steady_eq_filterMap d
    _ = (steady (FileTree.pieces p.text)).inits.reverse.map id := by
      rw [components_ancestors_of_isAbsolute h, List.map_map]
      exact List.map_congr_left fun front hmem =>
        hfront ((List.mem_inits _ _).1 (List.mem_reverse.1 hmem))
    _ = _ := List.map_id _

theorem isAbsolute_of_mem_ancestors (h : p.isAbsolute = true) (hd : d ∈ p.ancestors) :
    d.isAbsolute = true := by
  have hmem := List.mem_map_of_mem (f := components) hd
  rw [components_ancestors_of_isAbsolute h] at hmem
  obtain ⟨front, -, hfront⟩ := List.mem_map.1 hmem
  rw [isAbsolute_iff, ← hfront]
  rfl

theorem nodup_components_ancestors (h : p.isAbsolute = true) :
    (p.ancestors.map components).Nodup := by
  have hinits (pieces : List (List Char)) : pieces.inits.Nodup := by
    induction pieces with
    | nil => simp
    | cons piece pieces ih =>
      rw [List.inits_cons, List.nodup_cons]
      exact ⟨by simp, ih.map (List.cons_injective)⟩
  rw [components_ancestors_of_isAbsolute h]
  refine (List.nodup_reverse.2 (hinits _)).map fun front front' hfront => ?_
  exact List.map_injective_iff.2 (fun _ _ => componentOf_injective) (List.cons.inj hfront).2

end Absolute

theorem ancestors_congr {p q : Path} (h : p.components = q.components) :
    p.ancestors.map components = q.ancestors.map components := by
  by_cases hp : p.text = []
  · have hq : q.text = [] := by rw [← components_eq_nil_iff, ← h, components_eq_nil_iff, hp]
    obtain rfl : p = q := by rw [Path.mk.injEq, hp, hq]
    rfl
  · have hq : q.text ≠ [] := by rwa [ne_eq, ← components_eq_nil_iff, ← h, components_eq_nil_iff]
    obtain ⟨first, rest, hsplit⟩ :=
      List.exists_cons_of_ne_nil (splitOn_ne_nil isSeparator p.text)
    obtain ⟨first', rest', hsplit'⟩ :=
      List.exists_cons_of_ne_nil (splitOn_ne_nil isSeparator q.text)
    rw [components_eq_leading hp hsplit, components_eq_leading hq hsplit', List.cons.injEq] at h
    obtain ⟨hleading, hsteady⟩ := h
    have hsteady := List.map_injective_iff.2 (fun _ _ => componentOf_injective) hsteady
    have hroot : first = [] ↔ first' = [] := by
      rw [← leading_eq_root_iff, hleading, leading_eq_root_iff]
    rw [components_ancestors hp hsplit, components_ancestors hq hsplit', hsteady, hleading]
    simp only [hroot]

theorem ancestors_concat {p parent : Path} {n : List Char}
    (h : p.components = parent.components ++ [.name n]) :
    p.ancestors.map components = p.components :: parent.ancestors.map components := by
  have hp : p.text ≠ [] := by
    rw [ne_eq, ← components_eq_nil_iff, h]
    simp
  have hn : componentOf n = .name n := (isPlain_of_mem_components (p := p) (by simp [h])).componentOf_eq
  obtain ⟨first, rest, hsplit⟩ :=
    List.exists_cons_of_ne_nil (splitOn_ne_nil isSeparator p.text)
  rw [components_ancestors hp hsplit, components_eq_leading hp hsplit]
  rw [components_eq_leading hp hsplit] at h
  by_cases hparent : parent.text = []
  · have hnil := components_eq_nil_iff.2 hparent
    rw [hnil, List.nil_append, List.cons.injEq, List.map_eq_nil_iff] at h
    obtain ⟨hleading, hrest⟩ := h
    have hfirst : first ≠ [] := by
      rw [ne_eq, ← leading_eq_root_iff, hleading]
      nofun
    have hancestors : parent.ancestors = [parent] := by
      simp [ancestors, hparent, splitOn, shorterBodies]
    simp [hrest, hfirst, hancestors, hnil]
  · obtain ⟨first', rest', hsplit'⟩ :=
      List.exists_cons_of_ne_nil (splitOn_ne_nil isSeparator parent.text)
    rw [components_eq_leading hparent hsplit', List.cons_append, List.cons.injEq, ← hn,
      ← List.map_singleton, ← List.map_append] at h
    obtain ⟨hleading, hsteady⟩ := h
    have hsteady := List.map_injective_iff.2 (fun _ _ => componentOf_injective) hsteady
    have hroot : first = [] ↔ first' = [] := by
      rw [← leading_eq_root_iff, hleading, leading_eq_root_iff]
    rw [components_ancestors hparent hsplit', hleading, hsteady]
    simp [hroot]

theorem Below.ancestors_take {directory p : Path} {names : List (List Char)}
    (h : directory.Below p names) : (p.ancestors.take (names.length + 1)).map components =
      names.inits.reverse.map fun front => directory.components ++ front.map .name := by
  induction names using List.reverseRecOn generalizing p with
  | nil =>
    obtain ⟨above, habove⟩ : ∃ above, p.ancestors = p :: above := by
      unfold ancestors
      split
      · exact ⟨_, rfl⟩
      · exact ⟨_, rfl⟩
    rw [Below, List.map_nil, List.append_nil] at h
    simp [habove, h]
  | append_singleton names n ih =>
    have hsplit : p.components = (directory.components ++ names.map .name) ++ [.name n] := by
      rw [h, List.map_append, List.map_singleton, List.append_assoc]
    obtain ⟨parent, -, hparent⟩ := exists_parent hsplit
    rw [← hparent] at hsplit
    have hlater := ih (p := parent) hparent
    rw [List.map_take] at hlater ⊢
    rw [ancestors_concat hsplit, List.length_append, List.length_singleton, List.take_succ_cons,
      hlater, h]
    simp [List.inits_append]

end ImportAtlas.Path
