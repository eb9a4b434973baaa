import ImportAtlas.Glob.Search
import ImportAtlas.Proofs.FileTree.Descent
import ImportAtlas.Proofs.Glob.Pattern

namespace ImportAtlas.Glob

open Text FileTree

/-- The pieces may stand in a path where the components are matched, idle ones apart. -/
inductive Fits : List Component → List FileName → Prop
  | nil : Fits [] []
  | last {n : FileName} (hn : Path.IsPlain n) : Fits [.recursive] [n]
  | leave {n : FileName} {next : Component} {others : List Component} {names : List FileName}
      (hn : Path.IsPlain n) (h : Fits others names) :
      Fits (.recursive :: next :: others) (n :: names)
  | deeper {n : FileName} {rest : List Component} {names : List FileName} (hn : Path.IsPlain n)
      (h : Fits (.recursive :: rest) names) : Fits (.recursive :: rest) (n :: names)
  | step {c : Component} {rest : List Component} {n : FileName} {names : List FileName}
      (hc : c ≠ .recursive) (hn : c.Takes n) (h : Fits rest names) :
      Fits (c :: rest) (Path.steady [n] ++ names)

namespace Fits

theorem parent_not_mem {components : List Component} {names : List FileName}
    (h : Fits components names) (hfree : ∀ c ∈ components, ['.', '.'] ∉ c.dotNames) :
    ['.', '.'] ∉ names := by
  induction h with
  | nil => nofun
  | last hn => simpa using hn.ne_points.symm
  | leave hn _ ih =>
    have := ih fun c hc => hfree c (List.mem_cons_of_mem _ (List.mem_cons_of_mem _ hc))
    simpa [hn.ne_points.symm] using this
  | deeper hn _ ih => simpa [hn.ne_points.symm] using ih hfree
  | @step c _ n _ hc hn _ ih =>
    have := ih fun c hc => hfree c (List.mem_cons_of_mem _ hc)
    rw [List.mem_append, not_or]
    refine ⟨fun hparent => ?_, this⟩
    obtain rfl := List.mem_singleton.1 (List.mem_filter.1 hparent).1
    exact hfree c List.mem_cons_self (Component.mem_dotNames_of_takes hn)

theorem exists_append {front back : List Component} {names : List FileName}
    (h : Fits (front ++ back) names) (hfront : .recursive ∉ front) :
    ∃ before after, names = before ++ after ∧ Fits front before ∧ Fits back after := by
  induction front generalizing names with
  | nil => exact ⟨[], names, rfl, .nil, h⟩
  | cons c front ih =>
    rw [List.mem_cons, not_or] at hfront
    rw [List.cons_append] at h
    generalize htail : front ++ back = tail at h
    cases h with
    | last => exact absurd rfl hfront.1
    | leave => exact absurd rfl hfront.1
    | deeper => exact absurd rfl hfront.1
    | step hc hn h =>
      obtain ⟨before, after, rfl, hbefore, hafter⟩ := ih (htail ▸ h) hfront.2
      exact ⟨_, after, (List.append_assoc ..).symm, .step hc hn hbefore, hafter⟩

theorem exists_of_singleton {c : Component} {names : List FileName} (h : Fits [c] names)
    (hc : c ≠ .recursive) : ∃ n, c.Takes n ∧ names = Path.steady [n] := by
  cases h with
  | last => exact absurd rfl hc
  | deeper => exact absurd rfl hc
  | step _ hn h =>
    cases h
    exact ⟨_, hn, List.append_nil _⟩

theorem eq_of_escaped {pieces names : List FileName}
    (h : Fits (pieces.map fun piece => .name (piece.map escapedElement)) names) :
    names = Path.steady pieces := by
  induction pieces generalizing names with
  | nil =>
    cases h
    rfl
  | cons piece pieces ih =>
    cases h with
    | step _ hn h => rw [ih h, Component.eq_of_takes_escaped hn, ← Path.steady_cons]

end Fits

variable {t : FileTree}

theorem Spot.steady_below (s : Spot) {n : FileName} (hn : '/' ∉ n) :
    Path.steady (pieces (s.below n).text) =
      Path.steady (pieces s.path.text) ++ Path.steady [n] := by
  unfold Spot.below
  split
  · rename_i hpoint
    rw [pieces, pieces, Path.steady_eq_filterMap s.path, hpoint, Path.splitOn_of_slashFree hn]
    rfl
  · exact Path.steady_join_piece s.path hn

def Spot.Named (s : Spot) : Prop := ∀ r, s.target = some r → r.node.Named

theorem Spot.named_ofPath (ht : t.WellNamed) (path : Path) : (Spot.ofPath t path).Named :=
  fun _ h => Reached.named_of_ofPath? ht h

theorem fits_of_mem_search (ht : t.WellNamed) {onlyDirectories : Bool}
    {components : List Component} {s : Spot} {path : Path} (hs : s.Named)
    (hslash : ∀ c ∈ components, ∀ n, c.literal? = some n → '/' ∉ n)
    (h : path ∈ search t onlyDirectories components s) :
    ∃ names, Path.steady (pieces path.text) = Path.steady (pieces s.path.text) ++ names ∧
      Fits components names := by
  fun_induction search t onlyDirectories components s with
  | case1 s =>
    obtain rfl := List.mem_singleton.1 h
    exact ⟨[], (List.append_nil _).symm, .nil⟩
  | case2 => cases h
  | case3 => cases h
  | case4 s rest r hr ihhere ihdeeper =>
    -- two stars: the entry ends the directories that they stand for, or others follow it
    obtain ⟨⟨e, he⟩, -, h⟩ := List.mem_flatMap.1 h
    obtain ⟨hname, htarget⟩ := Reached.named_of_mem_entries ht (hs r hr) he
    have hchild := s.steady_below hname.slashFree
    rw [hname.toIsPlain.steady_eq] at hchild
    dsimp only at h
    rcases List.mem_append.1 h with h | h
    · have ih := ihhere e
      cases rest with
      | nil =>
        dsimp only at h
        split at h
        · obtain rfl := List.mem_singleton.1 h
          exact ⟨[e.name], hchild, .last hname.toIsPlain⟩
        · cases h
      | cons next others =>
        dsimp only at h ih
        split at h
        · obtain ⟨names, hsteady, hfits⟩ := ih htarget
            (fun c hc => hslash c (List.mem_cons_of_mem _ (List.mem_cons_of_mem _ hc))) h
          refine ⟨e.name :: names, ?_, .leave hname.toIsPlain hfits⟩
          rw [hsteady, hchild, List.append_assoc, List.singleton_append]
        · cases h
    · split at h
      · rename_i q hq
        split at h
        · obtain ⟨names, hsteady, hfits⟩ := ihdeeper e he q hq htarget hslash h
          refine ⟨e.name :: names, ?_, .deeper hname.toIsPlain hfits⟩
          rw [hsteady, hchild, List.append_assoc, List.singleton_append]
        · cases h
      · cases h
  | case5 s c rest hc name hname next dots hstands ih =>
    have hn := hslash c List.mem_cons_self name hname
    obtain ⟨names, hsteady, hfits⟩ := ih (Spot.named_ofPath ht _)
      (fun c hc => hslash c (List.mem_cons_of_mem _ hc)) h
    refine ⟨_, ?_, .step hc (.inl hname) hfits⟩
    rw [hsteady, ← List.append_assoc, ← s.steady_below hn]
    rfl
  | case6 => cases h
  | case7 => cases h
  | case8 s c rest hc hliteral r hr dotted ihdotted ihentry =>
    have hrest : ∀ c ∈ rest, ∀ n, c.literal? = some n → '/' ∉ n :=
      fun c hc => hslash c (List.mem_cons_of_mem _ hc)
    -- points are tried by their names, as no directory has them for entries
    rcases List.mem_append.1 h with h | h
    · obtain ⟨name, hname, h⟩ := List.mem_flatMap.1 h
      obtain ⟨names, hsteady, hfits⟩ := ihdotted name (Spot.named_ofPath ht _) hrest h
      have hdot : name ∈ c.dotNames := by
        simp only [dotted] at hname
        split at hname
        · exact hname
        · cases hname
      have hn : '/' ∉ name := by
        rcases (Component.mem_dotNames hdot).1 with rfl | rfl <;> decide
      refine ⟨_, ?_, .step hc (.inr (.inl hdot)) hfits⟩
      rw [hsteady, ← List.append_assoc]
      congr 1
      exact Path.steady_join_piece s.path hn
    · obtain ⟨e, he, h⟩ := List.mem_flatMap.1 h
      obtain ⟨hname, htarget⟩ := Reached.named_of_mem_entries ht (hs r hr) he
      split at h
      · rename_i haccepts
        obtain ⟨names, hsteady, hfits⟩ := ihentry e htarget hrest h
        refine ⟨_, ?_, .step hc (.inr (.inr ⟨hname.toIsPlain, haccepts⟩)) hfits⟩
        rw [hsteady, ← List.append_assoc, ← s.steady_below hname.slashFree]
      · cases h

theorem mapM_eq_some {α β : Type} {f : α → Option β} {as : List α} {bs : List β}
    (h : as.mapM f = some bs) : as.map f = bs.map some := by
  induction as generalizing bs with
  | nil =>
    cases h
    rfl
  | cons a as ih =>
    simp only [List.mapM_cons, Option.pure_def, Option.bind_eq_bind, Option.bind_eq_some_iff,
      Option.some.injEq] at h
    obtain ⟨b, hb, rest, hrest, rfl⟩ := h
    rw [List.map_cons, List.map_cons, hb, ih hrest]

theorem subset_collapse (components : List Component) : collapse components ⊆ components := by
  fun_induction collapse components with
  | case1 rest others hothers ih =>
    rw [hothers] at ih
    exact List.cons_subset_cons _ fun c hc => ih (List.mem_cons_of_mem _ hc)
  | case2 rest hne ih => exact List.cons_subset_cons _ ih
  | case3 c rest hne ih => exact List.cons_subset_cons _ ih
  | case4 => exact List.Subset.refl _

theorem collapse_append {front : List Component} (h : .recursive ∉ front) (back : List Component) :
    collapse (front ++ back) = front ++ collapse back := by
  induction front with
  | nil => rfl
  | cons c front ih =>
    rw [List.mem_cons, not_or] at h
    rw [List.cons_append, collapse, ih h.2]
    · rfl
    · exact fun hc => h.1 hc.symm

def patternPieces (text : List Char) : List FileName :=
  let pieces := splitOn Path.isSeparator text
  if pieces.getLast? = some [] then pieces.dropLast else pieces

theorem exists_of_components? {text : List Char} {components : List Component}
    (h : components? text = some components) :
    ∃ cs, (patternPieces text).map component? = cs.map some ∧ components = collapse cs := by
  obtain ⟨cs, hcs, rfl⟩ := Option.map_eq_some_iff.1 h
  exact ⟨cs, mapM_eq_some hcs, rfl⟩

theorem subset_patternPieces (text : List Char) :
    patternPieces text ⊆ splitOn Path.isSeparator text := by
  unfold patternPieces
  dsimp only
  split
  · exact List.dropLast_subset _
  · exact List.Subset.refl _

theorem patternPieces_append (front back : List Char) : patternPieces (front ++ '/' :: back) =
    splitOn Path.isSeparator front ++ patternPieces back := by
  have hback := splitOn_ne_nil Path.isSeparator back
  rw [patternPieces, patternPieces, splitOn_append rfl, List.getLast?_append_of_ne_nil _ hback,
    List.dropLast_append_of_ne_nil hback]
  split <;> rfl

theorem exists_piece_of_mem {pieces : List FileName} {cs : List Component}
    (h : pieces.map component? = cs.map some) {c : Component} (hc : c ∈ cs) :
    ∃ piece ∈ pieces, component? piece = some c := by
  have hmem : some c ∈ pieces.map component? := h ▸ List.mem_map_of_mem hc
  exact List.mem_map.1 hmem

end ImportAtlas.Glob
