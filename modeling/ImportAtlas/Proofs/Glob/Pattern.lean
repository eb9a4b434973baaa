import ImportAtlas.Glob.Pattern
import ImportAtlas.Proofs.Path.Ancestors

namespace ImportAtlas.Glob

open Text

def isSpecial (c : Char) : Bool := "?*[]".toList.contains c

def escapeChar (c : Char) : List Char := if isSpecial c then ['[', c, ']'] else [c]

def escapedElement (c : Char) : Element := if isSpecial c then .oneOf [.single c] else .char c

theorem escape_nil : escape [] = [] := rfl

theorem escape_cons (c : Char) (cs : List Char) : escape (c :: cs) = escapeChar c ++ escape cs := rfl

theorem elementsFrom_escape (cs : List Char) :
    elementsFrom none (escape cs) = some (cs.map escapedElement) := by
  induction cs with
  | nil => rfl
  | cons c cs ih =>
    rw [escape_cons, escapeChar, List.map_cons, escapedElement]
    by_cases hc : isSpecial c = true
    · rw [if_pos hc, if_pos hc]
      rcases (by simpa [isSpecial] using hc : c = '?' ∨ c = '*' ∨ c = '[' ∨ c = ']') with
        rfl | rfl | rfl | rfl
      all_goals simp [elementsFrom, closeClass, classItems, ih]
    · rw [if_neg hc, if_neg hc]
      have hne : c ≠ '?' ∧ c ≠ '*' ∧ c ≠ '[' ∧ c ≠ ']' := by simpa [isSpecial] using hc
      obtain ⟨hquestion, hstar, hopen, -⟩ := hne
      rw [List.singleton_append, elementsFrom.eq_def]
      split
      all_goals simp_all

theorem matchElements_escaped (cs name : List Char) :
    matchElements (cs.map escapedElement) name = true ↔ name = cs := by
  induction cs generalizing name with
  | nil => simp [matchElements]
  | cons c cs ih =>
    rw [List.map_cons, escapedElement]
    cases name with
    | nil => split <;> simp [matchElements]
    | cons d name =>
      have hd : d = c ↔ c = d := eq_comm
      split <;> simp [matchElements, ClassItem.holds, ih, hd]

theorem escape_ne_stars (cs : List Char) : escape cs ≠ ['*', '*'] := by
  cases cs with
  | nil => nofun
  | cons c cs =>
    rw [escape_cons, escapeChar]
    split
    · nofun
    · rename_i hc
      intro h
      obtain ⟨rfl, -⟩ := List.cons.inj h
      exact hc rfl

theorem component?_escape (cs : List Char) :
    component? (escape cs) = some (.name (cs.map escapedElement)) := by
  rw [component?, if_neg (escape_ne_stars cs), elementsFrom_escape]
  rfl

theorem escape_append (cs ds : List Char) : escape (cs ++ ds) = escape cs ++ escape ds :=
  List.flatMap_append

theorem getLast?_escape_ne (cs : List Char) : (escape cs).getLast? ≠ some '*' := by
  rcases List.eq_nil_or_concat cs with rfl | ⟨cs, c, rfl⟩
  · nofun
  · rw [List.concat_eq_append, escape_append, escape_cons, escapeChar, escape_nil, List.append_nil]
    split
    · simp
    · rename_i hc
      rw [List.getLast?_append]
      rintro ⟨⟩
      exact hc rfl

theorem count_escape {c : Char} (hc : isSpecial c = false) (cs : List Char) :
    (escape cs).count c = cs.count c := by
  induction cs with
  | nil => rfl
  | cons d cs ih =>
    rw [escape_cons, List.count_append, ih, escapeChar]
    split
    · rename_i hd
      have hne : d ≠ c := by
        rintro rfl
        rw [hc] at hd
        cases hd
      have hopen : '[' ≠ c := by
        rintro rfl
        cases hc
      have hclose : ']' ≠ c := by
        rintro rfl
        cases hc
      simp [hne, hopen, hclose]
    · simp [List.count_cons, Nat.add_comm]

theorem point_not_mem_of_escape_eq {cs more : List Char} (h : escape cs = cs ++ more) :
    '.' ∉ more := by
  have hcount := count_escape (c := '.') (by decide) cs
  rw [h, List.count_append] at hcount
  exact List.count_eq_zero.1 (by omega)

theorem isIdle_escape (cs : List Char) : Path.isIdle (escape cs) = Path.isIdle cs := by
  cases cs with
  | nil => rfl
  | cons c cs =>
    have hnil : escape cs = [] ↔ cs = [] := by
      cases cs with
      | nil => exact iff_of_true rfl rfl
      | cons d ds =>
        rw [escape_cons, escapeChar]
        split <;> simp
    rw [escape_cons, escapeChar]
    split
    · rename_i hc
      have hne : c ≠ '.' := by
        rintro rfl
        cases hc
      simp [Path.isIdle, hne]
    · simp [Path.isIdle, hnil]

theorem splitOn_append_pieces {p : Char → Bool} {front back last first : List Char}
    {fronts backs : List (List Char)} (hfront : splitOn p front = fronts ++ [last])
    (hback : splitOn p back = first :: backs) :
    splitOn p (front ++ back) = fronts ++ (last ++ first) :: backs := by
  induction front generalizing fronts last with
  | nil =>
    rw [splitOn, eq_comm, List.append_eq_singleton_iff] at hfront
    rcases hfront with ⟨rfl, hlast⟩ | ⟨-, hlast⟩
    · cases hlast
      exact hback
    · cases hlast
  | cons c front ih =>
    rw [List.cons_append]
    by_cases hc : p c = true
    · rw [splitOn_cons_of_pos hc] at hfront ⊢
      cases fronts with
      | nil => exact absurd (List.cons.inj hfront).2 (splitOn_ne_nil p front)
      | cons piece fronts =>
        obtain ⟨rfl, hfronts⟩ := List.cons.inj hfront
        rw [ih hfronts]
        rfl
    · obtain ⟨piece, pieces, hsplit⟩ := List.exists_cons_of_ne_nil (splitOn_ne_nil p front)
      simp only [splitOn, hc, hsplit, Bool.false_eq_true, if_false] at hfront ⊢
      cases fronts with
      | nil =>
        obtain ⟨rfl, rfl⟩ := List.cons.inj hfront
        rw [ih (show _ = [] ++ [_] from hsplit)]
        rfl
      | cons piece' fronts =>
        obtain ⟨rfl, rfl⟩ := List.cons.inj hfront
        rw [ih (show _ = (piece :: fronts) ++ [_] from hsplit)]
        rfl

theorem splitOn_escape (cs : List Char) :
    splitOn Path.isSeparator (escape cs) = (splitOn Path.isSeparator cs).map escape := by
  induction cs with
  | nil => rfl
  | cons c cs ih =>
    by_cases hc : Path.isSeparator c = true
    · obtain rfl : c = '/' := by simpa [Path.isSeparator] using hc
      rw [splitOn_cons_of_pos (by rfl), List.map_cons, ← ih]
      exact splitOn_cons_of_pos (by rfl) (escape cs)
    · obtain ⟨piece, pieces, hsplit⟩ :=
        List.exists_cons_of_ne_nil (splitOn_ne_nil Path.isSeparator cs)
      have hchar : splitOn Path.isSeparator (escapeChar c) = [escapeChar c] := by
        refine Path.splitOn_of_slashFree fun hslash => hc ?_
        unfold escapeChar at hslash
        split at hslash
        · simpa [Path.isSeparator, eq_comm] using hslash
        · simpa [Path.isSeparator, eq_comm] using hslash
      rw [hsplit] at ih
      rw [escape_cons, splitOn_append_pieces (show _ = [] ++ [_] from hchar) ih]
      simp [splitOn, hc, hsplit, escape_cons]

theorem length_steady_map_escape (pieces : List (List Char)) :
    (Path.steady (pieces.map escape)).length = (Path.steady pieces).length := by
  rw [Path.steady, List.filter_map, List.length_map, Path.steady]
  congr 2
  funext piece
  simp [isIdle_escape]

theorem mem_of_char_mem_elementsFrom {o : Option OpenClass} {cs : List Char}
    {elements : List Element} (h : elementsFrom o cs = some elements) {c : Char}
    (hc : .char c ∈ elements) : c ∈ cs := by
  have hmap {element : Element} {rest : List Char} {elements : List Element}
      (ih : ∀ {elements}, elementsFrom none rest = some elements → .char c ∈ elements → c ∈ rest)
      (h : (elementsFrom none rest).map (element :: ·) = some elements)
      (hc : .char c ∈ elements) : .char c = element ∨ c ∈ rest := by
    obtain ⟨others, hothers, rfl⟩ := Option.map_eq_some_iff.1 h
    exact (List.mem_cons.1 hc).imp_right (ih hothers)
  fun_induction elementsFrom o cs generalizing elements with
  | case1 =>
    cases h
    cases hc
  | case2 => cases h
  | case3 negated cs rest ih =>
    rcases hmap ih h hc with hclass | hrest
    · unfold closeClass at hclass
      split at hclass <;> cases hclass
    · exact List.mem_cons_of_mem _ hrest
  | case4 _ _ _ _ _ ih => exact List.mem_cons_of_mem _ (ih h hc)
  | case5 rest ih => exact List.mem_cons_of_mem _ ((hmap ih h hc).resolve_left nofun)
  | case6 => cases h
  | case7 rest _ ih => exact List.mem_cons_of_mem _ ((hmap ih h hc).resolve_left nofun)
  | case8 d rest ih =>
    exact List.mem_cons_of_mem _ (List.mem_cons_of_mem _ (List.mem_cons_of_mem _ (ih h hc)))
  | case9 => cases h
  | case10 d rest _ _ ih =>
    exact List.mem_cons_of_mem _ (List.mem_cons_of_mem _ (ih h hc))
  | case11 => cases h
  | case12 d rest _ _ _ _ _ _ ih =>
    rcases hmap ih h hc with hchar | hrest
    · cases hchar
      exact List.mem_cons_self
    · exact List.mem_cons_of_mem _ hrest

namespace Component

/-- The piece may stand in a path where the component is matched. -/
def Takes (c : Component) (n : List Char) : Prop :=
  c.literal? = some n ∨ n ∈ c.dotNames ∨ Path.IsPlain n ∧ c.accepts n = true

theorem eq_of_literal? {elements : List Element} {n : List Char}
    (h : (name elements).literal? = some n) : elements = n.map .char := by
  unfold literal? at h
  dsimp only at h
  induction elements generalizing n with
  | nil =>
    cases h
    rfl
  | cons element elements ih =>
    cases element with
    | char c =>
      simp only [List.mapM_cons, Option.pure_def, Option.bind_eq_bind, Option.bind_some,
        Option.bind_eq_some_iff, Option.some.injEq] at h
      obtain ⟨rest, hrest, rfl⟩ := h
      rw [ih hrest]
      rfl
    | any => cases h
    | many => cases h
    | oneOf items => cases h
    | noneOf items => cases h

theorem mem_dotNames {c : Component} {n : List Char} (h : n ∈ c.dotNames) :
    (n = ['.', '.'] ∨ n = ['.']) ∧
      ∃ elements, c = name (.char '.' :: elements) ∧
        matchElements (.char '.' :: elements) n = true := by
  unfold dotNames at h
  split at h
  · rename_i elements
    obtain ⟨hmem, hmatch⟩ := List.mem_filter.1 h
    exact ⟨by simpa using hmem, elements, rfl, hmatch⟩
  · cases h

theorem subset_of_literal? {piece n : List Char} {c : Component}
    (hpiece : component? piece = some c) (h : c.literal? = some n) : n ⊆ piece := by
  unfold component? at hpiece
  split at hpiece
  · cases hpiece
    cases h
  · obtain ⟨elements, helements, rfl⟩ := Option.map_eq_some_iff.1 hpiece
    rw [eq_of_literal? h] at helements
    exact fun d hd => mem_of_char_mem_elementsFrom helements (List.mem_map_of_mem hd)

theorem point_mem_of_mem_dotNames {piece n : List Char} {c : Component}
    (hpiece : component? piece = some c) (h : n ∈ c.dotNames) : '.' ∈ piece := by
  obtain ⟨-, elements, rfl, -⟩ := mem_dotNames h
  unfold component? at hpiece
  split at hpiece
  · cases hpiece
  · obtain ⟨_, helements, hname⟩ := Option.map_eq_some_iff.1 hpiece
    cases hname
    exact mem_of_char_mem_elementsFrom helements List.mem_cons_self

theorem eq_of_takes_escaped {cs n : List Char} (h : (name (cs.map escapedElement)).Takes n) :
    n = cs := by
  rcases h with h | h | ⟨-, h⟩
  · have hself (n : List Char) : matchElements (n.map .char) n = true := by
      induction n with
      | nil => rfl
      | cons c n ih => simp [matchElements, ih]
    refine (matchElements_escaped cs n).1 ?_
    rw [eq_of_literal? h]
    exact hself n
  · obtain ⟨-, elements, helements, hmatch⟩ := mem_dotNames h
    rw [← name.inj helements] at hmatch
    exact (matchElements_escaped cs n).1 hmatch
  · exact (matchElements_escaped cs n).1 h

theorem mem_dotNames_of_takes {c : Component} (h : c.Takes ['.', '.']) :
    ['.', '.'] ∈ c.dotNames := by
  rcases h with h | h | ⟨h, -⟩
  · cases c with
    | recursive => cases h
    | name elements =>
      rw [eq_of_literal? h]
      decide
  · exact h
  · exact absurd rfl h.ne_points

end Component

end ImportAtlas.Glob
