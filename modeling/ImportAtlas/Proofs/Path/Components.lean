import ImportAtlas.Proofs.FileTree.Spelling

namespace ImportAtlas

namespace Text

variable {p : Char → Bool}

theorem splitOn_eq_splitOnP (p : Char → Bool) (cs : List Char) :
    splitOn p cs = cs.splitOnP p := by
  induction cs with
  | nil => rw [splitOn, List.splitOnP_nil]
  | cons c cs ih =>
    rw [splitOn, List.splitOnP_cons_eq_if_modifyHead, ← ih]
    split
    · rfl
    · cases hs : splitOn p cs with
      | nil => exact absurd hs (splitOn_ne_nil p cs)
      | cons piece pieces => rfl

theorem splitOn_append {c : Char} (h : p c = true) (front back : List Char) :
    splitOn p (front ++ c :: back) = splitOn p front ++ splitOn p back := by
  simp only [splitOn_eq_splitOnP]
  exact List.splitOnP_append_cons front back h

theorem splitOn_of_forall {piece : List Char} (h : ∀ c ∈ piece, p c = false) :
    splitOn p piece = [piece] := by
  rw [splitOn_eq_splitOnP, List.splitOnP_eq_singleton h]

theorem forall_of_mem_splitOn {cs piece : List Char} (h : piece ∈ splitOn p cs) :
    ∀ c ∈ piece, p c = false := by
  induction cs generalizing piece with
  | nil =>
    simp only [splitOn, List.mem_singleton] at h
    simp [h]
  | cons d cs ih =>
    by_cases hd : p d = true
    · rw [splitOn_cons_of_pos hd] at h
      rcases List.mem_cons.1 h with rfl | h
      · simp
      · exact ih h
    · cases hs : splitOn p cs with
      | nil => exact absurd hs (splitOn_ne_nil p cs)
      | cons first pieces =>
        simp only [splitOn, hd, hs] at h
        rcases List.mem_cons.1 h with rfl | h
        · intro c hc
          rcases List.mem_cons.1 hc with rfl | hc
          · simpa using hd
          · exact ih (hs ▸ List.mem_cons_self) c hc
        · exact ih (hs ▸ List.mem_cons_of_mem first h)

end Text

namespace Path

open Text

/-- What the path adds to the components of a directory that it is put below. -/
def steps (q : Path) : List Component := (steady (splitOn isSeparator q.text)).map componentOf

theorem steps_empty : (Path.mk []).steps = [] := by
  simp [steps, splitOn, steady, isIdle]

theorem steady_append (front back : List (List Char)) :
    steady (front ++ back) = steady front ++ steady back :=
  List.filter_append front back

theorem splitOn_intercalate {pieces : List (List Char)} (hne : pieces ≠ [])
    (h : ∀ piece ∈ pieces, '/' ∉ piece) :
    splitOn isSeparator (['/'].intercalate pieces) = pieces := by
  have hsplit := List.splitOn_intercalate '/' h hne
  rwa [List.splitOn_eq_splitOnP, ← splitOn_eq_splitOnP] at hsplit

theorem slashFree_of_mem_splitOn {cs piece : List Char} (h : piece ∈ splitOn isSeparator cs) :
    '/' ∉ piece := by
  intro hslash
  have := forall_of_mem_splitOn h _ hslash
  simp [isSeparator] at this

theorem splitOn_of_slashFree {n : List Char} (h : '/' ∉ n) : splitOn isSeparator n = [n] := by
  apply splitOn_of_forall
  intro c hc
  simp only [isSeparator, decide_eq_false_iff_not]
  rintro rfl
  exact h hc

def leading (first : List Char) : Component := if first = [] then .root else componentOf first

theorem components_eq_leading {p : Path} (h : p.text ≠ []) {first : List Char}
    {rest : List (List Char)} (hsplit : splitOn isSeparator p.text = first :: rest) :
    p.components = leading first :: (steady rest).map componentOf := by
  obtain ⟨_ | ⟨c, cs⟩⟩ := p
  · exact absurd rfl h
  · simp only [components]
    rw [hsplit]
    simp only [leading, steady]
    split <;> rfl

theorem splitOn_head_eq_nil_iff {c : Char} {cs first : List Char} {rest : List (List Char)}
    (h : splitOn isSeparator (c :: cs) = first :: rest) : first = [] ↔ c = '/' := by
  by_cases hc : isSeparator c = true
  · rw [splitOn_cons_of_pos hc] at h
    cases h
    simpa [isSeparator] using hc
  · obtain ⟨piece, pieces, hsplit⟩ := splitOn_cons_of_neg (by simpa using hc) cs
    rw [hsplit] at h
    cases h
    simpa [isSeparator] using hc

theorem components_eq_steps {q : Path} (hq : q.isAbsolute = false)
    (hpoint : ['.'] ∉ splitOn isSeparator q.text) : q.components = q.steps := by
  obtain ⟨_ | ⟨c, cs⟩⟩ := q
  · rw [steps_empty]
    rfl
  · cases hsplit : splitOn isSeparator (c :: cs) with
    | nil => exact absurd hsplit (splitOn_ne_nil _ _)
    | cons first rest =>
      have hfirst : first ≠ [] := by
        rw [ne_eq, splitOn_head_eq_nil_iff hsplit]
        simpa [isAbsolute] using hq
      have hnot : isIdle first = false := by
        have hne : first ≠ ['.'] := by
          rintro rfl
          exact hpoint (hsplit ▸ List.mem_cons_self)
        simp [isIdle, hfirst, hne]
      rw [components_eq_leading (List.cons_ne_nil c cs) hsplit, steps, hsplit]
      simp [leading, hfirst, steady, hnot]

theorem components_append_separator {front : List Char} (hne : front ≠ []) (back : List Char) :
    (Path.mk (front ++ '/' :: back)).components =
      (Path.mk front).components ++ (Path.mk back).steps := by
  obtain ⟨first, rest, hsplit⟩ :=
    List.exists_cons_of_ne_nil (splitOn_ne_nil isSeparator front)
  have hjoined : splitOn isSeparator (front ++ '/' :: back) =
      first :: (rest ++ splitOn isSeparator back) := by
    rw [splitOn_append rfl, hsplit, List.cons_append]
  rw [components_eq_leading (by simp) hjoined, components_eq_leading hne hsplit, steady_append,
    List.map_append, List.cons_append, steps]

theorem exists_splitOn_append_of_getLast? {text : List Char} (h : text.getLast? = some '/') :
    ∃ front, splitOn isSeparator text = splitOn isSeparator front ++ [[]] ∧
      ∀ cs, splitOn isSeparator (text ++ cs) =
        splitOn isSeparator front ++ splitOn isSeparator cs := by
  obtain ⟨front, rfl⟩ := List.getLast?_eq_some_iff.1 h
  refine ⟨front, splitOn_append rfl front [], fun cs => ?_⟩
  rw [List.append_assoc, List.singleton_append, splitOn_append rfl]

theorem components_join {q : Path} (p : Path) (hq : q.isAbsolute = false)
    (hpoint : p.text ≠ [] ∨ ['.'] ∉ splitOn isSeparator q.text) :
    (p.join q).components = p.components ++ q.steps := by
  by_cases hp : p.text = []
  · have hcomponents : p.components = [] := by
      simp [components, hp]
    simp only [join, hp, decide_true, Bool.or_true, if_true, hcomponents, List.nil_append]
    exact components_eq_steps hq (hpoint.resolve_left (absurd hp))
  · have hne (cs : List Char) : p.text ++ cs ≠ [] := by simp [hp]
    simp only [join, hq, hp, decide_false, Bool.or_false, Bool.false_eq_true, if_false]
    split
    · rename_i hlast
      obtain ⟨front, hp', hcut⟩ := exists_splitOn_append_of_getLast? hlast
      obtain ⟨first, rest, hsplit⟩ :=
        List.exists_cons_of_ne_nil (splitOn_ne_nil isSeparator front)
      rw [hsplit, List.cons_append] at hp'
      have hjoined := hcut q.text
      rw [hsplit, List.cons_append] at hjoined
      rw [components_eq_leading (hne q.text) hjoined, components_eq_leading hp hp', steady_append,
        steady_append]
      simp [steps, steady, isIdle]
    · exact components_append_separator hp q.text

/-- A text that is a name wherever it stands as a piece of a path. -/
structure IsPlain (n : List Char) : Prop where
  ne_nil : n ≠ []
  ne_point : n ≠ ['.']
  ne_points : n ≠ ['.', '.']
  slashFree : '/' ∉ n

namespace IsPlain

variable {n : List Char}

theorem componentOf_eq (h : IsPlain n) : componentOf n = .name n := by
  simp [componentOf, h.ne_point, h.ne_points]

theorem not_isIdle (h : IsPlain n) : isIdle n = false := by
  simp [isIdle, h.ne_nil, h.ne_point]

theorem splitOn_eq (h : IsPlain n) : splitOn isSeparator n = [n] :=
  splitOn_of_slashFree h.slashFree

theorem isAbsolute (h : IsPlain n) (cs : List Char) : (Path.mk (n ++ cs)).isAbsolute = false := by
  cases n with
  | nil => exact absurd rfl h.ne_nil
  | cons c n =>
    have hc : c ≠ '/' := by
      rintro rfl
      exact h.slashFree List.mem_cons_self
    simp [Path.isAbsolute, hc]

theorem steps_eq (h : IsPlain n) : (Path.mk n).steps = [.name n] := by
  simp [steps, h.splitOn_eq, steady, h.not_isIdle, h.componentOf_eq]

end IsPlain

theorem name_of_componentOf {piece n : List Char} (h : componentOf piece = .name n) :
    piece = n ∧ piece ≠ ['.'] ∧ piece ≠ ['.', '.'] := by
  unfold componentOf at h
  split at h
  · cases h
  · rename_i hparent
    split at h
    · cases h
    · rename_i hpoint
      cases h
      exact ⟨rfl, hpoint, hparent⟩

theorem isPlain_of_mem_components {p : Path} {n : List Char} (h : .name n ∈ p.components) :
    IsPlain n := by
  have hne : p.text ≠ [] := by
    intro htext
    simp [components, htext] at h
  obtain ⟨first, rest, hsplit⟩ :=
    List.exists_cons_of_ne_nil (splitOn_ne_nil isSeparator p.text)
  have hpiece {piece : List Char} (hmem : piece ∈ splitOn isSeparator p.text) (hnil : piece ≠ [])
      (hn : componentOf piece = .name n) : IsPlain n := by
    obtain ⟨rfl, hpoint, hpoints⟩ := name_of_componentOf hn
    exact ⟨hnil, hpoint, hpoints, slashFree_of_mem_splitOn hmem⟩
  rw [components_eq_leading hne hsplit] at h
  rcases List.mem_cons.1 h with h | h
  · unfold leading at h
    split at h
    · cases h
    · rename_i hfirst
      exact hpiece (hsplit ▸ List.mem_cons_self) hfirst h.symm
  · obtain ⟨piece, hmem, hn⟩ := List.mem_map.1 h
    obtain ⟨hmem, hidle⟩ := List.mem_filter.1 hmem
    refine hpiece (hsplit ▸ List.mem_cons_of_mem first hmem) ?_ hn
    rintro rfl
    simp [isIdle] at hidle

theorem steady_dropWhile (pieces : List (List Char)) :
    steady (pieces.dropWhile isIdle) = steady pieces := by
  induction pieces with
  | nil => rfl
  | cons piece pieces ih =>
    cases h : isIdle piece with
    | true =>
      rw [List.dropWhile_cons_of_pos h, ih, steady, steady,
        List.filter_cons_of_neg (by simp [h])]
    | false => rw [List.dropWhile_cons_of_neg (by simp [h])]

theorem shorterBodies_cases (body : List (List Char)) :
    (shorterBodies body = [] ∧ steady body = []) ∨
      ∃ shorter others piece, shorterBodies body = shorter :: others ∧
        steady body = piece :: steady shorter ∧ ∀ kept ∈ shorter, kept ∈ body := by
  induction body with
  | nil => exact .inl ⟨rfl, rfl⟩
  | cons piece body ih =>
    cases h : isIdle piece with
    | true =>
      have hbodies : shorterBodies (piece :: body) = shorterBodies body := by
        simp [shorterBodies, h]
      have hsteady : steady (piece :: body) = steady body := List.filter_cons_of_neg (by simp [h])
      rw [hbodies, hsteady]
      rcases ih with ih | ⟨shorter, others, last, hshorter, hlast, hkept⟩
      · exact .inl ih
      · exact .inr ⟨shorter, others, last, hshorter, hlast,
          fun kept hk => List.mem_cons_of_mem piece (hkept kept hk)⟩
    | false =>
      refine .inr ⟨body.dropWhile isIdle, shorterBodies body, piece, ?_, ?_, ?_⟩
      · simp [shorterBodies, h]
      · rw [steady_dropWhile]
        exact List.filter_cons_of_pos (by simp [h])
      · intro kept hk
        exact List.mem_cons_of_mem piece ((List.dropWhile_sublist isIdle).mem hk)

theorem components_ofPieces {first : List Char} {body : List (List Char)}
    (h : ∀ piece ∈ first :: body.reverse, '/' ∉ piece) :
    (ofPieces first body).components =
      leading first :: (steady body.reverse).map componentOf := by
  unfold ofPieces
  split
  · rename_i hnil
    simp only [Bool.and_eq_true, decide_eq_true_eq] at hnil
    obtain ⟨rfl, rfl⟩ := hnil
    simp [components, splitOn, isSeparator, leading, steady, isIdle]
  · rename_i hnil
    have hsplit := splitOn_intercalate (List.cons_ne_nil _ _) h
    refine components_eq_leading (fun htext => hnil ?_) hsplit
    dsimp only at htext
    rw [htext, splitOn, List.cons.injEq] at hsplit
    simp [← hsplit.1, List.reverse_eq_nil_iff.1 hsplit.2.symm]

theorem steady_reverse (pieces : List (List Char)) :
    steady pieces.reverse = (steady pieces).reverse :=
  List.filter_reverse

theorem exists_parent {p : Path} {cs : List Component} {n : List Char}
    (h : p.components = cs ++ [.name n]) :
    ∃ parent, p.parent? = some parent ∧ parent.components = cs := by
  have hne : p.text ≠ [] := by
    intro htext
    simp [components, htext] at h
  obtain ⟨first, rest, hsplit⟩ :=
    List.exists_cons_of_ne_nil (splitOn_ne_nil isSeparator p.text)
  rw [components_eq_leading hne hsplit] at h
  simp only [parent?, ancestors, hsplit, List.tail_cons]
  rcases shorterBodies_cases rest.reverse with
    ⟨hbodies, hsteady⟩ | ⟨shorter, others, piece, hbodies, hsteady, hkept⟩
  · have hrest : steady rest = [] := by
      rw [← List.reverse_eq_nil_iff, ← steady_reverse, hsteady]
    rw [hrest, List.map_nil, eq_comm, List.append_eq_cons_iff] at h
    obtain ⟨rfl, h⟩ | ⟨_, -, h⟩ := h
    · have hfirst : first ≠ [] := by
        rintro rfl
        cases h
      exact ⟨⟨[]⟩, by simp [hbodies, hfirst], rfl⟩
    · simp at h
  · have hrest : steady rest = steady shorter.reverse ++ [piece] := by
      rw [steady_reverse, ← List.reverse_cons, ← hsteady, ← steady_reverse, List.reverse_reverse]
    refine ⟨ofPieces first shorter, by simp [hbodies], ?_⟩
    rw [components_ofPieces]
    · rw [hrest, List.map_append, ← List.cons_append] at h
      exact (List.append_inj' h rfl).1
    · intro kept hk
      suffices kept ∈ splitOn isSeparator p.text from slashFree_of_mem_splitOn this
      rw [hsplit]
      rcases List.mem_cons.1 hk with rfl | hk
      · exact List.mem_cons_self
      · exact List.mem_cons_of_mem first (List.mem_reverse.1 (hkept kept (List.mem_reverse.1 hk)))

theorem components_of_fileName? {p : Path} {n : List Char} (h : p.fileName? = some n) :
    p.components = p.components.dropLast ++ [.name n] := by
  unfold fileName? at h
  split at h
  · rename_i hlast
    cases h
    obtain ⟨cs, hcs⟩ := List.getLast?_eq_some_iff.1 hlast
    rw [hcs, List.dropLast_concat]
  · cases h

theorem components_withFileName {p : Path} {n new : List Char} (h : p.fileName? = some n)
    (hnew : IsPlain new) :
    (p.withFileName new).components = p.components.dropLast ++ [.name new] := by
  obtain ⟨parent, hparent, hcomponents⟩ := exists_parent (components_of_fileName? h)
  have habsolute := hnew.isAbsolute []
  rw [List.append_nil] at habsolute
  simp only [withFileName, h, hparent]
  rw [components_join parent habsolute, hcomponents, hnew.steps_eq]
  right
  rw [hnew.splitOn_eq, List.mem_singleton]
  exact hnew.ne_point.symm

/-- The path lies below the directory, or is it: it is the directory joined with
a relative path that has no double point. -/
def Encloses (directory p : Path) : Prop :=
  ∃ q : Path, q.isAbsolute = false ∧ ['.', '.'] ∉ splitOn isSeparator q.text ∧
    p.components = (directory.join q).components

theorem exists_steps {names : List (List Char)} (h : ∀ n ∈ names, IsPlain n) :
    ∃ q : Path, q.isAbsolute = false ∧ ['.', '.'] ∉ splitOn isSeparator q.text ∧
      ['.'] ∉ splitOn isSeparator q.text ∧ q.steps = names.map .name := by
  induction names with
  | nil => exact ⟨⟨[]⟩, rfl, by decide, by decide, rfl⟩
  | cons n names ih =>
    obtain ⟨q, -, hpoints, hpoint, hsteps⟩ := ih fun m hm => h m (List.mem_cons_of_mem n hm)
    have hn := h n List.mem_cons_self
    have hsplit : splitOn isSeparator (n ++ '/' :: q.text) = n :: splitOn isSeparator q.text := by
      rw [splitOn_append rfl, hn.splitOn_eq, List.singleton_append]
    refine ⟨⟨n ++ '/' :: q.text⟩, hn.isAbsolute _, ?_, ?_, ?_⟩
    · rw [hsplit]
      exact List.not_mem_cons_of_ne_of_not_mem hn.ne_points.symm hpoints
    · rw [hsplit]
      exact List.not_mem_cons_of_ne_of_not_mem hn.ne_point.symm hpoint
    · rw [List.map_cons, ← hsteps, steps, hsplit]
      simp [steady, hn.not_isIdle, hn.componentOf_eq, steps]

/-- The path has the components of the directory, and then the names. -/
def Below (directory p : Path) (names : List (List Char)) : Prop :=
  p.components = directory.components ++ names.map .name

namespace Below

variable {directory p : Path} {names : List (List Char)}

theorem encloses (h : directory.Below p names) : directory.Encloses p := by
  have hplain : ∀ n ∈ names, IsPlain n := by
    intro n hn
    apply isPlain_of_mem_components (p := p)
    rw [h]
    exact List.mem_append_right _ (List.mem_map_of_mem hn)
  obtain ⟨q, hq, hpoints, hpoint, hsteps⟩ := exists_steps hplain
  refine ⟨q, hq, hpoints, ?_⟩
  rw [components_join directory hq (.inr hpoint), hsteps, h]

theorem join (h : directory.Below p names) {q : Path} (hq : q.isAbsolute = false)
    (hpoints : ['.', '.'] ∉ splitOn isSeparator q.text)
    (hpoint : p.text ≠ [] ∨ ['.'] ∉ splitOn isSeparator q.text) :
    directory.Below (p.join q) (names ++ steady (splitOn isSeparator q.text)) := by
  have hsteps : q.steps = (steady (splitOn isSeparator q.text)).map .name := by
    apply List.map_congr_left
    intro piece hpiece
    obtain ⟨hmem, hidle⟩ := List.mem_filter.1 hpiece
    have hne : piece ≠ ['.', '.'] := by
      rintro rfl
      exact hpoints hmem
    have hne' : piece ≠ ['.'] := by
      rintro rfl
      simp [isIdle] at hidle
    simp [componentOf, hne, hne']
  rw [Below, components_join p hq hpoint, h, hsteps, List.map_append, List.append_assoc]

theorem withFileName (h : directory.Below p names) (hnames : names ≠ []) {n new : List Char}
    (hn : p.fileName? = some n) (hnew : IsPlain new) :
    directory.Below (p.withFileName new) (names.dropLast ++ [new]) := by
  have hne : names.map Component.name ≠ [] := by simpa using hnames
  rw [Below, components_withFileName hn hnew, h, List.dropLast_append_of_ne_nil hne,
    ← List.map_dropLast, List.map_append, List.append_assoc]
  rfl

theorem text_ne_nil (h : directory.Below p names) (hnames : names ≠ []) : p.text ≠ [] := by
  intro htext
  have hcomponents : p.components = [] := by
    simp [components, htext]
  rw [Below, hcomponents, eq_comm, List.append_eq_nil_iff, List.map_eq_nil_iff] at h
  exact hnames h.2

theorem refl (directory : Path) : directory.Below directory [] := (List.append_nil _).symm

end Below

end Path

end ImportAtlas
