import ImportAtlas.Proofs.Glob.Search

/-! Patterns that begin with an escaped directory.  Where the pattern is cut is not
always a separator, nor in the directory; yet what it leads to climbs out of the
directory only if some piece after the directory is a double point or stands for one. -/

namespace ImportAtlas.Glob

open Text FileTree

variable {t : FileTree} {directory entry root : List Char} {path : Path}
  {names below rest : List FileName} {components : List Component}

theorem cutRoot_append (pattern : List Char) :
    (cutRoot pattern).1 ++ (cutRoot pattern).2 = pattern := by
  simp only [cutRoot]
  generalize byteLength pattern - _ = n
  cases h : cut? n pattern with
  | none => simp
  | some cut => exact (cut?_eq h).1

theorem fits_of_mem_paths (ht : t.WellNamed) {pattern : List Char} (h : path ∈ paths t pattern) :
    ∃ components names, components? (cutRoot pattern).2 = some components ∧
      Fits components names ∧ Path.steady (pieces path.text) =
        Path.steady (splitOn Path.isSeparator (cutRoot pattern).1) ++ names := by
  unfold paths at h
  generalize hcut : cutRoot pattern = cut at h ⊢
  obtain ⟨root, body⟩ := cut
  dsimp only at h ⊢
  split at h
  · rename_i components _ hcomponents
    have hslash : ∀ c ∈ components, ∀ n, c.literal? = some n → '/' ∉ n := by
      intro c hc n hn hslash
      obtain ⟨cs, hcs, rfl⟩ := exists_of_components? hcomponents
      obtain ⟨piece, hpiece, hcomponent⟩ := exists_piece_of_mem hcs (subset_collapse cs hc)
      exact Path.slashFree_of_mem_splitOn (subset_patternPieces body hpiece)
        (Component.subset_of_literal? hcomponent hn hslash)
    obtain ⟨names, hsteady, hfits⟩ := fits_of_mem_search ht (Spot.named_ofPath ht _) hslash h
    refine ⟨components, names, hcomponents, hfits, hsteady.trans ?_⟩
    by_cases hroot : root = []
    · simp only [Spot.ofPath, hroot, if_true]
      rfl
    · simp only [Spot.ofPath, hroot, if_false]
      rfl
  · cases h

theorem not_mem_of_append_eq {α : Type} {front front' back back' : List α} {a : α}
    (h : front ++ back = front' ++ back') (hlength : front.length ≤ front'.length)
    (ha : a ∉ back) : a ∉ back' := by
  rcases List.append_eq_append_iff.1 h with ⟨more, -, rfl⟩ | ⟨more, rfl, rfl⟩
  · exact fun hmem => ha (List.mem_append_right more hmem)
  · rw [List.length_append] at hlength
    obtain rfl : more = [] := List.length_eq_zero_iff.1 (by omega)
    exact ha

theorem eq_cons_of_cons_append_eq {α : Type} {middle back back' : List α} {a : α}
    (h : a :: (middle ++ back) = middle ++ back') : back' = a :: back := by
  induction middle generalizing a with
  | nil => exact h.symm
  | cons b middle ih =>
    obtain ⟨rfl, h⟩ := List.cons.inj h
    exact ih h

theorem parent_not_mem_of_beyond {literal body : List Char}
    (hroot : root = escape directory ++ '/' :: literal)
    (hcomponents : components? body = some components) (hfits : Fits components names)
    (hliteral : ['.', '.'] ∉ splitOn Path.isSeparator literal)
    (hfree : ∀ piece ∈ splitOn Path.isSeparator body, ∀ c, component? piece = some c →
      ['.', '.'] ∉ c.dotNames)
    (hbelow : ['.', '.'] ∉ below)
    (h : Path.steady (splitOn Path.isSeparator root) ++ names ++ below =
      Path.steady (splitOn Path.isSeparator directory) ++ rest) : ['.', '.'] ∉ rest := by
  have hnames : ['.', '.'] ∉ names := by
    obtain ⟨cs, hcs, rfl⟩ := exists_of_components? hcomponents
    refine hfits.parent_not_mem fun c hc => ?_
    obtain ⟨piece, hpiece, hcomponent⟩ := exists_piece_of_mem hcs (subset_collapse cs hc)
    exact hfree piece (subset_patternPieces body hpiece) c hcomponent
  rw [hroot, splitOn_append rfl, splitOn_escape, Path.steady_append, List.append_assoc,
    List.append_assoc] at h
  refine not_mem_of_append_eq h (length_steady_map_escape _).le ?_
  simp only [List.mem_append, not_or]
  exact ⟨fun hmem => hliteral (List.mem_filter.1 hmem).1, hnames, hbelow⟩

theorem component?_ne_recursive {piece last first : List Char} (h : escape piece = last ++ first) :
    component? first ≠ some .recursive := by
  unfold component?
  split
  · rename_i hstars
    intro _
    refine getLast?_escape_ne piece ?_
    rw [h, hstars]
    simp
  · intro hname
    obtain ⟨_, -, hname⟩ := Option.map_eq_some_iff.1 hname
    cases hname

theorem exists_of_fits_escaped {text first : List Char} {after : List FileName}
    (hsplit : splitOn Path.isSeparator text = first :: after.map escape)
    (hfirst : component? first ≠ some .recursive)
    (hcomponents : components? (text ++ '/' :: entry) = some components)
    (hfits : Fits components names) :
    ∃ c n back, component? first = some c ∧ c.Takes n ∧
      names = Path.steady [n] ++ (Path.steady after ++ back) ∧
      ((∀ piece ∈ splitOn Path.isSeparator entry, ∀ c, component? piece = some c →
        ['.', '.'] ∉ c.dotNames) → ['.', '.'] ∉ back) := by
  obtain ⟨cs, hcs, rfl⟩ := exists_of_components? hcomponents
  rw [patternPieces_append, hsplit, List.cons_append, List.map_cons, List.map_append, List.map_map,
    eq_comm, List.map_eq_cons_iff] at hcs
  obtain ⟨c, tail, rfl, hc, htail⟩ := hcs
  obtain ⟨middle, back, rfl, hmiddle, hback⟩ := List.map_eq_append_iff.1 htail
  have hescaped : middle = after.map fun piece => .name (piece.map escapedElement) := by
    refine List.map_injective_iff.2 (fun _ _ => Option.some.inj) ?_
    rw [hmiddle, List.map_map]
    exact List.map_congr_left fun piece _ => component?_escape piece
  have hne : c ≠ .recursive := by
    rintro rfl
    exact hfirst hc.symm
  have hfront : .recursive ∉ c :: middle := by
    rw [List.mem_cons, not_or, hescaped]
    exact ⟨hne.symm, by simp⟩
  rw [← List.cons_append, collapse_append hfront, List.cons_append] at hfits
  obtain ⟨firsts, others, rfl, hfirsts, hothers⟩ :=
    Fits.exists_append (show Fits ([c] ++ _) names from hfits) (by simpa using hne.symm)
  obtain ⟨middles, backs, rfl, hmiddles, hbacks⟩ :=
    hothers.exists_append fun hmem => hfront (List.mem_cons_of_mem c hmem)
  obtain ⟨n, hn, rfl⟩ := hfirsts.exists_of_singleton hne
  rw [hescaped] at hmiddles
  refine ⟨c, n, backs, hc.symm, hn, by rw [hmiddles.eq_of_escaped], fun hfree => ?_⟩
  refine hbacks.parent_not_mem fun c hc => ?_
  obtain ⟨piece, hpiece, hcomponent⟩ := exists_piece_of_mem hback.symm (subset_collapse back hc)
  exact hfree piece (subset_patternPieces entry hpiece) c hcomponent

theorem isIdle_of_append {front back : FileName} (h : Path.isIdle (front ++ back) = true) :
    Path.isIdle front = true ∧ Path.isIdle back = true := by
  rcases (by simpa [Path.isIdle] using h :
    (front = [] ∧ back = []) ∨ front ++ back = ['.']) with ⟨rfl, rfl⟩ | h
  · exact ⟨rfl, rfl⟩
  · rcases List.append_eq_singleton_iff.1 h with ⟨rfl, rfl⟩ | ⟨rfl, rfl⟩
    · exact ⟨rfl, rfl⟩
    · exact ⟨rfl, rfl⟩

theorem steady_singleton (piece : FileName) :
    Path.isIdle piece = true ∧ Path.steady [piece] = [] ∨
      Path.isIdle piece = false ∧ Path.steady [piece] = [piece] := by
  cases h : Path.isIdle piece with
  | true => exact .inl ⟨rfl, by simp [Path.steady, h]⟩
  | false => exact .inr ⟨rfl, by simp [Path.steady, h]⟩

theorem isIdle_of_takes {piece n : FileName} {c : Component} (hpiece : component? piece = some c)
    (hidle : Path.isIdle piece = true) (hn : c.Takes n) : Path.isIdle n = true := by
  have hescape : escape piece = piece := by
    rcases (by simpa [Path.isIdle] using hidle : piece = [] ∨ piece = ['.']) with rfl | rfl
    · rfl
    · rfl
  rw [← hescape, component?_escape] at hpiece
  cases hpiece
  rwa [Component.eq_of_takes_escaped hn]

theorem parent_not_mem_of_within {text : List Char} (hcut : escape directory = root ++ text)
    (hcomponents : components? (text ++ '/' :: entry) = some components)
    (hfits : Fits components names)
    (hfree : ∀ piece ∈ splitOn Path.isSeparator entry, ∀ c, component? piece = some c →
      ['.', '.'] ∉ c.dotNames)
    (hbelow : ['.', '.'] ∉ below)
    (h : Path.steady (splitOn Path.isSeparator root) ++ names ++ below =
      Path.steady (splitOn Path.isSeparator directory) ++ rest) : ['.', '.'] ∉ rest := by
  obtain ⟨before, last, hroot⟩ : ∃ before last, splitOn Path.isSeparator root = before ++ [last] :=
    ⟨_, _, (List.dropLast_concat_getLast (splitOn_ne_nil _ root)).symm⟩
  obtain ⟨first, after, htext⟩ := List.exists_cons_of_ne_nil (splitOn_ne_nil Path.isSeparator text)
  have hpieces : (splitOn Path.isSeparator directory).map escape =
      before ++ (last ++ first) :: after := by
    rw [← splitOn_escape, hcut, splitOn_append_pieces hroot htext]
  obtain ⟨before, others, hdirectory, rfl, hothers⟩ := List.map_eq_append_iff.1 hpieces
  obtain ⟨middle, after, rfl, hmiddle, rfl⟩ := List.map_eq_cons_iff.1 hothers
  obtain ⟨c, n, back, hc, hn, rfl, hback⟩ :=
    exists_of_fits_escaped htext (component?_ne_recursive hmiddle) hcomponents hfits
  have hback := hback hfree
  rw [hroot, hdirectory, Path.steady_append, Path.steady_append, Path.steady_cons middle] at h
  simp only [List.append_assoc] at h
  -- the pieces before the one that is cut are the same
  have hrest : Path.steady [last] ++ (Path.steady [n] ++ (Path.steady after ++ (back ++ below))) =
      Path.steady [middle] ++ (Path.steady after ++ rest) :=
    (List.append_inj h (length_steady_map_escape before)).2
  have hafter : ['.', '.'] ∉ back ++ below := by
    rw [List.mem_append, not_or]
    exact ⟨hback, hbelow⟩
  have hsuffix (hlength : (Path.steady [last] ++ Path.steady [n]).length ≤
      (Path.steady [middle]).length) : ['.', '.'] ∉ rest := by
    have hsame : (Path.steady [last] ++ Path.steady [n] ++ Path.steady after) ++ (back ++ below) =
        (Path.steady [middle] ++ Path.steady after) ++ rest := by
      simpa only [List.append_assoc] using hrest
    refine not_mem_of_append_eq hsame ?_ hafter
    simpa only [List.length_append, Nat.add_le_add_iff_right] using hlength
  rcases steady_singleton middle with ⟨hidle, hsteady⟩ | ⟨hidle, hsteady⟩
  · obtain ⟨hlast, hfirst⟩ : Path.isIdle last = true ∧ Path.isIdle first = true :=
      isIdle_of_append (by rw [← hmiddle, isIdle_escape, hidle])
    exact hsuffix (by simp [Path.steady, hlast, isIdle_of_takes hc hfirst hn])
  rcases steady_singleton last with ⟨-, hlast⟩ | ⟨-, hlast⟩
  · refine hsuffix ?_
    rw [hlast, hsteady]
    rcases steady_singleton n with ⟨-, hn⟩ | ⟨-, hn⟩ <;> simp [hn]
  rcases steady_singleton n with ⟨-, hn'⟩ | ⟨-, hn'⟩
  · exact hsuffix (by simp [hlast, hsteady, hn'])
  -- both parts of the piece are pieces of the path, so the first one is the whole piece
  rw [hlast, hn', hsteady, List.singleton_append, List.singleton_append,
    List.singleton_append] at hrest
  rw [List.cons.injEq] at hrest
  obtain ⟨rfl, hrest⟩ := hrest
  obtain rfl := eq_cons_of_cons_append_eq hrest
  rw [List.mem_cons, not_or]
  refine ⟨?_, hafter⟩
  rintro rfl
  exact point_not_mem_of_escape_eq hmiddle
    (Component.point_mem_of_mem_dotNames hc (Component.mem_dotNames_of_takes hn))

/-- The pattern for an entry of a directory. -/
def inDirectory (directory entry : List Char) : List Char := escape directory ++ '/' :: entry

def literalPart (directory entry : List Char) : List Char :=
  (cutRoot (inDirectory directory entry)).1.drop ((escape directory).length + 1)

def patternPart (directory entry : List Char) : List Char :=
  entry.drop (literalPart directory entry).length

/-- A piece of the entry is a double point or stands for one. -/
def Climbs (directory entry : List Char) : Prop :=
  ['.', '.'] ∈ splitOn Path.isSeparator (literalPart directory entry) ∨
    ∃ piece ∈ splitOn Path.isSeparator (patternPart directory entry),
      ∃ c, component? piece = some c ∧ ['.', '.'] ∈ c.dotNames

theorem parent_not_mem_of_mem_paths (ht : t.WellNamed)
    (h : path ∈ paths t (inDirectory directory entry)) (hclimbs : ¬ Climbs directory entry)
    (hbelow : ['.', '.'] ∉ below)
    (hrest : Path.steady (pieces path.text) ++ below =
      Path.steady (splitOn Path.isSeparator directory) ++ rest) : ['.', '.'] ∉ rest := by
  obtain ⟨components, names, hcomponents, hfits, hsteady⟩ := fits_of_mem_paths ht h
  have hcut := cutRoot_append (inDirectory directory entry)
  rw [hsteady] at hrest
  rw [Climbs, patternPart, literalPart] at hclimbs
  generalize cutRoot (inDirectory directory entry) = cut at hcut hcomponents hrest hclimbs
  obtain ⟨root, body⟩ := cut
  dsimp only at hcut hcomponents hrest hclimbs
  obtain ⟨hliteral, hpattern⟩ := not_or.1 hclimbs
  have hfree : ∀ piece ∈ splitOn Path.isSeparator
      (entry.drop (root.drop ((escape directory).length + 1)).length),
      ∀ c, component? piece = some c → ['.', '.'] ∉ c.dotNames :=
    fun piece hpiece c hc hdots => hpattern ⟨piece, hpiece, c, hc, hdots⟩
  have hprefix : root <+: escape directory ++ '/' :: entry := ⟨body, hcut⟩
  -- the pattern is cut within the directory, or beyond it in the entry
  by_cases hlength : root.length ≤ (escape directory).length
  · obtain ⟨text, htext⟩ := List.prefix_of_prefix_length_le hprefix (List.prefix_append _ _) hlength
    rw [inDirectory, ← htext, List.append_assoc] at hcut
    obtain rfl := List.append_cancel_left hcut
    have hdrop : root.drop ((escape directory).length + 1) = [] :=
      List.drop_eq_nil_of_le (by omega)
    rw [hdrop, List.length_nil, List.drop_zero] at hfree
    exact parent_not_mem_of_within htext.symm hcomponents hfits hfree hbelow hrest
  · have hdirectory : escape directory ++ ['/'] <+: escape directory ++ '/' :: entry :=
      ⟨entry, by simp⟩
    obtain ⟨literal, rfl⟩ := List.prefix_of_prefix_length_le hdirectory hprefix
      (by rw [List.length_append, List.length_singleton]; omega)
    have hdrop : (escape directory ++ ['/'] ++ literal).drop ((escape directory).length + 1) =
        literal := by
      rw [List.drop_left' (by simp)]
    rw [inDirectory, List.append_assoc, List.append_assoc, List.append_cancel_left_eq,
      List.singleton_append, List.cons.injEq] at hcut
    obtain rfl := hcut.2
    rw [hdrop] at hliteral hfree
    rw [List.drop_left' rfl] at hfree
    exact parent_not_mem_of_beyond (by simp) hcomponents hfits hliteral hfree hbelow hrest

end ImportAtlas.Glob
