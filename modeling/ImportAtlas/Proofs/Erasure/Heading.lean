import ImportAtlas.Proofs.Erasure.Place

namespace ImportAtlas.Erasure

open Text Lexeme

/-- A comment up to the name of its source map.  The second character says whether it is
a line comment or a block comment. -/
inductive Heading (x : Char) : List Char → Prop
  | mk {I J : List Char} {mark : Char} : (∀ c ∈ I, isIndent c = true) →
      mark = '#' ∨ mark = '@' → (∀ c ∈ J, isIndent c = true) →
      Heading x (I ++ '/' :: x :: mark :: (J ++ "sourceMappingURL=".toList))

inductive LineEnd : List Char → Prop
  | none : LineEnd []
  | feed : LineEnd ['\n']
  | returnFeed : LineEnd ['\r', '\n']

theorem LineEnd.eq_nil_or {L : List Char} (h : LineEnd L) :
    L = [] ∨ ∃ R, '\n' ∉ R ∧ L = R ++ ['\n'] := by
  cases h with
  | none => exact .inl rfl
  | feed => exact .inr ⟨[], by simp, rfl⟩
  | returnFeed => exact .inr ⟨['\r'], by decide, rfl⟩

/-- The first star is that of the end of a block comment. -/
def Closes (cs : List Char) : Prop := ∃ X k, '*' ∉ X ∧ cs = X ++ '*' :: '/' :: k

def mapName? (x : Char) (cs : List Char) : Option (List Char) :=
  (stripHead ['/', x] (skipIndent cs)).bind skipMarker

variable {x c : Char} {H I X k cs : List Char}

theorem lineMapRest?_eq (cs : List Char) : lineMapRest? cs = (mapName? '/' cs).map fun k =>
    skipLineEnd (k.dropWhile fun c => c ≠ '\r' && c ≠ '\n') := by
  rw [lineMapRest?, mapName?, Option.map_bind]
  rfl

theorem blockMapRest?_eq (cs : List Char) : blockMapRest? cs = (mapName? '*' cs).bind fun k =>
    (stripHead ['*', '/'] (k.dropWhile (· ≠ '*'))).map fun k => skipLineEnd (skipIndent k) := by
  rw [blockMapRest?, mapName?, Option.bind_assoc]

theorem skipIndent_append (hI : ∀ c ∈ I, isIndent c = true) (hc : isIndent c = false) :
    skipIndent (I ++ c :: k) = c :: k := by
  rw [skipIndent, List.dropWhile_append_of_pos hI, List.dropWhile_cons_of_neg (by simp [hc])]

theorem exists_indent (cs : List Char) :
    ∃ I, cs = I ++ skipIndent cs ∧ ∀ c ∈ I, isIndent c = true :=
  ⟨_, List.takeWhile_append_dropWhile.symm, fun _ hc => List.mem_takeWhile_imp hc⟩

theorem exists_lineEnd (cs : List Char) : ∃ L, LineEnd L ∧ cs = L ++ skipLineEnd cs := by
  unfold skipLineEnd
  split
  · exact ⟨_, .feed, rfl⟩
  · exact ⟨_, .returnFeed, rfl⟩
  · exact ⟨_, .none, rfl⟩

theorem mapName?_eq_some : mapName? x cs = some k ↔ ∃ H, Heading x H ∧ cs = H ++ k := by
  constructor
  · intro h
    obtain ⟨cs', hslash, hmarker⟩ := Option.bind_eq_some_iff.1 h
    obtain ⟨I, hcs, hI⟩ := exists_indent cs
    unfold skipMarker at hmarker
    split at hmarker
    · rename_i mark rest
      split at hmarker
      · rename_i hmark
        obtain ⟨J, hrest, hJ⟩ := exists_indent rest
        rw [stripHead_eq_some] at hslash hmarker
        refine ⟨_, .mk hI (by simpa using hmark) hJ, ?_⟩
        rw [hcs, hslash, hrest, hmarker]
        simp
      · contradiction
    · contradiction
  · rintro ⟨_, @⟨I, J, mark, hI, hmark, hJ⟩, rfl⟩
    refine Option.bind_eq_some_iff.2 ⟨mark :: (J ++ "sourceMappingURL=".toList ++ k), ?_, ?_⟩
    · rw [List.append_assoc, List.cons_append, skipIndent_append hI (by decide), stripHead_eq_some]
      rfl
    · have hname : "sourceMappingURL=".toList = 's' :: "ourceMappingURL=".toList := by decide
      rw [skipMarker, if_pos (by simpa using hmark), hname, List.append_assoc, List.cons_append,
        skipIndent_append hJ (by decide), stripHead_eq_some]
      rfl

theorem closes_iff : Closes cs ↔ (stripHead ['*', '/'] (cs.dropWhile (· ≠ '*'))).isSome = true := by
  rw [Option.isSome_iff_exists]
  constructor
  · rintro ⟨X, k, hX, rfl⟩
    refine ⟨k, stripHead_eq_some.2 ?_⟩
    rw [List.dropWhile_append_of_pos]
    · simp
    · intro c hc
      rw [decide_eq_true_eq]
      rintro rfl
      exact hX hc
  · rintro ⟨k, hk⟩
    rw [stripHead_eq_some] at hk
    refine ⟨cs.takeWhile (· ≠ '*'), k, fun hc => ?_, ?_⟩
    · simpa using List.mem_takeWhile_imp hc
    · conv_lhs => rw [← List.takeWhile_append_dropWhile (p := (· ≠ '*')) (l := cs), hk]
      rfl

theorem closes_append (hX : '*' ∉ X) : Closes (X ++ k) ↔ Closes k := by
  rw [closes_iff, closes_iff, List.dropWhile_append_of_pos]
  intro c hc
  rw [decide_eq_true_eq]
  rintro rfl
  exact hX hc

theorem closes_star : Closes ('*' :: k) ↔ k.head? = some '/' := by
  cases k <;> simp [closes_iff, stripHead, @eq_comm _ '/']

namespace Heading

theorem not_mem_newline (h : Heading x H) (hx : x ≠ '\n') : '\n' ∉ H := by
  obtain ⟨hI, hmark, hJ⟩ := h
  have hindent {I : List Char} (hI : ∀ c ∈ I, isIndent c = true) : '\n' ∉ I :=
    fun hc => absurd (hI _ hc) (by decide)
  have hname : '\n' ∉ "sourceMappingURL=".toList := by decide
  simp only [List.mem_append, List.mem_cons, not_or]
  refine ⟨hindent hI, by decide, hx.symm, ?_, hindent hJ, hname⟩
  rintro rfl
  simp at hmark

theorem not_closes (h : Heading '*' H) : ¬ Closes (H ++ k) := by
  obtain @⟨I, J, mark, hI, hmark, -⟩ := h
  have hstar : '*' ∉ I ++ ['/'] := by
    rw [List.mem_append, not_or]
    exact ⟨fun hc => absurd (hI _ hc) (by decide), by decide⟩
  rw [List.append_assoc, List.cons_append, List.append_cons, List.cons_append, closes_append hstar,
    closes_star, List.cons_append, List.head?_cons]
  rcases hmark with rfl | rfl <;> decide

theorem exists_slash (h : Heading x H) :
    ∃ I E, H = I ++ '/' :: E ∧ ∀ c ∈ I, isIndent c = true := by
  obtain ⟨hI, -, -⟩ := h
  exact ⟨_, _, rfl, hI⟩

end Heading

theorem lineMapRest?_isSome :
    (lineMapRest? cs).isSome = true ↔ ∃ H k, Heading '/' H ∧ cs = H ++ k := by
  rw [lineMapRest?_eq, Option.isSome_map, Option.isSome_iff_exists]
  simp only [mapName?_eq_some]
  exact exists_comm

theorem Heading.isSome_blockMapRest? (h : Heading '*' H) :
    (blockMapRest? (H ++ k)).isSome = true ↔ Closes k := by
  rw [blockMapRest?_eq, mapName?_eq_some.2 ⟨H, h, rfl⟩, Option.bind_some, Option.isSome_map,
    closes_iff]

theorem blockMapRest?_isSome :
    (blockMapRest? cs).isSome = true ↔ ∃ H k, Heading '*' H ∧ cs = H ++ k ∧ Closes k := by
  constructor
  · intro h
    obtain ⟨k, hk⟩ := Option.isSome_iff_exists.1 h
    rw [blockMapRest?_eq] at hk
    obtain ⟨k, hk, -⟩ := Option.bind_eq_some_iff.1 hk
    obtain ⟨H, hH, rfl⟩ := mapName?_eq_some.1 hk
    exact ⟨H, k, hH, rfl, hH.isSome_blockMapRest?.1 h⟩
  · rintro ⟨H, k, hH, rfl, hcloses⟩
    exact hH.isSome_blockMapRest?.2 hcloses

theorem exists_of_lineMapRest? (h : lineMapRest? cs = some k) :
    ∃ H X L, Heading '/' H ∧ LineEnd L ∧ cs = H ++ (X ++ (L ++ k)) ∧
      (L = [] → headIs (fun c => c ≠ '\r') k = false) := by
  rw [lineMapRest?_eq] at h
  obtain ⟨k₁, h₁, rfl⟩ := Option.map_eq_some_iff.1 h
  obtain ⟨H, hH, rfl⟩ := mapName?_eq_some.1 h₁
  let p : Char → Bool := fun c => c ≠ '\r' && c ≠ '\n'
  obtain ⟨L, hL, hk⟩ := exists_lineEnd (k₁.dropWhile p)
  refine ⟨H, k₁.takeWhile p, L, hH, hL, ?_, ?_⟩
  · rw [← hk, List.takeWhile_append_dropWhile]
  · rintro rfl
    rw [List.nil_append] at hk
    rw [← hk]
    cases hd : k₁.dropWhile p with
    | nil => rfl
    | cons c k =>
      have hc : p c = false := by simpa [hd] using headIs_dropWhile (p := p) (k := k₁)
      have hline : c ≠ '\n' := by
        rintro rfl
        rw [hd] at hk
        exact absurd (congrArg List.length hk) (by simp [skipLineEnd])
      simpa [p, hline] using hc

theorem exists_of_blockMapRest? (h : blockMapRest? cs = some k) :
    ∃ H X I L, Heading '*' H ∧ '*' ∉ X ∧ (∀ c ∈ I, isIndent c = true) ∧ LineEnd L ∧
      cs = H ++ (X ++ '*' :: '/' :: (I ++ (L ++ k))) := by
  rw [blockMapRest?_eq] at h
  obtain ⟨k₁, h₁, hend⟩ := Option.bind_eq_some_iff.1 h
  obtain ⟨H, hH, rfl⟩ := mapName?_eq_some.1 h₁
  obtain ⟨k₂, h₂, rfl⟩ := Option.map_eq_some_iff.1 hend
  obtain ⟨I, hk₂, hI⟩ := exists_indent k₂
  obtain ⟨L, hL, hk⟩ := exists_lineEnd (skipIndent k₂)
  rw [stripHead_eq_some] at h₂
  refine ⟨H, k₁.takeWhile (· ≠ '*'), I, L, hH, fun hc => ?_, hI, hL, ?_⟩
  · simpa using List.mem_takeWhile_imp hc
  · rw [← hk, ← hk₂]
    conv_lhs => rw [← List.takeWhile_append_dropWhile (p := (· ≠ '*')) (l := k₁), h₂]
    rfl

theorem opensWithSlash_of_heading {rest? : List Char → Option (List Char)}
    (h : ∀ cs k, rest? cs = some k → ∃ H E, Heading x H ∧ cs = H ++ (E ++ k)) :
    OpensWithSlash rest? := by
  intro cs k hcs
  obtain ⟨H, E, hH, rfl⟩ := h cs k hcs
  obtain ⟨I, E', rfl, hI⟩ := hH.exists_slash
  exact ⟨I, E' ++ E, by simp, hI⟩

theorem opensWithSlash_line : OpensWithSlash lineMapRest? := by
  refine opensWithSlash_of_heading (x := '/') fun cs k h => ?_
  obtain ⟨H, X, L, hH, -, rfl, -⟩ := exists_of_lineMapRest? h
  exact ⟨H, X ++ L, hH, by simp⟩

theorem opensWithSlash_block : OpensWithSlash blockMapRest? := by
  refine opensWithSlash_of_heading (x := '*') fun cs k h => ?_
  obtain ⟨H, X, I, L, hH, -, -, -, rfl⟩ := exists_of_blockMapRest? h
  exact ⟨H, X ++ '*' :: '/' :: (I ++ L), hH, by simp⟩

end ImportAtlas.Erasure
