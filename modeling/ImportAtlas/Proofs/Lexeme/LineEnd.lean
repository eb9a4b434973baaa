import ImportAtlas.Proofs.Lexeme.Body
import ImportAtlas.Proofs.Lexeme.Gap
import ImportAtlas.Proofs.Lexeme.Regex
import ImportAtlas.Proofs.Lexeme.Trivia
import ImportAtlas.Proofs.Text.LineEnd

namespace ImportAtlas.Lexeme

open Text

variable {A B cs k T text : List Char} {c quote : Char} {n m depth : Nat} {inClass : Bool}
  {p : Char → Bool}

theorem headIs_withReturns (hp : p '\r' = p '\n') : headIs p (withReturns cs) = headIs p cs := by
  cases cs with
  | nil => rfl
  | cons c cs =>
    by_cases hc : c = '\n'
    · subst hc
      exact hp
    · rw [withReturns_cons hc]
      rfl

theorem ne_newline_of_startsTrivia (h : startsTrivia (c :: k) = false) : c ≠ '\n' := by
  rintro rfl
  exact absurd (isBlank_of_startsTrivia h) (by decide)

theorem startsTrivia_withReturns (h : startsTrivia cs = false) :
    startsTrivia (withReturns cs) = false := by
  cases cs with
  | nil => rfl
  | cons c cs =>
    rw [withReturns_cons (ne_newline_of_startsTrivia h), startsTrivia_cons,
      headIs_withReturns (by decide), ← startsTrivia_cons, h]

theorem head?_withReturns (h : startsTrivia cs = false) : (withReturns cs).head? = cs.head? := by
  cases cs with
  | nil => rfl
  | cons c cs => rw [withReturns_cons (ne_newline_of_startsTrivia h)]; rfl

theorem not_mem_newline_takeWhile (hp : p '\n' = false) : '\n' ∉ cs.takeWhile p := by
  intro h
  rw [List.mem_takeWhile_imp h] at hp
  contradiction

theorem takeWhile_withReturns_eq (hp : p '\r' = false ∧ p '\n' = false) :
    (withReturns cs).takeWhile p = cs.takeWhile p := by
  rw [takeWhile_withReturns (hp.1.trans hp.2.symm),
    withReturns_of_not_mem (not_mem_newline_takeWhile hp.2)]

theorem word_withReturns (h : startsTrivia cs = false) : word (withReturns cs) = word cs := by
  cases cs with
  | nil => rfl
  | cons c cs =>
    rw [withReturns_cons (ne_newline_of_startsTrivia h), word, word,
      takeWhile_withReturns_eq (by decide)]

theorem number_withReturns (h : startsTrivia cs = false) :
    number (withReturns cs) = number cs := by
  cases cs with
  | nil => rfl
  | cons c cs =>
    rw [withReturns_cons (ne_newline_of_startsTrivia h), number, number,
      takeWhile_withReturns_eq (by decide)]

theorem not_mem_newline_take (hc : c ≠ '\n') (hp : p '\n' = false) :
    '\n' ∉ (c :: cs).take (c :: cs.takeWhile p).length := by
  have hprefix : c :: cs.takeWhile p <+: c :: cs :=
    List.cons_prefix_cons.2 ⟨rfl, List.takeWhile_prefix p⟩
  rw [← List.prefix_iff_eq_take.1 hprefix, List.mem_cons, not_or]
  exact ⟨hc.symm, not_mem_newline_takeWhile hp⟩

theorem not_mem_newline_word (h : startsTrivia cs = false) : '\n' ∉ cs.take (word cs).length := by
  cases cs with
  | nil => exact List.not_mem_nil
  | cons c cs => exact not_mem_newline_take (ne_newline_of_startsTrivia h) (by decide)

theorem not_mem_newline_number (h : startsTrivia cs = false) :
    '\n' ∉ cs.take (number cs).length := by
  cases cs with
  | nil => exact List.not_mem_nil
  | cons c cs => exact not_mem_newline_take (ne_newline_of_startsTrivia h) (by decide)

theorem infix_commentEnd_withReturns :
    ['*', '/'] <:+: withReturns text ↔ ['*', '/'] <:+: text := by
  induction text with
  | nil => rfl
  | cons c text ih =>
    by_cases hc : c = '\n'
    · subst hc
      simp [List.infix_cons_iff, ih]
    · rw [withReturns_cons hc, List.infix_cons_iff, List.infix_cons_iff, ih]
      cases text with
      | nil => rfl
      | cons d text =>
        by_cases hd : d = '\n'
        · subst hd
          simp
        · rw [withReturns_cons hd]
          simp

theorem Trivia.withReturns (h : Trivia A) : Trivia (withReturns A) := by
  induction h with
  | nil => exact .nil
  | @blank c A hc _ ih =>
    by_cases hline : c = '\n'
    · subst hline
      exact .blank (by decide) (.blank (by decide) ih)
    · rw [withReturns_cons hline]
      exact .blank hc ih
  | @line text A ht _ ih =>
    have htext : '\n' ∉ text ++ ['\r'] := by simpa using ht
    have hline := Trivia.line htext ih
    rw [withReturns_append, withReturns_cons (by decide), withReturns_cons (by decide),
      withReturns_of_not_mem ht, withReturns_feed]
    simpa using hline
  | @block text A ht _ ih =>
    have hblock := Trivia.block (mt infix_commentEnd_withReturns.1 ht) ih
    rw [withReturns_append, withReturns_cons (by decide), withReturns_cons (by decide),
      withReturns_cons (by decide), withReturns_cons (by decide)]
    exact hblock

theorem TriviaBefore.withReturns (h : TriviaBefore k A) :
    TriviaBefore (withReturns k) (withReturns A) := by
  cases h with
  | closed hA hk => exact .closed hA.withReturns (startsTrivia_withReturns hk)
  | @ended A text hk hA ht =>
    rw [withReturns_append, withReturns_cons (by decide), withReturns_cons (by decide),
      withReturns_of_not_mem ht, hk]
    exact .ended rfl hA.withReturns ht

theorem not_mem_take_cons {x : Char} (h : n < m) :
    x ∉ (c :: cs).take (m - n) ↔ x ≠ c ∧ x ∉ cs.take (m - (n + 1)) := by
  obtain ⟨l, rfl⟩ := Nat.exists_eq_add_of_lt h
  have hleft : n + l + 1 - n = l + 1 := by omega
  have hright : n + l + 1 - (n + 1) = l := by omega
  rw [hleft, hright, List.take_succ_cons, List.mem_cons, not_or]

theorem stringFrom_withReturns (hq : isQuote quote = true) :
    stringFrom quote n (withReturns cs) = some m ↔
      stringFrom quote n cs = some m ∧ '\n' ∉ cs.take (m - n) := by
  have hreturn : '\r' ≠ quote := by
    rintro rfl
    exact absurd hq (by decide)
  have hfeed {n : Nat} {k : List Char} : stringFrom quote n ('\r' :: '\n' :: k) = none := by
    rw [stringFrom_cons (by decide) (by decide), if_neg hreturn]
    rfl
  fun_induction stringFrom quote n cs with
  | case1 => simp [stringFrom]
  | case2 n rest =>
    rw [withReturns_feed, hfeed]
    simp
  | case3 => simp [withReturns_cons, stringFrom]
  | case4 n c rest ih =>
    rw [withReturns_cons (by decide)]
    by_cases hc : c = '\n'
    · -- the return is escaped, and the line feed ends the line
      subst hc
      rw [withReturns_feed]
      refine iff_of_false (Option.some_ne_none m).symm ?_
      rintro ⟨h, hline⟩
      have hlt := lt_of_stringFrom h
      rw [not_mem_take_cons (by omega), not_mem_take_cons (by omega)] at hline
      exact hline.2.1 rfl
    · rw [withReturns_cons hc, stringFrom]
      refine ih.trans (and_congr_right fun h => ?_)
      have hlt := lt_of_stringFrom h
      rw [not_mem_take_cons (n := n) (by omega), not_mem_take_cons (n := n + 1) (by omega)]
      simp [Ne.symm hc]
  | case5 n rest hline hend hesc =>
    rw [withReturns_cons fun h => hline h, stringFrom_cons (fun h => hline h) (ne_escape hend hesc),
      if_pos rfl]
    refine (and_iff_left_of_imp fun h => ?_).symm
    cases h
    rw [Nat.add_sub_cancel_left]
    simpa using fun h => hline h.symm
  | case6 n c rest hline hend hesc hc ih =>
    rw [withReturns_cons fun h => hline h, stringFrom_cons (fun h => hline h) (ne_escape hend hesc),
      if_neg hc]
    refine ih.trans (and_congr_right fun h => ?_)
    rw [not_mem_take_cons (n := n) (Nat.lt_of_succ_lt (lt_of_stringFrom h))]
    simpa using fun _ h => hline h.symm

theorem keepsOpen_withReturns (cs : List Char) : KeepsOpen cs (withReturns cs) := by
  induction hn : cs.length using Nat.strong_induction_on generalizing cs with
  | h n ih =>
    subst hn
    cases cs with
    | nil => exact .refl []
    | cons c k =>
      by_cases hescape : c = '\\'
      · subst hescape
        rw [withReturns_cons (by decide)]
        cases k with
        | nil => exact .refl _
        | cons c k =>
          by_cases hc : c = '\n'
          · subst hc
            exact fun _ _ _ _ => rfl
          · rw [withReturns_cons hc]
            exact (ih k.length (by simp only [List.length_cons]; omega) k rfl).escape
      · by_cases hc : c = '\n'
        · subst hc
          intro inClass n m _
          rw [withReturns_feed, regexBodyFrom_cons (by decide)]
          rfl
        · rw [withReturns_cons hc]
          exact (ih k.length (by simp) k rfl).cons hescape

theorem regex?_withReturns_none (h : regex? ('/' :: k) = none) :
    regex? (withReturns ('/' :: k)) = none := by
  rw [withReturns_cons (by decide)]
  exact regex?_eq_none (keepsOpen_withReturns k) h

theorem regex?_withReturns (h : regex? ('/' :: k) = some n) (hline : '\n' ∉ ('/' :: k).take n) :
    regex? (withReturns ('/' :: k)) = some n := by
  obtain ⟨A, rest, rfl, rfl, hrest, hall⟩ := exists_of_regex? h
  rw [List.take_succ_cons, List.take_left, List.mem_cons, not_or] at hline
  rw [withReturns_cons (by decide), withReturns_append_of_not_mem hline.2]
  exact hall _ ((headIs_withReturns (by decide)).trans hrest)

theorem not_mem_newline_regexBody (h : regexBodyFrom inClass n cs = some m)
    (hescape : ¬ ['\\', '\n'] <:+: cs) : '\n' ∉ cs.take (m - n) := by
  fun_induction regexBodyFrom inClass n cs with
  | case1 => contradiction
  | case2 => contradiction
  | case3 => contradiction
  | case4 inClass n c rest ih =>
    have hlt := lt_of_regexBodyFrom h
    have hc : '\n' ≠ c := by
      rintro rfl
      exact hescape ⟨[], rest, rfl⟩
    rw [not_mem_take_cons (by omega), not_mem_take_cons (by omega)]
    exact ⟨by decide, hc, ih h fun hinfix =>
      hescape (List.infix_cons (List.infix_cons hinfix))⟩
  | case5 inClass n rest ih =>
    have hlt := lt_of_regexBodyFrom h
    rw [not_mem_take_cons (by omega)]
    exact ⟨by decide, ih h fun hinfix => hescape (List.infix_cons hinfix)⟩
  | case6 inClass n rest ih =>
    have hlt := lt_of_regexBodyFrom h
    rw [not_mem_take_cons (by omega)]
    exact ⟨by decide, ih h fun hinfix => hescape (List.infix_cons hinfix)⟩
  | case7 inClass n c rest hline _ _ _ _ hslash =>
    cases h
    rw [Nat.add_sub_cancel_left, List.take_succ_cons, List.take_zero, List.mem_singleton]
    exact fun h => hline h.symm
  | case8 inClass n c rest hline _ _ _ _ hslash ih =>
    have hlt := lt_of_regexBodyFrom h
    rw [not_mem_take_cons (by omega)]
    exact ⟨fun h => hline h.symm, ih h fun hinfix => hescape (List.infix_cons hinfix)⟩

theorem not_mem_newline_regex (h : regex? cs = some n) (hescape : ¬ ['\\', '\n'] <:+: cs) :
    '\n' ∉ cs.take n := by
  unfold regex? at h
  split at h
  · obtain ⟨m, hm, rfl⟩ := Option.map_eq_some_iff.1 h
    have hlt := lt_of_regexBodyFrom hm
    have hbody := not_mem_newline_regexBody hm fun hinfix => hescape (List.infix_cons hinfix)
    have hlength (x : Nat) : m + x = (m - 1 + x) + 1 := by omega
    rw [hlength, List.take_succ_cons, List.take_add, List.mem_cons, List.mem_append, not_or, not_or,
      ← List.prefix_iff_eq_take.1 (List.takeWhile_prefix isWordPart)]
    exact ⟨by decide, hbody, not_mem_newline_takeWhile (by decide)⟩
  · contradiction

theorem templateChunkFrom_withReturns (hT : T = A ++ cs) :
    templateChunkFrom (withReturns A).length (withReturns cs) =
      (templateChunkFrom A.length cs).map
        (Prod.map id fun n => (withReturns (T.take n)).length) := by
  -- a line end is a character like others here, and so is the return before it
  have hfeed {n : Nat} {k : List Char} :
      templateChunkFrom n ('\n' :: k) = templateChunkFrom (n + 1) k :=
    templateChunkFrom_cons (by decide) (by decide) fun h => absurd h (by decide)
  have hreturn {n : Nat} {k : List Char} :
      templateChunkFrom n ('\r' :: k) = templateChunkFrom (n + 1) k :=
    templateChunkFrom_cons (by decide) (by decide) fun h => absurd h (by decide)
  generalize hn : A.length = n
  fun_induction templateChunkFrom n cs generalizing A with
  | case1 => rfl
  | case2 => rfl
  | case3 n c rest ih =>
    rw [← ih (A := A ++ ['\\', c]) (by simp [hT]) (by simp [hn]), withReturns_append,
      List.length_append, withReturns_cons (c := '\\') (by decide)]
    by_cases hc : c = '\n'
    · subst hc
      rw [withReturns_feed, templateChunkFrom, hfeed]
      rfl
    · rw [withReturns_cons hc, templateChunkFrom, withReturns_of_not_mem (A := ['\\', c])]
      · rfl
      · simpa using fun h => hc h.symm
  | case4 n rest =>
    have hcount := length_withReturns_take (A := A) (B := ['\x60']) (k := rest) (n := n + 1)
      (by rw [hn]; rfl)
    rw [hT, withReturns_cons (by decide)]
    exact congrArg (fun n => some (ChunkEnd.closed, n)) hcount.symm
  | case5 n rest =>
    have hcount := length_withReturns_take (A := A) (B := ['$', '\x7b']) (k := rest) (n := n + 2)
      (by rw [hn]; rfl)
    rw [hT, withReturns_cons (by decide), withReturns_cons (by decide)]
    exact congrArg (fun n => some (ChunkEnd.substitution, n)) hcount.symm
  | case6 n c rest hend hescape hclose hopen ih =>
    rw [← ih (A := A ++ [c]) (by simp [hT]) (by simp [hn]), withReturns_append, List.length_append]
    by_cases hc : c = '\n'
    · subst hc
      rw [withReturns_feed, hreturn, hfeed]
      rfl
    · have hdollar (h : c = '$') : headIs (· = '\x7b') (withReturns rest) = false := by
        rw [headIs_withReturns (by decide)]
        cases rest with
        | nil => rfl
        | cons d rest => exact decide_eq_false fun hd => hopen rest h (by rw [hd])
      rw [withReturns_cons hc, templateChunkFrom_cons (fun h => hclose h)
        (ne_escape hend hescape) hdollar, withReturns_of_not_mem (A := [c])]
      · rfl
      · simpa using fun h => hc h.symm

theorem bodyFollowsFrom_withReturns {within : Option Char} (hwithin : IsOpen within) :
    bodyFollowsFrom depth within (withReturns cs) = bodyFollowsFrom depth within cs := by
  have hquiet {depth : Nat} {within : Option Char} {A k : List Char} (hwithin : IsOpen within)
      (hA : Quiet A) : bodyFollowsFrom depth within (A ++ k) = bodyFollowsFrom depth within k :=
    bodyFollowsFrom_quiet hA hwithin
  fun_induction bodyFollowsFrom depth within cs with
  | case1 => rfl
  | case2 => rfl
  | case3 depth quote c rest ih =>
    rw [withReturns_cons (by decide)]
    by_cases hc : c = '\n'
    · subst hc
      rw [withReturns_feed, bodyFollowsFrom, ← ih hwithin]
      exact hquiet (A := ['\n']) hwithin (by decide)
    · rw [withReturns_cons hc, bodyFollowsFrom, ih hwithin]
  | case4 depth quote c rest hend hesc ih =>
    by_cases hc : c = '\n'
    · subst hc
      have hne : '\n' ≠ quote := by
        rintro rfl
        exact absurd (hwithin _ rfl) (by decide)
      rw [if_neg hne] at ih ⊢
      rw [← ih hwithin]
      exact hquiet (A := ['\r', '\n']) hwithin (by decide)
    · rw [withReturns_cons hc, bodyFollowsFrom_string_cons (ne_escape hend hesc)]
      refine ih ?_
      split
      · exact isOpen_none
      · exact hwithin
  | case5 depth rest ih =>
    rw [withReturns_cons (by decide), bodyFollowsFrom, if_pos rfl, ih isOpen_none]
  | case6 depth rest hle hne =>
    rw [withReturns_cons (by decide), bodyFollowsFrom, if_neg hne, if_pos rfl, if_pos hle,
      dropWhile_withReturns (by decide)]
    simp only [head?_eq_some_iff]
    rw [headIs_withReturns (by decide)]
  | case7 depth rest hle hne ih =>
    rw [withReturns_cons (by decide), bodyFollowsFrom, if_neg hne, if_pos rfl, if_neg hle,
      ih isOpen_none]
  | case8 depth c rest hopen hclose hquote ih =>
    have hc : c ≠ '\n' := by
      rintro rfl
      exact absurd hquote (by decide)
    rw [withReturns_cons hc, bodyFollowsFrom, if_neg hopen, if_neg hclose, if_pos hquote]
    exact ih fun quote hq => by
      obtain rfl := Option.mem_some_iff.1 hq
      simpa [isNesting, hopen, hclose] using hquote
  | case9 depth c rest hopen hclose hquote ih =>
    by_cases hc : c = '\n'
    · subst hc
      rw [← ih isOpen_none]
      exact hquiet (A := ['\r', '\n']) isOpen_none (by decide)
    · rw [withReturns_cons hc, bodyFollowsFrom, if_neg hopen, if_neg hclose, if_neg hquote,
        ih isOpen_none]

theorem isDefinition_withReturns : isDefinition (withReturns cs) = isDefinition cs :=
  bodyFollowsFrom_withReturns isOpen_none

end ImportAtlas.Lexeme
