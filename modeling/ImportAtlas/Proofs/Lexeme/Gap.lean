import ImportAtlas.Proofs.Lexeme.Body
import ImportAtlas.Proofs.Lexeme.Regex
import ImportAtlas.Proofs.Lexeme.Trivia
import ImportAtlas.Proofs.Text.Gap

/-! Lexemes in a text with gaps.  To most readers it makes no difference which blank
character fills the gaps. -/

namespace ImportAtlas

namespace Text.Gapped

open Lexeme

variable {P : Gapped → Prop} {T k : Gapped} {x y : Char} {p : Char → Bool}

theorem escape_induction (nil : P []) (last : P [some '\\'])
    (escape : ∀ o k, P k → P (o :: k) → P (some '\\' :: o :: k))
    (step : ∀ o k, o ≠ some '\\' → P k → P (o :: k)) : ∀ k, P k
  | [] => nil
  | o :: k => by
    have ih := escape_induction nil last escape step k
    by_cases ho : o = some '\\'
    · subst ho
      cases k with
      | nil => exact last
      | cons o k => exact escape o k (escape_induction nil last escape step k) ih
    · exact step o k ho ih

theorem takeWhile_fill (hx : p x = false) (hy : p y = false) :
    (fill x T).takeWhile p = (fill y T).takeWhile p := by
  induction T with
  | nil => rfl
  | cons o T ih =>
    cases o with
    | none => simp [hx, hy]
    | some c => simp [List.takeWhile_cons, ih]

theorem length_takeWhile_fill (h : p x = p y) :
    ((fill x T).takeWhile p).length = ((fill y T).takeWhile p).length := by
  induction T with
  | nil => rfl
  | cons o T ih =>
    have ho : p (o.getD x) = p (o.getD y) := by
      cases o with
      | none => exact h
      | some => rfl
    rw [fill_cons, fill_cons, List.takeWhile_cons, List.takeWhile_cons, ho]
    split
    · rw [List.length_cons, List.length_cons, ih]
    · rfl

theorem length_takeWhile_gaps (hy : p y = true) (hend : headIs p (fill x (afterGaps T)) = false) :
    ((fill y T).takeWhile p).length = (gaps T).length := by
  induction T with
  | nil => rfl
  | cons o T ih =>
    cases o with
    | none =>
      rw [fill_none, List.takeWhile_cons_of_pos hy, List.length_cons, ih hend]
      rfl
    | some c =>
      have hc : p c = false := hend
      rw [fill_some, List.takeWhile_cons_of_neg (by simp [hc])]
      rfl

theorem length_takeWhile_fill_add (hx : p x = false) (hy : p y = true)
    (hend : headIs p
      (fill x (afterGaps (T.drop ((fill x T).takeWhile p).length))) = false) :
    ((fill y T).takeWhile p).length = ((fill x T).takeWhile p).length +
      (gaps (T.drop ((fill x T).takeWhile p).length)).length := by
  induction T with
  | nil => rfl
  | cons o T ih =>
    by_cases hc : p (o.getD x) = true
    · cases o with
      | none => exact absurd (hc.symm.trans hx) (by decide)
      | some c =>
        have hcons (z : Char) :
            (fill z (some c :: T)).takeWhile p = c :: (fill z T).takeWhile p :=
          List.takeWhile_cons_of_pos hc
        rw [hcons, List.length_cons, List.drop_succ_cons] at hend
        rw [hcons, hcons, List.length_cons, List.length_cons, List.drop_succ_cons, ih hend,
          Nat.add_right_comm]
    · have hnil : (fill x (o :: T)).takeWhile p = [] := List.takeWhile_cons_of_neg hc
      rw [hnil, List.length_nil, List.drop_zero] at hend
      rw [hnil, List.length_nil, List.drop_zero, Nat.zero_add]
      exact length_takeWhile_gaps hy hend

end Text.Gapped

namespace Lexeme

open Text Gapped

structure IsFiller (x : Char) : Prop where
  blank : isBlank x = true
  ne_newline : x ≠ '\n'

variable {k : Gapped} {o : Option Char} {x y c quote : Char} {cs : List Char} {n depth : Nat}
  {inClass : Bool} {st : TriviaState}

namespace IsFiller

theorem space : IsFiller ' ' := ⟨by decide, by decide⟩

theorem of_isWideBlank (hx : isWideBlank x = true) : IsFiller x where
  blank := by simp [isBlank, hx]
  ne_newline := by
    rintro rfl
    contradiction

theorem ne (hx : IsFiller x) (hc : isBlank c = false) : x ≠ c := by
  rintro rfl
  rw [hx.blank] at hc
  contradiction

theorem continuesWord (hx : IsFiller x) : continuesWord x = false := by
  have hblank := hx.blank
  rw [isBlank, Bool.or_eq_true] at hblank
  rcases hblank with hascii | hwide
  · simp only [isAsciiBlank, Bool.or_eq_true, decide_eq_true_eq] at hascii
    rcases hascii with (((rfl | rfl) | rfl) | rfl) | rfl <;> decide
  · simp [Lexeme.continuesWord, hwide]

theorem getD_eq_iff (hx : IsFiller x) (hy : IsFiller y) (hc : isBlank c = false ∨ c = '\n') :
    o.getD x = c ↔ o.getD y = c := by
  cases o with
  | some d => rfl
  | none =>
    rcases hc with hc | rfl
    · exact iff_of_false (hx.ne hc) (hy.ne hc)
    · exact iff_of_false hx.ne_newline hy.ne_newline

theorem getD_ne_escape (hx : IsFiller x) (ho : o ≠ some '\\') : o.getD x ≠ '\\' := by
  cases o with
  | none => exact hx.ne (by decide)
  | some d => exact fun h => ho (congrArg some h)

theorem headIs_fill (hx : IsFiller x) (hy : IsFiller y) (hc : isBlank c = false) :
    headIs (· = c) (fill x k) = headIs (· = c) (fill y k) :=
  Gapped.headIs_fill (by rw [decide_eq_false (hx.ne hc), decide_eq_false (hy.ne hc)])

theorem isBlank_getD (hx : IsFiller x) (hy : IsFiller y) :
    isBlank (o.getD x) = isBlank (o.getD y) := by
  cases o with
  | some d => rfl
  | none => exact hx.blank.trans hy.blank.symm

theorem trivia_gaps (hx : IsFiller x) : Trivia (fill x (gaps k)) := by
  induction k with
  | nil => exact .nil
  | cons o k ih =>
    cases o with
    | none => exact .blank hx.blank ih
    | some => exact .nil

end IsFiller

section Steps

theorem triviaFrom_between_step : triviaFrom .between n (c :: cs) =
    if c = '/' ∧ headIs (· = '/') cs = true then triviaFrom .lineComment (n + 2) cs.tail
    else if c = '/' ∧ headIs (· = '*') cs = true then
      triviaFrom (.blockComment n) (n + 2) cs.tail
    else if isBlank c then triviaFrom .between (n + 1) cs else .ok n := by
  by_cases hc : c = '/'
  · subst hc
    cases cs with
    | nil => rfl
    | cons d cs =>
      by_cases hslash : d = '/'
      · subst hslash
        rfl
      · by_cases hstar : d = '*'
        · subst hstar
          rfl
        · rw [triviaFrom]
          · simp [hslash, hstar]
          · simp [hslash]
          · simp [hstar]
  · rw [triviaFrom]
    · simp [hc]
    · simp [hc]
    · simp [hc]

theorem triviaFrom_blockComment_step {opened : Nat} :
    triviaFrom (.blockComment opened) n (c :: cs) =
      if c = '*' ∧ headIs (· = '/') cs = true then triviaFrom .between (n + 2) cs.tail
      else triviaFrom (.blockComment opened) (n + 1) cs := by
  split
  · rename_i h
    obtain ⟨rfl, hcs⟩ := h
    cases cs with
    | nil => contradiction
    | cons d cs =>
      obtain rfl : d = '/' := of_decide_eq_true hcs
      rfl
  · rename_i h
    refine triviaFrom_block_cons fun hprefix => h ?_
    obtain ⟨r, hr⟩ := hprefix
    obtain ⟨rfl, rfl⟩ := List.cons.inj hr
    exact ⟨rfl, rfl⟩

theorem stringFrom_step (hc : c ≠ '\\') : stringFrom quote n (c :: cs) =
    if c = '\n' then none else if c = quote then some (n + 1)
    else stringFrom quote (n + 1) cs := by
  by_cases hline : c = '\n'
  · subst hline
    rfl
  · rw [if_neg hline, stringFrom_cons hline hc]

theorem templateChunkFrom_step (hc : c ≠ '\\') : templateChunkFrom n (c :: cs) =
    if c = '\x60' then some (.closed, n + 1)
    else if c = '$' ∧ headIs (· = '\x7b') cs = true then some (.substitution, n + 2)
    else templateChunkFrom (n + 1) cs := by
  by_cases hclose : c = '\x60'
  · subst hclose
    rfl
  · rw [if_neg hclose]
    split
    · rename_i h
      obtain ⟨rfl, hcs⟩ := h
      obtain ⟨rest, rfl⟩ := List.head?_eq_some_iff.1 (head?_eq_some_iff.2 hcs)
      rfl
    · rename_i h
      exact templateChunkFrom_cons hclose hc fun hdollar => by simpa [hdollar] using h

theorem regexBodyFrom_step (hc : c ≠ '\\') : regexBodyFrom inClass n (c :: cs) =
    if c = '\n' then none else if c = '[' then regexBodyFrom true (n + 1) cs
    else if c = ']' then regexBodyFrom false (n + 1) cs
    else if c = '/' && !inClass then some (n + 1) else regexBodyFrom inClass (n + 1) cs := by
  by_cases hline : c = '\n'
  · subst hline
    rfl
  by_cases hopen : c = '['
  · subst hopen
    rfl
  by_cases hclose : c = ']'
  · subst hclose
    rfl
  rw [regexBodyFrom_cons (by simp [hline, hopen, hclose, hc])]
  simp [hline, hopen, hclose]

end Steps

theorem triviaFrom_fill (hx : IsFiller x) (hy : IsFiller y) :
    triviaFrom st n (fill x k) = triviaFrom st n (fill y k) := by
  induction hk : k.length using Nat.strong_induction_on generalizing k st n with
  | h m ih =>
    subst hk
    cases k with
    | nil => rfl
    | cons o k =>
      have hlt : k.length < (o :: k).length := Nat.lt_succ_self _
      have htail : k.tail.length < (o :: k).length :=
        Nat.lt_of_le_of_lt (List.length_tail ▸ Nat.sub_le _ 1) hlt
      have hslash := hx.getD_eq_iff hy (o := o) (c := '/') (.inl (by decide))
      have hstar := hx.getD_eq_iff hy (o := o) (c := '*') (.inl (by decide))
      have hline := hx.getD_eq_iff hy (o := o) (c := '\n') (.inr rfl)
      have hhead := hx.headIs_fill hy (k := k) (c := '/') (by decide)
      have hhead' := hx.headIs_fill hy (k := k) (c := '*') (by decide)
      rw [fill_cons, fill_cons]
      cases st with
      | between =>
        rw [triviaFrom_between_step, triviaFrom_between_step, ← fill_tail, ← fill_tail,
          ih _ htail rfl, ih _ htail rfl, ih _ hlt rfl, hx.isBlank_getD hy]
        simp only [hslash, hhead, hhead']
      | lineComment =>
        rw [triviaFrom, triviaFrom, ih _ hlt rfl]
        simp only [hline]
      | blockComment opened =>
        rw [triviaFrom_blockComment_step, triviaFrom_blockComment_step, ← fill_tail, ← fill_tail,
          ih _ htail rfl, ih _ hlt rfl]
        simp only [hstar, hhead]

theorem stringFrom_fill (hx : IsFiller x) (hy : IsFiller y) (hq : isQuote quote = true) :
    stringFrom quote n (fill x k) = stringFrom quote n (fill y k) := by
  have hblank : isBlank quote = false := by
    rcases isQuote_iff.1 hq with rfl | rfl <;> decide
  induction k using escape_induction generalizing n with
  | nil => rfl
  | last => rfl
  | escape o k ih => exact ih
  | step o k ho ih =>
    rw [fill_cons, fill_cons, stringFrom_step (hx.getD_ne_escape ho),
      stringFrom_step (hy.getD_ne_escape ho), ih]
    simp only [hx.getD_eq_iff hy (.inr rfl), hx.getD_eq_iff hy (.inl hblank)]

theorem templateChunkFrom_fill (hx : IsFiller x) (hy : IsFiller y) :
    templateChunkFrom n (fill x k) = templateChunkFrom n (fill y k) := by
  induction k using escape_induction generalizing n with
  | nil => rfl
  | last => rfl
  | escape o k ih => exact ih
  | step o k ho ih =>
    have hopen := hx.headIs_fill hy (k := k) (c := '\x7b') (by decide)
    rw [fill_cons, fill_cons, templateChunkFrom_step (hx.getD_ne_escape ho),
      templateChunkFrom_step (hy.getD_ne_escape ho), ih, hopen]
    simp only [hx.getD_eq_iff hy (c := '\x60') (.inl (by decide)),
      hx.getD_eq_iff hy (c := '$') (.inl (by decide))]

theorem regexBodyFrom_fill (hx : IsFiller x) (hy : IsFiller y) :
    regexBodyFrom inClass n (fill x k) = regexBodyFrom inClass n (fill y k) := by
  induction k using escape_induction generalizing inClass n with
  | nil => rfl
  | last => rfl
  | escape o k ih => exact ih
  | step o k ho ih =>
    have hslash : decide (o.getD x = '/') = decide (o.getD y = '/') :=
      decide_eq_decide.2 (hx.getD_eq_iff hy (.inl (by decide)))
    rw [fill_cons, fill_cons, regexBodyFrom_step (hx.getD_ne_escape ho),
      regexBodyFrom_step (hy.getD_ne_escape ho), ih, ih, ih, hslash]
    simp only [hx.getD_eq_iff hy (c := '\n') (.inr rfl),
      hx.getD_eq_iff hy (c := '[') (.inl (by decide)),
      hx.getD_eq_iff hy (c := ']') (.inl (by decide))]

theorem word_fill (hx : IsFiller x) (hy : IsFiller y) :
    word (fill x (some c :: k)) = word (fill y (some c :: k)) :=
  congrArg (c :: ·) (takeWhile_fill hx.continuesWord hy.continuesWord)

theorem exists_of_startsTrivia (hx : IsFiller x) (hk : fill x k ≠ [])
    (h : startsTrivia (fill x k) = false) : ∃ c k', k = some c :: k' ∧ isBlank c = false := by
  match k with
  | [] => exact absurd rfl hk
  | none :: k =>
    rw [fill_none, startsTrivia_of_isBlank hx.blank] at h
    contradiction
  | some c :: k => exact ⟨c, k, rfl, isBlank_of_startsTrivia h⟩

theorem isWordPart_of_isWideBlank (hx : isWideBlank x = true) : isWordPart x = true := by
  rw [isWideBlank, Bool.and_eq_true] at hx
  simp [isWordPart, isWordStart, hx.1]

theorem length_number_fill (hy : isWideBlank y = true)
    (hend : headIs (fun c => isWordPart c || c = '.')
      (fill ' ' (afterGaps ((some c :: k).drop (number (fill ' ' (some c :: k))).length))) = false) :
    (number (fill y (some c :: k))).length = (number (fill ' ' (some c :: k))).length +
      (gaps ((some c :: k).drop (number (fill ' ' (some c :: k))).length)).length := by
  have hpart : (isWordPart y || y = '.') = true := by simp [isWordPart_of_isWideBlank hy]
  have hlength {z : Char} : (number (fill z (some c :: k))).length =
      ((fill z k).takeWhile fun d => isWordPart d || d = '.').length + 1 := rfl
  rw [hlength, List.drop_succ_cons] at hend
  rw [hlength, @hlength ' ', List.drop_succ_cons,
    length_takeWhile_fill_add (by decide) hpart hend, Nat.add_right_comm]

theorem regex?_fill (hy : isWideBlank y = true) (h : regex? (fill ' ' (some '/' :: k)) = some n)
    (hend : headIs isWordPart (fill ' ' (afterGaps ((some '/' :: k).drop n))) = false) :
    regex? (fill y (some '/' :: k)) = some (n + (gaps ((some '/' :: k).drop n)).length) := by
  rw [fill_some, regex?, Option.map_eq_some_iff] at h
  obtain ⟨m, hm, rfl⟩ := h
  have hpos : 1 ≤ m := by
    obtain ⟨A, -, -, -, rfl, -⟩ := exists_of_regexBodyFrom hm
    exact Nat.le_add_right 1 _
  have hdrop (n : Nat) : (some '/' :: k).drop (m + n) = (k.drop (m - 1)).drop n := by
    obtain ⟨m, rfl⟩ := Nat.exists_eq_add_of_le' hpos
    rw [Nat.add_right_comm, List.drop_succ_cons, Nat.add_sub_cancel, List.drop_drop]
  rw [← fill_drop, hdrop] at hend
  rw [fill_some, regex?, regexBodyFrom_fill (.of_isWideBlank hy) .space, hm, Option.map_some,
    ← fill_drop, ← fill_drop, hdrop,
    length_takeWhile_fill_add (by decide) (isWordPart_of_isWideBlank hy) hend, Nat.add_assoc]

theorem regex?_fill_none (hx : IsFiller x) (hy : IsFiller y)
    (h : regex? (fill x (some '/' :: k)) = none) : regex? (fill y (some '/' :: k)) = none := by
  rw [fill_some, regex?, Option.map_eq_none_iff] at h ⊢
  rwa [regexBodyFrom_fill hy hx]

theorem take_hashbang_fill (hx : IsFiller x) (hy : IsFiller y) :
    (fill x k).take 2 = "#!".toList ↔ (fill y k).take 2 = "#!".toList := by
  match k with
  | [] => exact .rfl
  | [o] => simp
  | o :: o' :: k =>
    have hhash := hx.getD_eq_iff hy (o := o) (c := '#') (.inl (by decide))
    have hbang := hx.getD_eq_iff hy (o := o') (c := '!') (.inl (by decide))
    simp [hhash, hbang]

structure IsInert (x : Char) : Prop where
  notAttended : x ∉ ['(', ')', '\'', '"', '\x60', '\x7b', '.', '\\']
  notBlank : isAsciiBlank x = false

namespace IsInert

theorem letter : IsInert 'x' := ⟨by decide, by decide⟩

theorem of_isWideBlank (hx : isWideBlank x = true) : IsInert x where
  notAttended := by
    intro h
    simp only [List.mem_cons, List.not_mem_nil, or_false] at h
    rcases h with rfl | rfl | rfl | rfl | rfl | rfl | rfl | rfl
    all_goals contradiction
  notBlank := by
    by_contra h
    have hascii := isAscii_of_isAsciiBlank (by simpa using h)
    simp [isWideBlank, hascii] at hx

theorem ne (hx : IsInert x) (hc : c ∈ ['(', ')', '\'', '"', '\x60', '\x7b', '.', '\\']) :
    x ≠ c := by
  rintro rfl
  exact hx.notAttended hc

theorem isNesting (hx : IsInert x) : isNesting x = false := by
  simp [Lexeme.isNesting, isQuote, hx.ne]

theorem headIs_fill (hx : IsInert x) (hy : IsInert y)
    (hc : c ∈ ['(', ')', '\'', '"', '\x60', '\x7b', '.', '\\']) :
    headIs (· = c) (fill x k) = headIs (· = c) (fill y k) :=
  Gapped.headIs_fill (by rw [decide_eq_false (hx.ne hc), decide_eq_false (hy.ne hc)])

end IsInert

theorem bodyFollowsFrom_fill {within : Option Char} (hx : IsInert x) (hy : IsInert y)
    (hwithin : ∀ quote ∈ within, quote ∈ ['\'', '"', '\x60']) :
    bodyFollowsFrom depth within (fill x k) = bodyFollowsFrom depth within (fill y k) := by
  have hsub {c : Char} (hc : c ∈ ['\'', '"', '\x60']) :
      c ∈ ['(', ')', '\'', '"', '\x60', '\x7b', '.', '\\'] :=
    List.mem_cons_of_mem _ (List.mem_cons_of_mem _ (List.mem_append_left _ hc))
  induction k using escape_induction generalizing depth within with
  | nil => rfl
  | last => rfl
  | escape o k ih ih' =>
    cases within with
    | none => exact ih' hwithin
    | some quote => exact ih hwithin
  | step o k ho ih =>
    cases within with
    | some quote =>
      have hquote := hsub (hwithin quote rfl)
      cases o with
      | none =>
        rw [fill_none, fill_none, bodyFollowsFrom_string_cons (hx.ne (by decide)),
          bodyFollowsFrom_string_cons (hy.ne (by decide)), if_neg (hx.ne hquote),
          if_neg (hy.ne hquote), ih hwithin]
      | some d =>
        have hd : d ≠ '\\' := fun h => ho (congrArg some h)
        rw [fill_some, fill_some, bodyFollowsFrom_string_cons hd, bodyFollowsFrom_string_cons hd]
        refine ih ?_
        split
        · simp
        · exact hwithin
    | none =>
      cases o with
      | none =>
        rw [fill_none, fill_none, bodyFollowsFrom_char hx.isNesting,
          bodyFollowsFrom_char hy.isNesting, ih (by simp)]
      | some d =>
        rw [fill_some, fill_some, bodyFollowsFrom, bodyFollowsFrom]
        split
        · exact ih (by simp)
        split
        · split
          · rw [dropWhile_fill hx.notBlank, dropWhile_fill hy.notBlank]
            simp only [head?_eq_some_iff, hx.headIs_fill hy (c := '\x7b') (by decide)]
          · exact ih (by simp)
        split
        · rename_i hquote
          refine ih fun quote hq => ?_
          obtain rfl := Option.mem_some_iff.1 hq
          simpa [isQuote, or_assoc] using hquote
        · exact ih (by simp)

theorem isDefinition_fill (hx : IsInert x) (hy : IsInert y) :
    isDefinition (fill x k) = isDefinition (fill y k) :=
  bodyFollowsFrom_fill hx hy (by simp)

end Lexeme

end ImportAtlas
