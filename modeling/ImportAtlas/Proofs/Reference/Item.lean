import ImportAtlas.Proofs.Reference.Literal

namespace ImportAtlas

open Text Lexeme Outcome

namespace Lexeme

variable {A B I U k k' : List Char} {c : Char}

theorem isWordPart_of_isAsciiBlank (h : isAsciiBlank c = true) : isWordPart c = false := by
  simp only [isAsciiBlank, Bool.or_eq_true, decide_eq_true_eq] at h
  rcases h with (((rfl | rfl) | rfl) | rfl) | rfl <;> decide

theorem continuesWord_of_isBlank (h : isBlank c = true) : continuesWord c = false := by
  rw [isBlank, Bool.or_eq_true] at h
  rcases h with h | h
  · simp [continuesWord, isWordPart_of_isAsciiBlank h]
  · simp [continuesWord, h]

theorem continuesWord_of_isQuote (h : isQuote c = true) : continuesWord c = false := by
  rcases isQuote_iff.1 h with rfl | rfl <;> decide

theorem isWordStart_of_isQuote (h : isQuote c = true) : isWordStart c = false := by
  rcases isQuote_iff.1 h with rfl | rfl <;> decide

theorem Trivia.headIs_continuesWord (hA : Trivia A) (hk : headIs continuesWord k = false) :
    headIs continuesWord (A ++ k) = false := by
  cases hA with
  | nil => exact hk
  | blank hc => exact continuesWord_of_isBlank hc
  | line => rfl
  | block => rfl

namespace IsWord

variable {w : List Char}

theorem startsTrivia (hw : IsWord w) : startsTrivia (w ++ k) = false := by
  cases w with
  | nil => exact absurd rfl hw.ne_nil
  | cons c w =>
    have hc := hw.continues c List.mem_cons_self
    rw [List.cons_append, startsTrivia_cons, Bool.or_eq_false_iff]
    constructor
    · by_contra hb
      rw [continuesWord_of_isBlank (by simpa using hb)] at hc
      contradiction
    · have hslash : c ≠ '/' := by
        rintro rfl
        exact absurd (headIs_cons ▸ hw.start) (by decide)
      simp [hslash]

theorem headIs_isQuote (hw : IsWord w) : headIs isQuote (w ++ k) = false := by
  cases w with
  | nil => exact absurd rfl hw.ne_nil
  | cons c w =>
    by_contra h
    have hc := hw.start
    rw [headIs_cons, isWordStart_of_isQuote (by simpa using h)] at hc
    contradiction

end IsWord

inductive ClauseItem (k : List Char) : List Char → Prop
  | word {w : List Char} : IsWord w → headIs continuesWord k = false → ClauseItem k w
  | string {quote : Char} {body : List Char} : isQuote quote = true → StringBody quote body →
      ClauseItem k (quoted quote body)
  | mark {c : Char} : isQuote c = false → isWordStart c = false → startsTrivia (c :: k) = false →
      ClauseItem k [c]

namespace ClauseItem

theorem ne_nil (h : ClauseItem k I) : I ≠ [] := by
  cases h with
  | word hw => exact hw.ne_nil
  | string => simp [quoted]
  | mark => simp

theorem congr (h : ClauseItem k I) (hk : k.head? = k'.head?) : ClauseItem k' I := by
  cases h with
  | word hw hb => exact .word hw (by rwa [headIs, ← hk])
  | string hq hb => exact .string hq hb
  | mark hq hw ht =>
    rw [startsTrivia_cons, headIs, hk] at ht
    exact .mark hq hw (by rwa [startsTrivia_cons, headIs])

theorem startsTrivia (h : ClauseItem k I) : startsTrivia (I ++ k) = false := by
  cases h with
  | word hw => exact hw.startsTrivia
  | string hq => exact quoted_append _ _ ▸ startsTrivia_of_isQuote hq
  | mark _ _ ht => exact ht

theorem headIs_continuesWord {w : List Char} (h : ClauseItem k w) (hw : IsWord w) :
    headIs continuesWord k = false := by
  have hstart := hw.start
  cases h with
  | word _ hk => exact hk
  | string hq =>
    rw [quoted, List.cons_append, headIs_cons, isWordStart_of_isQuote hq] at hstart
    contradiction
  | mark _ hs =>
    rw [headIs_cons, hs] at hstart
    contradiction

variable {d : Cursor}

theorem wordHere_eq_iff {w : List Char} (h : ClauseItem k I) (hr : d.rest = I ++ k)
    (hw : IsWord w) : d.wordHere = w ↔ I = w := by
  cases h with
  | word hI hk =>
    have : d.wordHere = I := (Cursor.wordHere_eq_iff hI).2 ⟨k, hr, hk⟩
    rw [this]
  | string hq =>
    have : d.wordHere = [] := by
      apply Cursor.wordHere_eq_nil
      rw [hr, quoted_append, headIs_cons, isWordStart_of_isQuote hq]
    rw [this]
    constructor
    · exact fun h => absurd h.symm hw.ne_nil
    · rintro rfl
      have := hw.start
      rw [quoted, List.cons_append, headIs_cons, isWordStart_of_isQuote hq] at this
      contradiction
  | mark _ hs =>
    have : d.wordHere = [] := by
      apply Cursor.wordHere_eq_nil
      rw [hr, List.singleton_append, headIs_cons, hs]
    rw [this]
    constructor
    · exact fun h => absurd h.symm hw.ne_nil
    · rintro rfl
      have := hw.start
      rw [headIs_cons, hs] at this
      contradiction

theorem clauseItem_eq (h : ClauseItem k I) (hr : d.rest = I ++ k) :
    d.clauseItem = .ok I.length := by
  unfold Cursor.clauseItem
  cases h with
  | word hI hk =>
    have hq : d.startsQuote = false := by rw [Cursor.startsQuote_eq, hr, hI.headIs_isQuote]
    have hw : d.wordHere = I := (Cursor.wordHere_eq_iff hI).2 ⟨k, hr, hk⟩
    have hpos := List.length_pos_iff.2 hI.ne_nil
    simp only [hq, hw, Bool.false_eq_true, if_false, Except.ok.injEq]
    omega
  | @string quote body hq hb =>
    have hs : d.startsQuote = true := by
      rw [Cursor.startsQuote_eq, hr, quoted_append, headIs_cons, hq]
    have hopens : d.Opens quote body := ⟨hq, hb, k, hr⟩
    rw [if_pos hs, hopens.literal, length_quoted]
    rfl
  | @mark c hq hs =>
    have hq : d.startsQuote = false := by
      rw [Cursor.startsQuote_of_rest hr, hq]
    have hw : d.wordHere = [] := by
      apply Cursor.wordHere_eq_nil
      rw [hr, List.singleton_append, headIs_cons, hs]
    simp [hq, hw]

theorem of_clauseItem {x : Char} {rest : List Char} {n : Nat} (hr : d.rest = x :: rest)
    (ht : Lexeme.startsTrivia d.rest = false) (hn : d.clauseItem = .ok n) :
    ∃ I k, d.rest = I ++ k ∧ ClauseItem k I ∧ n = I.length := by
  unfold Cursor.clauseItem at hn
  split at hn
  · rename_i hs
    obtain ⟨l, hl, rfl⟩ := map_eq_ok.1 hn
    obtain ⟨quote, body, hopens, rfl⟩ := Cursor.exists_of_literal hs hl
    exact ⟨_, _, hopens.quoted.passes.rest_eq, .string hopens.quotes hopens.string,
      (length_quoted quote body).symm⟩
  · rename_i hs
    cases hn
    by_cases hw : headIs isWordStart d.rest = true
    · obtain ⟨hword, k, hk, hb⟩ := Cursor.exists_wordHere hw ht
      have hpos := List.length_pos_iff.2 hword.ne_nil
      exact ⟨_, k, hk, .word hword hb, by omega⟩
    · rw [Bool.not_eq_true] at hs hw
      rw [Cursor.wordHere_eq_nil hw]
      rw [Cursor.startsQuote_eq, hr] at hs
      rw [hr] at hw ht
      exact ⟨[x], rest, hr, .mark hs hw ht, rfl⟩

end ClauseItem

end Lexeme

end ImportAtlas
