import ImportAtlas.Proofs.Reference.Keyword

namespace ImportAtlas

open Text Lexeme Outcome

namespace ScanState

variable {s s' : ScanState} {c : Cursor} {x : Char}

def isMark (x : Char) : Bool :=
  !(['/', '\x60', '\x7b', '\x7d', '(', ')'].contains x || isQuote x || x.isDigit || isWordStart x)

inductive TokenStep (s : ScanState) (x : Char) (c : Cursor) : ScanState → Prop
  | slash : x = '/' → TokenStep s x c (s.slashToken c)
  | string {l : Literal} : isQuote x = true → c.literal = .ok l →
      TokenStep s x c (s.moveTo l.closing .value)
  | template : x = '\x60' → TokenStep s x c { s with cursor := c.advance 1, mode := .template c }
  | openBrace : x = '\x7b' →
      TokenStep s x c { s.moveTo (c.advance 1) (.punctuation x) with depth := s.depth + 1 }
  | closeBrace : x = '\x7d' → TokenStep s x c (s.closeBrace c)
  | number : x.isDigit = true →
      TokenStep s x c (s.moveTo (c.advance (number c.rest).length) .value)
  | openParenthesis : x = '(' →
      TokenStep s x c { s.moveTo (c.advance 1) (.punctuation x) with
        heads := s.last.isWordAmong LastToken.controlWords :: s.heads }
  | closeParenthesis : x = ')' → TokenStep s x c (s.closeParenthesis c)
  | word {s' : ScanState} : isWordStart x = true → s.wordToken c = .ok s' → TokenStep s x c s'
  | mark : isMark x = true → TokenStep s x c (s.moveTo (c.advance 1) (.punctuation x))

theorem tokenStep_of_token (h : s.token x c = .ok s') : TokenStep s x c s' := by
  unfold token at h
  split at h
  · rename_i hx
    cases h
    exact .slash hx
  split at h
  · rename_i hx
    obtain ⟨l, hl, h⟩ := bind_eq_ok.1 h
    cases pure_eq_ok.1 h
    exact .string hx hl
  split at h
  · rename_i hx
    cases h
    exact .template hx
  split at h
  · rename_i hx
    cases h
    exact .openBrace hx
  split at h
  · rename_i hx
    cases h
    exact .closeBrace hx
  split at h
  · rename_i hx
    cases h
    exact .number hx
  split at h
  · rename_i hx
    cases h
    exact .openParenthesis hx
  split at h
  · rename_i hx
    cases h
    exact .closeParenthesis hx
  split at h
  · rename_i hx
    exact .word hx h
  · cases h
    exact .mark (by simp_all [isMark])

theorem ne_of_eq_true {p : Char → Bool} {y : Char} (hx : p x = true) (hy : p y = false) :
    x ≠ y := by
  rintro rfl
  rw [hx] at hy
  contradiction

theorem isQuote_of_isWordStart (hx : isWordStart x = true) : isQuote x = false := by
  by_contra h
  rw [isWordStart_of_isQuote (by simpa using h)] at hx
  contradiction

theorem isDigit_of_isWordStart (hx : isWordStart x = true) : x.isDigit = false := by
  by_contra h
  rw [isWordStart_of_isDigit (by simpa using h)] at hx
  contradiction

theorem isQuote_of_isDigit (hx : x.isDigit = true) : isQuote x = false := by
  by_contra h
  rcases isQuote_iff.1 (by simpa using h) with rfl | rfl
  · contradiction
  · contradiction

theorem token_of_isWordStart (hx : isWordStart x = true) : s.token x c = s.wordToken c := by
  rw [token, if_neg (ne_of_eq_true hx (by decide)), isQuote_of_isWordStart hx, if_neg (by simp),
    if_neg (ne_of_eq_true hx (by decide)), if_neg (ne_of_eq_true hx (by decide)),
    if_neg (ne_of_eq_true hx (by decide)), isDigit_of_isWordStart hx, if_neg (by simp),
    if_neg (ne_of_eq_true hx (by decide)), if_neg (ne_of_eq_true hx (by decide)), if_pos hx]

theorem token_of_step (h : TokenStep s x c s') : s.token x c = .ok s' := by
  cases h with
  | slash hx => rw [token, if_pos hx]
  | string hx hl =>
    rw [token, if_neg (ne_of_eq_true hx (by decide)), if_pos hx, hl]
    rfl
  | template hx =>
    subst hx
    rfl
  | openBrace hx =>
    subst hx
    rfl
  | closeBrace hx =>
    subst hx
    rfl
  | number hx =>
    rw [token, if_neg (ne_of_eq_true hx (by decide)), isQuote_of_isDigit hx, if_neg (by simp),
      if_neg (ne_of_eq_true hx (by decide)), if_neg (ne_of_eq_true hx (by decide)),
      if_neg (ne_of_eq_true hx (by decide)), if_pos hx]
  | openParenthesis hx =>
    subst hx
    rfl
  | closeParenthesis hx =>
    subst hx
    rfl
  | word hx h => rw [token_of_isWordStart hx, h]
  | mark hx =>
    simp only [isMark, Bool.not_eq_true', Bool.or_eq_false_iff, List.contains_eq_mem,
      decide_eq_false_iff_not, List.mem_cons, List.not_mem_nil, or_false, not_or] at hx
    simp [token, hx]

theorem slashToken_of_some {n : Nat} (hlast : s.last.allowsRegex = true)
    (hn : regex? c.rest = some n) : s.slashToken c = s.moveTo (c.advance n) .value := by
  rw [slashToken, if_pos hlast, hn]

theorem slashToken_of_none (h : s.last.allowsRegex = true → regex? c.rest = none) :
    s.slashToken c = s.moveTo (c.advance 1) (.punctuation '/') := by
  unfold slashToken
  split
  · rename_i hn
    split at hn
    · rename_i hlast
      rw [h hlast] at hn
      contradiction
    · contradiction
  · rfl

theorem slash_cases (s : ScanState) (k : List Char) :
    (∃ n, s.last.allowsRegex = true ∧ regex? k = some n) ∨
      (s.last.allowsRegex = true → regex? k = none) := by
  by_cases h : ∃ n, s.last.allowsRegex = true ∧ regex? k = some n
  · exact .inl h
  · exact .inr fun hlast => Option.eq_none_iff_forall_ne_some.2 fun n hn => h ⟨n, hlast, hn⟩

@[simp] theorem found_slashToken : (s.slashToken c).found = s.found := by
  unfold slashToken
  split <;> rfl

@[simp] theorem found_closeBrace : (s.closeBrace c).found = s.found := by
  unfold closeBrace
  split <;> rfl

@[simp] theorem cursor_closeBrace : (s.closeBrace c).cursor = c.advance 1 := by
  unfold closeBrace
  split <;> rfl

theorem closeBrace_of_nil (hs : s.substitutions = []) : s.closeBrace c =
    { s.moveTo (c.advance 1) (.punctuation '\x7d') with depth := s.depth - 1 } := by
  unfold ScanState.closeBrace
  split
  · rename_i h
    rw [hs] at h
    contradiction
  · rfl

def afterText (opening : Cursor) (n : Nat) (s : ScanState) : ChunkEnd → ScanState
  | .closed => { s.moveTo (s.cursor.advance n) .value with mode := .code }
  | .substitution =>
    { s.moveTo (s.cursor.advance n) (.punctuation '\x7b') with
      mode := .code, depth := 0, substitutions := ⟨opening, s.depth⟩ :: s.substitutions }

theorem templateText_eq_ok {opening : Cursor} : s.templateText opening = .ok s' ↔
    ∃ e n, templateChunk? s.cursor.rest = some (e, n) ∧ s' = s.afterText opening n e := by
  unfold templateText
  split
  · rename_i hn
    simp [hn, Cursor.fail]
  · rename_i n hn
    simp [hn, afterText, eq_comm]
  · rename_i n hn
    simp [hn, afterText, eq_comm]

@[simp] theorem found_afterText {opening : Cursor} {n : Nat} {e : ChunkEnd} :
    (s.afterText opening n e).found = s.found := by
  cases e <;> rfl

@[simp] theorem cursor_afterText {opening : Cursor} {n : Nat} {e : ChunkEnd} :
    (s.afterText opening n e).cursor = s.cursor.advance n := by
  cases e <;> rfl

@[simp] theorem mode_afterText {opening : Cursor} {n : Nat} {e : ChunkEnd} :
    (s.afterText opening n e).mode = .code := by
  cases e <;> rfl

end ScanState

end ImportAtlas
