import ImportAtlas.Outcome
import ImportAtlas.Proofs.Lexeme.Forms
import ImportAtlas.Proofs.Lexeme.Trivia

namespace ImportAtlas

open Text Lexeme Outcome

variable {k : List Char}

def quoted (quote : Char) (body : List Char) : List Char := quote :: body ++ [quote]

@[simp] theorem quoted_append (quote : Char) (body : List Char) :
    quoted quote body ++ k = quote :: (body ++ quote :: k) := by
  simp [quoted]

@[simp] theorem length_quoted (quote : Char) (body : List Char) :
    (quoted quote body).length = body.length + 2 := by
  simp [quoted]

namespace Literal

structure Quotes (l : Literal) (quote : Char) (body : List Char) : Prop where
  passes : l.opening.Passes (quoted quote body) l.closing
  length_eq : l.length = body.length + 2

namespace Quotes

variable {l : Literal} {quote quote' : Char} {body body' : List Char}

theorem unique (h : l.Quotes quote body) (h' : l.Quotes quote' body') :
    quote = quote' ∧ body = body' := by
  have heq := h.passes.text_unique h'.passes
  rw [quoted, quoted, List.cons_append, List.cons_append, List.cons.injEq] at heq
  obtain ⟨rfl, heq⟩ := heq
  exact ⟨rfl, List.append_cancel_right heq⟩

theorem eq_mk (h : l.Quotes quote body) : l = ⟨l.opening, body.length + 2⟩ := by
  rw [← h.length_eq]

theorem characters_eq (h : l.Quotes quote body) : l.characters = quoted quote body := by
  rw [characters, h.passes.rest_eq, List.take_left' (by rw [h.length_eq, length_quoted])]

theorem body_eq (h : l.Quotes quote body) : l.body = body := by
  simp [Literal.body, h.characters_eq, quoted]

theorem of_rest {c : Cursor} (h : c.rest = quoted quote body ++ k) :
    Quotes ⟨c, body.length + 2⟩ quote body where
  passes := by
    have hp := Cursor.Passes.of_rest h
    rwa [length_quoted] at hp
  length_eq := rfl

end Quotes

end Literal

namespace Text.Cursor

variable {c : Cursor} {w : List Char}

theorem wordHere_eq : c.wordHere = if headIs isWordStart c.rest then word c.rest else [] := rfl

theorem startsQuote_eq : c.startsQuote = headIs isQuote c.rest := rfl

theorem startsQuote_of_rest {x : Char} (hr : c.rest = x :: k) : c.startsQuote = isQuote x := by
  rw [startsQuote_eq, hr, headIs_cons]

theorem endsArgument_eq (c : Cursor) :
    c.endsArgument = headIs (fun x => x = ')' || x = ',') c.rest := by
  unfold endsArgument
  cases c.rest with
  | nil => rfl
  | cons => simp

theorem followsPoint_eq (c : Cursor) :
    c.followsPoint = (headIs (· = '.') (c.before.dropWhile isAsciiBlank) &&
      !headIs (· = '.') (c.before.dropWhile isAsciiBlank).tail) := by
  unfold followsPoint
  split
  · rename_i h
    simp [h]
  · rename_i k hne h
    rw [h]
    cases k with
    | nil => rfl
    | cons x k =>
      have hx : x ≠ '.' := fun hx => hne k (by rw [hx])
      simp [hx]
  · rename_i hne
    cases hb : c.before.dropWhile isAsciiBlank with
    | nil => rfl
    | cons x k =>
      have hx : x ≠ '.' := fun hx => hne k (hx ▸ hb)
      simp [hx]

theorem followsPoint_of_not_mem (h : '.' ∉ c.before) : c.followsPoint = false := by
  have hhead : headIs (· = '.') (c.before.dropWhile isAsciiBlank) = false := by
    cases hb : c.before.dropWhile isAsciiBlank with
    | nil => rfl
    | cons x k =>
      have hx : x ∈ c.before := by
        refine (List.dropWhile_suffix isAsciiBlank).mem ?_
        rw [hb]
        exact List.mem_cons_self
      exact decide_eq_false fun hdot => h (hdot ▸ hx)
  rw [followsPoint_eq, hhead, Bool.false_and]

theorem wordHere_eq_iff (hw : IsWord w) :
    c.wordHere = w ↔ ∃ k, c.rest = w ++ k ∧ headIs continuesWord k = false := by
  rw [wordHere_eq]
  constructor
  · intro h
    split at h
    · rename_i hs
      cases hr : c.rest with
      | nil => simp [hr] at hs
      | cons x rest =>
        refine ⟨rest.dropWhile continuesWord, ?_, headIs_dropWhile⟩
        rw [← h, hr]
        exact congrArg _ List.takeWhile_append_dropWhile.symm
    · exact absurd h.symm hw.ne_nil
  · rintro ⟨k, hr, hk⟩
    rw [hr, headIs_append_of_ne_nil hw.ne_nil, if_pos hw.start, word_append hw hk]

theorem wordHere_eq_nil (h : headIs isWordStart c.rest = false) : c.wordHere = [] := by
  simp [wordHere_eq, h]

theorem exists_wordHere (hs : headIs isWordStart c.rest = true)
    (ht : startsTrivia c.rest = false) : IsWord c.wordHere ∧
      ∃ k, c.rest = c.wordHere ++ k ∧ headIs continuesWord k = false := by
  cases hr : c.rest with
  | nil => simp [hr] at hs
  | cons x rest =>
    rw [hr] at hs ht
    obtain ⟨w, k, hsplit, hword, hw, hk⟩ := exists_word hs (isBlank_of_startsTrivia ht) (k := rest)
    have : c.wordHere = w := by rw [wordHere_eq, hr, if_pos hs, hword]
    rw [this]
    exact ⟨hw, k, hsplit, hk⟩

structure Opens (c : Cursor) (quote : Char) (body : List Char) : Prop where
  quotes : isQuote quote = true
  string : StringBody quote body
  rest_eq : ∃ k, c.rest = quoted quote body ++ k

namespace Opens

variable {quote : Char} {body : List Char}

theorem startsQuote (h : c.Opens quote body) : c.startsQuote = true := by
  obtain ⟨k, hr⟩ := h.rest_eq
  rw [startsQuote_eq, hr, quoted_append, headIs_cons, h.quotes]

theorem startsTrivia (h : c.Opens quote body) : startsTrivia c.rest = false := by
  obtain ⟨k, hr⟩ := h.rest_eq
  rw [hr, quoted_append, startsTrivia_of_isQuote h.quotes]

theorem quoted (h : c.Opens quote body) : Literal.Quotes ⟨c, body.length + 2⟩ quote body := by
  obtain ⟨k, hr⟩ := h.rest_eq
  exact .of_rest hr

theorem literal (h : c.Opens quote body) : c.literal = .ok ⟨c, body.length + 2⟩ := by
  obtain ⟨k, hr⟩ := h.rest_eq
  have : quoted? c.rest = some (body.length + 2) := by
    rw [hr, quoted_append, quoted?, stringFrom_of_body h.quotes h.string]
    simp only [Option.some.injEq]
    omega
  rw [Cursor.literal, this]

end Opens

theorem exists_of_literal {l : Literal} (hs : c.startsQuote = true) (h : c.literal = .ok l) :
    ∃ quote body, c.Opens quote body ∧ l = ⟨c, body.length + 2⟩ := by
  unfold literal fail at h
  split at h
  · rename_i n hn
    cases h
    rw [startsQuote_eq] at hs
    cases hr : c.rest with
    | nil => simp [hr] at hs
    | cons quote rest =>
      rw [hr] at hs hn
      obtain ⟨body, k, rfl, hb, rfl⟩ := exists_body_of_stringFrom hn
      have hlen : 1 + body.length + 1 = body.length + 2 := by omega
      rw [hlen]
      exact ⟨quote, body, ⟨hs, hb, k, hr.trans (quoted_append quote body).symm⟩, rfl⟩
  · contradiction

inductive PlainStep (c : Cursor) : Option Literal → Prop
  | none : headIs (fun x => x = '\x60' || isQuote x) c.rest = false → PlainStep c none
  | substitution {rest : List Char} {n : Nat} : c.rest = '\x60' :: rest →
      templateChunk? rest = some (.substitution, n) → PlainStep c none
  | template {rest : List Char} {n : Nat} : c.rest = '\x60' :: rest →
      templateChunk? rest = some (.closed, n) → PlainStep c (some ⟨c, n + 1⟩)
  | string {l : Literal} : c.startsQuote = true → c.literal = .ok l → PlainStep c (some l)

theorem headIs_opensPlain_iff {k : List Char} :
    headIs (fun x => x = '\x60' || isQuote x) k = false ↔
      (∀ rest, k ≠ '\x60' :: rest) ∧ headIs isQuote k = false := by
  cases k with
  | nil => simp
  | cons x rest => simp [Bool.or_eq_false_iff]

theorem plainStep_of_eq_ok {o : Option Literal} (h : c.plainLiteral? = .ok o) : PlainStep c o := by
  unfold plainLiteral? fail at h
  split at h
  · rename_i rest hr
    split at h
    · contradiction
    · rename_i n hn
      cases h
      exact .template hr hn
    · rename_i n hn
      cases h
      exact .substitution hr hn
  · rename_i hbacktick
    split at h
    · rename_i hs
      obtain ⟨l, hl, h⟩ := map_eq_ok.1 h
      cases h
      exact .string hs hl
    · rename_i hs
      cases h
      rw [startsQuote_eq, Bool.not_eq_true] at hs
      exact .none (headIs_opensPlain_iff.2 ⟨hbacktick, hs⟩)

theorem PlainStep.eq_ok {o : Option Literal} (h : PlainStep c o) : c.plainLiteral? = .ok o := by
  unfold plainLiteral?
  cases h with
  | none hhead =>
    obtain ⟨hbacktick, hs⟩ := headIs_opensPlain_iff.1 hhead
    split
    · rename_i rest hr
      exact absurd hr (hbacktick rest)
    · rw [startsQuote_eq, hs]
      rfl
  | substitution hr hn =>
    rw [hr]
    simp only [hn]
  | template hr hn =>
    rw [hr]
    simp only [hn]
  | string hs hl =>
    split
    · rename_i hr
      rw [startsQuote_of_rest hr] at hs
      contradiction
    · rw [if_pos hs, hl]
      rfl

theorem plainLiteral_eq_ok {o : Option Literal} : c.plainLiteral? = .ok o ↔ PlainStep c o :=
  ⟨plainStep_of_eq_ok, PlainStep.eq_ok⟩

theorem exists_of_plainLiteral {l : Literal} (h : c.plainLiteral? = .ok (some l)) :
    l.opening = c ∧
      ∃ quote body, (isQuote quote = true ∨ quote = '\x60') ∧ l.Quotes quote body := by
  cases plainLiteral_eq_ok.1 h with
  | template hr hn =>
    obtain ⟨A, body, k, rfl, rfl, rfl, -⟩ := exists_of_templateChunkFrom hn
    refine ⟨rfl, '\x60', body, .inr rfl, ?_⟩
    have hlen : 0 + (body ++ ChunkEnd.closed.text).length + 1 = body.length + 2 := by
      simp [ChunkEnd.text]
    rw [hlen]
    exact .of_rest (k := k) (hr.trans (by simp [ChunkEnd.text]))
  | string hs hl =>
    obtain ⟨quote, body, hopens, rfl⟩ := exists_of_literal hs hl
    exact ⟨rfl, quote, body, .inl hopens.quotes, hopens.quoted⟩

end Text.Cursor

end ImportAtlas
