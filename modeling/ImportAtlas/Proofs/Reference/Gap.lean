import ImportAtlas.Proofs.Lexeme.Gap
import ImportAtlas.Proofs.Reference.Correspondence
import ImportAtlas.Proofs.Reference.Rescan

namespace ImportAtlas

open Text Lexeme Outcome

/-- Ends of the scans of two texts: a failure with the same obstruction, or values in a
relation. -/
abbrev ObstructedAlike {α β : Type} (R : α → β → Prop) :
    Except ScanFailure α → Except ScanFailure β → Prop :=
  Agree (fun e e' => e'.obstruction = e.obstruction) R

def Fills (T : Gapped) (x y : Char) (c c' : Cursor) : Prop :=
  ∃ g : GapCursor, g.text = T ∧ c = g.fill x ∧ c' = g.fill y

structure Literal.Fills (T : Gapped) (x y : Char) (l l' : Literal) : Prop where
  opening : ImportAtlas.Fills T x y l.opening l'.opening
  length : l'.length = l.length

variable {T : Gapped} {x y : Char} {c c' d d' start start' : Cursor} {l l' : Literal}
  {α β : Type} {R : α → β → Prop}

theorem fails_alike (o : ScanObstruction) : ObstructedAlike R (c.fail o) (c'.fail o) := .error rfl

theorem Literal.Fills.closing (h : l.Fills T x y l') :
    ImportAtlas.Fills T x y l.closing l'.closing := by
  obtain ⟨g, hg, hl, hl'⟩ := h.opening
  refine ⟨g.advance l.length, by rw [GapCursor.text_advance, hg], ?_, ?_⟩
  · rw [GapCursor.fill_advance, ← hl]
    rfl
  · rw [GapCursor.fill_advance, ← hl', ← h.length]
    rfl

namespace Fills

theorem advance (h : Fills T x y c c') (n : Nat) : Fills T x y (c.advance n) (c'.advance n) := by
  obtain ⟨g, hg, rfl, rfl⟩ := h
  exact ⟨g.advance n, by rw [GapCursor.text_advance, hg], GapCursor.fill_advance.symm,
    GapCursor.fill_advance.symm⟩

theorem skipMark (h : Fills T x y c c') (hhead : c.rest.head? = c'.rest.head?) :
    Fills T x y c.skipMark c'.skipMark := by
  unfold Cursor.skipMark
  rw [hhead]
  split
  · exact h.advance 1
  · exact h

theorem rest_cases (hx : IsFiller x) (h : Fills T x y c c') (hs : startsTrivia c.rest = false) :
    c.rest = [] ∧ c'.rest = [] ∨ ∃ z k, c.rest = Gapped.fill x (some z :: k) ∧
      c'.rest = Gapped.fill y (some z :: k) := by
  obtain ⟨g, -, rfl, rfl⟩ := h
  by_cases hnil : (g.fill x).rest = []
  · have hrest : g.rest = [] := List.map_eq_nil_iff.1 hnil
    exact .inl ⟨hnil, by rw [GapCursor.rest_fill, hrest]; rfl⟩
  · obtain ⟨z, k, hk, -⟩ := exists_of_startsTrivia hx hnil hs
    exact .inr ⟨z, k, congrArg _ hk, congrArg _ hk⟩

theorem headIs_eq {p : Char → Bool} (hx : IsFiller x) (h : Fills T x y c c')
    (hs : startsTrivia c.rest = false) : headIs p c'.rest = headIs p c.rest := by
  rcases h.rest_cases hx hs with ⟨hr, hr'⟩ | ⟨z, k, hr, hr'⟩
  · rw [hr, hr']
  · rw [hr, hr']
    rfl

variable (hx : IsFiller x) (hy : IsFiller y)

include hx hy

theorem wordHere_eq (h : Fills T x y c c') (hs : startsTrivia c.rest = false) :
    c'.wordHere = c.wordHere := by
  rw [Cursor.wordHere_eq, Cursor.wordHere_eq, h.headIs_eq hx hs]
  rcases h.rest_cases hx hs with ⟨hr, hr'⟩ | ⟨z, k, hr, hr'⟩
  · rw [hr, hr']
  · rw [hr, hr', word_fill hx hy]

theorem skipTrivia (h : Fills T x y c c') :
    ObstructedAlike (Fills T x y) c.skipTrivia c'.skipTrivia := by
  have htrivia : trivia c'.rest = trivia c.rest := by
    obtain ⟨g, -, rfl, rfl⟩ := h
    exact triviaFrom_fill hy hx
  unfold Cursor.skipTrivia
  rw [htrivia]
  split
  · exact .ok (h.advance _)
  · exact fails_alike _

theorem skipHashbang (h : Fills T x y c c') : Fills T x y c.skipHashbang c'.skipHashbang := by
  have hhash : c.rest.take 2 = "#!".toList ↔ c'.rest.take 2 = "#!".toList := by
    obtain ⟨g, -, rfl, rfl⟩ := h
    exact take_hashbang_fill hx hy
  have hline : (c'.rest.takeWhile (· != '\n')).length =
      (c.rest.takeWhile (· != '\n')).length := by
    obtain ⟨g, -, rfl, rfl⟩ := h
    exact Gapped.length_takeWhile_fill (p := (· != '\n')) (by
      rw [bne_iff_ne.2 hx.ne_newline, bne_iff_ne.2 hy.ne_newline])
  unfold Cursor.skipHashbang
  by_cases hc : c.rest.take 2 = "#!".toList
  · rw [if_pos hc, if_pos (hhash.1 hc), hline]
    exact h.advance _
  · rw [if_neg hc, if_neg (mt hhash.2 hc)]
    exact h

theorem literal (h : Fills T x y c c') (hq : c.startsQuote = true) :
    ObstructedAlike (Literal.Fills T x y) c.literal c'.literal := by
  have hquoted : quoted? c'.rest = quoted? c.rest := by
    rcases h.rest_cases hx (Cursor.startsTrivia_of_startsQuote hq) with ⟨hr, hr'⟩ | ⟨z, k, hr, hr'⟩
    · rw [hr, hr']
    · rw [Cursor.startsQuote_eq, hr] at hq
      rw [hr, hr']
      exact stringFrom_fill hy hx hq
  unfold Cursor.literal
  rw [hquoted]
  split
  · exact .ok ⟨h, rfl⟩
  · exact fails_alike _

theorem templateChunk_eq (h : Fills T x y c c') : templateChunk? c'.rest = templateChunk? c.rest := by
  obtain ⟨g, -, rfl, rfl⟩ := h
  exact templateChunkFrom_fill hy hx

end Fills

def fillings (T : Gapped) (hx : IsFiller x) (hy : IsFiller y) : Correspondence where
  place := Fills T x y
  literal := Literal.Fills T x y
  failure e e' := e'.obstruction = e.obstruction
  broken _ := False
  fail _ _ := rfl
  head? h hs := by
    rcases h.rest_cases hx hs with ⟨hr, hr'⟩ | ⟨z, k, hr, hr'⟩
    · rw [hr, hr']
    · rw [hr, hr']
      rfl
  wordHere h hs := h.wordHere_eq hx hy hs
  advance_one h _ := h.advance 1
  advance_word h _ := h.advance _
  skipTrivia h := .agree (h.skipTrivia hx hy)
  string h hq := .agree (h.literal hx hy hq)
  closing h := h.closing
  chunk {c c'} h := by
    rw [h.templateChunk_eq hx hy]
    cases templateChunk? c.rest with
    | none => exact .none
    | some e => exact .some ⟨rfl, h.advance _⟩
  template {c c' k k'} h hr hr' := by
    have hchunk := (h.advance 1).templateChunk_eq hx hy
    rw [Cursor.rest_advance, Cursor.rest_advance, hr, hr'] at hchunk
    change templateChunk? k' = templateChunk? k at hchunk
    rw [hchunk]
    cases templateChunk? k with
    | none => exact .none
    | some e => exact .some ⟨rfl, fun _ => ⟨h, rfl⟩⟩

end ImportAtlas
