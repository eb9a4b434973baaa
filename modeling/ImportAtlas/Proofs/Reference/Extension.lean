import ImportAtlas.Proofs.Reference.Introduction

namespace ImportAtlas

open Text Lexeme Outcome

namespace Lexeme

variable {A w k x : List Char} {c : Char} {p : Char → Bool}

def joinsNext (c : Char) : Bool := continuesWord c || c = '/'

def joinsLast (c : Char) : Bool := continuesWord c || c = '/' || c = '*'

def Apart (k x : List Char) : Prop :=
  headIs joinsNext k.reverse = false ∨ headIs joinsLast x = false

theorem headIs_eq_false_of_imp {q : Char → Bool} (hpq : ∀ c, p c = true → q c = true)
    (h : headIs q k = false) : headIs p k = false := by
  cases k with
  | nil => rfl
  | cons c k =>
    rw [headIs_cons] at h ⊢
    by_contra hp
    rw [hpq c (by simpa using hp)] at h
    contradiction

theorem drop_takeWhile : k.drop (k.takeWhile p).length = k.dropWhile p := by
  nth_rewrite 2 [← List.takeWhile_append_dropWhile (p := p) (l := k)]
  rw [List.drop_left]

theorem takeWhile_append_of_dropWhile (h : headIs p (k.dropWhile p ++ x) = false) :
    (k ++ x).takeWhile p = k.takeWhile p := by
  conv_lhs => rw [← List.takeWhile_append_dropWhile (p := p) (l := k), List.append_assoc]
  exact takeWhile_append_of_headIs (fun d hd => List.mem_takeWhile_imp hd) h

namespace Apart

theorem of_append (h : Apart (A ++ k) x) : Apart k x := by
  by_cases hk : k = []
  · exact .inl (by rw [hk]; rfl)
  · exact h.imp_left fun h => (headIs_reverse_append hk).symm.trans h

theorem startsTrivia_append (h : Apart k x) (hk : k ≠ []) (hs : startsTrivia k = false) :
    startsTrivia (k ++ x) = false := by
  obtain ⟨c, k, rfl⟩ := List.exists_cons_of_ne_nil hk
  have hblank := isBlank_of_startsTrivia hs
  rw [List.cons_append, startsTrivia_cons, hblank, Bool.false_or]
  rw [startsTrivia_cons, hblank, Bool.false_or] at hs
  by_cases hnil : k = []
  · subst hnil
    by_cases hc : c = '/'
    · have hx := h.resolve_left (by simp [hc, joinsNext])
      rw [List.nil_append, headIs_eq_false_of_imp (fun d hd => ?_) hx, Bool.and_false]
      simp only [Bool.or_eq_true, decide_eq_true_eq] at hd
      simp only [joinsLast, Bool.or_eq_true, decide_eq_true_eq]
      exact hd.elim (fun h => .inl (.inr h)) .inr
    · simp [hc]
  · rwa [headIs_append_of_ne_nil hnil]

theorem headIs_continuesWord (h : Apart (w ++ k) x) (hw : IsWord w)
    (hk : headIs continuesWord k = false) : headIs continuesWord (k ++ x) = false := by
  by_cases hnil : k = []
  · subst hnil
    rw [List.append_nil] at h
    have hend : headIs joinsNext w.reverse = true :=
      headIs_reverse_of_forall hw.ne_nil fun c hc => by simp [joinsNext, hw.continues c hc]
    have hx := h.resolve_left (by simp [hend])
    exact headIs_eq_false_of_imp (fun d hd => by simp [joinsLast, hd]) hx
  · rwa [headIs_append_of_ne_nil hnil]

end Apart

end Lexeme

namespace Text.Cursor

variable {A x w : List Char} {c d t v : Cursor} {l : Literal} {p : Char → Bool}

def extend (x : List Char) (c : Cursor) : Cursor := ⟨c.before, c.rest ++ x⟩

@[simp] theorem rest_extend : (c.extend x).rest = c.rest ++ x := rfl

theorem Passes.extend (h : c.Passes A d) : (c.extend x).Passes A (d.extend x) where
  rest_eq := by rw [rest_extend, rest_extend, h.rest_eq, List.append_assoc]
  before_eq := h.before_eq

theorem advance_extend {n : Nat} (h : n ≤ c.rest.length) :
    (c.extend x).advance n = (c.advance n).extend x := by
  have hp := (Passes.of_take c n).extend (x := x)
  rw [hp.eq_advance, List.length_take, Nat.min_eq_left h]

theorem apart_of_reaches (h : c.Reaches d) (hx : Apart c.rest x) : Apart d.rest x := by
  obtain ⟨A, hp⟩ := Passes.of_reaches h
  exact (hp.rest_eq ▸ hx).of_append

theorem skipTrivia_extend (ht : c.skipTrivia = .ok t) (hr : t.rest ≠ []) (h : Apart t.rest x) :
    (c.extend x).skipTrivia = .ok (t.extend x) := by
  obtain ⟨T, hT, hp, hs⟩ := exists_trivia ht hr
  exact skipTrivia_of_trivia hp.extend hT (h.startsTrivia_append hr hs)

theorem headIs_extend (hr : c.rest ≠ []) : headIs p (c.extend x).rest = headIs p c.rest :=
  headIs_append_of_ne_nil hr

theorem rest_ne_nil_of_headIs (h : headIs p c.rest = true) : c.rest ≠ [] := by
  rintro hr
  rw [hr] at h
  contradiction

theorem wordHere_extend (h : Apart c.rest x) (hw : IsWord w) (hc : c.wordHere = w) :
    (c.extend x).wordHere = w := by
  obtain ⟨k, hr, hk⟩ := (wordHere_eq_iff hw).1 hc
  refine (wordHere_eq_iff hw).2 ⟨k ++ x, ?_, (hr ▸ h).headIs_continuesWord hw hk⟩
  rw [rest_extend, hr, List.append_assoc]

theorem wordHere_of_extend (h : Apart c.rest x) (hr : c.rest ≠ []) (hw : IsWord w)
    (hc : (c.extend x).wordHere = w) : c.wordHere = w := by
  obtain ⟨k, hk, hend⟩ := (wordHere_eq_iff hw).1 hc
  rcases List.append_eq_append_iff.1 hk with ⟨w', rfl, rfl⟩ | ⟨k', hrest, rfl⟩
  · by_cases hnil : w' = []
    · subst hnil
      exact (wordHere_eq_iff hw).2 ⟨[], by simp, rfl⟩
    · -- a word whose first part ends the text and whose second part follows it
      have hlast : headIs joinsNext c.rest.reverse = true :=
        headIs_reverse_of_forall hr fun d hd => by
          simp [joinsNext, hw.continues d (List.mem_append_left w' hd)]
      obtain ⟨d, w', rfl⟩ := List.exists_cons_of_ne_nil hnil
      have hnext := h.resolve_left (by simp [hlast])
      rw [List.cons_append, headIs_cons, joinsLast, hw.continues d (by simp)] at hnext
      contradiction
  · refine (wordHere_eq_iff hw).2 ⟨k', hrest, ?_⟩
    by_cases hnil : k' = []
    · rw [hnil]
      rfl
    · rwa [headIs_append_of_ne_nil hnil] at hend

theorem Opens.extend {quote : Char} {body : List Char} (h : c.Opens quote body) :
    (c.extend x).Opens quote body where
  quotes := h.quotes
  string := h.string
  rest_eq := by
    obtain ⟨k, hr⟩ := h.rest_eq
    exact ⟨k ++ x, by rw [rest_extend, hr, List.append_assoc]⟩

end Text.Cursor

namespace Literal

variable {x : List Char} {l : Literal} {quote : Char} {body : List Char}

def extend (x : List Char) (l : Literal) : Literal := ⟨l.opening.extend x, l.length⟩

namespace Quotes

theorem closing_extend (h : l.Quotes quote body) : (l.extend x).closing = l.closing.extend x := by
  have hp := h.passes.extend (x := x)
  rw [hp.eq_advance, length_quoted, ← h.length_eq]
  rfl

theorem extend (h : l.Quotes quote body) : (l.extend x).Quotes quote body where
  passes := h.closing_extend ▸ h.passes.extend
  length_eq := h.length_eq

theorem toReference_extend (h : l.Quotes quote body) (kind : ReferenceKind) :
    (l.extend x).toReference kind = l.toReference kind := by
  rw [toReference, toReference, h.extend.body_eq, h.body_eq, h.closing_extend]
  rfl

end Quotes

end Literal

namespace Text.Cursor

variable {A x : List Char} {c d t v : Cursor} {l : Literal}

theorem Finds.extend (h : c.Finds l) : (c.extend x).Finds (l.extend x) := by
  obtain ⟨quote, body, hopens, rfl⟩ := exists_of_literal h.1 h.2
  exact hopens.extend.finds

theorem templateChunk_extend {k : List Char} {e : ChunkEnd} {n : Nat}
    (h : templateChunk? k = some (e, n)) : templateChunk? (k ++ x) = some (e, n) := by
  obtain ⟨A, body, k, rfl, -, rfl, hall⟩ := exists_of_templateChunkFrom h
  rw [List.append_assoc, templateChunk?, hall]

theorem PlainStep.extend_some (h : c.PlainStep (some l)) :
    (c.extend x).PlainStep (some (l.extend x)) := by
  cases h with
  | template hr hn =>
    exact .template (by rw [rest_extend, hr, List.cons_append]) (templateChunk_extend hn)
  | string hs hl =>
    have hfinds := Finds.extend (x := x) ⟨hs, hl⟩
    exact .string hfinds.1 hfinds.2

theorem Reads.extend {kind : ReferenceKind} (h : c.Reads l kind) (hx : Apart c.rest x) :
    (c.extend x).Reads (l.extend x) kind := by
  cases h with
  | declaration h => exact .declaration h.extend
  | reExport h => exact .reExport h.extend
  | @dynamic v hl hv hend =>
    obtain ⟨rfl, quote, body, -, hq⟩ := exists_of_plainLiteral hl
    obtain ⟨T, hT, -⟩ := skipTrivia_eq_ok.1 hv
    rw [endsArgument_eq] at hend
    have hr : v.rest ≠ [] := rest_ne_nil_of_headIs hend
    have hx : Apart v.rest x := by
      rw [(hq.passes.trans hT).rest_eq] at hx
      exact hx.of_append
    have hskip := skipTrivia_extend hv hr hx
    rw [← hq.closing_extend] at hskip
    refine .dynamic (plainLiteral_eq_ok.2 (plainLiteral_eq_ok.1 hl).extend_some) hskip ?_
    rw [endsArgument_eq, headIs_extend hr, hend]

end Text.Cursor

end ImportAtlas
