import ImportAtlas.Proofs.Reference.Steps

/-! Two texts whose places correspond.  From such places the readers of a declaration come
to such places, or fail alike, as their lexemes do. -/

namespace ImportAtlas

open Text Lexeme Outcome

variable {c c' start start' : Cursor} {k : List Char}

theorem plainLiteral_of_rest (hr : c.rest = '\x60' :: k) :
    c.plainLiteral? = match templateChunk? k with
      | none => c.fail .unterminatedTemplate
      | some (.closed, n) => .ok (some ⟨c, n + 1⟩)
      | some (.substitution, _) => .ok none := by
  unfold Cursor.plainLiteral?
  rw [hr]
  rfl

theorem plainLiteral_of_headIs (h : headIs (· = '\x60') c.rest = false) :
    c.plainLiteral? = if c.startsQuote then c.literal.map some else .ok none := by
  unfold Cursor.plainLiteral?
  split
  · rename_i hr
    simp [hr] at h
  · rfl

theorem Text.Cursor.startsTrivia_of_skipWord {w : List Char} {d : Cursor}
    (hs : startsTrivia c.rest = false) (h : c.skipWord w = .ok d) :
    startsTrivia d.rest = false := by
  unfold Cursor.skipWord at h
  split at h
  · exact Cursor.startsTrivia_of_skipTrivia h
  · cases h
    exact hs

/-- Which places, literals and failures of two texts correspond to each other, and what
breaks off the reading of the second text.  Where a token begins both texts go on alike, and
what comes after each lexeme corresponds. -/
structure Correspondence where
  place : Cursor → Cursor → Prop
  literal : Literal → Literal → Prop
  failure : ScanFailure → ScanFailure → Prop
  broken : ScanFailure → Prop
  fail {c c' : Cursor} (o : ScanObstruction) :
    place c c' → failure ⟨c.offset, o⟩ ⟨c'.offset, o⟩
  head? {c c' : Cursor} :
    place c c' → startsTrivia c.rest = false → c'.rest.head? = c.rest.head?
  wordHere {c c' : Cursor} :
    place c c' → startsTrivia c.rest = false → c'.wordHere = c.wordHere
  advance_one {c c' : Cursor} :
    place c c' → startsTrivia c.rest = false → place (c.advance 1) (c'.advance 1)
  advance_word {c c' : Cursor} : place c c' → startsTrivia c.rest = false →
    place (c.advance c.wordHere.length) (c'.advance c.wordHere.length)
  skipTrivia {c c' : Cursor} :
    place c c' → AgreeUnless broken failure place c.skipTrivia c'.skipTrivia
  string {c c' : Cursor} : place c c' → c.startsQuote = true →
    AgreeUnless broken failure literal c.literal c'.literal
  closing {l l' : Literal} : literal l l' → place l.closing l'.closing
  chunk {c c' : Cursor} : place c c' →
    Option.Rel (fun x x' => x'.1 = x.1 ∧ place (c.advance x.2) (c'.advance x'.2))
      (templateChunk? c.rest) (templateChunk? c'.rest)
  template {c c' : Cursor} {k k' : List Char} :
    place c c' → c.rest = '\x60' :: k → c'.rest = '\x60' :: k' →
    Option.Rel (fun x x' => x'.1 = x.1 ∧ (x.1 = .closed → literal ⟨c, x.2 + 1⟩ ⟨c', x'.2 + 1⟩))
      (templateChunk? k) (templateChunk? k')

namespace Correspondence

variable {α β : Type} {R : α → β → Prop} {l l' : Literal} (K : Correspondence)

/-- Ends of readers of the two texts: failures that correspond, or values in a relation. -/
abbrev Ends (R : α → β → Prop) : Except ScanFailure α → Except ScanFailure β → Prop :=
  AgreeUnless K.broken K.failure R

def FailAlike (c c' : Cursor) : Prop := ∀ o, K.failure ⟨c.offset, o⟩ ⟨c'.offset, o⟩

variable {K}

theorem FailAlike.ends (h : K.FailAlike c c') (o : ScanObstruction) :
    K.Ends R (c.fail o) (c'.fail o) := .error (h o)

theorem failAlike (h : K.place c c') : K.FailAlike c c' := fun o => K.fail o h

theorem headIs_eq {p : Char → Bool} (h : K.place c c') (hs : startsTrivia c.rest = false) :
    headIs p c'.rest = headIs p c.rest := by
  rw [headIs, K.head? h hs, headIs]

theorem rest_cases (h : K.place c c') (hs : startsTrivia c.rest = false) :
    c.rest = [] ∧ c'.rest = [] ∨ ∃ x k k', c.rest = x :: k ∧ c'.rest = x :: k' := by
  have hhead := K.head? h hs
  cases hr : c.rest with
  | nil =>
    rw [hr] at hhead
    exact .inl ⟨rfl, List.head?_eq_none_iff.1 hhead⟩
  | cons x k =>
    rw [hr] at hhead
    obtain ⟨k', hk'⟩ := List.head?_eq_some_iff.1 hhead
    exact .inr ⟨x, k, k', rfl, hk'⟩

theorem opens_iff {x : Char} (h : K.place c c') (hs : startsTrivia c.rest = false) :
    (∃ k, c'.rest = x :: k) ↔ ∃ k, c.rest = x :: k := by
  rw [← List.head?_eq_some_iff, ← List.head?_eq_some_iff, K.head? h hs]

theorem startsQuote_eq (h : K.place c c') (hs : startsTrivia c.rest = false) :
    c'.startsQuote = c.startsQuote :=
  headIs_eq h hs

theorem clauseItem (h : K.place c c') (hs : startsTrivia c.rest = false) :
    K.Ends (fun n n' => K.place (c.advance n) (c'.advance n')) c.clauseItem c'.clauseItem := by
  unfold Cursor.clauseItem
  rw [startsQuote_eq h hs, K.wordHere h hs]
  refine .ite (fun hq => ?_) fun _ => .ok ?_
  · refine (K.string h hq).map fun l l' hl hl' hll => ?_
    obtain rfl := Cursor.opening_of_literal hl
    obtain rfl := Cursor.opening_of_literal hl'
    exact K.closing hll
  · rcases Nat.eq_zero_or_pos c.wordHere.length with hzero | hpos
    · rw [hzero]
      exact K.advance_one h hs
    · rw [Nat.max_eq_right hpos]
      exact K.advance_word h hs

theorem length_lt_of_clauseItem {t : Cursor} {n : Nat} (ht : c.skipTrivia = .ok t)
    (hne : t.rest ≠ []) (hn : t.clauseItem = .ok n) :
    (t.advance n).rest.length < c.rest.length :=
  calc (t.advance n).rest.length
    _ < t.rest.length := (Cursor.Reaches.refl _).length_lt (Cursor.clauseItem_pos hn) hne
    _ ≤ c.rest.length := (Cursor.Reaches.of_skipTrivia ht).length_le

theorem importClause (hstart : K.FailAlike start start') (h : K.place c c') :
    K.Ends K.literal (Cursor.importClause start c) (Cursor.importClause start' c') := by
  induction hn : c.rest.length using Nat.strong_induction_on generalizing c c' with
  | h n ih =>
    subst hn
    rw [Cursor.importClause_eq, Cursor.importClause_eq]
    refine (K.skipTrivia h).bind fun t t' ht _ htt => ?_
    have hs := Cursor.startsTrivia_of_skipTrivia ht
    rcases rest_cases htt hs with ⟨hr, hr'⟩ | ⟨x, k, k', hr, hr'⟩
    · rw [hr, hr']
      exact hstart.ends _
    · rw [hr, hr']
      refine .ite (fun _ => hstart.ends _) fun _ => (clauseItem htt hs).bind fun n n' hn _ hnn => ?_
      have hlt := length_lt_of_clauseItem ht (by simp [hr]) hn
      rw [K.wordHere htt hs]
      refine .ite (fun _ => ?_) fun _ => ih _ hlt hnn rfl
      refine (K.skipTrivia hnn).bind fun u u' hu _ huu => ?_
      rw [startsQuote_eq huu (Cursor.startsTrivia_of_skipTrivia hu)]
      exact .ite (K.string huu) fun _ => ih _ hlt hnn rfl

theorem exportClauseEnd (hstart : K.FailAlike start start') (h : K.place c c') :
    K.Ends K.place (Cursor.exportClauseEnd start c) (Cursor.exportClauseEnd start' c') := by
  induction hn : c.rest.length using Nat.strong_induction_on generalizing c c' with
  | h n ih =>
    subst hn
    rw [Cursor.exportClauseEnd_eq, Cursor.exportClauseEnd_eq]
    refine (K.skipTrivia h).bind fun t t' ht _ htt => ?_
    have hs := Cursor.startsTrivia_of_skipTrivia ht
    rcases rest_cases htt hs with ⟨hr, hr'⟩ | ⟨x, k, k', hr, hr'⟩
    · rw [hr, hr']
      exact hstart.ends _
    · rw [hr, hr']
      refine .ite (fun _ => .ok (K.advance_one htt hs)) fun _ =>
        (clauseItem htt hs).bind fun n n' hn _ hnn => ?_
      exact ih _ (length_lt_of_clauseItem ht (by simp [hr]) hn) hnn rfl

theorem fromClause (hstart : K.FailAlike start start') (h : K.place c c') :
    K.Ends K.literal (Cursor.fromClause start c) (Cursor.fromClause start' c') := by
  refine (K.skipTrivia h).bind fun t t' ht _ htt => ?_
  have hs := Cursor.startsTrivia_of_skipTrivia ht
  rw [K.wordHere htt hs]
  refine .ite (fun _ => ?_) fun _ => hstart.ends _
  refine (K.skipTrivia (K.advance_word htt hs)).bind fun u u' hu _ huu => ?_
  rw [startsQuote_eq huu (Cursor.startsTrivia_of_skipTrivia hu)]
  exact .ite (K.string huu) fun _ => (failAlike huu).ends _

theorem skipWord (h : K.place c c') (hs : startsTrivia c.rest = false) (w : List Char) :
    K.Ends K.place (c.skipWord w) (c'.skipWord w) := by
  unfold Cursor.skipWord
  rw [K.wordHere h hs]
  refine .ite (fun hw => ?_) fun _ => .ok h
  subst hw
  exact K.skipTrivia (K.advance_word h hs)

theorem exportName (hstart : K.FailAlike start start') (h : K.place c c')
    (hs : startsTrivia c.rest = false) :
    K.Ends K.place (Cursor.exportName start c) (Cursor.exportName start' c') := by
  unfold Cursor.exportName
  rw [K.wordHere h hs]
  refine .ite (fun has => ?_) fun _ => .ok h
  have hword := K.advance_word h hs
  rw [has] at hword
  refine (K.skipTrivia hword).bind fun t t' ht _ htt => ?_
  have hs := Cursor.startsTrivia_of_skipTrivia ht
  rw [startsQuote_eq htt hs, K.wordHere htt hs]
  exact .ite (fun hq => (K.string htt hq).bind fun l l' _ _ hll => .ok (K.closing hll))
    fun _ => .ite (fun _ => hstart.ends _) fun _ => .ok (K.advance_word htt hs)

theorem plainLiteral (h : K.place c c') (hs : startsTrivia c.rest = false) :
    K.Ends (Option.Rel K.literal) c.plainLiteral? c'.plainLiteral? := by
  by_cases htick : headIs (· = '\x60') c.rest = true
  · obtain ⟨k, hr⟩ := List.head?_eq_some_iff.1 (head?_eq_some_iff.2 htick)
    obtain ⟨k', hr'⟩ := (opens_iff h hs).2 ⟨k, hr⟩
    have hchunk := K.template h hr hr'
    rw [plainLiteral_of_rest hr, plainLiteral_of_rest hr']
    generalize templateChunk? k = x, templateChunk? k' = x' at hchunk
    cases hchunk with
    | none => exact (failAlike h).ends _
    | @some x x' hx =>
      obtain ⟨e, n⟩ := x
      obtain ⟨e', n'⟩ := x'
      obtain ⟨rfl, hl⟩ := hx
      cases e' with
      | closed => exact .ok (.some (hl rfl))
      | substitution => exact .ok .none
  · rw [Bool.not_eq_true] at htick
    rw [plainLiteral_of_headIs htick, plainLiteral_of_headIs ((headIs_eq h hs).trans htick),
      startsQuote_eq h hs]
    exact .ite (fun hq => (K.string h hq).map fun _ _ _ _ hl => .some hl) fun _ => .ok .none

theorem dynamicArgument (h : K.place c c') :
    K.Ends (Option.Rel K.literal) c.dynamicArgument c'.dynamicArgument := by
  refine (K.skipTrivia h).bind fun t t' ht _ htt => ?_
  refine (plainLiteral htt (Cursor.startsTrivia_of_skipTrivia ht)).bind fun o o' _ _ hoo => ?_
  cases hoo with
  | none => exact .ok .none
  | @some l l' hll =>
    refine (K.skipTrivia (K.closing hll)).bind fun u u' hu _ huu => ?_
    have hend : u'.endsArgument = u.endsArgument := by
      rw [Cursor.endsArgument_eq, Cursor.endsArgument_eq]
      exact headIs_eq huu (Cursor.startsTrivia_of_skipTrivia hu)
    rw [hend]
    refine .ok ?_
    split
    · exact .some hll
    · exact .none

end Correspondence

end ImportAtlas
