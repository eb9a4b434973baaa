import ImportAtlas.Proofs.Reference.Refill

/-! What lies ahead of a run.  The scanner looks past the token that it reads; a
run says what it sees there, and that it sees the same in another text, such as
one whose literals have been replaced. -/

namespace ImportAtlas

open Text Lexeme Outcome Layout

namespace ScanState.Runs

variable {s s' : ScanState} {t u : Cursor} {x : Char} {rest : List Char} {L : Layout}

theorem wide (h : Runs s L) : L.Wide := by
  induction h with
  | done => exact .intro
  | trivia _ _ _ _ _ ih => exact ih.prepend
  | token _ _ _ _ _ _ _ ih => exact ih.prepend
  | record _ hgap _ _ _ _ _ _ ih => exact ⟨hgap.lt_length, ih⟩
  | templateText _ _ _ _ ih => exact ih.prepend

theorem of_skipTrivia (h : Runs s L) (hm : s.mode = .code) (ht : s.cursor.skipTrivia = .ok t) :
    ∃ T L₁, L = L₁.prepend T ∧ s.cursor.Passes T t ∧ TriviaBefore t.rest T ∧
      Runs { s with cursor := t } L₁ := by
  have stay (hstart : startsTrivia s.cursor.rest = false) : ∃ T L₁, L = L₁.prepend T ∧
      s.cursor.Passes T t ∧ TriviaBefore t.rest T ∧ Runs { s with cursor := t } L₁ := by
    rw [Cursor.skipTrivia_self hstart] at ht
    cases ht
    exact ⟨[], L, (prepend_nil).symm, .refl _, .closed .nil hstart, h⟩
  cases h with
  | done _ hr => exact stay (by rw [hr]; rfl)
  | trivia _ hp hT _ hL =>
    rw [Cursor.skipTrivia_of_passes hp hT] at ht
    cases ht
    exact ⟨_, _, rfl, hp, hT, hL⟩
  | token _ _ hstart => exact stay hstart
  | record _ hgap hpoint hp hreads =>
    obtain ⟨_, _, _, hstart, -⟩ := token_of_introduction (s := s) hgap hp hpoint hreads
    exact stay hstart
  | templateText hm' =>
    rw [hm] at hm'
    contradiction

theorem of_token (h : Runs s L) (hm : s.mode = .code) (hr : s.cursor.rest = x :: rest)
    (hstart : startsTrivia s.cursor.rest = false) (hs' : s.token x s.cursor = .ok s')
    (hf : s'.found = s.found) :
    ∃ A L₁, L = L₁.prepend A ∧ s.cursor.Passes A s'.cursor ∧ Runs s' L₁ := by
  cases h with
  | done _ hr' =>
    rw [hr] at hr'
    contradiction
  | trivia _ hp hT hne =>
    have hskip := Cursor.skipTrivia_of_passes hp hT
    rw [Cursor.skipTrivia_self hstart] at hskip
    cases hskip
    exact absurd (hp.text_unique (.refl _)) hne
  | token _ hr' _ hs'' _ hp hL =>
    rw [hr] at hr'
    cases hr'
    rw [hs'] at hs''
    cases hs''
    exact ⟨_, _, rfl, hp, hL⟩
  | record _ hgap hpoint hp hreads =>
    obtain ⟨_, _, hr', -, hs''⟩ := token_of_introduction (s := s) hgap hp hpoint hreads
    rw [hr] at hr'
    cases hr'
    rw [hs'] at hs''
    cases hs''
    simp [ScanState.record] at hf
  | templateText hm' =>
    rw [hm] at hm'
    contradiction

theorem of_templateText {opening : Cursor} (h : Runs s L) (hm : s.mode = .template opening)
    (hs' : s.templateText opening = .ok s') :
    ∃ A L₁, L = L₁.prepend A ∧ s.cursor.Passes A s'.cursor ∧ Runs s' L₁ := by
  cases h with
  | done hm' =>
    rw [hm] at hm'
    contradiction
  | trivia hm' =>
    rw [hm] at hm'
    contradiction
  | token hm' =>
    rw [hm] at hm'
    contradiction
  | record hm' =>
    rw [hm] at hm'
    contradiction
  | templateText hm' hs'' hp hL =>
    rw [hm] at hm'
    cases hm'
    rw [hs'] at hs''
    cases hs''
    exact ⟨_, _, rfl, hp, hL⟩

end ScanState.Runs

structure ScanState.Refilled (s : ScanState) (d : Cursor) (L L' : Layout) : Prop where
  runs : s.Runs L
  refills : L.Refills L'
  rest_eq : d.rest = L'.text

namespace ScanState.Refilled

variable {s s' : ScanState} {d t u : Cursor} {x : Char} {rest : List Char} {L L' : Layout}

theorem agree (h : s.Refilled d L L') : Agree s.cursor.rest d.rest := by
  rw [← h.runs.text_eq, h.rest_eq]
  exact h.refills.agree h.runs.wide

theorem of_prepend {A : List Char} {L₁ : Layout} (h : s.Refilled d L L') (hL : L = L₁.prepend A)
    (hs' : s'.Runs L₁) :
    ∃ e L₁', L' = L₁'.prepend A ∧ d.Passes A e ∧ s'.Refilled e L₁ L₁' := by
  subst hL
  obtain ⟨L₁', rfl, hrefills⟩ := h.refills.exists_prepend
  have hp := Cursor.Passes.of_rest (h.rest_eq.trans text_prepend)
  refine ⟨_, L₁', rfl, hp, hs', hrefills, ?_⟩
  have := hp.rest_eq
  rw [h.rest_eq, text_prepend] at this
  exact (List.append_cancel_left this).symm

theorem triviaBefore {T : List Char} (h : s.Refilled d L L') (hT : TriviaBefore s.cursor.rest T) :
    TriviaBefore d.rest T := by
  have hagree := h.agree
  cases hT with
  | closed hT hstart => exact .closed hT (hagree.startsTrivia_eq.trans hstart)
  | ended hr hT htext =>
    rw [hr] at hagree
    refine .ended ?_ hT htext
    simpa [Lexeme.Agree] using hagree.symm

theorem skipTrivia (h : s.Refilled d L L') (hm : s.mode = .code)
    (ht : s.cursor.skipTrivia = .ok t) :
    ∃ e L₁ L₁', d.skipTrivia = .ok e ∧ ({ s with cursor := t } : ScanState).Refilled e L₁ L₁' := by
  obtain ⟨T, L₁, hL, -, hT, hruns⟩ := h.runs.of_skipTrivia hm ht
  obtain ⟨e, L₁', -, hp, h⟩ := h.of_prepend hL hruns
  exact ⟨e, L₁, L₁', Cursor.skipTrivia_of_passes hp (h.triviaBefore hT), h⟩

theorem token {A : List Char} (h : s.Refilled d L L') (hm : s.mode = .code)
    (hr : s.cursor.rest = x :: rest) (hstart : startsTrivia s.cursor.rest = false)
    (hs' : s.token x s.cursor = .ok s') (hf : s'.found = s.found)
    (hp : s.cursor.Passes A s'.cursor) : ∃ e L₁ L₁', d.Passes A e ∧ s'.Refilled e L₁ L₁' := by
  obtain ⟨B, L₁, hL, hp', hruns⟩ := h.runs.of_token hm hr hstart hs' hf
  obtain rfl := hp.text_unique hp'
  obtain ⟨e, L₁', -, hd, h⟩ := h.of_prepend hL hruns
  exact ⟨e, L₁, L₁', hd, h⟩

theorem wordHere_iff {w : List Char} (h : s.Refilled d L L') (hw : IsWord w)
    (hlen : w.length < 6) : d.wordHere = w ↔ s.cursor.wordHere = w :=
  ⟨Cursor.wordHere_eq_of_agree h.agree.symm hw hlen, Cursor.wordHere_eq_of_agree h.agree hw hlen⟩

theorem templateText {opening : Cursor} {A : List Char} (h : s.Refilled d L L')
    (hm : s.mode = .template opening) (hs' : s.templateText opening = .ok s')
    (hp : s.cursor.Passes A s'.cursor) : ∃ e L₁ L₁', d.Passes A e ∧ s'.Refilled e L₁ L₁' := by
  obtain ⟨B, L₁, hL, hp', hruns⟩ := h.runs.of_templateText hm hs'
  obtain rfl := hp.text_unique hp'
  obtain ⟨e, L₁', -, hd, h⟩ := h.of_prepend hL hruns
  exact ⟨e, L₁, L₁', hd, h⟩

theorem keepsOpen (h : s.Refilled d L L') : KeepsOpen s.cursor.rest d.rest := by
  rw [← h.runs.text_eq, h.rest_eq]
  exact h.refills.keepsOpen

end ScanState.Refilled

namespace ScanState

structure Lookahead (R : ScanState → Cursor → Prop) : Prop where
  headIs_eq {s : ScanState} {d : Cursor} {p : Char → Bool} : R s d →
    headIs p d.rest = headIs p s.cursor.rest
  wordHere_iff {s : ScanState} {d : Cursor} {w : List Char} : R s d → IsWord w → w.length < 6 →
    (d.wordHere = w ↔ s.cursor.wordHere = w)
  keepsOpen {s : ScanState} {d : Cursor} : R s d → KeepsOpen s.cursor.rest d.rest
  skipTrivia {s : ScanState} {d t : Cursor} : R s d → s.mode = .code →
    s.cursor.skipTrivia = .ok t → ∃ e, d.skipTrivia = .ok e ∧ R { s with cursor := t } e
  token {s s' : ScanState} {d : Cursor} {x : Char} {rest A : List Char} : R s d →
    s.mode = .code → s.cursor.rest = x :: rest → startsTrivia s.cursor.rest = false →
    s.token x s.cursor = .ok s' → s'.found = s.found → s.cursor.Passes A s'.cursor →
    ∃ e, d.Passes A e ∧ R s' e
  templateText {s s' : ScanState} {opening d : Cursor} {A : List Char} : R s d →
    s.mode = .template opening → s.templateText opening = .ok s' →
    s.cursor.Passes A s'.cursor → ∃ e, d.Passes A e ∧ R s' e

theorem lookahead_refilled : Lookahead fun s d => ∃ L L', s.Refilled d L L' where
  headIs_eq := fun ⟨_, _, h⟩ => h.agree.headIs_eq
  wordHere_iff := fun ⟨_, _, h⟩ => h.wordHere_iff
  keepsOpen := fun ⟨_, _, h⟩ => h.keepsOpen
  skipTrivia := by
    rintro s d t ⟨L, L', h⟩ hm ht
    obtain ⟨e, L₁, L₁', he, h⟩ := h.skipTrivia hm ht
    exact ⟨e, he, L₁, L₁', h⟩
  token := by
    rintro s s' d x rest A ⟨L, L', h⟩ hm hr hstart hs' hf hp
    obtain ⟨e, L₁, L₁', he, h⟩ := h.token hm hr hstart hs' hf hp
    exact ⟨e, he, L₁, L₁', h⟩
  templateText := by
    rintro s s' opening d A ⟨L, L', h⟩ hm hs' hp
    obtain ⟨e, L₁, L₁', he, h⟩ := h.templateText hm hs' hp
    exact ⟨e, he, L₁, L₁', h⟩

namespace Lookahead

variable {R : ScanState → Cursor → Prop} {s s' : ScanState} {d t u : Cursor} {x : Char}
  {rest : List Char}

theorem skipWord (hR : Lookahead R) (h : R s d) (hm : s.mode = .code)
    (hstart : startsTrivia s.cursor.rest = false) (hu : s.cursor.skipWord typeWord = .ok u) :
    ∃ e, d.skipWord typeWord = .ok e ∧ ∀ p, headIs p e.rest = headIs p u.rest := by
  have hiff := hR.wordHere_iff h isWord_typeWord (by decide)
  by_cases htype : s.cursor.wordHere = typeWord
  · obtain ⟨k, hr, hk⟩ := (Cursor.wordHere_eq_iff isWord_typeWord).1 htype
    have hp := Cursor.Passes.of_rest hr
    have htoken := token_typeWord (s := s) hr hk
    rw [skipWord_of_eq htype] at hu
    obtain ⟨e, hd, h'⟩ := hR.token h hm hr hstart htoken rfl hp
    obtain ⟨e', he', h'⟩ := hR.skipTrivia h' hm hu
    refine ⟨e', ?_, fun p => hR.headIs_eq h'⟩
    rw [skipWord_of_eq (hiff.2 htype), ← hd.eq_advance, he']
  · rw [skipWord_of_ne htype] at hu
    cases hu
    exact ⟨d, skipWord_of_ne fun h => htype (hiff.1 h), fun p => hR.headIs_eq h⟩

theorem template {e : ChunkEnd} {n : Nat} (hR : Lookahead R) (h : R s d) (hm : s.mode = .code)
    (hr : s.cursor.rest = '\x60' :: rest) (hn : templateChunk? rest = some (e, n)) :
    ∃ rest', d.rest = '\x60' :: rest' ∧ templateChunk? rest' = some (e, n) ∧
      ∃ s' : ScanState, s'.mode = .code ∧ s'.cursor = s.cursor.advance (n + 1) ∧
        R s' (d.advance (n + 1)) := by
  have hstart : startsTrivia s.cursor.rest = false := by rw [hr]; rfl
  have hone : s.cursor.Passes ['\x60'] (s.cursor.advance 1) := .of_rest hr
  obtain ⟨u, hu, h⟩ := hR.token h hm hr hstart rfl rfl hone
  obtain ⟨A, body, k, rfl, -, rfl, hall⟩ := exists_of_templateChunkFrom hn
  rw [Nat.zero_add] at hn ⊢
  have hA : (s.cursor.advance 1).rest = A ++ k := by rw [Cursor.rest_advance, hr]; rfl
  have hp : (s.cursor.advance 1).Passes A ((s.cursor.advance 1).advance A.length) := .of_rest hA
  rw [← hA] at hn
  obtain ⟨v, hv, h⟩ :=
    hR.templateText h rfl (templateText_eq_ok.2 ⟨e, A.length, hn, rfl⟩) (by rwa [cursor_afterText])
  have hv' := (hu.trans hv).eq_advance
  rw [List.length_append, List.length_singleton, Nat.add_comm] at hv'
  refine ⟨u.rest, hu.rest_eq, ?_, _, mode_afterText, ?_, hv' ▸ h⟩
  · rw [hv.rest_eq, templateChunk?, hall, Nat.zero_add]
  · rw [cursor_afterText, Cursor.advance_advance, Nat.add_comm]

theorem plainLiteral_none (hR : Lookahead R) (h : R s d) (hm : s.mode = .code)
    (ho : s.cursor.PlainStep none) : d.PlainStep none := by
  cases ho with
  | none hhead => exact .none ((hR.headIs_eq h).trans hhead)
  | substitution hr hn =>
    obtain ⟨rest', hr', hn', -⟩ := hR.template h hm hr hn
    exact .substitution hr' hn'

theorem plainLiteral_some {l : Literal} (hR : Lookahead R) (h : R s d) (hm : s.mode = .code)
    (ho : s.cursor.PlainStep (some l)) : ∃ l', d.PlainStep (some l') ∧
      ∃ s' : ScanState, s'.mode = .code ∧ s'.cursor = l.closing ∧ R s' l'.closing := by
  cases ho with
  | template hr hn =>
    obtain ⟨rest', hr', hn', s', hm', hcursor, h⟩ := hR.template h hm hr hn
    exact ⟨_, .template hr' hn', s', hm', hcursor, h⟩
  | string hs hl =>
    obtain ⟨quote, body, hopens, rfl⟩ := Cursor.exists_of_literal hs hl
    obtain ⟨k, hr⟩ := hopens.rest_eq
    obtain ⟨e, hd, h⟩ := hR.token h hm (hr.trans (quoted_append quote body))
      hopens.startsTrivia (token_string hopens) rfl hopens.quoted.passes
    have he := hd.eq_advance
    rw [length_quoted] at he
    subst he
    have hopens' : d.Opens quote body := ⟨hopens.quotes, hopens.string, _, hd.rest_eq⟩
    exact ⟨_, .string hopens'.startsQuote hopens'.literal,
      s.moveTo (s.cursor.advance (body.length + 2)) .value, hm, rfl, h⟩

theorem dynamicArgument (hR : Lookahead R) (h : R s d) (hm : s.mode = .code)
    (harg : s.cursor.dynamicArgument = .ok none) : d.dynamicArgument = .ok none := by
  obtain ⟨t, ht, harg⟩ := bind_eq_ok.1 harg
  obtain ⟨o, ho, harg⟩ := bind_eq_ok.1 harg
  obtain ⟨e, he, h⟩ := hR.skipTrivia h hm ht
  have ho := Cursor.plainLiteral_eq_ok.1 ho
  cases o with
  | none =>
    have hnone := Cursor.plainLiteral_eq_ok.2 (hR.plainLiteral_none h hm ho)
    exact bind_eq_ok.2 ⟨e, he, bind_eq_ok.2 ⟨none, hnone, rfl⟩⟩
  | some l =>
    obtain ⟨v, hv, harg⟩ := bind_eq_ok.1 harg
    obtain ⟨l', hl', s', hm', hcursor, h⟩ := hR.plainLiteral_some h hm ho
    rw [← hcursor] at hv
    obtain ⟨v', hv', h⟩ := hR.skipTrivia h hm' hv
    have hend : v.endsArgument = false := by
      have harg := pure_eq_ok.1 harg
      split at harg
      · contradiction
      · simp_all
    have hsome := Cursor.plainLiteral_eq_ok.2 hl'
    refine bind_eq_ok.2 ⟨e, he, bind_eq_ok.2 ⟨some l', hsome, bind_eq_ok.2 ⟨v', hv', ?_⟩⟩⟩
    rw [Cursor.endsArgument_eq, hR.headIs_eq h, ← Cursor.endsArgument_eq, hend]
    rfl

end Lookahead

end ScanState

end ImportAtlas
