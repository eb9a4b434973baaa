import ImportAtlas.Proofs.Reference.Introduction
import ImportAtlas.Proofs.Reference.Layout
import ImportAtlas.Reference.Scan

namespace ImportAtlas

open Text Lexeme Outcome

namespace ScanState

variable {s s' : ScanState} {c t : Cursor} {x : Char}

theorem token_withCursor (d : Cursor) : { s with cursor := d }.token x c = s.token x c := rfl

theorem run_of_step (h : s.step = .ok (some s')) : s.run = s'.run := by
  rw [run]
  split <;> simp_all

theorem run_of_end (h : s.step = .ok none) : s.run = .ok s.found.reverse := by
  rw [run]
  split <;> simp_all

theorem step_code (hm : s.mode = .code) : s.step = (do
    let c ← s.cursor.skipTrivia
    match c.rest with
    | [] => if s.substitutions.isEmpty then return none else c.fail .unterminatedTemplate
    | x :: _ => some <$> s.token x c) := by
  obtain ⟨cursor, mode, last, heads, depth, substitutions, found⟩ := s
  obtain rfl : mode = .code := hm
  rfl

theorem step_template {opening : Cursor} (hm : s.mode = .template opening) :
    s.step = some <$> s.templateText opening := by
  rw [step, hm]

theorem step_of_skipTrivia {rest : List Char} (hm : s.mode = .code)
    (ht : s.cursor.skipTrivia = .ok t) (hr : t.rest = x :: rest) :
    s.step = some <$> s.token x t := by
  rw [step_code hm, ht, ok_bind, hr]

theorem step_of_token {rest : List Char} (hm : s.mode = .code) (hr : s.cursor.rest = x :: rest)
    (ht : startsTrivia s.cursor.rest = false) (h : s.token x s.cursor = .ok s') :
    s.step = .ok (some s') := by
  rw [step_of_skipTrivia hm (Cursor.skipTrivia_self ht) hr, h]
  rfl

theorem run_of_skipTrivia (hm : s.mode = .code) (h : s.cursor.skipTrivia = t.skipTrivia) :
    s.run = { s with cursor := t }.run := by
  have hstep : s.step = { s with cursor := t }.step := by
    rw [step_code hm, @step_code { s with cursor := t } hm, h]
    rfl
  rw [run, run, hstep]

theorem run_trivia {T : List Char} (hm : s.mode = .code) (hp : s.cursor.Passes T t)
    (hT : TriviaBefore t.rest T) : s.run = { s with cursor := t }.run :=
  run_of_skipTrivia hm
    ((Cursor.skipTrivia_of_passes hp hT).trans (Cursor.skipTrivia_self hT.startsTrivia).symm)

theorem run_past_trivia {T : List Char} (hm : s.mode = .code) (hp : s.cursor.Passes T t)
    (hT : Trivia T) : s.run = { s with cursor := t }.run :=
  run_of_skipTrivia hm (Cursor.skipTrivia_past hp hT)

/-- The run from a state succeeds, and this is the layout of what it passes over.
Trivia, tokens and runs of template text are passed over one at a time. -/
inductive Runs : ScanState → Layout → Prop
  | done {s : ScanState} : s.mode = .code → s.cursor.rest = [] → s.substitutions = [] →
      Runs s (.tail [])
  | trivia {s : ScanState} {t : Cursor} {T : List Char} {L : Layout} : s.mode = .code →
      s.cursor.Passes T t → TriviaBefore t.rest T → T ≠ [] → Runs { s with cursor := t } L →
      Runs s (L.prepend T)
  | token {s s' : ScanState} {x : Char} {rest A : List Char} {L : Layout} : s.mode = .code →
      s.cursor.rest = x :: rest → startsTrivia s.cursor.rest = false →
      s.token x s.cursor = .ok s' → s'.found = s.found → s.cursor.Passes A s'.cursor →
      Runs s' L → Runs s (L.prepend A)
  | record {s : ScanState} {gap body : List Char} {kind : ReferenceKind} {l : Literal}
      {quote : Char} {L : Layout} : s.mode = .code → Introduction kind gap →
      s.cursor.followsPoint = false → s.cursor.Passes gap l.opening → l.opening.Reads l kind →
      l.Quotes quote body → kind.Allows quote → Runs ((s.entering kind).record kind l) L →
      Runs s (.slot gap quote body kind L)
  | templateText {s s' : ScanState} {opening : Cursor} {A : List Char} {L : Layout} :
      s.mode = .template opening → s.templateText opening = .ok s' →
      s.cursor.Passes A s'.cursor → Runs s' L → Runs s (L.prepend A)

namespace Runs

variable {L : Layout}

theorem text_eq (h : Runs s L) : L.text = s.cursor.rest := by
  induction h with
  | done _ hr => exact hr.symm
  | trivia _ hp _ _ _ ih => rw [Layout.text_prepend, ih, hp.rest_eq]
  | token _ _ _ _ _ hp _ ih => rw [Layout.text_prepend, ih, hp.rest_eq]
  | @record _ _ _ _ l _ _ _ _ _ hp _ hl _ _ ih =>
    have hclosing : Layout.text _ = l.closing.rest := ih
    rw [Layout.text, hclosing, hp.rest_eq, hl.passes.rest_eq]
  | templateText _ _ hp _ ih => rw [Layout.text_prepend, ih, hp.rest_eq]

theorem toReference_eq {gap body : List Char} {kind : ReferenceKind} {l : Literal} {quote : Char}
    (hp : c.Passes gap l.opening) (hl : l.Quotes quote body) :
    l.toReference kind = Layout.reference c.offset gap quote body kind := by
  simp [Literal.toReference, Layout.reference, hl.body_eq, hl.passes.offset_eq, hp.offset_eq]

theorem run_eq (h : Runs s L) :
    s.run = .ok (s.found.reverse ++ L.references s.cursor.offset) := by
  induction h with
  | @done s hm hr hs =>
    rw [run_of_end]
    · simp [Layout.references]
    · rw [step_code hm, Cursor.skipTrivia_self (by rw [hr]; rfl), ok_bind, hr, hs]
      rfl
  | trivia hm hp hT _ _ ih =>
    rw [run_trivia hm hp hT, ih, Layout.references_prepend, hp.offset_eq]
  | token hm hr ht hs' hf hp _ ih =>
    rw [run_of_step (step_of_token hm hr ht hs'), ih, Layout.references_prepend, hp.offset_eq, hf]
  | @record s gap body kind l quote L hm hgap hpoint hp hreads hl _ _ ih =>
    obtain ⟨x, rest, hr, ht, hs'⟩ := token_of_introduction hgap hp hpoint hreads
    have href : l.toReference kind = _ := toReference_eq hp hl
    have hstop : ((s.entering kind).record kind l).cursor.offset =
        (Layout.reference s.cursor.offset gap quote body kind).stop := by
      rw [← href]
      rfl
    rw [run_of_step (step_of_token hm hr ht hs'), ih, hstop, Layout.references, ← href]
    simp [ScanState.record, found_entering]
  | @templateText s s' opening A L hm hs' hp _ ih =>
    have hstep : s.step = .ok (some s') := by
      rw [step_template hm, hs']
      rfl
    obtain ⟨e, n, -, rfl⟩ := templateText_eq_ok.1 hs'
    rw [run_of_step hstep, ih, Layout.references_prepend, hp.offset_eq, found_afterText]

theorem of_trivia {T : List Char} (hm : s.mode = .code) (hp : s.cursor.Passes T t)
    (hT : TriviaBefore t.rest T) (h : Runs { s with cursor := t } L) : Runs s (L.prepend T) := by
  by_cases hnil : T = []
  · subst hnil
    rw [hp.unique (.refl _)] at h
    rwa [Layout.prepend_nil]
  · exact .trivia hm hp hT hnil h

theorem of_finding {rest : List Char} (hm : s.mode = .code) (hr : s.cursor.rest = x :: rest)
    (ht : startsTrivia s.cursor.rest = false) (hs' : s.token x s.cursor = .ok s')
    (h : Runs s' L) : ∃ L', Runs s L' := by
  cases finding_of_token hr ht hs' with
  | nothing hf hreach =>
    obtain ⟨A, hp⟩ := Cursor.Passes.of_reaches hreach
    exact ⟨_, .token hm hr ht hs' hf hp h⟩
  | reference hgap hpoint hp hreads =>
    obtain ⟨quote, body, hq, hl⟩ := hreads.exists_quotes
    exact ⟨_, .record hm hgap hpoint hp hreads hl hq h⟩

end Runs

theorem exists_runs {references : List Reference} (h : s.run = .ok references) :
    ∃ L, Runs s L ∧ references = s.found.reverse ++ L.references s.cursor.offset := by
  suffices ∃ L, Runs s L by
    obtain ⟨L, hL⟩ := this
    rw [hL.run_eq] at h
    cases h
    exact ⟨L, hL, rfl⟩
  fun_induction run s with
  | case1 => contradiction
  | case2 s hs =>
    cases hm : s.mode with
    | template =>
      rw [step_template hm] at hs
      obtain ⟨s', -, hs⟩ := functor_map_eq_ok.1 hs
      cases hs
    | code =>
      rw [step_code hm] at hs
      obtain ⟨t, ht, hs⟩ := bind_eq_ok.1 hs
      obtain ⟨T, hp, hT⟩ := Cursor.skipTrivia_eq_ok.1 ht
      split at hs
      · rename_i hr
        split at hs
        · rename_i hempty
          exact ⟨_, .of_trivia hm hp hT (.done hm hr (List.isEmpty_iff.1 hempty))⟩
        · contradiction
      · obtain ⟨s', -, hs⟩ := functor_map_eq_ok.1 hs
        cases hs
  | case3 s s' hs ih =>
    obtain ⟨L, hL⟩ := ih h
    cases hm : s.mode with
    | template opening =>
      rw [step_template hm] at hs
      obtain ⟨_, hs', hs⟩ := functor_map_eq_ok.1 hs
      cases hs
      obtain ⟨e, n, -, rfl⟩ := templateText_eq_ok.1 hs'
      have hp : s.cursor.Passes (s.cursor.rest.take n) (s.afterText opening n e).cursor := by
        rw [cursor_afterText]
        exact .of_take s.cursor n
      exact ⟨_, .templateText hm hs' hp hL⟩
    | code =>
      rw [step_code hm] at hs
      obtain ⟨t, ht, hs⟩ := bind_eq_ok.1 hs
      obtain ⟨T, hp, hT⟩ := Cursor.skipTrivia_eq_ok.1 ht
      split at hs
      · split at hs
        · cases hs
        · contradiction
      · rename_i hr
        obtain ⟨_, hs', hs⟩ := functor_map_eq_ok.1 hs
        cases hs
        -- the token is read where the trivia end, as if the state stood there
        have hstart := Cursor.startsTrivia_of_skipTrivia ht
        rw [← token_withCursor t] at hs'
        obtain ⟨L', hL'⟩ := Runs.of_finding (s := { s with cursor := t }) hm hr hstart hs' hL
        exact ⟨_, .of_trivia hm hp hT hL'⟩

end ScanState

end ImportAtlas
