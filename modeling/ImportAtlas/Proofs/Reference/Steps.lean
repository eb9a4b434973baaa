import Mathlib.Logic.Relation
import ImportAtlas.Proofs.Outcome
import ImportAtlas.Proofs.Reference.Extension
import ImportAtlas.Proofs.Reference.Run

namespace ImportAtlas

open Text Lexeme Outcome

namespace ScanState

variable {s s' f : ScanState} {c t : Cursor} {a : Char} {rest : List Char}

/-- From the one state the scanner steps to the other. -/
def Next (s s' : ScanState) : Prop := s.step = .ok (some s')

theorem rightUnique_next : Relator.RightUnique Next := by
  intro s s' s'' h h'
  rw [Next, h] at h'
  cases h'
  rfl

theorem next_of_token (hm : s.mode = .code) (ht : s.cursor.skipTrivia = .ok t)
    (hr : t.rest = a :: rest) (h : s.token a t = .ok s') : Next s s' := by
  rw [Next, step_of_skipTrivia hm ht hr, h]
  rfl

theorem Next.exists_token (h : Next s s') (hm : s.mode = .code) :
    ∃ t a rest, s.cursor.skipTrivia = .ok t ∧ t.rest = a :: rest ∧ s.token a t = .ok s' := by
  rw [Next, step_code hm] at h
  obtain ⟨t, ht, h⟩ := bind_eq_ok.1 h
  split at h
  · split at h
    · cases pure_eq_ok.1 h
    · contradiction
  · rename_i a rest hr
    obtain ⟨_, hs', h⟩ := functor_map_eq_ok.1 h
    cases h
    exact ⟨t, a, rest, ht, hr, hs'⟩

theorem Next.exists_text {opening : Cursor} (h : Next s s') (hm : s.mode = .template opening) :
    ∃ e n, templateChunk? s.cursor.rest = some (e, n) ∧ s' = s.afterText opening n e := by
  rw [Next, step_template hm] at h
  obtain ⟨_, hs', h⟩ := functor_map_eq_ok.1 h
  cases h
  exact templateText_eq_ok.1 hs'

theorem next_of_text {opening : Cursor} {e : ChunkEnd} {n : Nat} (hm : s.mode = .template opening)
    (h : templateChunk? s.cursor.rest = some (e, n)) : Next s (s.afterText opening n e) := by
  rw [Next, step_template hm, templateText_eq_ok.2 ⟨e, n, h, rfl⟩]
  rfl

theorem Finding.reaches (h : Finding s c s') : c.Reaches s'.cursor := by
  cases h with
  | nothing _ hreach => exact hreach
  | reference _ _ hp => exact hp.reaches.trans (.advance _ _)

theorem Next.reaches (h : Next s s') : s.cursor.Reaches s'.cursor := by
  cases hm : s.mode with
  | template =>
    obtain ⟨e, n, -, rfl⟩ := h.exists_text hm
    exact cursor_afterText ▸ .advance _ _
  | code =>
    obtain ⟨t, a, rest, ht, hr, hs'⟩ := h.exists_token hm
    have hstart := Cursor.startsTrivia_of_skipTrivia ht
    exact (Cursor.Reaches.of_skipTrivia ht).trans (finding_of_token hr hstart hs').reaches

theorem reaches_of_reaches (h : Relation.ReflTransGen Next s s') :
    s.cursor.Reaches s'.cursor := by
  induction h with
  | refl => exact .refl _
  | tail _ hs ih => exact ih.trans hs.reaches

def after? : Nat → ScanState → Option ScanState
  | 0, s => some s
  | n + 1, s => match s.step with
    | .ok (some s') => after? n s'
    | _ => none

theorem reaches_of_after? {n : Nat} (h : s.after? n = some s') :
    Relation.ReflTransGen Next s s' := by
  fun_induction after? n s with
  | case1 => exact Option.some.inj h ▸ .refl
  | case2 n s s₁ hs ih => exact .head hs (ih h)
  | case3 => contradiction

theorem of_end (h : f.step = .ok none) :
    f.mode = .code ∧ f.substitutions = [] ∧ TriviaBefore [] f.cursor.rest := by
  cases hm : f.mode with
  | template opening =>
    rw [step_template hm] at h
    obtain ⟨_, _, h⟩ := functor_map_eq_ok.1 h
    cases h
  | code =>
    rw [step_code hm] at h
    obtain ⟨t, ht, h⟩ := bind_eq_ok.1 h
    obtain ⟨T, hp, hT⟩ := Cursor.skipTrivia_eq_ok.1 ht
    split at h
    · rename_i hr
      have hrest := hp.rest_eq
      rw [hr] at hT hrest
      rw [List.append_nil] at hrest
      split at h
      · rename_i hempty
        exact ⟨rfl, List.isEmpty_iff.1 hempty, hrest ▸ hT⟩
      · contradiction
    · obtain ⟨_, _, h⟩ := functor_map_eq_ok.1 h
      cases h

theorem eq_of_end (h : f.step = .ok none) (hs : Relation.ReflTransGen Next f s) : s = f := by
  rcases Relation.ReflTransGen.cases_head hs with rfl | ⟨s', hs', -⟩
  · rfl
  · cases h.symm.trans hs'

theorem reaches_end (hf : Relation.ReflTransGen Next s f) (hfinal : f.step = .ok none)
    (hs : Relation.ReflTransGen Next s s') : Relation.ReflTransGen Next s' f := by
  rcases hf.total_of_right_unique rightUnique_next hs with h | h
  · exact eq_of_end hfinal h ▸ .refl
  · exact h

theorem run_of_reaches (h : Relation.ReflTransGen Next s s') : s.run = s'.run := by
  induction h with
  | refl => rfl
  | tail _ hs ih => rw [ih, run_of_step hs]

theorem exists_end {references : List Reference} (h : s.run = .ok references) :
    ∃ f, Relation.ReflTransGen Next s f ∧ f.step = .ok none ∧ references = f.found.reverse := by
  fun_induction run s with
  | case1 => contradiction
  | case2 s hs =>
    cases h
    exact ⟨s, .refl, hs, rfl⟩
  | case3 s s' hs ih =>
    obtain ⟨f, hends, hfinal, hfound⟩ := ih h
    exact ⟨f, .head hs hends, hfinal, hfound⟩

theorem run_of_error {e : ScanFailure} (h : s.step = .error e) : s.run = .error e := by
  rw [run]
  split <;> simp_all

/-- Two runs end alike if states in a relation step to such states, fail alike or come to
their ends alike, and they do unless a step of the second is broken off.  The induction is
on the steps of the first run. -/
theorem run_agreeUnless {P : ScanFailure → Prop} {E : ScanFailure → ScanFailure → Prop}
    {R : ScanState → ScanState → Prop} {F : List Reference → List Reference → Prop}
    (hstep : ∀ s s', R s s' →
      AgreeUnless P E (Option.Rel fun s₁ s₁' => Next s s₁ → R s₁ s₁') s.step s'.step)
    (hend : ∀ s s', R s s' → F s.found.reverse s'.found.reverse) (h : R s s') :
    AgreeUnless P E F s.run s'.run := by
  fun_induction run s generalizing s' with
  | case1 s e hs =>
    have hstep := hstep s s' h
    rw [hs] at hstep
    generalize hs' : s'.step = r at hstep
    cases hstep with
    | broken he => exact run_of_error hs' ▸ .broken he
    | agree hstep =>
      cases hstep with
      | error he => exact run_of_error hs' ▸ .error he
  | case2 s hs =>
    have hstep := hstep s s' h
    rw [hs] at hstep
    generalize hs' : s'.step = r at hstep
    cases hstep with
    | broken he => exact run_of_error hs' ▸ .broken he
    | agree hstep =>
      cases hstep with
      | ok hnone =>
        cases hnone
        rw [run_of_end hs']
        exact .ok (hend s s' h)
  | case3 s s₁ hs ih =>
    have hstep := hstep s s' h
    rw [hs] at hstep
    generalize hs' : s'.step = r at hstep
    cases hstep with
    | broken he => exact run_of_error hs' ▸ .broken he
    | agree hstep =>
      cases hstep with
      | ok hsome =>
        cases hsome with
        | some h => exact run_of_step hs' ▸ ih (h hs)

theorem run_agree {E : ScanFailure → ScanFailure → Prop} {R : ScanState → ScanState → Prop}
    {F : List Reference → List Reference → Prop}
    (hstep : ∀ s s', R s s' →
      Agree E (Option.Rel fun s₁ s₁' => Next s s₁ → R s₁ s₁') s.step s'.step)
    (hend : ∀ s s', R s s' → F s.found.reverse s'.found.reverse) (h : R s s') :
    Agree E F s.run s'.run :=
  (run_agreeUnless (P := fun _ => False) (fun s s' h => .agree (hstep s s' h)) hend h).toAgree
    fun _ => id

theorem step_of_token_error {e : ScanFailure} (hm : s.mode = .code)
    (hr : s.cursor.rest = a :: rest) (ht : startsTrivia s.cursor.rest = false)
    (h : s.token a s.cursor = .error e) : s.step = .error e := by
  rw [step_of_skipTrivia hm (Cursor.skipTrivia_self ht) hr, h]
  rfl

end ScanState

def LastToken.Precedes : LastToken → List Char → Prop
  | .punctuation c, before => headIs (· = c) before = true
  | .word w, before => IsWord w ∧ w.reverse <+: before
  | _, _ => True

theorem ExportList.headIs_reverse {A : List Char} (h : ExportList A) :
    headIs (· = '\x7d') A.reverse = true := by
  induction h with
  | close => simp
  | item _ _ _ hA ih =>
    rw [headIs_reverse_append]
    · exact ih
    · exact hA.ne_nil

namespace ScanState

variable {s s' : ScanState} {c t : Cursor}

theorem ImportStep.precedes (h : ImportStep s t s') (hs : s.last.Precedes s.cursor.before) :
    s'.last.Precedes s'.cursor.before := by
  cases h with
  | plain => exact hs
  | call hhead =>
    obtain ⟨k, hr⟩ := exists_cons_of_headIs hhead
    have hp : t.Passes ['('] (t.advance 1) := .of_rest hr
    change headIs (· = '(') (t.advance 1).before = true
    rw [hp.before_eq]
    rfl
  | dynamic => exact trivial
  | bare => exact trivial
  | clause => exact trivial

theorem ExportStep.precedes (h : ExportStep s t s') (hs : s.last.Precedes s.cursor.before) :
    s'.last.Precedes s'.cursor.before := by
  cases h with
  | plain => exact hs
  | star => exact trivial
  | @list A d v hhead hA hp =>
    change headIs (· = '\x7d') d.before = true
    have hne : A.reverse ≠ [] := by simpa using hA.ne_nil
    rw [hp.before_eq, headIs_append_of_ne_nil hne, hA.headIs_reverse]
  | reExport => exact trivial

theorem precedes_of_wordToken {a : Char} {rest : List Char} (hr : c.rest = a :: rest)
    (ha : isWordStart a = true) (hb : isBlank a = false) (h : s.wordToken c = .ok s') :
    s'.last.Precedes s'.cursor.before := by
  obtain ⟨w, d, hw, hp, -, hstep⟩ := exists_wordStep hr ha hb h
  have hafter : (s.moveTo d (.word w)).last.Precedes (s.moveTo d (.word w)).cursor.before :=
    ⟨hw, ⟨c.before, hp.before_eq.symm⟩⟩
  cases hstep with
  | plain => exact hafter
  | importing _ _ _ h => exact h.precedes hafter
  | exporting _ _ _ _ h => exact h.precedes hafter
  | requiring => exact hafter

theorem Next.precedes (h : Next s s') (hm : s'.mode = .code) :
    s'.last.Precedes s'.cursor.before := by
  cases hs : s.mode with
  | template opening =>
    obtain ⟨e, n, hn, rfl⟩ := h.exists_text hs
    obtain ⟨A, body, k, hr, rfl, rfl, -⟩ := exists_of_templateChunkFrom hn
    cases e with
    | closed => exact trivial
    | substitution =>
      have hp := Cursor.Passes.of_rest hr
      change headIs (· = '\x7b') (s.cursor.advance _).before = true
      rw [Nat.zero_add, hp.before_eq, List.reverse_append, List.append_assoc]
      rfl
  | code =>
    obtain ⟨t, a, rest, ht, hr, hs'⟩ := h.exists_token hs
    have hone : headIs (· = a) (t.advance 1).before = true := by
      have hp : t.Passes [a] (t.advance 1) := .of_rest hr
      rw [hp.before_eq]
      simp
    cases tokenStep_of_token hs' with
    | slash hx =>
      subst hx
      unfold slashToken
      split
      · exact trivial
      · exact hone
    | string => exact trivial
    | template => cases hm
    | openBrace => exact hone
    | closeBrace hx =>
      subst hx
      unfold closeBrace at hm ⊢
      split at hm
      · cases hm
      · exact hone
    | number => exact trivial
    | openParenthesis => exact hone
    | closeParenthesis hx =>
      subst hx
      unfold closeParenthesis
      dsimp only [ScanState.moveTo]
      split
      · exact trivial
      · exact hone
    | word ha hw =>
      have hstart := Cursor.startsTrivia_of_skipTrivia ht
      exact precedes_of_wordToken hr ha (isBlank_of_startsTrivia (hr ▸ hstart)) hw
    | mark => exact hone

end ScanState

end ImportAtlas
