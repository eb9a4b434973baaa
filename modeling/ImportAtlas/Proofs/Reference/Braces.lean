import ImportAtlas.Proofs.Reference.Continuation
import ImportAtlas.Proofs.Reference.Relocation

namespace ImportAtlas

open Text Lexeme Outcome

namespace ScanState

variable {s s' s₁ : ScanState} {c t : Cursor} {a x : Char} {w rest : List Char}
  {before : LastToken} {d : Nat} {L outer : List Substitution}

def reframe (d : Nat) (L : List Substitution) (s : ScanState) : ScanState :=
  { s with depth := d, substitutions := L }

theorem ImportStep.reframe (h : ImportStep s t s') :
    ImportStep (s.reframe d L) t (s'.reframe d L) := by
  cases h with
  | plain hx => exact .plain hx
  | call hx hl => exact .call hx hl
  | dynamic hx hl => exact .dynamic hx hl
  | bare hl => exact .bare hl
  | clause hx hA hp hl => exact .clause hx hA hp hl

theorem ExportStep.reframe (h : ExportStep s t s') :
    ExportStep (s.reframe d L) t (s'.reframe d L) := by
  cases h with
  | plain hx => exact .plain hx
  | star hx hA hp hl => exact .star hx hA hp hl
  | list hx hA hp hu hfrom => exact .list hx hA hp hu hfrom
  | reExport hx hA hp hB hp' hl => exact .reExport hx hA hp hB hp' hl

theorem requireWord_reframe (h : s.requireWord c before = .ok s) :
    (s.reframe d L).requireWord c before = .ok (s.reframe d L) := by
  obtain ⟨t, ht, h⟩ := bind_eq_ok.1 h
  refine bind_eq_ok.2 ⟨t, ht, ?_⟩
  split at h
  · contradiction
  · rename_i hno
    exact if_neg hno

theorem WordStep.reframe (h : WordStep s w c before s') :
    WordStep (s.reframe d L) w c before (s'.reframe d L) := by
  cases h with
  | plain hplain => exact .plain hplain
  | importing hpoint hw ht h => exact .importing hpoint hw ht h.reframe
  | exporting hpoint hw ht hu h => exact .exporting hpoint hw ht hu h.reframe
  | requiring hpoint hw h => exact .requiring hpoint hw (requireWord_reframe h)

theorem slashToken_reframe : (s.reframe d L).slashToken c = (s.slashToken c).reframe d L := by
  rcases s.slash_cases c.rest with ⟨n, hlast, hn⟩ | hnone
  · rw [slashToken_of_some hlast hn, slashToken_of_some (s := s.reframe d L) hlast hn]
    rfl
  · rw [slashToken_of_none hnone, slashToken_of_none (s := s.reframe d L) hnone]
    rfl

theorem token_reframe (hr : c.rest = x :: rest) (hb : isBlank x = false) (hopen : x ≠ '\x7b')
    (hclose : x ≠ '\x7d') (h : s.token x c = .ok s') :
    (s.reframe d L).token x c = .ok (s'.reframe d L) := by
  cases tokenStep_of_token h with
  | slash hx => exact slashToken_reframe ▸ token_of_step (.slash hx)
  | string hq hl => exact token_of_step (.string hq hl)
  | template hx => exact token_of_step (.template hx)
  | openBrace hx => exact absurd hx hopen
  | closeBrace hx => exact absurd hx hclose
  | number hx => exact token_of_step (.number hx)
  | openParenthesis hx => exact token_of_step (.openParenthesis hx)
  | closeParenthesis hx => exact token_of_step (.closeParenthesis hx)
  | word hx h =>
    obtain ⟨w, e, hw, hp, hk, hstep⟩ := exists_wordStep hr hx hb h
    exact token_of_step (.word hx (wordToken_of_step hw hp hk hstep.reframe))
  | mark hx => exact token_of_step (.mark hx)

theorem eq_reframe_of_token (hr : c.rest = x :: rest) (hb : isBlank x = false)
    (hopen : x ≠ '\x7b') (hclose : x ≠ '\x7d') (h : s.token x c = .ok s') :
    s' = s'.reframe s.depth s.substitutions := by
  have hagain := token_reframe (d := s.depth) (L := s.substitutions) hr hb hopen hclose h
  have hsame : s.reframe s.depth s.substitutions = s := rfl
  rw [hsame, h] at hagain
  exact Except.ok.inj hagain

def enclose (outer : List Substitution) (s : ScanState) : ScanState :=
  s.reframe s.depth (s.substitutions ++ outer)

def outermost : Nat → List Substitution → Nat
  | d, [] => d
  | _, t :: outer => outermost t.depth outer

def outerDepth (s : ScanState) : Nat := outermost s.depth s.substitutions

def brace (x : Char) : Int := if x = '\x7b' then 1 else if x = '\x7d' then -1 else 0

def braces (s : ScanState) : Int :=
  match s.mode, s.substitutions, s.cursor.skipTrivia with
  | .code, [], .ok t => (t.rest.head?.map brace).getD 0
  | _, _, _ => 0

theorem braces_of_template {opening : Cursor} (hm : s.mode = .template opening) :
    s.braces = 0 := by
  simp [braces, hm]

theorem braces_of_code (hm : s.mode = .code) (ht : s.cursor.skipTrivia = .ok t)
    (hr : t.rest = x :: rest) : s.braces = if s.substitutions = [] then brace x else 0 := by
  cases hs : s.substitutions with
  | nil => simp [braces, hm, hs, ht, hr]
  | cons => simp [braces, hm, hs]

theorem outerDepth_openBrace : ({ s with depth := s.depth + 1 } : ScanState).outerDepth =
    (s.outerDepth : Int) + if s.substitutions = [] then 1 else 0 := by
  cases hs : s.substitutions with
  | nil => simp [outerDepth, outermost, hs]
  | cons => simp [outerDepth, outermost, hs]

theorem outerDepth_closeBrace (hpos : s.substitutions = [] → 0 < s.depth) :
    (s.closeBrace c).outerDepth =
      (s.outerDepth : Int) + if s.substitutions = [] then -1 else 0 := by
  cases hs : s.substitutions with
  | nil =>
    have hd := hpos hs
    rw [closeBrace_of_nil hs]
    simp only [outerDepth, outermost, hs, ScanState.moveTo, if_true]
    omega
  | cons u outer =>
    unfold closeBrace
    cases hd : s.depth with
    | zero => simp [outerDepth, outermost, hs]
    | succ d => simp [outerDepth, outermost, hs, ScanState.moveTo]

theorem enclose_closeBrace (hpos : s.substitutions = [] → 0 < s.depth) :
    (s.enclose outer).closeBrace c = (s.closeBrace c).enclose outer := by
  obtain ⟨cursor, mode, last, heads, depth, substitutions, found⟩ := s
  cases depth with
  | succ d => rfl
  | zero =>
    cases substitutions with
    | nil => exact absurd (hpos rfl) (Nat.lt_irrefl 0)
    | cons u substitutions => rfl

theorem depth_pos_of_braces (hm : s.mode = .code) (ht : s.cursor.skipTrivia = .ok t)
    (hr : t.rest = '\x7d' :: rest) (hpos : 0 ≤ (s.outerDepth : Int) + s.braces)
    (hs : s.substitutions = []) : 0 < s.depth := by
  rw [braces_of_code hm ht hr, if_pos hs, outerDepth, hs, outermost] at hpos
  have hbrace : brace '\x7d' = -1 := rfl
  omega

theorem Next.outerDepth_eq (h : Next s s') (hpos : 0 ≤ (s.outerDepth : Int) + s.braces) :
    s'.outerDepth = (s.outerDepth : Int) + s.braces := by
  cases hm : s.mode with
  | template opening =>
    obtain ⟨e, k, -, rfl⟩ := h.exists_text hm
    rw [braces_of_template hm, Int.add_zero]
    cases e with
    | closed => rfl
    | substitution => rfl
  | code =>
    obtain ⟨t, x, rest, ht, hr, hs'⟩ := h.exists_token hm
    have hb := isBlank_of_startsTrivia (hr ▸ Cursor.startsTrivia_of_skipTrivia ht)
    by_cases hopen : x = '\x7b'
    · subst hopen
      rw [token_of_step (.openBrace rfl)] at hs'
      cases hs'
      rw [braces_of_code hm ht hr]
      exact outerDepth_openBrace
    by_cases hclose : x = '\x7d'
    · subst hclose
      rw [token_of_step (.closeBrace rfl)] at hs'
      cases hs'
      rw [outerDepth_closeBrace (depth_pos_of_braces hm ht hr hpos), braces_of_code hm ht hr]
      rfl
    · have hnone : s.braces = 0 := by simp [braces_of_code hm ht hr, brace, hopen, hclose]
      rw [eq_reframe_of_token hr hb hopen hclose hs', hnone, Int.add_zero]
      rfl

theorem Next.enclose (h : Next s s') (hpos : 0 ≤ (s.outerDepth : Int) + s.braces) :
    Next (s.enclose outer) (s'.enclose outer) := by
  cases hm : s.mode with
  | template opening =>
    obtain ⟨e, k, hk, rfl⟩ := h.exists_text hm
    have htext : (s.afterText opening k e).enclose outer =
        (s.enclose outer).afterText opening k e := by
      cases e with
      | closed => rfl
      | substitution => rfl
    exact htext ▸ next_of_text (s := s.enclose outer) hm hk
  | code =>
    obtain ⟨t, x, rest, ht, hr, hs'⟩ := h.exists_token hm
    have hb := isBlank_of_startsTrivia (hr ▸ Cursor.startsTrivia_of_skipTrivia ht)
    refine next_of_token (s := s.enclose outer) hm ht hr ?_
    by_cases hopen : x = '\x7b'
    · subst hopen
      rw [token_of_step (.openBrace rfl)] at hs'
      cases hs'
      exact token_of_step (.openBrace rfl)
    by_cases hclose : x = '\x7d'
    · subst hclose
      rw [token_of_step (.closeBrace rfl)] at hs'
      cases hs'
      rw [token_of_step (.closeBrace rfl), enclose_closeBrace (depth_pos_of_braces hm ht hr hpos)]
    · have hagain := token_reframe (d := s.depth) (L := s.substitutions ++ outer) hr hb hopen
        hclose hs'
      rw [eq_reframe_of_token hr hb hopen hclose hs'] at hagain ⊢
      exact hagain

inductive Counts : ScanState → Int → ScanState → Prop
  | refl {s : ScanState} : Counts s 0 s
  | step {s s₁ s' : ScanState} {n : Int} : Next s s₁ → Counts s₁ n s' → Counts s (s.braces + n) s'

/-- Where `n` braces are open, none is closed from here on that has not been opened, and all
are when the text ends. -/
def Balances (n : Int) (s : ScanState) : Prop :=
  ∀ m s', s.Counts m s' → 0 ≤ n + m ∧ (s'.step = .ok none → n + m = 0)

namespace Balances

variable {n : Int}

theorem nonneg (h : s.Balances n) : 0 ≤ n := by
  simpa using (h 0 s .refl).1

theorem eq_zero (h : s.Balances n) (hfinal : s.step = .ok none) : n = 0 := by
  simpa using (h 0 s .refl).2 hfinal

theorem next (h : s.Balances n) (hs : Next s s') : s'.Balances (n + s.braces) := by
  intro m s'' hm
  rw [Int.add_assoc]
  exact h _ s'' (.step hs hm)

end Balances

def balances? : Nat → Int → ScanState → Bool
  | 0, _, _ => false
  | k + 1, n, s => decide (0 ≤ n) && match s.step with
    | .ok (some s') => balances? k (n + s.braces) s'
    | .ok none => decide (n = 0)
    | .error _ => true

theorem Balances.of_balances? {k : Nat} {n : Int} (h : s.balances? k n = true) :
    s.Balances n := by
  intro m s' hm
  induction hm generalizing k n with
  | refl =>
    cases k with
    | zero => contradiction
    | succ k =>
      rw [ScanState.balances?, Bool.and_eq_true, decide_eq_true_eq] at h
      refine ⟨by simpa using h.1, fun hfinal => ?_⟩
      rw [hfinal] at h
      simpa using h.2
  | step hs _ ih =>
    cases k with
    | zero => contradiction
    | succ k =>
      rw [Next] at hs
      rw [ScanState.balances?, hs, Bool.and_eq_true] at h
      rw [← Int.add_assoc]
      exact ih h.2

end ScanState

/-- The scan of the text never sees more closing braces than opening ones, and it sees as
many of both, outside of substitutions. -/
def Balanced (text : String) : Prop := (ScanState.initial text.toList).Balances 0

end ImportAtlas
