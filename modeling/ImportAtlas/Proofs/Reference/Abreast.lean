import Mathlib.Data.List.Forall2
import ImportAtlas.Proofs.Reference.Correspondence
import ImportAtlas.Proofs.Reference.Refusal

namespace ImportAtlas

open Text Lexeme Outcome

namespace ScanState

theorem wordToken_of_not_mem {s : ScanState} {c : Cursor}
    (h : word c.rest ∉ [importName, exportName, requireName]) : s.wordToken c =
      .ok (s.moveTo (c.advance (word c.rest).length) (.word (word c.rest))) := by
  simp only [List.mem_cons, List.not_mem_nil, or_false, not_or] at h
  unfold wordToken
  split
  · rfl
  · exact (if_neg h.1).trans ((if_neg h.2.1).trans (if_neg h.2.2))

end ScanState

namespace Correspondence

variable (K : Correspondence)

/-- They are recorded from literals that correspond. -/
def Refers (r r' : Reference) : Prop :=
  ∃ (kind : ReferenceKind) (l l' : Literal), K.literal l l' ∧ r = l.toReference kind ∧
    r' = l'.toReference kind

inductive Modes : ScanMode → ScanMode → Prop
  | code : Modes .code .code
  | template {c c' : Cursor} : K.FailAlike c c' → Modes (.template c) (.template c')

structure Tokens (last : LastToken) (t t' : Cursor) : Prop where
  number : headIs Char.isDigit t.rest = true →
    K.Ends K.place (t.advance (number t.rest).length).skipTrivia
      (t'.advance (number t'.rest).length).skipTrivia
  regex : last.allowsRegex = true → headIs (· = '/') t.rest = true →
    Option.Rel (fun n n' => K.Ends K.place (t.advance n).skipTrivia (t'.advance n').skipTrivia)
      (regex? t.rest) (regex? t'.rest)
  name : t.wordHere ∈ [importName, ImportAtlas.exportName, requireName] →
    t'.followsPoint = t.followsPoint
  body : t.wordHere = requireName → ∀ u u', K.place u u' →
    (t.advance requireName.length).skipTrivia = .ok u →
    headIs (· = '(') u.rest = true → isDefinition u'.rest = isDefinition u.rest

structure States (s s' : ScanState) : Prop where
  mode : K.Modes s.mode s'.mode
  code : s.mode = .code → K.Ends K.place s.cursor.skipTrivia s'.cursor.skipTrivia
  text : s.mode ≠ .code → K.place s.cursor s'.cursor
  last : s'.last = s.last
  heads : s'.heads = s.heads
  depth : s'.depth = s.depth
  substitutions : List.Forall₂
    (fun t t' => K.FailAlike t.opening t'.opening ∧ t'.depth = t.depth) s.substitutions
    s'.substitutions
  found : List.Forall₂ K.Refers s.found s'.found

namespace States

variable {K} {s s' : ScanState} {c c' start start' : Cursor} {x : Char} {k k' : List Char}
  {l l' : Literal}

theorem enter {m m' : ScanMode} (h : K.States s s') (hm : K.Modes m m')
    (hcode : K.Ends K.place c.skipTrivia c'.skipTrivia) (htext : m ≠ .code → K.place c c') :
    K.States { s with cursor := c, mode := m } { s' with cursor := c', mode := m' } :=
  { h with mode := hm, code := fun _ => hcode, text := htext }

theorem pushHead (h : K.States s s') (head : Bool) :
    K.States { s with heads := head :: s.heads } { s' with heads := head :: s'.heads } :=
  { h with heads := congrArg (head :: ·) h.heads }

theorem moveOver (h : K.States s s') (hm : s.mode = .code)
    (hc : K.Ends K.place c.skipTrivia c'.skipTrivia) (t : LastToken) :
    K.States (s.moveTo c t) (s'.moveTo c' t) :=
  { h with code := fun _ => hc, text := fun hne => absurd hm hne, last := rfl }

theorem moveTo (h : K.States s s') (hc : K.place c c') (t : LastToken) :
    K.States (s.moveTo c t) (s'.moveTo c' t) :=
  { h with code := fun _ => K.skipTrivia hc, text := fun _ => hc, last := rfl }

theorem record (h : K.States s s') (hl : K.literal l l') (kind : ReferenceKind) :
    K.States (s.record kind l) (s'.record kind l') :=
  { h.moveTo (K.closing hl) .value with found := .cons ⟨kind, l, l', hl, rfl, rfl⟩ h.found }

theorem importWord (h : K.States s s') (hm : s.mode = .code) (hstart : K.FailAlike start start') :
    K.Ends K.States (s.importWord start) (s'.importWord start') := by
  refine (h.code hm).bind fun t t' ht _ htt => ?_
  have hs := Cursor.startsTrivia_of_skipTrivia ht
  rcases rest_cases htt hs with ⟨hr, hr'⟩ | ⟨x, k, k', hr, hr'⟩
  · rw [hr, hr']
    exact .ok h
  · rw [hr, hr']
    refine .ite (fun _ => ?_) fun _ => .ite (fun hq => ?_) fun _ => .ite (fun _ => ?_) fun _ => .ok h
    · have hone := K.advance_one htt hs
      have hcall := (h.moveTo hone (.punctuation '(')).pushHead false
      refine (dynamicArgument hone).bind fun o o' _ _ hoo => ?_
      cases hoo with
      | none => exact .ok hcall
      | some hll => exact .ok (hcall.record hll .dynamic)
    · have hq : t.startsQuote = true := by rw [Cursor.startsQuote_of_rest hr, hq]
      exact (K.string htt hq).bind fun l l' _ _ hll => .ok (h.record hll .declaration)
    · exact (importClause hstart htt).bind fun l l' _ _ hll => .ok (h.record hll .declaration)

theorem exportWord (h : K.States s s') (hm : s.mode = .code) (hstart : K.FailAlike start start') :
    K.Ends K.States (s.exportWord start) (s'.exportWord start') := by
  refine (h.code hm).bind fun t₀ t₀' ht₀ _ htt₀ => ?_
  have hs₀ := Cursor.startsTrivia_of_skipTrivia ht₀
  refine (skipWord htt₀ hs₀ _).bind fun t t' ht _ htt => ?_
  have hs := Cursor.startsTrivia_of_skipWord hs₀ ht
  split
  · rename_i hr
    obtain ⟨k, hr'⟩ := (opens_iff htt hs).2 ⟨_, hr⟩
    rw [hr']
    refine (K.skipTrivia (K.advance_one htt hs)).bind fun v v' hv _ hvv => ?_
    refine (exportName hstart hvv (Cursor.startsTrivia_of_skipTrivia hv)).bind
      fun w w' _ _ hww => ?_
    exact (fromClause hstart hww).bind fun l l' _ _ hll => .ok (h.record hll .reExport)
  · rename_i hr
    obtain ⟨k, hr'⟩ := (opens_iff htt hs).2 ⟨_, hr⟩
    rw [hr']
    refine (exportClauseEnd hstart (K.advance_one htt hs)).bind fun v v' _ _ hvv => ?_
    refine (K.skipTrivia hvv).bind fun w w' hw _ hww => ?_
    rw [K.wordHere hww (Cursor.startsTrivia_of_skipTrivia hw)]
    refine .ite (fun _ => ?_) fun _ => .ok (h.moveTo hvv _)
    exact (fromClause hstart hvv).bind fun l l' _ _ hll => .ok (h.record hll .reExport)
  · rename_i hstar hbrace
    split
    · rename_i hr'
      obtain ⟨k, hr⟩ := (opens_iff htt hs).1 ⟨_, hr'⟩
      exact absurd hr (hstar k)
    · rename_i hr'
      obtain ⟨k, hr⟩ := (opens_iff htt hs).1 ⟨_, hr'⟩
      exact absurd hr (hbrace k)
    · exact .ok h

theorem requireWord {before : LastToken} (h : K.States s s') (hm : s.mode = .code)
    (hstart : K.FailAlike start start')
    (hbody : ∀ u u', K.place u u' → s.cursor.skipTrivia = .ok u →
      headIs (· = '(') u.rest = true → isDefinition u'.rest = isDefinition u.rest) :
    K.Ends K.States (s.requireWord start before) (s'.requireWord start' before) := by
  refine (h.code hm).bind fun t t' ht _ htt => ?_
  have hhead := headIs_eq htt (Cursor.startsTrivia_of_skipTrivia ht) (p := (· = '('))
  simp only [head?_eq_some_iff, hhead]
  by_cases hparen : headIs (· = '(') t.rest = true
  · rw [hbody t t' htt ht hparen]
    exact .ite (fun _ => hstart.ends _) fun _ => .ok h
  · simp only [hparen]
    exact .ok h

theorem wordToken (h : K.States s s') (hm : s.mode = .code) (hc : K.place c c')
    (hs : startsTrivia c.rest = false) (hx : headIs isWordStart c.rest = true)
    (htokens : K.Tokens s.last c c') : K.Ends K.States (s.wordToken c) (s'.wordToken c') := by
  have hhere : c.wordHere = word c.rest := by rw [Cursor.wordHere_eq, if_pos hx]
  have hword : word c'.rest = word c.rest := by
    rw [← hhere, ← K.wordHere hc hs, Cursor.wordHere_eq, if_pos]
    rwa [headIs_eq hc hs]
  have hnext : K.place (c.advance (word c.rest).length) (c'.advance (word c.rest).length) := by
    rw [← hhere]
    exact K.advance_word hc hs
  have hafter := h.moveTo hnext (.word (word c.rest))
  have hstart := failAlike hc
  by_cases hname : word c.rest ∈ [importName, ImportAtlas.exportName, requireName]
  · unfold ScanState.wordToken
    rw [hword, h.last, htokens.name (hhere ▸ hname)]
    refine .ite (fun _ => .ok hafter) fun _ => .ite (fun _ => hafter.importWord hm hstart) fun _ =>
      .ite (fun _ => hafter.exportWord hm hstart) fun _ => .ite (fun hrequire => ?_) fun _ =>
      .ok hafter
    have hrequire : word c.rest = requireName := hrequire
    refine hafter.requireWord hm hstart fun u u' huu hskip => ?_
    refine htokens.body (hhere.trans hrequire) u u' huu ?_
    rw [← hrequire]
    exact hskip
  · rw [ScanState.wordToken_of_not_mem hname, ScanState.wordToken_of_not_mem (hword ▸ hname), hword]
    exact .ok hafter

theorem slashToken (h : K.States s s') (hm : s.mode = .code) (hc : K.place c c')
    (hs : startsTrivia c.rest = false) (hslash : headIs (· = '/') c.rest = true)
    (htokens : K.Tokens s.last c c') : K.States (s.slashToken c) (s'.slashToken c') := by
  have hdivision (hnone : s.last.allowsRegex = true → regex? c.rest = none)
      (hnone' : s.last.allowsRegex = true → regex? c'.rest = none) :
      K.States (s.slashToken c) (s'.slashToken c') := by
    rw [ScanState.slashToken_of_none hnone, ScanState.slashToken_of_none (h.last ▸ hnone')]
    exact h.moveTo (K.advance_one hc hs) _
  by_cases hlast : s.last.allowsRegex = true
  · have hregex := htokens.regex hlast hslash
    cases hn : regex? c.rest with
    | none =>
      rw [hn] at hregex
      generalize hn' : regex? c'.rest = o at hregex
      cases hregex
      exact hdivision (fun _ => hn) fun _ => hn'
    | some n =>
      rw [hn] at hregex
      generalize hn' : regex? c'.rest = o at hregex
      cases hregex with
      | some hnn =>
        rw [ScanState.slashToken_of_some hlast hn, ScanState.slashToken_of_some (h.last ▸ hlast) hn']
        exact h.moveOver hm hnn .value
  · exact hdivision (fun h => absurd h hlast) fun h => absurd h hlast

theorem closeBrace (h : K.States s s') (hc : K.place (c.advance 1) (c'.advance 1)) :
    K.States (s.closeBrace c) (s'.closeBrace c') := by
  unfold ScanState.closeBrace
  rw [h.depth]
  cases hdepth : s.depth with
  | succ n => exact { h.moveTo hc _ with depth := rfl }
  | zero =>
    have hsubstitutions := h.substitutions
    generalize hs : s.substitutions = subs, hs' : s'.substitutions = subs' at hsubstitutions
    cases hsubstitutions with
    | nil => exact { h.moveTo hc _ with depth := rfl }
    | cons hsub houter =>
      have hinside := h.enter (.template hsub.1) (K.skipTrivia hc) fun _ => hc
      exact { hinside with depth := hsub.2, substitutions := houter }

theorem closeParenthesis (h : K.States s s') (hc : K.place (c.advance 1) (c'.advance 1)) :
    K.States (s.closeParenthesis c) (s'.closeParenthesis c') := by
  unfold ScanState.closeParenthesis
  rw [h.heads]
  exact { h.moveTo hc _ with heads := rfl }

theorem token (h : K.States s s') (hm : s.mode = .code) (hc : K.place c c')
    (hs : startsTrivia c.rest = false) (hr : c.rest = x :: k) (htokens : K.Tokens s.last c c') :
    K.Ends K.States (s.token x c) (s'.token x c') := by
  have hone := K.advance_one hc hs
  have one (t : LastToken) := h.moveTo hone t
  have hhead {p : Char → Bool} (hx : p x = true) : headIs p c.rest = true := hr ▸ hx
  refine .ite (fun hx => .ok ?_) fun _ => .ite (fun hq => ?_) fun _ =>
    .ite (fun _ => .ok ?_) fun _ => .ite (fun _ => .ok ?_) fun _ =>
    .ite (fun _ => .ok (h.closeBrace hone)) fun _ => .ite (fun hdigit => .ok ?_) fun _ =>
    .ite (fun _ => .ok ?_) fun _ => .ite (fun _ => .ok (h.closeParenthesis hone)) fun _ =>
    .ite (fun hx => h.wordToken hm hc hs (hhead hx) htokens) fun _ => .ok (one _)
  · exact h.slashToken hm hc hs (hhead (decide_eq_true hx)) htokens
  · exact (K.string hc (hhead hq)).bind fun l l' _ _ hll => .ok (h.moveTo (K.closing hll) .value)
  · exact h.enter (.template (failAlike hc)) (K.skipTrivia hone) fun _ => hone
  · exact { one _ with depth := congrArg (· + 1) h.depth }
  · exact h.moveOver hm (htokens.number (hhead hdigit)) .value
  · rw [h.last]
    exact (one _).pushHead _

theorem templateText (h : K.States s s') (hc : K.place s.cursor s'.cursor)
    (hstart : K.FailAlike start start') :
    K.Ends K.States (s.templateText start) (s'.templateText start') := by
  have hchunk := K.chunk hc
  unfold ScanState.templateText
  rw [h.depth]
  generalize templateChunk? s.cursor.rest = o, templateChunk? s'.cursor.rest = o' at hchunk
  cases hchunk with
  | none => exact hstart.ends _
  | @some x x' hx =>
    obtain ⟨e, n⟩ := x
    obtain ⟨e', n'⟩ := x'
    obtain ⟨rfl, hn⟩ := hx
    have hcode := h.enter .code (K.skipTrivia hn) fun hne => absurd rfl hne
    cases e' with
    | closed => exact .ok { hcode with last := rfl }
    | substitution =>
      exact .ok { hcode with
        last := rfl, depth := rfl, substitutions := .cons ⟨hstart, rfl⟩ h.substitutions }

theorem step (h : K.States s s') (htokens : ∀ t t', s.mode = .code →
    s.cursor.skipTrivia = .ok t → K.place t t' → K.Tokens s.last t t') :
    K.Ends (Option.Rel K.States) s.step s'.step := by
  have hmode := h.mode
  generalize hm : s.mode = m, hm' : s'.mode = m' at hmode
  cases hmode with
  | template hstart =>
    rw [ScanState.step_template hm, ScanState.step_template hm']
    exact (h.templateText (h.text (by simp [hm])) hstart).map fun _ _ _ _ h => .some h
  | code =>
    have hempty : s'.substitutions.isEmpty = s.substitutions.isEmpty := by
      have hsubstitutions := h.substitutions
      generalize s.substitutions = subs, s'.substitutions = subs' at hsubstitutions
      cases hsubstitutions with
      | nil => rfl
      | cons => rfl
    rw [ScanState.step_code hm, ScanState.step_code hm', hempty]
    refine (h.code hm).bind fun t t' ht _ htt => ?_
    have hs := Cursor.startsTrivia_of_skipTrivia ht
    rcases rest_cases htt hs with ⟨hr, hr'⟩ | ⟨x, k, k', hr, hr'⟩
    · rw [hr, hr']
      exact .ite (fun _ => .ok .none) fun _ => (failAlike htt).ends _
    · rw [hr, hr']
      exact (h.token hm htt hs hr (htokens t t' hm ht htt)).map fun _ _ _ _ h => .some h

theorem run (h : K.States s s')
    (htokens : ∀ s₁ t t', Relation.ReflTransGen ScanState.Next s s₁ → s₁.mode = .code →
      s₁.cursor.skipTrivia = .ok t → K.place t t' → K.Tokens s₁.last t t') :
    K.Ends (List.Forall₂ K.Refers) s.run s'.run := by
  refine ScanState.run_agreeUnless
    (R := fun s₁ s₁' => K.States s₁ s₁' ∧ Relation.ReflTransGen ScanState.Next s s₁)
    (fun s₁ s₁' h => ?_) (fun _ _ h => List.forall₂_reverse_iff.2 h.1.found) ⟨h, .refl⟩
  refine (h.1.step fun t t' => htokens s₁ t t' h.2).mono fun o o' hoo => ?_
  cases hoo with
  | none => exact .none
  | some hss => exact .some fun hnext => ⟨hss, h.2.tail hnext⟩

end States

end Correspondence

end ImportAtlas
