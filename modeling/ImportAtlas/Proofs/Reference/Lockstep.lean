import ImportAtlas.Proofs.Reference.Lookahead

namespace ImportAtlas

open Text Lexeme Outcome Layout

namespace Text.Cursor

variable {c c' d d' : Cursor} {A : List Char}

theorem Passes.eq_advance_one {x : Char} {rest : List Char} (hr : c.rest = x :: rest)
    (hp : c.Passes A (c.advance 1)) (hp' : c'.Passes A d') : d' = c'.advance 1 := by
  have hone : c.Passes [x] (c.advance 1) := .of_rest hr
  rw [hp'.eq_advance, hp.text_unique hone, List.length_singleton]

theorem Passes.eq_advance_number {x : Char} {rest : List Char} (hr : c.rest = x :: rest)
    (hp : c.Passes A d) (hd : d = c.advance (number c.rest).length) (hp' : c'.Passes A d')
    (hahead : ∀ p, headIs p d'.rest = headIs p d.rest) :
    d' = c'.advance (number c'.rest).length := by
  have hsplit : c.rest = number c.rest ++
      rest.dropWhile fun d => isWordPart d || d = '.' := by
    rw [hr]
    exact congrArg _ List.takeWhile_append_dropWhile.symm
  have hnumber : c.Passes (number c.rest) d := hd ▸ .of_rest hsplit
  obtain rfl := hp.text_unique hnumber
  have hend := List.append_cancel_left (hp.rest_eq.symm.trans hsplit)
  have hstop := hahead fun d => isWordPart d || d = '.'
  rw [hend, headIs_dropWhile] at hstop
  have hsame : number c'.rest = number c.rest := by
    rw [hp'.rest_eq, hr, number, List.cons_append, number,
      takeWhile_append_of_headIs (fun d hd => List.mem_takeWhile_imp hd) hstop]
  rw [hp'.eq_advance, hsame]

structure PointsAlike (c c' : Cursor) : Prop where
  last : c.rest ≠ [] → headIs (· = '.') c'.before = headIs (· = '.') c.before
  same : c.rest ≠ [] → c'.followsPoint = c.followsPoint

namespace PointsAlike

theorem of_before (h : c'.before = c.before) : PointsAlike c c' :=
  ⟨fun _ => by rw [h], fun _ => by rw [followsPoint_eq, followsPoint_eq, h]⟩

theorem advance_one {x : Char} (h : PointsAlike c c') (hp : c.Passes [x] d)
    (hp' : c'.Passes [x] d') : PointsAlike d d' := by
  have hc : c.rest ≠ [] := by simp [hp.rest_eq]
  have hlast := h.last hc
  have hsame := h.same hc
  rw [followsPoint_eq, followsPoint_eq] at hsame
  refine ⟨fun _ => by rw [hp.before_eq, hp'.before_eq]; rfl, fun _ => ?_⟩
  rw [followsPoint_eq, followsPoint_eq, hp.before_eq, hp'.before_eq, List.reverse_singleton,
    List.singleton_append, List.singleton_append, List.dropWhile_cons, List.dropWhile_cons]
  by_cases hx : isAsciiBlank x = true
  · simp only [if_pos hx, hsame]
  · simp only [if_neg hx, List.tail_cons, headIs_cons, hlast]

theorem passes (h : PointsAlike c c') (hp : c.Passes A d) (hp' : c'.Passes A d') :
    PointsAlike d d' := by
  induction A generalizing c c' with
  | nil => rwa [hp.unique (.refl c), hp'.unique (.refl c')]
  | cons x A ih =>
    obtain ⟨e, he, hp⟩ := Passes.split (A := [x]) hp
    obtain ⟨e', he', hp'⟩ := Passes.split (A := [x]) hp'
    exact ih (h.advance_one he he') hp hp'

theorem of_quotes {quote quote' : Char} {B B' : List Char} (hd : d.before = quote :: B)
    (hd' : d'.before = quote' :: B') (hquote : isAsciiBlank quote = false ∧ quote ≠ '.')
    (hquote' : isAsciiBlank quote' = false ∧ quote' ≠ '.') : PointsAlike d d' where
  last := fun _ => by simp [hd, hd', hquote.2, hquote'.2]
  same := fun _ => by simp [followsPoint_eq, hd, hd', hquote, hquote']

end PointsAlike

end Text.Cursor

theorem Literal.Quotes.exists_before {l : Literal} {quote : Char} {body : List Char}
    (h : l.Quotes quote body) : ∃ B, l.closing.before = quote :: B :=
  ⟨body.reverse ++ quote :: l.opening.before, by simp [h.passes.before_eq, quoted]⟩

theorem ReferenceKind.Allows.hides {kind : ReferenceKind} {quote : Char} (h : kind.Allows quote) :
    isAsciiBlank quote = false ∧ quote ≠ '.' := by
  rcases h with h | ⟨rfl, -⟩
  · rcases isQuote_iff.1 h with rfl | rfl <;> decide
  · decide

def Text.Cursor.KeepsBody (c c' : Cursor) : Prop :=
  ∀ t t', c.skipTrivia = .ok t → c'.skipTrivia = .ok t' → isDefinition t.rest = true →
    isDefinition t'.rest = true

def ScanMode.Alike : ScanMode → ScanMode → Prop
  | .code, .code => True
  | .template _, .template _ => True
  | _, _ => False

namespace ScanMode.Alike

variable {m m' : ScanMode}

theorem eq_code (h : m.Alike m') (hm : m = .code) : m' = .code := by
  subst hm
  cases m' with
  | code => rfl
  | template => exact h.elim

theorem exists_template {opening : Cursor} (h : m.Alike m') (hm : m = .template opening) :
    ∃ opening', m' = .template opening' := by
  subst hm
  cases m' with
  | code => exact h.elim
  | template opening' => exact ⟨opening', rfl⟩

end ScanMode.Alike

namespace ScanState

structure Alike (s s' : ScanState) : Prop where
  mode : s.mode.Alike s'.mode
  last : s'.last = s.last
  heads : s'.heads = s.heads
  depth : s'.depth = s.depth
  substitutions : s'.substitutions.map Substitution.depth = s.substitutions.map Substitution.depth
  points : s.cursor.PointsAlike s'.cursor

variable {R : ScanState → Cursor → Prop} {s s' s₁ : ScanState} {d d' t u : Cursor} {x : Char}
  {rest A : List Char} {L L' : Layout}

namespace Alike

theorem code (h : Alike s s') (hm : s.mode = .code) : s'.mode = .code := h.mode.eq_code hm

theorem template {opening : Cursor} (h : Alike s s') (hm : s.mode = .template opening) :
    ∃ opening', s'.mode = .template opening' :=
  h.mode.exists_template hm

theorem moveTo {l : LastToken} (h : Alike s s') (hp : s.cursor.Passes A d)
    (hp' : s'.cursor.Passes A d') : Alike (s.moveTo d l) (s'.moveTo d' l) :=
  ⟨h.mode, rfl, h.heads, h.depth, h.substitutions, h.points.passes hp hp'⟩

theorem slashToken (hR : Lookahead R) (h : Alike s s') (hr : s.cursor.rest = '/' :: rest)
    (hp : s.cursor.Passes A (s.slashToken s.cursor).cursor) (hp' : s'.cursor.Passes A d')
    (hd : R (s.slashToken s.cursor) d') : (s'.slashToken s'.cursor).cursor = d' ∧
      Alike (s.slashToken s.cursor) (s'.slashToken s'.cursor) := by
  rcases s.slash_cases s.cursor.rest with ⟨n, hlast, hn⟩ | hnone
  · rw [slashToken_of_some hlast hn] at hp hd ⊢
    rw [hr] at hn
    obtain ⟨B, k, rfl, rfl, hk, hall⟩ := exists_of_regex? hn
    have hB : s.cursor.Passes ('/' :: B) (s.cursor.advance (B.length + 1)) := .of_rest hr
    have hrest : (s.cursor.advance (B.length + 1)).rest = k := by simp [hr]
    obtain rfl : A = '/' :: B := hp.text_unique hB
    have hk' : headIs isWordPart d'.rest = false := by
      rw [hR.headIs_eq hd]
      exact hrest ▸ hk
    have hn' : regex? s'.cursor.rest = some (B.length + 1) := hp'.rest_eq ▸ hall _ hk'
    rw [slashToken_of_some (h.last ▸ hlast) hn']
    obtain rfl := hp'.eq_advance
    exact ⟨rfl, h.moveTo hp hp'⟩
  · rw [slashToken_of_none hnone] at hp hd ⊢
    have hone : s.cursor.Passes ['/'] (s.cursor.advance 1) := .of_rest hr
    obtain rfl : A = ['/'] := hp.text_unique hone
    have hnone' (hlast : s'.last.allowsRegex = true) : regex? s'.cursor.rest = none := by
      have hn := hnone (h.last ▸ hlast)
      rw [hone.rest_eq] at hn
      rw [hp'.rest_eq]
      exact regex?_eq_none (hR.keepsOpen hd) hn
    rw [slashToken_of_none hnone']
    obtain rfl := hp'.eq_advance
    exact ⟨rfl, h.moveTo hp hp'⟩

theorem importStep (hR : Lookahead R) (h : Alike s s') (hm : s.mode = .code)
    (ht : s.cursor.skipTrivia = .ok t) (hs₁ : ImportStep s t s₁) (hf : s₁.found = s.found)
    (hp : s.cursor.Passes A s₁.cursor) (hp' : s'.cursor.Passes A d') (hd : R s₁ d') :
    ∃ t' s₁', s'.cursor.skipTrivia = .ok t' ∧ ImportStep s' t' s₁' ∧ s₁'.found = s'.found ∧
      s₁'.cursor = d' ∧ Alike s₁ s₁' := by
  cases hs₁ with
  | plain hhead =>
    obtain rfl := hp.text_unique (.refl _)
    obtain rfl := hp'.unique (.refl _)
    obtain ⟨t', ht', hd⟩ := hR.skipTrivia hd hm ht
    exact ⟨t', s', ht', .plain ((hR.headIs_eq hd).trans hhead), rfl, rfl, h⟩
  | call hhead harg =>
    obtain ⟨k, hr⟩ := exists_cons_of_headIs hhead
    obtain ⟨T, hT, hpT, -⟩ := Cursor.exists_trivia ht (by simp [hr])
    have hparen : t.Passes ['('] (t.advance 1) := .of_rest hr
    obtain rfl : A = T ++ ['('] := hp.text_unique (hpT.trans hparen)
    obtain ⟨t', ht', hd'⟩ := hp'.split
    have hr' : t'.rest = '(' :: d'.rest := hd'.rest_eq
    have hskip := Cursor.skipTrivia_of_trivia ht' hT (by rw [hr']; rfl)
    have harg' := hR.dynamicArgument hd hm harg
    obtain rfl : d' = t'.advance 1 := hd'.eq_advance
    refine ⟨t', _, hskip, .call (by rw [hr']; rfl) harg', rfl, rfl, ?_⟩
    exact ⟨h.mode, rfl, congrArg (false :: ·) h.heads, h.depth, h.substitutions,
      h.points.passes hp hp'⟩
  | dynamic => simp [record, enterCall, ScanState.moveTo] at hf
  | bare => simp [record] at hf
  | clause => simp [record] at hf

theorem exportStep (hR : Lookahead R) (h : Alike s s') (hm : s.mode = .code)
    (hk : headIs continuesWord s.cursor.rest = false) (ht : s.cursor.skipTrivia = .ok t)
    (hu : t.skipWord typeWord = .ok u) (hs₁ : ExportStep s u s₁) (hf : s₁.found = s.found)
    (hp : s.cursor.Passes A s₁.cursor) (hp' : s'.cursor.Passes A d') (hd : R s₁ d') :
    ∃ t' u' s₁', s'.cursor.skipTrivia = .ok t' ∧ t'.skipWord typeWord = .ok u' ∧
      ExportStep s' u' s₁' ∧ s₁'.found = s'.found ∧ s₁'.cursor = d' ∧ Alike s₁ s₁' := by
  cases hs₁ with
  | plain hhead =>
    obtain rfl := hp.text_unique (.refl _)
    obtain rfl := hp'.unique (.refl _)
    obtain ⟨t', ht', hd⟩ := hR.skipTrivia hd hm ht
    obtain ⟨u', hu', hahead⟩ := hR.skipWord hd hm (Cursor.startsTrivia_of_skipTrivia ht) hu
    exact ⟨t', u', s', ht', hu', .plain ((hahead _).trans hhead), rfl, rfl, h⟩
  | @list B d v hhead hB hpB hv hfrom =>
    obtain ⟨k, hr⟩ := exists_cons_of_headIs hhead
    obtain ⟨P, hP, hpP⟩ := exists_exportPrefix hk ht hu (by simp [hr])
    have hbrace : u.Passes ['\x7b'] (u.advance 1) := .of_rest hr
    obtain rfl : A = P ++ (['\x7b'] ++ B) := hp.text_unique (hpP.trans (hbrace.trans hpB))
    obtain ⟨u', hpP', hd'⟩ := hp'.split
    obtain ⟨w', hw', hd'⟩ := hd'.split
    have hr' : u'.rest = '\x7b' :: w'.rest := hw'.rest_eq
    obtain ⟨-, t', ht', hu'⟩ := exists_skipWord hP hpP' (by rw [hr']; rfl)
    obtain rfl : w' = u'.advance 1 := hw'.eq_advance
    obtain ⟨v', hv', hd⟩ := hR.skipTrivia hd hm hv
    have hfrom' : v'.wordHere ≠ fromWord := by
      rwa [Ne, hR.wordHere_iff hd isWord_fromWord (by decide)]
    refine ⟨t', u', _, ht', hu', .list (by rw [hr']; rfl) hB hd' hv' hfrom', rfl, rfl, ?_⟩
    exact h.moveTo hp hp'
  | star => simp [record] at hf
  | reExport => simp [record] at hf

theorem requireWord {start start' : Cursor} {before : LastToken} (hR : Lookahead R)
    (hs₁ : s.requireWord start before = .ok s₁) (hm : s.mode = .code) (hd : R s s'.cursor)
    (hbody : s.cursor.KeepsBody s'.cursor) : s'.requireWord start' before = .ok s' := by
  obtain ⟨t, ht, hs₁⟩ := bind_eq_ok.1 hs₁
  obtain ⟨t', ht', hd⟩ := hR.skipTrivia hd hm ht
  have hhead := hR.headIs_eq hd (p := (· = '('))
  have hdef := hbody t t' ht ht'
  refine bind_eq_ok.2 ⟨t', ht', if_neg fun hcall => ?_⟩
  split at hs₁
  · contradiction
  · rename_i hno
    simp only [Bool.and_eq_true, Bool.not_eq_true', decide_eq_true_eq, head?_eq_some_iff,
      hhead] at hcall hno
    refine hno ⟨hcall.1, ?_⟩
    by_contra h
    rw [hdef (by simpa using h)] at hcall
    exact absurd hcall.2 (by simp)

theorem wordToken (hR : Lookahead R) (h : Alike s s') (hm : s.mode = .code)
    (hr : s.cursor.rest = x :: rest) (hx : isWordStart x = true) (hb : isBlank x = false)
    (hs₁ : s.wordToken s.cursor = .ok s₁) (hf : s₁.found = s.found)
    (hp : s.cursor.Passes A s₁.cursor) (hp' : s'.cursor.Passes A d') (hd : R s₁ d')
    (hrequire : requireName <+: s.cursor.rest → s₁.mode = .code → s₁.cursor.KeepsBody d') :
    ∃ s₁', s'.wordToken s'.cursor = .ok s₁' ∧ s₁'.found = s'.found ∧ s₁'.cursor = d' ∧
      Alike s₁ s₁' := by
  obtain ⟨w, e, hw, hpw, hk, hstep⟩ := exists_wordStep hr hx hb hs₁
  have hreach := reaches_of_wordToken hs₁
  rw [hpw.rest_eq, word_append hw hk, ← hpw.eq_advance] at hreach
  obtain ⟨B, rfl, hpB⟩ := hp.exists_append hpw hreach
  obtain ⟨e', hpw', hpB'⟩ := hp'.split
  have hk' : headIs continuesWord e'.rest = false := by
    rw [hpB'.rest_eq, headIs_append_congr (hR.headIs_eq hd), ← hpB.rest_eq, hk]
  have hafter : Alike (s.moveTo e (.word w)) (s'.moveTo e' (.word w)) := h.moveTo hpw hpw'
  have hpoint : s'.cursor.followsPoint = s.cursor.followsPoint := h.points.same (by simp [hr])
  have again {s₁' : ScanState}
      (hstep' : WordStep (s'.moveTo e' (.word w)) w s'.cursor s'.last s₁') :
      s'.wordToken s'.cursor = .ok s₁' := wordToken_of_step hw hpw' hk' hstep'
  cases hstep with
  | plain hplain =>
    obtain rfl := hpB.text_unique (.refl _)
    obtain rfl := hpB'.unique (.refl _)
    exact ⟨_, again (.plain (hpoint ▸ hplain)), rfl, rfl, hafter⟩
  | importing hno hname ht hstep =>
    obtain ⟨t', s₁', ht', hstep', hf', hcursor, halike⟩ :=
      hafter.importStep hR hm ht hstep hf hpB hpB' hd
    exact ⟨s₁', again (.importing (hpoint.trans hno) hname ht' hstep'), hf', hcursor, halike⟩
  | exporting hno hname ht hu hstep =>
    obtain ⟨t', u', s₁', ht', hu', hstep', hf', hcursor, halike⟩ :=
      hafter.exportStep hR hm hk ht hu hstep hf hpB hpB' hd
    exact ⟨s₁', again (.exporting (hpoint.trans hno) hname ht' hu' hstep'), hf', hcursor, halike⟩
  | requiring hno hname hcall =>
    obtain rfl := hpB.text_unique (.refl _)
    obtain rfl := hpB'.unique (.refl _)
    have hbody := hrequire (hname ▸ ⟨_, hpw.rest_eq.symm⟩) hm
    have hcall' : (s'.moveTo d' (.word w)).requireWord s'.cursor s'.last =
        .ok (s'.moveTo d' (.word w)) := by
      rw [h.last]
      exact requireWord hR hcall hm hd hbody
    exact ⟨_, again (.requiring (hpoint.trans hno) hname hcall'), rfl, rfl, hafter⟩

theorem closeBrace (h : Alike s s') (hr : s.cursor.rest = x :: rest)
    (hp : s.cursor.Passes A (s.cursor.advance 1)) (hp' : s'.cursor.Passes A d') :
    (s'.closeBrace s'.cursor).cursor = d' ∧
      Alike (s.closeBrace s.cursor) (s'.closeBrace s'.cursor) := by
  obtain rfl := hp.eq_advance_one hr hp'
  have hpoints := h.points.passes hp hp'
  have hsubstitutions := h.substitutions
  unfold ScanState.closeBrace
  rw [h.depth]
  cases hdepth : s.depth with
  | succ n =>
    exact ⟨rfl, h.mode, rfl, h.heads, rfl, hsubstitutions, hpoints⟩
  | zero =>
    cases hs : s.substitutions with
    | nil =>
      rw [hs, List.map_nil, List.map_eq_nil_iff] at hsubstitutions
      rw [hsubstitutions]
      exact ⟨rfl, h.mode, rfl, h.heads, rfl, h.substitutions, hpoints⟩
    | cons sub outer =>
      rw [hs, List.map_cons, List.map_eq_cons_iff] at hsubstitutions
      obtain ⟨sub', outer', hs', hsub, houter⟩ := hsubstitutions
      rw [hs']
      exact ⟨rfl, trivial, h.last, h.heads, hsub, houter, hpoints⟩

theorem token (hR : Lookahead R) (h : Alike s s') (hm : s.mode = .code)
    (hr : s.cursor.rest = x :: rest) (hstart : startsTrivia s.cursor.rest = false)
    (hs₁ : s.token x s.cursor = .ok s₁) (hf : s₁.found = s.found)
    (hp : s.cursor.Passes A s₁.cursor) (hp' : s'.cursor.Passes A d') (hd : R s₁ d')
    (hrequire : requireName <+: s.cursor.rest → s₁.mode = .code → s₁.cursor.KeepsBody d') :
    ∃ s₁', s'.token x s'.cursor = .ok s₁' ∧ s₁'.found = s'.found ∧ s₁'.cursor = d' ∧
      Alike s₁ s₁' := by
  cases tokenStep_of_token hs₁ with
  | slash hx =>
    obtain ⟨hcursor, halike⟩ := h.slashToken hR (hx ▸ hr) hp hp' hd
    exact ⟨_, token_of_step (.slash hx), found_slashToken, hcursor, halike⟩
  | @string l hx hl =>
    have hquote : s.cursor.startsQuote = true := by
      rw [Cursor.startsQuote_of_rest hr, hx]
    obtain ⟨quote, body, hopens, rfl⟩ := Cursor.exists_of_literal hquote hl
    obtain rfl := hp.text_unique hopens.quoted.passes
    have heq := hp'.eq_advance
    rw [length_quoted] at heq
    subst heq
    have hopens' : s'.cursor.Opens quote body :=
      ⟨hopens.quotes, hopens.string, _, hp'.rest_eq⟩
    exact ⟨_, token_of_step (.string hx hopens'.literal), rfl, rfl, h.moveTo hp hp'⟩
  | template hx =>
    obtain rfl := hp.eq_advance_one hr hp'
    exact ⟨_, token_of_step (.template hx), rfl, rfl, trivial, h.last, h.heads, h.depth,
      h.substitutions, h.points.passes hp hp'⟩
  | openBrace hx =>
    obtain rfl := hp.eq_advance_one hr hp'
    exact ⟨_, token_of_step (.openBrace hx), rfl, rfl, h.mode, rfl, h.heads,
      congrArg (· + 1) h.depth, h.substitutions, h.points.passes hp hp'⟩
  | closeBrace hx =>
    rw [cursor_closeBrace] at hp
    obtain ⟨hcursor, halike⟩ := h.closeBrace hr hp hp'
    exact ⟨_, token_of_step (.closeBrace hx), found_closeBrace, hcursor, halike⟩
  | number hx =>
    obtain rfl := hp.eq_advance_number hr rfl hp' fun _ => hR.headIs_eq hd
    exact ⟨_, token_of_step (.number hx), rfl, rfl, h.moveTo hp hp'⟩
  | openParenthesis hx =>
    obtain rfl := hp.eq_advance_one hr hp'
    exact ⟨_, token_of_step (.openParenthesis hx), rfl, rfl, h.mode, rfl,
      congrArg₂ List.cons (congrArg _ h.last) h.heads, h.depth, h.substitutions,
      h.points.passes hp hp'⟩
  | closeParenthesis hx =>
    obtain rfl := hp.eq_advance_one hr hp'
    refine ⟨_, token_of_step (.closeParenthesis hx), rfl, rfl, h.mode, ?_,
      congrArg List.tail h.heads, h.depth, h.substitutions, h.points.passes hp hp'⟩
    exact congrArg (fun heads : List Bool =>
      if heads.head?.getD false then LastToken.controlHead else .punctuation ')') h.heads
  | word hx hw =>
    rw [hr] at hstart
    obtain ⟨s₁', hw', hf', hcursor, halike⟩ :=
      h.wordToken hR hm hr hx (isBlank_of_startsTrivia hstart) hw hf hp hp' hd hrequire
    exact ⟨s₁', token_of_step (.word hx hw'), hf', hcursor, halike⟩
  | mark hx =>
    obtain rfl := hp.eq_advance_one hr hp'
    exact ⟨_, token_of_step (.mark hx), rfl, rfl, h.moveTo hp hp'⟩

theorem templateText {opening : Cursor} (h : Alike s s') (opening' : Cursor)
    (hs₁ : s.templateText opening = .ok s₁) (hp : s.cursor.Passes A s₁.cursor)
    (hp' : s'.cursor.Passes A d') : ∃ s₁', s'.templateText opening' = .ok s₁' ∧
      s₁'.found = s'.found ∧ s₁'.cursor = d' ∧ Alike s₁ s₁' := by
  obtain ⟨e, n, hn, rfl⟩ := templateText_eq_ok.1 hs₁
  obtain ⟨B, body, k, hr, -, rfl, hall⟩ := exists_of_templateChunkFrom hn
  rw [cursor_afterText, Nat.zero_add] at hp
  obtain rfl := hp.text_unique (.of_rest hr)
  have hn' : templateChunk? s'.cursor.rest = some (e, A.length) := by
    rw [hp'.rest_eq, templateChunk?, hall, Nat.zero_add]
  have hpoints := h.points.passes hp hp'
  obtain rfl := hp'.eq_advance
  refine ⟨_, templateText_eq_ok.2 ⟨e, A.length, hn', rfl⟩, found_afterText, cursor_afterText, ?_⟩
  rw [Nat.zero_add]
  cases e with
  | closed => exact ⟨trivial, rfl, h.heads, h.depth, h.substitutions, hpoints⟩
  | substitution =>
    exact ⟨trivial, rfl, h.heads, rfl, congrArg₂ List.cons h.depth h.substitutions, hpoints⟩

theorem withCursor (h : Alike s s') (hp : s.cursor.Passes A d) (hp' : s'.cursor.Passes A d') :
    Alike { s with cursor := d } { s' with cursor := d' } :=
  ⟨h.mode, h.last, h.heads, h.depth, h.substitutions, h.points.passes hp hp'⟩

theorem record {kind : ReferenceKind} {l l' : Literal} {quote quote' : Char}
    {body body' : List Char} (h : Alike s s') (hq : kind.Allows quote) (hl : l.Quotes quote body)
    (hq' : kind.Allows quote') (hl' : l'.Quotes quote' body') :
    Alike ((s.entering kind).record kind l) ((s'.entering kind).record kind l') := by
  obtain ⟨B, hB⟩ := hl.exists_before
  obtain ⟨B', hB'⟩ := hl'.exists_before
  have hpoints := Cursor.PointsAlike.of_quotes hB hB' hq.hides hq'.hides
  cases kind with
  | declaration => exact ⟨h.mode, rfl, h.heads, h.depth, h.substitutions, hpoints⟩
  | reExport => exact ⟨h.mode, rfl, h.heads, h.depth, h.substitutions, hpoints⟩
  | dynamic =>
    exact ⟨h.mode, rfl, congrArg (false :: ·) h.heads, h.depth, h.substitutions, hpoints⟩

end Alike

theorem Lookahead.reads {l l' : Literal} (hR : Lookahead R)
    (h : R ((s.entering .dynamic).record .dynamic l) l'.closing) (hm : s.mode = .code)
    (hl : l.opening.Reads l .dynamic) (hl' : l'.opening.PlainStep (some l')) :
    l'.opening.Reads l' .dynamic := by
  cases hl with
  | dynamic _ hv hend =>
    obtain ⟨v', hv', h⟩ := hR.skipTrivia h hm hv
    refine .dynamic (Cursor.plainLiteral_eq_ok.2 hl') hv' ?_
    rw [Cursor.endsArgument_eq, hR.headIs_eq h, ← Cursor.endsArgument_eq, hend]

theorem Lookahead.reads_again {kind : ReferenceKind} {l l' : Literal} {quote : Char}
    {body : List Char} (hR : Lookahead R) (h : R ((s.entering kind).record kind l) l'.closing)
    (hm : s.mode = .code) (hreads : l.opening.Reads l kind) (hl : l.Quotes quote body)
    (hl' : l'.Quotes quote body) : l'.opening.Reads l' kind := by
  cases hreads with
  | declaration hfinds => exact .declaration (hfinds.again hl hl')
  | reExport hfinds => exact .reExport (hfinds.again hl hl')
  | dynamic hplain hv hend =>
    exact hR.reads h hm (.dynamic hplain hv hend) ((Cursor.plainLiteral_eq_ok.1 hplain).again hl hl')

theorem Refilled.reads {kind : ReferenceKind} {l l' : Literal} {id : List Char}
    (h : ((s.entering kind).record kind l).Refilled l'.closing L L') (hm : s.mode = .code)
    (hl : l.opening.Reads l kind) (hid : ∀ c ∈ id, ModuleId.isSafe c = true)
    (hl' : l'.Quotes '"' id) : l'.opening.Reads l' kind := by
  have hopens : l'.opening.Opens '"' id :=
    ⟨by decide, ModuleId.stringBody_of_isSafe hid, _, hl'.passes.rest_eq⟩
  have hfinds := hopens.finds
  rw [← hl'.eq_mk] at hfinds
  cases kind with
  | declaration => exact .declaration hfinds
  | reExport => exact .reExport hfinds
  | dynamic => exact lookahead_refilled.reads ⟨L, L', h⟩ hm hl (.string hfinds.1 hfinds.2)

theorem not_infix_of_passes {w : List Char} (hp : s.cursor.Passes A d)
    (h : ¬ w <:+: s.cursor.rest) : ¬ w <:+: d.rest :=
  fun hw => h (hw.trans (hp.rest_eq ▸ List.suffix_append A d.rest).isInfix)

theorem Runs.refill (h : Runs s L) (hL : L.Refills L') (hs : Alike s s')
    (hr' : s'.cursor.rest = L'.text) (hrequire : ¬ requireName <:+: s.cursor.rest) :
    Runs s' L' := by
  induction h generalizing s' L' with
  | done hm _ hsub =>
    cases hL with
    | tail =>
      refine .done (hs.code hm) hr' ?_
      have := hs.substitutions
      rwa [hsub, List.map_nil, List.map_eq_nil_iff] at this
  | @trivia s t T L hm hp hT hne hruns ih =>
    have href : s.Refilled s'.cursor (L.prepend T) L' := ⟨.trivia hm hp hT hne hruns, hL, hr'⟩
    obtain ⟨e, L₁', rfl, hp', href⟩ := href.of_prepend rfl hruns
    have halike : Alike { s with cursor := t } { s' with cursor := e } := hs.withCursor hp hp'
    have hruns' := ih href.refills halike href.rest_eq (not_infix_of_passes hp hrequire)
    exact .trivia (hs.code hm) hp' (href.triviaBefore hT) hne hruns'
  | @token s s₁ x rest A L hm hr hstart hs₁ hf hp hruns ih =>
    have href : s.Refilled s'.cursor (L.prepend A) L' :=
      ⟨.token hm hr hstart hs₁ hf hp hruns, hL, hr'⟩
    have hstart' := href.agree.startsTrivia_eq.trans hstart
    obtain ⟨e, L₁', rfl, hp', href'⟩ := href.of_prepend rfl hruns
    obtain ⟨s₁', hs₁', hf', rfl, halike⟩ := hs.token lookahead_refilled hm hr hstart hs₁ hf hp hp'
      ⟨L, L₁', href'⟩ fun h => absurd h.isInfix hrequire
    have hhead := href.agree.headIs_eq (p := (· = x))
    rw [hr, headIs_cons, decide_eq_true rfl] at hhead
    obtain ⟨rest', hrest'⟩ := exists_cons_of_headIs hhead
    exact .token (hs.code hm) hrest' hstart' hs₁' hf' hp'
      (ih href'.refills halike href'.rest_eq (not_infix_of_passes hp hrequire))
  | @record s gap body kind l quote L hm hgap hpoint hp hreads hl hq hruns ih =>
    cases hL with
    | @slot _ _ id _ _ _ L' _ hbody hid hL =>
      rw [Layout.text] at hr'
      have hp' := Cursor.Passes.of_rest hr'
      have hl' := Literal.Quotes.of_rest (List.append_cancel_left (hp'.rest_eq.symm.trans hr'))
      generalize s'.cursor.advance gap.length = c' at hp' hl'
      have hclosing : (Literal.closing ⟨c', id.length + 2⟩).rest = L'.text := by
        have := hp'.rest_eq.symm.trans hr'
        have := List.append_cancel_left this
        exact List.append_cancel_left (hl'.passes.rest_eq.symm.trans this)
      have href : ((s.entering kind).record kind l).Refilled
          (Literal.closing ⟨c', id.length + 2⟩) L L' := ⟨hruns, hL, hclosing⟩
      have hreads' := href.reads hm hreads hid hl'
      -- the id is written between double quotes, whatever quotes the literal had
      have hq' : kind.Allows '"' := .inl (by decide)
      have hne : s.cursor.rest ≠ [] := by simp [hp.rest_eq, hgap.ne_nil]
      refine .record (hs.code hm) hgap ((hs.points.same hne).trans hpoint) hp' hreads' hl' hq'
        (ih hL (hs.record hq hl hq' hl') hclosing ?_)
      have hpassed : s.cursor.Passes (gap ++ quoted quote body) l.closing := hp.trans hl.passes
      exact not_infix_of_passes hpassed hrequire
  | @templateText s s₁ opening A L hm hs₁ hp hruns ih =>
    have href : s.Refilled s'.cursor (L.prepend A) L' := ⟨.templateText hm hs₁ hp hruns, hL, hr'⟩
    obtain ⟨e, L₁', rfl, hp', href⟩ := href.of_prepend rfl hruns
    obtain ⟨opening', hm'⟩ := hs.template hm
    obtain ⟨s₁', hs₁', -, rfl, halike⟩ := hs.templateText opening' hs₁ hp hp'
    exact .templateText hm' hs₁' hp'
      (ih href.refills halike href.rest_eq (not_infix_of_passes hp hrequire))

end ScanState

end ImportAtlas
