import ImportAtlas.Proofs.Declaration.Grammar

namespace ImportAtlas

open Text Lexeme Outcome

namespace ScanState

variable {s s' : ScanState} {c d t u : Cursor} {x : Char} {w : List Char}

structure Harmless (w : List Char) (d : Cursor) : Prop where
  import_ : w = importName → ∃ t, d.skipTrivia = .ok t ∧ headIs opensImport t.rest = false
  export_ : w = exportName → ∃ t u, d.skipTrivia = .ok t ∧ t.skipWord typeWord = .ok u ∧
    headIs opensExport u.rest = false
  require_ : w = requireName → ∃ t, d.skipTrivia = .ok t ∧ headIs (· = '(') t.rest = false

theorem token_of_harmless (hw : IsWord w) (hp : c.Passes w d)
    (hd : headIs continuesWord d.rest = false) (hx : headIs (· = x) w = true)
    (h : c.followsPoint = true ∨ Harmless w d) : s.token x c = .ok (s.moveTo d (.word w)) := by
  rw [token_of_word hw hx, wordToken_of_word hw hp hd]
  split
  · rfl
  · rename_i hpoint
    have h := h.resolve_left hpoint
    split
    · rename_i himport
      obtain ⟨t, ht, hhead⟩ := h.import_ himport
      exact importWord_of_step ht (.plain hhead)
    · split
      · rename_i hexport
        obtain ⟨t, u, ht, hu, hhead⟩ := h.export_ hexport
        exact exportWord_of_step ht hu (.plain hhead)
      · split
        · rename_i hrequire
          obtain ⟨t, ht, hhead⟩ := h.require_ hrequire
          have hparen : t.rest.head? ≠ some '(' := by
            intro heq
            rw [headIs, heq] at hhead
            contradiction
          rw [requireWord]
          refine bind_eq_ok.2 ⟨t, ht, ?_⟩
          rw [if_neg (by simp [hparen])]
          rfl
        · rfl

structure Plain (s : ScanState) : Prop where
  code : s.mode = .code
  closed : s.substitutions = []

theorem Plain.token_mark (hs : s.Plain) (hx : x ∈ ['*', '\x7b', '\x7d', ',', ';']) :
    ∃ s', s.token x c = .ok s' ∧ s'.found = s.found ∧ s'.cursor = c.advance 1 ∧ s'.Plain := by
  simp only [List.mem_cons, List.not_mem_nil, or_false] at hx
  rcases hx with rfl | rfl | rfl | rfl | rfl
  · exact ⟨_, rfl, rfl, rfl, hs.code, hs.closed⟩
  · exact ⟨_, rfl, rfl, rfl, hs.code, hs.closed⟩
  · refine ⟨s.closeBrace c, rfl, ?_⟩
    unfold closeBrace
    split
    · rename_i heq
      rw [hs.closed] at heq
      contradiction
    · exact ⟨rfl, rfl, hs.code, hs.closed⟩
  · exact ⟨_, rfl, rfl, rfl, hs.code, hs.closed⟩
  · exact ⟨_, rfl, rfl, rfl, hs.code, hs.closed⟩

/-- From one state the scanner comes to another over `A` and a literal, which is
recorded if there is a kind. -/
structure Leads (s : ScanState) (kind? : Option ReferenceKind) (A : List Char) (quote : Char)
    (body : List Char) (s' : ScanState) : Prop where
  plain : s'.Plain
  passes : s.cursor.Passes (A ++ quoted quote body) s'.cursor
  runs : ∀ L, Runs s' L → Runs s (.literal kind? A quote body L)

variable {kind? : Option ReferenceKind} {A B T body : List Char} {quote : Char}

theorem prepend_literal {L : Layout} :
    (Layout.literal kind? A quote body L).prepend B = .literal kind? (B ++ A) quote body L := by
  cases kind? with
  | none => simp [Layout.literal]
  | some => rfl

theorem Leads.trivia (hs : s.Plain) (hp : s.cursor.Passes T t) (hT : Trivia T)
    (ht : startsTrivia t.rest = false)
    (h : Leads { s with cursor := t } kind? A quote body s') :
    Leads s kind? (T ++ A) quote body s' where
  plain := h.plain
  passes := by
    rw [List.append_assoc]
    exact hp.trans h.passes
  runs L hL := by
    rw [← prepend_literal]
    exact .of_trivia hs.code hp (.closed hT ht) (h.runs L hL)

theorem Leads.token {s₁ : ScanState} {rest : List Char} (hs : s.Plain)
    (hr : s.cursor.rest = x :: rest) (ht : startsTrivia s.cursor.rest = false)
    (hs₁ : s.token x s.cursor = .ok s₁) (hf : s₁.found = s.found)
    (hp : s.cursor.Passes B s₁.cursor) (h : Leads s₁ kind? A quote body s') :
    Leads s kind? (B ++ A) quote body s' where
  plain := h.plain
  passes := by
    rw [List.append_assoc]
    exact hp.trans h.passes
  runs L hL := by
    rw [← prepend_literal]
    exact .token hs.code hr ht hs₁ hf hp (h.runs L hL)

theorem Leads.string (hs : s.Plain) (h : s.cursor.Opens quote body) :
    ∃ s', Leads s none [] quote body s' := by
  obtain ⟨k, hr⟩ := h.rest_eq
  have hp := h.quoted.passes
  exact ⟨s.moveTo (s.cursor.advance (body.length + 2)) .value, ⟨hs.code, hs.closed⟩, hp,
    fun L hL => .token hs.code (hr.trans (quoted_append quote body)) h.startsTrivia
      (token_string h) rfl hp hL⟩

theorem Leads.record {kind : ReferenceKind} {e : Cursor} (hs : s.Plain)
    (hA : Introduction kind A) (hkind : kind ≠ .dynamic) (hpoint : s.cursor.followsPoint = false)
    (hp : s.cursor.Passes A e) (he : e.Opens quote body) :
    ∃ s', Leads s (some kind) A quote body s' := by
  have hl := he.quoted
  have hfinds := he.finds
  have hreads : e.Reads ⟨e, body.length + 2⟩ kind := by
    cases kind with
    | declaration => exact .declaration hfinds
    | reExport => exact .reExport hfinds
    | dynamic => contradiction
  have hentering : s.entering kind = s := by
    cases kind with
    | declaration => rfl
    | reExport => rfl
    | dynamic => contradiction
  refine ⟨s.record kind ⟨e, body.length + 2⟩, ⟨hs.code, hs.closed⟩, hp.trans hl.passes,
    fun L hL => .record hs.code hA hpoint hp hreads hl (.inl he.quotes) ?_⟩
  rwa [hentering]

end ScanState

namespace Declaration

open Token Spaced ScanState

variable {s s' : ScanState} {d e t : Cursor} {tok : Token} {sp : Spaced} {ss : List Spaced}
  {U : List Char}

theorem continuesWord_of_passes (hjoin : headIs continuesWord (texts ss) = false) (hU : Trivia U)
    (hp : d.Passes (texts ss ++ U) e) (he : e.startsQuote = true) :
    headIs continuesWord d.rest = false := by
  rw [hp.rest_eq]
  by_cases hnil : texts ss = []
  · rw [hnil, List.nil_append, hU.headIs_continuesWord (Cursor.continuesWord_of_startsQuote he)]
  · rw [List.append_assoc, headIs_append_of_ne_nil hnil, hjoin]

theorem exists_next (hs : WellSpaced (sp :: ss)) (hv : sp.token.Valid) (hU : Trivia U)
    (hp : d.Passes (texts (sp :: ss) ++ U) e) (he : e.startsQuote = true) :
    ∃ t v, d.skipTrivia = .ok t ∧ d.Passes sp.trivia t ∧ t.Passes sp.token.text v ∧
      ClauseItem v.rest sp.token.text ∧ v.Passes (texts ss ++ U) e := by
  rw [texts_cons, List.append_assoc] at hp
  obtain ⟨v, hv', hp⟩ := hp.split
  obtain ⟨t, ht, hv'⟩ := hv'.split
  have hI : ClauseItem v.rest sp.token.text :=
    hv.clauseItem fun w hw => continuesWord_of_passes (hs.2.1 w hw) hU hp he
  exact ⟨t, v, Cursor.skipTrivia_of_item ht hs.1 hv' hI, ht, hv', hI, hp⟩

theorem headIs_of_item {v : Cursor} {I : List Char} {p : Char → Bool} (hv : t.Passes I v)
    (hI : ClauseItem v.rest I) : headIs p t.rest = headIs p I := by
  rw [hv.rest_eq, headIs_append_of_ne_nil hI.ne_nil]

theorem Token.Calm.opensImport (h : Calm tok) (hopen : opening importToken (some tok) = none) :
    headIs opensImport tok.text = false := by
  cases h with
  | asToken => exact absurd hopen (by decide)
  | fromToken => exact absurd hopen (by decide)
  | comma => decide
  | brace => decide

theorem Token.Calm.opensExport (h : Calm tok) : headIs opensExport tok.text = false := by
  cases h <;> decide

theorem Token.Calm.opening_import {kind : ReferenceKind} (h : Calm tok)
    (hopen : opening importToken (some tok) = some kind) :
    kind = .declaration ∧ headIs ScanState.opensClause tok.text = true := by
  cases h with
  | asToken => exact ⟨(Option.some.inj hopen).symm, by decide⟩
  | fromToken => exact ⟨(Option.some.inj hopen).symm, by decide⟩
  | comma => cases hopen
  | brace => cases hopen

theorem Token.Calm.opening_export (h : Calm tok) : opening exportToken (some tok) = none := by
  cases h <;> decide

theorem Token.Calm.ne_typeWord (h : Calm tok) : tok.text ≠ typeWord := by
  cases h <;> decide

theorem harmless_of_chain {w : List Char} (hs : WellSpaced ss)
    (hc : Chain (.word w :: ss.map Spaced.token))
    (hlast : (Token.word w :: ss.map Spaced.token).getLast? = some fromToken) (hU : Trivia U)
    (hp : d.Passes (texts ss ++ U) e) (he : e.startsQuote = true)
    (hopen : opening (.word w) (ss.head?.map Spaced.token) = none) : Harmless w d := by
  obtain ⟨-, hcalm, hcs⟩ := hc
  cases ss with
  | nil =>
    obtain rfl : w = fromWord := by simpa [fromToken] using hlast
    exact ⟨fun h => absurd h (by decide), fun h => absurd h (by decide),
      fun h => absurd h (by decide)⟩
  | cons sp ss =>
    obtain ⟨t, v, ht, -, hv, hI, -⟩ := exists_next hs hcs.1 hU hp he
    refine ⟨?_, ?_, ?_⟩
    · rintro rfl
      refine ⟨t, ht, ?_⟩
      rw [headIs_of_item hv hI]
      exact (hcalm (.inl rfl) sp.token rfl).opensImport hopen
    · rintro rfl
      have hcalm := hcalm (.inr (.inl rfl)) sp.token rfl
      refine ⟨t, t, ht, if_neg ?_, ?_⟩
      · rw [hI.wordHere_eq_iff hv.rest_eq isWord_typeWord]
        exact hcalm.ne_typeWord
      · rw [headIs_of_item hv hI, hcalm.opensExport]
    · rintro rfl
      refine ⟨t, ht, ?_⟩
      rw [headIs_of_item hv hI]
      refine hcs.1.headIs_eq_false fun c hc => ?_
      rw [decide_eq_true_eq] at hc
      subst hc
      decide

theorem leads_token (hs : s.Plain) (hv : tok.Valid) (hp : s.cursor.Passes tok.text d)
    (hI : ClauseItem d.rest tok.text)
    (h : ∀ w, tok = .word w → s.cursor.followsPoint = true ∨ Harmless w d) {A body : List Char}
    {quote : Char} {kind? : Option ReferenceKind}
    (hd : ∀ s₁ : ScanState, s₁.Plain → s₁.cursor = d →
      ∃ s', Leads s₁ kind? A quote body s') :
    ∃ s', Leads s kind? (tok.text ++ A) quote body s' := by
  suffices ∃ x rest s₁, s.cursor.rest = x :: rest ∧ s.token x s.cursor = .ok s₁ ∧
      s₁.found = s.found ∧ s₁.Plain ∧ s₁.cursor = d by
    obtain ⟨x, rest, s₁, hr, hs₁, hf, hplain, rfl⟩ := this
    obtain ⟨s', hs'⟩ := hd s₁ hplain rfl
    exact ⟨s', hs'.token hs hr (hp.rest_eq ▸ hI.startsTrivia) hs₁ hf hp⟩
  cases hv with
  | @word w hw =>
    obtain ⟨x, w', rfl⟩ := List.exists_cons_of_ne_nil hw.ne_nil
    refine ⟨x, w' ++ d.rest, s.moveTo d (.word (x :: w')), hp.rest_eq, ?_, rfl,
      ⟨hs.code, hs.closed⟩, rfl⟩
    exact token_of_harmless hw hp (hI.headIs_continuesWord hw) (by simp) (h _ rfl)
  | @mark c hc =>
    have hc : c ∈ ['*', '\x7b', '\x7d', ',', ';'] := List.mem_append_left [';'] hc
    obtain ⟨s₁, hs₁, hf, hcursor, hplain⟩ := hs.token_mark (c := s.cursor) hc
    exact ⟨c, d.rest, s₁, hp.rest_eq, hs₁, hf, hplain, hcursor.trans hp.eq_advance.symm⟩
  | @string q b hq hb =>
    have hd := hp.eq_advance
    rw [Token.text, length_quoted] at hd
    refine ⟨q, b ++ q :: d.rest, s.moveTo d .value, hp.rest_eq.trans (quoted_append q b),
      ?_, rfl, ⟨hs.code, hs.closed⟩, rfl⟩
    rw [hd]
    exact token_string ⟨hq, hb, _, hp.rest_eq⟩

theorem endsInPoint_eq {A : List Char} (hp : s.cursor.Passes A t) :
    endsInPoint (s.cursor.before.reverse ++ A) = t.followsPoint := by
  rw [endsInPoint, List.reverse_append, List.reverse_reverse, ← hp.before_eq]
  rfl

theorem before_of_passes {A : List Char} {c : Cursor} (hp : c.Passes A t) :
    t.before.reverse = c.before.reverse ++ A := by
  rw [hp.before_eq, List.reverse_append, List.reverse_reverse]

variable {quote : Char} {body : List Char}

theorem introduction_import (hs : WellSpaced (sp :: ss)) (hc : Chain ((sp :: ss).map Spaced.token))
    (hlast : ((sp :: ss).map Spaced.token).getLast? = some fromToken) (hU : Trivia U)
    (hopens : headIs opensClause sp.token.text = true)
    (hjoin : headIs continuesWord (texts (sp :: ss)) = false) :
    Introduction .declaration (importName ++ (texts (sp :: ss) ++ U)) := by
  have hI : ClauseItem [] sp.token.text := hc.1.clauseItem fun _ _ => rfl
  have hspaced : WellSpaced (⟨[], sp.token⟩ :: ss) := ⟨.nil, hs.2⟩
  have hclause : Clause false (texts (⟨[], sp.token⟩ :: ss) ++ U) :=
    clause_of_chain hspaced hc hlast hU nofun
  rw [texts_cons, List.append_assoc, List.nil_append] at hclause
  have hblank : headIs isBlank sp.token.text = false := by
    have := headIs_blank_of_startsTrivia hI.startsTrivia
    rwa [List.append_nil] at this
  have hne : texts (sp :: ss) ≠ [] := by simp [texts_cons, hI.ne_nil]
  have htexts : texts (sp :: ss) ++ U = sp.trivia ++ (sp.token.text ++ (texts ss ++ U)) := by
    rw [texts_cons]
    simp
  rw [← headIs_append_of_ne_nil hne (k := U), htexts] at hjoin
  rw [htexts]
  refine .clause hs.1 hjoin ?_ ?_ hclause
  · rw [headIs_append_of_ne_nil hI.ne_nil, hopens]
  · rw [headIs_append_of_ne_nil hI.ne_nil, hblank]

theorem opening_of_chain {kind : ReferenceKind} (hc : Chain (tok :: ss.map Spaced.token))
    (hlast : (tok :: ss.map Spaced.token).getLast? = some fromToken)
    (hopen : opening tok (ss.head?.map Spaced.token) = some kind) :
    tok = importToken ∧ kind = .declaration ∧
      ∃ sp ss', ss = sp :: ss' ∧ headIs opensClause sp.token.text = true := by
  obtain ⟨-, hcalm, -⟩ := hc
  by_cases himport : tok = importToken
  · subst himport
    cases ss with
    | nil => exact absurd hlast (by decide)
    | cons sp ss =>
      obtain ⟨hkind, hopens⟩ := (hcalm (.inl rfl) sp.token rfl).opening_import hopen
      exact ⟨rfl, hkind, sp, ss, rfl, hopens⟩
  · by_cases hexport : tok = exportToken
    · subst hexport
      cases ss with
      | nil => exact absurd hlast (by decide)
      | cons sp ss =>
        rw [List.head?_cons, Option.map_some,
          (hcalm (.inr (.inl rfl)) sp.token rfl).opening_export] at hopen
        contradiction
    · unfold opening at hopen
      rw [if_neg himport, if_neg hexport] at hopen
      contradiction

theorem leads_step (hs : WellSpaced (sp :: ss)) (hv : sp.token.Valid) (hU : Trivia U)
    (he : e.Opens quote body) (hplain : s.Plain)
    (hp : s.cursor.Passes (texts (sp :: ss) ++ U) e)
    (hrest : ∀ s₁ : ScanState, s₁.Plain → s₁.cursor.Passes (texts ss ++ U) e →
      ∃ s', Leads s₁ (sighted s₁.cursor.before.reverse ss) (texts ss ++ U) quote body s')
    (hnone : opening sp.token (ss.head?.map Spaced.token) = none →
      ∀ w d, sp.token = .word w → d.Passes (texts ss ++ U) e → Harmless w d)
    (hsome : ∀ kind, opening sp.token (ss.head?.map Spaced.token) = some kind →
      kind ≠ .dynamic ∧ Introduction kind (sp.token.text ++ (texts ss ++ U))) :
    ∃ s', Leads s (sighted s.cursor.before.reverse (sp :: ss)) (texts (sp :: ss) ++ U) quote body
      s' := by
  have hstarts := he.startsQuote
  obtain ⟨t, v, ht, hpt, hv', hI, hpv⟩ := exists_next hs hv hU hp hstarts
  have hstart : startsTrivia t.rest = false := hv'.rest_eq ▸ hI.startsTrivia
  have hsplit : texts (sp :: ss) ++ U = sp.trivia ++ (sp.token.text ++ (texts ss ++ U)) := by
    rw [texts_cons]
    simp
  rw [hsplit]
  suffices ∃ s', Leads { s with cursor := t } (sighted s.cursor.before.reverse (sp :: ss))
      (sp.token.text ++ (texts ss ++ U)) quote body s' by
    obtain ⟨s', hs'⟩ := this
    exact ⟨s', hs'.trivia hplain hpt hs.1 hstart⟩
  have hplain' : ({ s with cursor := t } : ScanState).Plain := ⟨hplain.code, hplain.closed⟩
  -- a token that records nothing, be it an opening that a point hides
  have pass (h : ∀ w, sp.token = .word w → t.followsPoint = true ∨ Harmless w v) :
      ∃ s', Leads { s with cursor := t } (sighted (s.cursor.before.reverse ++ sp.text) ss)
        (sp.token.text ++ (texts ss ++ U)) quote body s' := by
    refine leads_token hplain' hv hv' hI h fun s₁ hs₁ hcursor => ?_
    rw [Spaced.text, ← before_of_passes (hpt.trans hv'), ← hcursor]
    rw [← hcursor] at hpv
    exact hrest s₁ hs₁ hpv
  rw [sighted]
  split
  · rename_i kind hopen
    split
    · rename_i hpoint
      rw [endsInPoint_eq hpt] at hpoint
      exact pass fun _ _ => .inl hpoint
    · rename_i hpoint
      rw [endsInPoint_eq hpt, Bool.not_eq_true] at hpoint
      obtain ⟨hkind, hA⟩ := hsome kind hopen
      exact Leads.record hplain' hA hkind hpoint (hv'.trans hpv) he
  · rename_i hopen
    exact pass fun w hw => .inr (hnone hopen w v hw hpv)

theorem leads_of_chain (hs : WellSpaced ss) (hc : Chain (ss.map Spaced.token))
    (hlast : ss ≠ [] → (ss.map Spaced.token).getLast? = some fromToken) (hU : Trivia U)
    (he : e.Opens quote body) (hplain : s.Plain) (hp : s.cursor.Passes (texts ss ++ U) e) :
    ∃ s', Leads s (sighted s.cursor.before.reverse ss) (texts ss ++ U) quote body s' := by
  have hstarts := he.startsQuote
  induction ss generalizing s with
  | nil =>
    have hskip := Cursor.startsTrivia_of_startsQuote hstarts
    rw [texts, List.flatMap_nil, List.nil_append] at hp ⊢
    obtain ⟨s', hs'⟩ := Leads.string (s := { s with cursor := e }) ⟨hplain.code, hplain.closed⟩ he
    refine ⟨s', ?_⟩
    have := Leads.trivia hplain hp hU hskip hs'
    rwa [List.append_nil] at this
  | cons sp ss ih =>
    have hlast := hlast (by simp)
    refine leads_step hs hc.1 hU he hplain hp ?_ ?_ ?_
    · refine fun s₁ hs₁ hp₁ => ih hs.2.2 hc.2.2 (fun hne => ?_) hs₁ hp₁
      obtain ⟨sp', ss', rfl⟩ := List.exists_cons_of_ne_nil hne
      simpa using hlast
    · intro hopen w d hw hd
      rw [List.map_cons, hw] at hc hlast
      rw [hw] at hopen
      exact harmless_of_chain hs.2.2 hc hlast hU hd hstarts hopen
    · intro kind hopen
      obtain ⟨htok, rfl, sp', ss', rfl, hopens⟩ := opening_of_chain hc hlast hopen
      have himport : sp.token.text = importName := by rw [htok]; rfl
      rw [himport]
      refine ⟨by decide, introduction_import hs.2.2 hc.2.2 ?_ hU hopens (hs.2.1 _ htok)⟩
      simpa using hlast

theorem exists_cons_of_named {ts : List Token} (h : IsNamed ts) :
    ∃ t ts', ts = t :: ts' ∧ headIs opensClause t.text = true ∧
      opening importToken (some t) = some .declaration := by
  cases h with
  | star => exact ⟨_, _, rfl, by decide, by decide⟩
  | bindings => exact ⟨_, _, rfl, by decide, by decide⟩

theorem exists_cons_of_name {n : Token} {ts : List Token} (h : IsName n) :
    ∃ t ts', n :: ts = t :: ts' ∧ headIs opensClause t.text = true ∧
      opening importToken (some t) = some .declaration := by
  cases h with
  | word hw =>
    obtain ⟨c, w, rfl⟩ := List.exists_cons_of_ne_nil hw.ne_nil
    have hc : isWordStart c = true := hw.start
    exact ⟨_, _, rfl, by simp [Token.text, opensClause, hc], rfl⟩

theorem exists_cons_of_clause {ts : List Token} (h : IsImportClause ts) :
    ∃ t ts', ts = t :: ts' ∧ headIs opensClause t.text = true ∧
      opening importToken (some t) = some .declaration := by
  cases h with
  | default hn => exact exists_cons_of_name hn
  | named h => exact exists_cons_of_named h
  | both hn => exact exists_cons_of_name hn

theorem valid_importToken : importToken.Valid := .word isWord_importName

theorem valid_exportToken : exportToken.Valid := .word isWord_exportName

theorem leads_of_importForm (hsp : sp.token = importToken)
    (hss : ss = [] ∨ ∃ ts, IsImportClause ts ∧ ss.map Spaced.token = ts ++ [fromToken])
    (hs : WellSpaced (sp :: ss)) (hU : Trivia U)
    (he : e.Opens quote body) (hplain : s.Plain) (hp : s.cursor.Passes (texts (sp :: ss) ++ U) e) :
    ∃ s', Leads s (sighted s.cursor.before.reverse (sp :: ss)) (texts (sp :: ss) ++ U) quote body
      s' := by
  have hv : sp.token.Valid := hsp ▸ valid_importToken
  have himport : sp.token.text = importName := by rw [hsp]; rfl
  rcases hss with rfl | ⟨ts, hclause, htokens⟩
  · refine leads_step hs hv hU he hplain hp ?_ ?_ ?_
    · exact fun s₁ hs₁ hp₁ => leads_of_chain hs.2.2 .intro (by simp) hU he hs₁ hp₁
    · rw [hsp]
      exact fun h => nomatch h
    · intro kind hopen
      rw [hsp] at hopen
      cases hopen
      rw [himport]
      exact ⟨by decide, .bare hU⟩
  · have hchain : Chain (ss.map Spaced.token) := htokens ▸ .clause hclause
    have hlast : (ss.map Spaced.token).getLast? = some fromToken := by simp [htokens]
    obtain ⟨t, ts', rfl, hopens, hopening⟩ := exists_cons_of_clause hclause
    obtain ⟨sp', ss', rfl, rfl, -⟩ := List.map_eq_cons_iff.1 htokens
    refine leads_step hs hv hU he hplain hp ?_ ?_ ?_
    · exact fun s₁ hs₁ hp₁ => leads_of_chain hs.2.2 hchain (fun _ => hlast) hU he hs₁ hp₁
    · intro hopen
      rw [hsp, List.head?_cons, Option.map_some, hopening] at hopen
      cases hopen
    · intro kind hopen
      rw [hsp, List.head?_cons, Option.map_some, hopening] at hopen
      cases hopen
      rw [himport]
      exact ⟨by decide, introduction_import hs.2.2 hchain hlast hU hopens (hs.2.1 _ hsp)⟩

inductive IsExportTail : List Token → Prop
  | all : IsExportTail [mark '*', fromToken]
  | star {n : Token} : IsBindingName n → IsExportTail [mark '*', asToken, n, fromToken]
  | bindings {bs : List Token} : IsBindingList bs →
      IsExportTail (mark '\x7b' :: (bs ++ [mark '\x7d', fromToken]))

theorem IsExportTail.chain {ts : List Token} (h : IsExportTail ts) : Chain ts := by
  cases h with
  | all => exact .mark (by decide) .fromToken
  | star hn =>
    refine .mark (by decide) (.asToken (.name hn ?_ .fromToken))
    rintro u ⟨⟩
    exact .fromToken
  | bindings hb =>
    refine .mark (by decide) (.bindingList hb ?_ (.mark (by decide) .fromToken))
    rintro u ⟨⟩
    exact .brace

theorem IsExportTail.getLast? {ts : List Token} (h : IsExportTail ts) :
    ts.getLast? = some fromToken := by
  cases h with
  | all => rfl
  | star => rfl
  | bindings => simp [List.getLast?_cons]

theorem IsExportTail.introduction {ts : List Token} (h : IsExportTail ts)
    (hss : ss.map Spaced.token = ts) (hs : WellSpaced ss) (hU : Trivia U) :
    Introduction .reExport (exportName ++ (texts ss ++ U)) := by
  cases h with
  | all =>
    obtain ⟨sp, ss, rfl, hsp, hrest⟩ := List.map_eq_cons_iff.1 hss
    rw [texts_cons, hsp, List.append_assoc, List.append_assoc]
    exact .star (.bare hs.1) (starClause_of_tokens hs.2.2 (.inl hrest) hU)
  | star hn =>
    obtain ⟨sp, ss, rfl, hsp, hrest⟩ := List.map_eq_cons_iff.1 hss
    rw [texts_cons, hsp, List.append_assoc, List.append_assoc]
    exact .star (.bare hs.1) (starClause_of_tokens hs.2.2 (.inr ⟨_, hn, hrest⟩) hU)
  | bindings hbs =>
    obtain ⟨sp, ss, rfl, hsp, hrest⟩ := List.map_eq_cons_iff.1 hss
    obtain ⟨A, rest, htexts, hA, hspaced, hfrom⟩ :=
      exists_exportList (Chain.valid_of_bindingList hbs) hs.2.2 hrest
    rw [texts_cons, hsp, htexts, List.append_assoc, List.append_assoc, List.append_assoc]
    exact .bindings (.bare hs.1) hA (fromClause_of_tokens hspaced hfrom hU)

theorem IsExportTail.exists_cons {ts : List Token} (h : IsExportTail ts) :
    ∃ t ts', ts = t :: ts' ∧ opening exportToken (some t) = some .reExport := by
  cases h with
  | all => exact ⟨_, _, rfl, rfl⟩
  | star => exact ⟨_, _, rfl, rfl⟩
  | bindings => exact ⟨_, _, rfl, rfl⟩

theorem leads_of_exportForm (hsp : sp.token = exportToken)
    (hss : IsExportTail (ss.map Spaced.token)) (hs : WellSpaced (sp :: ss)) (hU : Trivia U)
    (he : e.Opens quote body) (hplain : s.Plain) (hp : s.cursor.Passes (texts (sp :: ss) ++ U) e) :
    ∃ s', Leads s (sighted s.cursor.before.reverse (sp :: ss)) (texts (sp :: ss) ++ U) quote body
      s' := by
  have hv : sp.token.Valid := hsp ▸ valid_exportToken
  have hexport : sp.token.text = exportName := by rw [hsp]; rfl
  obtain ⟨t, ts, htokens, hopening⟩ := hss.exists_cons
  obtain ⟨sp', ss', rfl, rfl, -⟩ := List.map_eq_cons_iff.1 htokens
  refine leads_step hs hv hU he hplain hp ?_ ?_ ?_
  · exact fun s₁ hs₁ hp₁ =>
      leads_of_chain hs.2.2 hss.chain (fun _ => hss.getLast?) hU he hs₁ hp₁
  · intro hopen
    rw [hsp, List.head?_cons, Option.map_some, hopening] at hopen
    cases hopen
  · intro kind hopen
    rw [hsp, List.head?_cons, Option.map_some, hopening] at hopen
    cases hopen
    rw [hexport]
    exact ⟨by decide, hss.introduction rfl hs.2.2 hU⟩

theorem leads_of_form {kind : ReferenceKind} (hform : IsForm kind (ss.map Spaced.token))
    (hs : WellSpaced ss) (hU : Trivia U) (he : e.Opens quote body)
    (hplain : s.Plain)
    (hp : s.cursor.Passes (texts ss ++ U) e) :
    ∃ s', Leads s (sighted s.cursor.before.reverse ss) (texts ss ++ U) quote body s' := by
  generalize htokens : ss.map Spaced.token = ts at hform
  cases hform with
  | bare =>
    obtain ⟨sp, ss, rfl, hsp, hrest⟩ := List.map_eq_cons_iff.1 htokens
    exact leads_of_importForm hsp (.inl (List.map_eq_nil_iff.1 hrest)) hs hU he hplain hp
  | clause hclause =>
    obtain ⟨sp, ss, rfl, hsp, hrest⟩ := List.map_eq_cons_iff.1 htokens
    exact leads_of_importForm hsp (.inr ⟨_, hclause, hrest⟩) hs hU he hplain hp
  | all =>
    obtain ⟨sp, ss, rfl, hsp, hrest⟩ := List.map_eq_cons_iff.1 htokens
    exact leads_of_exportForm hsp (hrest ▸ .all) hs hU he hplain hp
  | star hn =>
    obtain ⟨sp, ss, rfl, hsp, hrest⟩ := List.map_eq_cons_iff.1 htokens
    exact leads_of_exportForm hsp (hrest ▸ .star hn) hs hU he hplain hp
  | bindings hbs =>
    obtain ⟨sp, ss, rfl, hsp, hrest⟩ := List.map_eq_cons_iff.1 htokens
    exact leads_of_exportForm hsp (hrest ▸ .bindings hbs) hs hU he hplain hp

end Declaration

end ImportAtlas
