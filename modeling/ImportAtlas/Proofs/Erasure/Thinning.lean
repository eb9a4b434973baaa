import ImportAtlas.Proofs.Erasure.Comment

/-! A scan of what comments have been erased from, in lock step with the scan of the
text: the same tokens come one after the other, wherever they stand. -/

namespace ImportAtlas

open Text Lexeme Outcome Erasure

theorem Text.Cursor.startsLine_of_headIs {c : Cursor} {p : Char → Bool}
    (h : headIs p c.before = true) (hp : p '\n' = false) : c.startsLine = false := by
  unfold startsLine
  cases hb : c.before with
  | nil => simp [hb] at h
  | cons x B =>
    rw [hb, headIs_cons] at h
    have hx : x ≠ '\n' := by
      rintro rfl
      rw [hp] at h
      contradiction
    simpa using hx

theorem Literal.Quotes.startsLine {l : Literal} {quote : Char} {body : List Char}
    (h : l.Quotes quote body) (hq : isQuote quote = true ∨ quote = '\x60') :
    l.closing.startsLine = false := by
  obtain ⟨B, hB⟩ := h.exists_before
  refine Text.Cursor.startsLine_of_headIs (p := fun x => isQuote x || x = '\x60') ?_ (by decide)
  rw [hB, headIs_cons]
  simpa using hq

theorem Text.Cursor.Finds.startsLine {l : Literal} {d : Cursor} (h : d.Finds l) :
    l.closing.startsLine = false := by
  obtain ⟨quote, body, hq, hl⟩ := h.exists_quotes
  exact hl.startsLine (.inl hq)

namespace ScanState

variable {s s' : ScanState} {c d t u start : Cursor} {A B w : List Char} {x : Char} {rest : List Char}

theorem startsLine_of_mark (hp : c.Passes [x] d) (hx : x ≠ '\n') : d.startsLine = false :=
  (Cursor.Passes.startsLine_eq (A := []) hp).trans (decide_eq_false hx)

theorem ImportStep.startsLine (h : ImportStep s t s') (hs : s.cursor.startsLine = false) :
    s'.cursor.startsLine = false := by
  cases h with
  | plain => exact hs
  | call hx =>
    obtain ⟨k, hr⟩ := exists_cons_of_headIs hx
    exact startsLine_of_mark (x := '(') (.of_rest hr) (by decide)
  | dynamic _ harg =>
    obtain ⟨T, -, -, hreads⟩ := Cursor.exists_of_dynamicArgument harg
    obtain ⟨quote, body, hq, hl⟩ := hreads.exists_quotes
    exact hl.startsLine (hq.imp_right And.left)
  | bare hl => exact hl.startsLine
  | clause _ _ _ hl => exact hl.startsLine

theorem ExportStep.startsLine (h : ExportStep s t s') (hs : s.cursor.startsLine = false) :
    s'.cursor.startsLine = false := by
  cases h with
  | plain => exact hs
  | star _ _ _ hl => exact hl.startsLine
  | @list A d v _ hA hp =>
    refine Cursor.startsLine_of_headIs (p := (· = '\x7d')) ?_ (by decide)
    change headIs _ d.before = true
    rw [hp.before_eq, headIs_append_of_ne_nil (by simpa using hA.ne_nil), hA.headIs_reverse]
  | reExport _ _ _ _ _ hl => exact hl.startsLine

theorem startsLine_of_wordToken (hr : c.rest = x :: rest) (hx : isWordStart x = true)
    (hb : isBlank x = false) (h : s.wordToken c = .ok s') : s'.cursor.startsLine = false := by
  obtain ⟨w, d, hw, hp, -, hstep⟩ := exists_wordStep hr hx hb h
  have hafter : (s.moveTo d (.word w)).cursor.startsLine = false := by
    refine Cursor.startsLine_of_headIs (p := continuesWord) ?_ (by decide)
    change headIs _ d.before = true
    rw [hp.before_eq, headIs_append_of_ne_nil (by simpa using hw.ne_nil)]
    exact headIs_reverse_of_forall hw.ne_nil hw.continues
  cases hstep with
  | plain => exact hafter
  | importing _ _ _ h => exact h.startsLine hafter
  | exporting _ _ _ _ h => exact h.startsLine hafter
  | requiring => exact hafter

theorem startsLine_slashToken (hone : (c.advance 1).startsLine = false) :
    (s.slashToken c).cursor.startsLine = false := by
  unfold slashToken
  split
  · rename_i n hn
    split at hn
    · refine Cursor.startsLine_of_headIs (p := fun c => c = '/' || isWordPart c) ?_ (by decide)
      have hflag := headIs_reverse_of_regex? hn
      change headIs _ (c.advance n).before = true
      rw [(Cursor.Passes.of_take c n).before_eq]
      rwa [headIs_append_of_ne_nil]
      rintro hnil
      rw [hnil] at hflag
      contradiction
    · contradiction
  · exact hone

theorem startsLine_number (hr : c.rest = x :: rest) (hx : x.isDigit = true) :
    (c.advance (number c.rest).length).startsLine = false := by
  refine Cursor.startsLine_of_headIs (p := fun c => isWordPart c || c = '.') ?_ (by decide)
  have hsplit : c.rest = number c.rest ++ rest.dropWhile fun d => isWordPart d || d = '.' := by
    rw [hr]
    exact congrArg _ List.takeWhile_append_dropWhile.symm
  have hne : number c.rest ≠ [] := by simp [hr, number]
  rw [(Cursor.Passes.of_rest hsplit).before_eq, headIs_append_of_ne_nil (by simpa using hne)]
  refine headIs_reverse_of_forall hne fun d hd => ?_
  rw [hr] at hd
  rcases List.mem_cons.1 hd with rfl | hd
  · simp [isWordPart, hx]
  · exact List.mem_takeWhile_imp (p := fun d => isWordPart d || d = '.') hd

theorem Next.startsLine (h : Next s s') : s'.cursor.startsLine = false := by
  cases hm : s.mode with
  | template opening =>
    obtain ⟨e, n, hn, rfl⟩ := h.exists_text hm
    obtain ⟨A, body, k, hr, rfl, rfl, -⟩ := exists_of_templateChunkFrom hn
    have hp := Cursor.Passes.of_rest hr
    rw [cursor_afterText, Nat.zero_add]
    refine Cursor.startsLine_of_headIs (p := (· ∈ ['\x60', '\x7b'])) ?_ (by decide)
    rw [hp.before_eq, List.reverse_append, List.append_assoc]
    cases e <;> rfl
  | code =>
    obtain ⟨t, x, rest, ht, hr, hs'⟩ := h.exists_token hm
    have hstart := Cursor.startsTrivia_of_skipTrivia ht
    have hb : isBlank x = false := isBlank_of_startsTrivia (hr ▸ hstart)
    have hone : (t.advance 1).startsLine = false := by
      refine startsLine_of_mark (x := x) (.of_rest hr) ?_
      rintro rfl
      exact absurd hb (by decide)
    cases tokenStep_of_token hs' with
    | slash => exact startsLine_slashToken hone
    | string hx hl =>
      obtain ⟨quote, body, hopens, rfl⟩ :=
        Cursor.exists_of_literal ((Cursor.startsQuote_of_rest hr).trans hx) hl
      exact hopens.quoted.startsLine (.inl hopens.quotes)
    | template => exact hone
    | openBrace => exact hone
    | closeBrace => rw [cursor_closeBrace]; exact hone
    | number hx => exact startsLine_number hr hx
    | openParenthesis => exact hone
    | closeParenthesis => exact hone
    | word hx hw => exact startsLine_of_wordToken hr hx hb hw
    | mark => exact hone

variable {rest? : List Char → Option (List Char)} {L : Layout}

structure Thinned (rest? : List Char → Option (List Char)) (s : ScanState) (d : Cursor) :
    Prop where
  detaches : s.Detaches rest?
  stays : Stays rest? s.cursor
  rest_eq : d.rest = remains rest? s.cursor
  points : s.cursor.PointsAlike d

namespace Thinned

theorem headIs_eq (hslash : OpensWithSlash rest?) (h : Thinned rest? s d) {p : Char → Bool} :
    headIs p d.rest = headIs p s.cursor.rest := by
  rw [h.rest_eq, headIs_remains hslash h.stays]

theorem keepsOpen (hslash : OpensWithSlash rest?) (h : Thinned rest? s d) :
    KeepsOpen s.cursor.rest d.rest := by
  rw [h.rest_eq]
  exact keepsOpen_remains hslash h.stays fun E c e B hc hE => (h.detaches E c e hc hE).escapes B

theorem skipTrivia (hslash : OpensWithSlash rest?) (h : Thinned rest? s d) (hm : s.mode = .code)
    (ht : s.cursor.skipTrivia = .ok t) :
    ∃ e, d.skipTrivia = .ok e ∧ Thinned rest? { s with cursor := t } e := by
  obtain ⟨e, he, hrest, hpoints⟩ :=
    h.detaches.exists_skipTrivia hslash hm ht (.refl _) .nil h.rest_eq h.points
  have hreach := Cursor.Reaches.of_skipTrivia ht
  have hstays := h.detaches.stays hslash hreach (Cursor.startsTrivia_of_skipTrivia ht)
  exact ⟨e, he, h.detaches.withCursor hm ht, hstays, hrest, hpoints⟩

theorem of_next (hslash : OpensWithSlash rest?) (hs : s.Detaches rest?)
    (hr : d.rest = remains rest? s.cursor) (hpoints : s.cursor.PointsAlike d)
    (hstart : s.mode = .code → startsTrivia s.cursor.rest = false) (hnext : Next s s')
    (hp : s.cursor.Passes A s'.cursor) : ∃ e, d.Passes A e ∧ Thinned rest? s' e := by
  rw [remains_append hslash (hs.spares hslash hstart hnext hp) hp] at hr
  obtain ⟨e, he, hrest⟩ := Cursor.exists_passes hr
  exact ⟨e, he, hs.next hnext, stays_of_startsLine hnext.startsLine, hrest, hpoints.passes hp he⟩

theorem of_templateText {opening : Cursor} (hslash : OpensWithSlash rest?)
    (hs : s.Detaches rest?) (hr : d.rest = remains rest? s.cursor)
    (hpoints : s.cursor.PointsAlike d) (hm : s.mode = .template opening)
    (hs' : s.templateText opening = .ok s') (hp : s.cursor.Passes A s'.cursor) :
    ∃ e, d.Passes A e ∧ Thinned rest? s' e := by
  obtain ⟨e, n, hn, rfl⟩ := templateText_eq_ok.1 hs'
  have hcode (hm' : s.mode = .code) : startsTrivia s.cursor.rest = false := by
    rw [hm] at hm'
    contradiction
  exact of_next hslash hs hr hpoints hcode (next_of_text hm hn) hp

end Thinned

theorem lookahead_thinned (hslash : OpensWithSlash rest?) : Lookahead (Thinned rest?) where
  headIs_eq := fun h => h.headIs_eq hslash
  wordHere_iff := fun h _ _ => by rw [wordHere_remains hslash h.stays h.rest_eq]
  keepsOpen := fun h => h.keepsOpen hslash
  skipTrivia := fun h hm ht => h.skipTrivia hslash hm ht
  token := fun h hm hr hstart hs' _ hp =>
    Thinned.of_next hslash h.detaches h.rest_eq h.points (fun _ => hstart)
      (next_of_token hm (Cursor.skipTrivia_self hstart) hr hs') hp
  templateText := fun h hm hs' hp =>
    Thinned.of_templateText hslash h.detaches h.rest_eq h.points hm hs' hp

theorem Thinned.keepsBody (hslash : OpensWithSlash rest?) (h : Thinned rest? s d)
    (hm : s.mode = .code)
    (hquiet : ∀ E c e, s.cursor.Reaches c → Erases rest? E c e → Quiet E) :
    s.cursor.KeepsBody d := by
  intro t t' ht ht' hdef
  obtain ⟨e, he, h⟩ := h.skipTrivia hslash hm ht
  obtain rfl := Except.ok.inj (he.symm.trans ht')
  have hreach := Cursor.Reaches.of_skipTrivia ht
  rw [h.rest_eq]
  exact bodyFollowsFrom_remains hslash (fun E c f hc hE => hquiet E c f (hreach.trans hc) hE)
    isOpen_none hdef

theorem Runs.thin (hslash : OpensWithSlash rest?) (h : Runs s L) (hs : Alike s s')
    (hd : s.Detaches rest?) (hr : s'.cursor.rest = remains rest? s.cursor) :
    ∃ L', Runs s' L' ∧ L'.names = L.names := by
  have hR := lookahead_thinned hslash
  induction h generalizing s' with
  | done hm hnil hsub =>
    refine ⟨_, .done (hs.code hm) (hr.trans (remains_of_nil hnil)) ?_, rfl⟩
    have := hs.substitutions
    rwa [hsub, List.map_nil, List.map_eq_nil_iff] at this
  | @trivia s t T L hm hp hT hne hruns ih =>
    have ht := Cursor.skipTrivia_of_passes hp hT
    obtain ⟨e, he, hrest, hpoints⟩ :=
      hd.exists_skipTrivia hslash hm ht (.refl _) .nil hr hs.points
    obtain ⟨T', hp', hT'⟩ := Cursor.skipTrivia_eq_ok.1 he
    have halike : Alike { s with cursor := t } { s' with cursor := e } :=
      ⟨hs.mode, hs.last, hs.heads, hs.depth, hs.substitutions, hpoints⟩
    obtain ⟨L', hL', hnames⟩ := ih halike (hd.withCursor hm ht) hrest
    refine ⟨_, .of_trivia (hs.code hm) hp' hT' hL', ?_⟩
    rw [Layout.names_prepend, Layout.names_prepend, hnames]
  | @token s s₁ x rest A L hm hrest hstart hs₁ hf hp hruns ih =>
    have hstays := hd.stays hslash (.refl _) hstart
    have hthin : Thinned rest? s s'.cursor := ⟨hd, hstays, hr, hs.points⟩
    obtain ⟨e, hp', hthin'⟩ := hR.token hthin hm hrest hstart hs₁ hf hp
    -- the scanner looks for a body behind `require` only, and no comment is in its way
    have hbody (hrequire : requireName <+: s.cursor.rest) (hm₁ : s₁.mode = .code) :
        s₁.cursor.KeepsBody e :=
      hthin'.keepsBody hslash hm₁ fun E c f hc hE =>
        (hd E c f (hp.reaches.trans hc) hE).quiet hrequire.isInfix
    obtain ⟨s₁', hs₁', hf', rfl, halike⟩ := hs.token hR hm hrest hstart hs₁ hf hp hp' hthin' hbody
    obtain ⟨L', hL', hnames⟩ := ih halike hthin'.detaches hthin'.rest_eq
    -- both tokens begin with the same character
    have hhead := hthin.headIs_eq hslash (p := (· = x))
    rw [hrest, headIs_cons, decide_eq_true rfl] at hhead
    obtain ⟨rest', hrest'⟩ := exists_cons_of_headIs hhead
    have hstart' : startsTrivia s'.cursor.rest = false := hr ▸ startsTrivia_remains hslash hstart hstays
    refine ⟨_, .token (hs.code hm) hrest' hstart' hs₁' hf' hp' hL', ?_⟩
    rw [Layout.names_prepend, Layout.names_prepend, hnames]
  | @record s gap body kind l quote L hm hgap hpoint hp hreads hl hq hruns ih =>
    obtain ⟨x, rest, hrest, hstart, hs₁⟩ := token_of_introduction (s := s) hgap hp hpoint hreads
    have hne : s.cursor.rest ≠ [] := by simp [hrest]
    have hnext := next_of_token hm (Cursor.skipTrivia_self hstart) hrest hs₁
    obtain ⟨e, hp', hthin'⟩ :=
      Thinned.of_next hslash hd hr hs.points (fun _ => hstart) hnext (hp.trans hl.passes)
    obtain ⟨c', hgap', hquoted⟩ := hp'.split
    have hl' := Literal.Quotes.of_rest hquoted.rest_eq
    obtain rfl : e = Literal.closing ⟨c', body.length + 2⟩ := hquoted.unique hl'.passes
    have hreads' := hR.reads_again hthin' hm hreads hl hl'
    obtain ⟨L', hL', hnames⟩ := ih (hs.record hq hl hq hl') hthin'.detaches hthin'.rest_eq
    have hpoint' := (hs.points.same hne).trans hpoint
    refine ⟨_, .record (hs.code hm) hgap hpoint' hgap' hreads' hl' hq hL', ?_⟩
    rw [Layout.names, Layout.names, hnames]
  | @templateText s s₁ opening A L hm hs₁ hp hruns ih =>
    obtain ⟨opening', hm'⟩ := hs.template hm
    obtain ⟨e, hp', hthin'⟩ := Thinned.of_templateText hslash hd hr hs.points hm hs₁ hp
    obtain ⟨s₁', hs₁', -, rfl, halike⟩ := hs.templateText opening' hs₁ hp hp'
    obtain ⟨L', hL', hnames⟩ := ih halike hthin'.detaches hthin'.rest_eq
    refine ⟨_, .templateText hm' hs₁' hp' hL', ?_⟩
    rw [Layout.names_prepend, Layout.names_prepend, hnames]

end ScanState

end ImportAtlas
