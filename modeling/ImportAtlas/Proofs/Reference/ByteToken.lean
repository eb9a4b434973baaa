import ImportAtlas.Proofs.Reference.ByteDeclaration
import ImportAtlas.Proofs.Reference.Keyword

namespace ImportAtlas

open Text Lexeme Outcome

namespace ByteScan

inductive Denotes (text : List Char) : Token → LastToken → Prop
  | none : Denotes text .none .none
  | punctuation {x : Char} : Denotes text (.punctuation x) (.punctuation x)
  | word {c d : Cursor} {w : List Char} : c.text = text → c.Passes w d →
      Denotes text (.word c.offset d.offset) (.word w)
  | value : Denotes text .value .value
  | controlHead : Denotes text .controlHead .controlHead

structure Tracks (text : List Char) (s : ScanState) (σ : State) : Prop where
  place : Places text s.cursor σ.pos
  last : Denotes text σ.last s.last
  heads : σ.heads = s.heads
  found : σ.found = s.found.reverse

structure Resumes (text : List Char) (s s' : ScanState) (p : Nat × State) : Prop where
  mode_eq : s'.mode = s.mode
  substitutions_eq : s'.substitutions = s.substitutions
  depth_eq : p.1 = s'.depth
  resumed : ∃ u, s'.cursor.Reaches u ∧ s'.cursor.skipTrivia = u.skipTrivia ∧
    Tracks text { s' with cursor := u } p.2

variable {text k : List Char} {c d t start : Cursor} {s s' : ScanState} {σ σ' : State}
  {x b : Char} {l : Literal}

theorem Denotes.isWordAmong_eq {τ : Token} {last : LastToken} (h : Denotes text τ last)
    (words : List String) : isWordAmong text words τ = .ok (last.isWordAmong words) := by
  cases h with
  | word hc hp =>
    rw [isWordAmong, Cursor.slice?_of_passes hc hp]
    rfl
  | none => rfl
  | punctuation => rfl
  | value => rfl
  | controlHead => rfl

theorem Denotes.allowsRegex_eq {τ : Token} {last : LastToken} (h : Denotes text τ last) :
    allowsRegex text τ = .ok last.allowsRegex := by
  cases h with
  | word hc hp => exact (Denotes.word hc hp).isWordAmong_eq _
  | none => rfl
  | punctuation => rfl
  | value => rfl
  | controlHead => rfl

namespace Tracks

theorem text_eq (h : Tracks text s σ) : s.cursor.text = text := h.place.text_eq

theorem pos_eq (h : Tracks text s σ) : σ.pos = s.cursor.offset := h.place.pos_eq

theorem moveTo {pos : Nat} {τ : Token} {last : LastToken} (h : Tracks text s σ)
    (hd : Places text d pos) (hl : Denotes text τ last) :
    Tracks text (s.moveTo d last) { σ with pos := pos, last := τ } :=
  ⟨hd, hl, h.heads, h.found⟩

theorem withHeads {heads heads' : List Bool} (h : Tracks text s σ) (hheads : heads' = heads) :
    Tracks text { s with heads := heads } { σ with heads := heads' } :=
  ⟨h.place, h.last, hheads, h.found⟩

theorem withDepth (h : Tracks text s σ) (depth : Nat) : Tracks text { s with depth := depth } σ :=
  ⟨h.place, h.last, h.heads, h.found⟩

theorem resumes (h : Tracks text s' σ') (hm : s'.mode = s.mode)
    (hs : s'.substitutions = s.substitutions) : Resumes text s s' (s'.depth, σ') :=
  ⟨hm, hs, rfl, s'.cursor, .refl _, rfl, h⟩

end Tracks

theorem slice?_body {pos stop : Nat} {quote : Char} {body : List Char}
    (h : Delimits text l (pos, stop)) (hquote : isAscii quote = true) (hl : l.Quotes quote body) :
    slice? text (pos + 1) (stop - 1) = some body := by
  obtain ⟨e, hopen, hclose⟩ := Cursor.Passes.split (A := quote :: body) hl.passes
  obtain ⟨d, hopen, hbody⟩ := Cursor.Passes.split (A := [quote]) hopen
  have hone := utf8Size_eq_one_iff.2 hquote
  have hstart : pos + 1 = d.offset := by
    rw [hopen.offset_eq, ← h.start_eq]
    simp [hone]
  have hstop : stop - 1 = e.offset := by
    have hend := h.stop_eq
    rw [hclose.offset_eq] at hend
    simp only [byteLength_cons, byteLength_nil, hone] at hend
    omega
  rw [hstart, hstop]
  exact Cursor.slice?_of_passes (hopen.reaches.text_eq.trans h.text_eq) hbody

theorem record_alike {pos stop place : Nat} {s₁ : ScanState} (kind : ReferenceKind)
    (h : Tracks text s₁ σ) (hm : s₁.mode = s.mode) (hs : s₁.substitutions = s.substitutions)
    (hdepth : s₁.depth = s.depth) (hl : Delimits text l (pos, stop))
    (hu : Places text d place) (hreach : l.closing.Reaches d)
    (hskip : l.closing.skipTrivia = d.skipTrivia) :
    ReadAlike text (fun s' σ' => Resumes text s s' (s.depth, σ')) (.ok (s₁.record kind l))
      (record text kind pos stop { σ with pos := place }) := by
  obtain ⟨quote, body, hquote, hbody⟩ := hl.quoted
  have href : l.toReference kind = ⟨String.ofList body, pos, stop, kind⟩ := by
    rw [Literal.toReference, hbody.body_eq, ← hl.start_eq, ← hl.stop_eq]
  rw [record, slice?_body hl hquote hbody, Checked.expect, ok_bind]
  refine .ok ⟨hm, hs, hdepth.symm, d, hreach, hskip, hu, .value, h.heads, ?_⟩
  change σ.found ++ _ = (l.toReference kind :: s₁.found).reverse
  rw [h.found, href, List.reverse_cons]

theorem importWord_alike (hstart : start.text = text) (h : Tracks text s σ) :
    ReadAlike text (fun s' σ' => Resumes text s s' (s.depth, σ')) (s.importWord start)
      (importWord text start.offset σ) := by
  rw [ScanState.importWord, importWord, h.pos_eq]
  refine (skipTrivia_alike h.text_eq).bind fun t place ht hplace => ?_
  obtain ⟨htext, rfl⟩ := hplace
  cases hr : t.rest with
  | nil =>
    rw [Cursor.byte?_of_nil htext hr]
    exact .ok (h.resumes rfl rfl)
  | cons x k =>
    obtain ⟨b, hbyte, hb⟩ := Cursor.byte?_of_cons htext hr
    rw [hbyte]
    dsimp only
    simp only [hb.eq_iff (c := '(') (by decide), hb.eq_iff (c := '\x7b') (by decide),
      hb.eq_iff (c := '*') (by decide), hb.apply_eq coarse_isQuote,
      hb.apply_eq coarse_isWordStart]
    refine .ite (fun hx => ?_) fun _ => .ite (fun hq => ?_) fun _ =>
      .ite (fun _ => ?_) fun _ => .ok (h.resumes rfl rfl)
    · have hnext := places_next htext hr (hx ▸ by decide)
      have hopen := (h.moveTo hnext (.punctuation (x := '('))).withHeads
        (congrArg (false :: ·) h.heads)
      rw [hnext.pos_eq] at hopen ⊢
      refine (dynamicArgument_alike hnext.text_eq).bind fun o o' _ hargument => ?_
      cases hargument with
      | none => exact .ok (hopen.resumes rfl rfl)
      | some hl =>
        obtain ⟨u, hskip, hu⟩ := hl.skipped
        exact record_alike _ hopen rfl rfl rfl hl.delimits hu (.of_skipTrivia hskip)
          (Cursor.skipTrivia_again hskip).symm
    · have hs : t.startsQuote = true := by rw [Cursor.startsQuote_of_rest hr, hq]
      refine (stringEnd_alike htext hs).bind fun l stop _ hl => ?_
      exact record_alike _ h rfl rfl rfl hl hl.closing (.refl _) rfl
    · refine (importClause_alike hstart htext).bind fun l span _ hl => ?_
      exact record_alike _ h rfl rfl rfl hl hl.closing (.refl _) rfl

theorem exportWord_alike (hstart : start.text = text) (h : Tracks text s σ) :
    ReadAlike text (fun s' σ' => Resumes text s s' (s.depth, σ')) (s.exportWord start)
      (exportWord text start.offset σ) := by
  rw [ScanState.exportWord, exportWord, h.pos_eq]
  refine (skipTrivia_alike h.text_eq).bind fun t place ht hplace => ?_
  obtain ⟨htext, rfl⟩ := hplace
  refine (skipType_alike htext (Cursor.startsTrivia_of_skipTrivia ht)).bind
    fun t place _ hplace => ?_
  obtain ⟨htext, rfl⟩ := hplace
  split
  · rename_i hr
    have hnext := places_next htext hr (by decide)
    rw [if_pos (byte?_of_head htext hr (by decide)), hnext.pos_eq]
    refine (skipTrivia_alike hnext.text_eq).bind fun u place hu hplace => ?_
    obtain ⟨hutext, rfl⟩ := hplace
    refine (exportName_alike hstart hutext (Cursor.startsTrivia_of_skipTrivia hu)).bind
      fun v place _ hplace => ?_
    obtain ⟨hvtext, rfl⟩ := hplace
    refine (fromClause_alike hstart hvtext).bind fun l span _ hl => ?_
    exact record_alike _ h rfl rfl rfl hl hl.closing (.refl _) rfl
  · rename_i hr
    have hnext := places_next htext hr (by decide)
    have hstar : ∀ k, t.rest ≠ '*' :: k := by
      intro k hk
      rw [hr] at hk
      cases hk
    rw [if_neg (byte?_ne_of_head htext hstar (by decide)),
      if_pos (byte?_of_head htext hr (by decide)), hnext.pos_eq]
    refine (exportClauseEnd_alike hstart hnext.text_eq).bind fun v place _ hplace => ?_
    obtain ⟨hvtext, rfl⟩ := hplace
    refine (skipTrivia_alike hvtext).bind fun u place hu hplace => ?_
    obtain ⟨hutext, rfl⟩ := hplace
    rw [wordAt_ite hutext (Cursor.startsTrivia_of_skipTrivia hu) (by decide)]
    refine .ite (fun _ => ?_) fun _ => .ok ?_
    · rw [Cursor.fromClause_congr (Cursor.skipTrivia_again hu).symm]
      refine (fromClause_alike hstart hutext).bind fun l span _ hl => ?_
      exact record_alike _ h rfl rfl rfl hl hl.closing (.refl _) rfl
    · exact (h.moveTo ⟨hvtext, rfl⟩ .punctuation).resumes rfl rfl
  · rename_i hstar hbrace
    rw [if_neg (byte?_ne_of_head htext hstar (by decide)),
      if_neg (byte?_ne_of_head htext hbrace (by decide))]
    exact .ok (h.resumes rfl rfl)

theorem requireWord_alike {τ : Token} {last : LastToken} (hstart : start.text = text)
    (hlast : Denotes text τ last) (h : Tracks text s σ) :
    ReadAlike text (fun s' σ' => Resumes text s s' (s.depth, σ')) (s.requireWord start last)
      (requireWord text start.offset τ σ) := by
  rw [ScanState.requireWord, requireWord, h.pos_eq]
  refine (skipTrivia_alike h.text_eq).bind fun t place ht hplace => ?_
  obtain ⟨htext, rfl⟩ := hplace
  have hdone : ReadAlike text (fun s' σ' => Resumes text s s' (s.depth, σ')) (pure s) (pure σ) :=
    .ok (h.resumes rfl rfl)
  by_cases hr : t.rest.head? = some '('
  · rw [if_pos ((byte?_eq_some htext (by decide)).2 hr), hlast.isWordAmong_eq, ok_bind]
    cases hfunction : last.isWordAmong ["function"] with
    | true => simpa [hfunction] using hdone
    | false =>
      rw [if_neg Bool.false_ne_true, bodyFollows_eq htext hr, ok_bind]
      cases hbody : isDefinition t.rest with
      | true => simpa [hr, hbody] using hdone
      | false =>
        rw [if_neg Bool.false_ne_true]
        simpa [hr, hbody] using fail_alike hstart _
  · rw [if_neg fun hb => hr ((byte?_eq_some htext (by decide)).1 hb)]
    simpa [hr] using hdone

theorem Resumes.of_moveTo {last : LastToken} {p : Nat × State}
    (h : Resumes text (s.moveTo d last) s' p) : Resumes text s s' p :=
  ⟨h.mode_eq, h.substitutions_eq, h.depth_eq, h.resumed⟩

theorem wordToken_alike (h : Tracks text s σ) (hs : headIs isWordStart s.cursor.rest = true)
    (ht : startsTrivia s.cursor.rest = false) :
    ReadAlike text (fun s' σ' => Resumes text s s' (s.depth, σ')) (s.wordToken s.cursor)
      (wordToken text σ) := by
  obtain ⟨-, k, hr, -⟩ := Cursor.exists_wordHere hs ht
  have hword : word s.cursor.rest = s.cursor.wordHere := by rw [Cursor.wordHere_eq, if_pos hs]
  have hp : s.cursor.Passes s.cursor.wordHere _ := .of_rest hr
  have hafter := h.moveTo (.of_reaches h.text_eq hp.reaches) (.word h.text_eq hp)
  rw [ScanState.wordToken, wordToken, h.pos_eq]
  rw [isMember_eq h.text_eq, ok_bind, slice?_wordEnd h.text_eq hs ht, Checked.expect, ok_bind,
    wordEnd_eq h.text_eq hs ht, hword]
  refine .ite (fun _ => .ok (hafter.resumes rfl rfl)) fun _ => .ite (fun _ => ?_) fun _ =>
    .ite (fun _ => ?_) fun _ => .ite (fun _ => ?_) fun _ => .ok (hafter.resumes rfl rfl)
  · exact (importWord_alike h.text_eq hafter).mono fun _ _ => Resumes.of_moveTo
  · exact (exportWord_alike h.text_eq hafter).mono fun _ _ => Resumes.of_moveTo
  · exact (requireWord_alike h.text_eq h.last hafter).mono fun _ _ => Resumes.of_moveTo

theorem slashToken_alike (h : Tracks text s σ) (hr : s.cursor.rest = '/' :: k) :
    ∃ σ', slashToken text σ = .ok σ' ∧
      Resumes text s (s.slashToken s.cursor) (s.depth, σ') := by
  have hslash := h.moveTo (places_next h.text_eq hr (by decide)) (.punctuation (x := '/'))
  rw [slashToken, h.last.allowsRegex_eq, ok_bind, ScanState.slashToken, h.pos_eq,
    regexEnd?_eq h.text_eq]
  cases s.last.allowsRegex with
  | false => exact ⟨_, rfl, hslash.resumes rfl rfl⟩
  | true =>
    cases hn : regex? s.cursor.rest with
    | none => exact ⟨_, rfl, hslash.resumes rfl rfl⟩
    | some n =>
      have hregex := h.moveTo (.of_reaches h.text_eq (.advance _ n)) .value
      exact ⟨_, rfl, hregex.resumes rfl rfl⟩

theorem coarse_isDigit : Coarse Char.isDigit := by
  have hwide {x : Char} (hx : isAscii x = false) : x.isDigit = false := by
    by_contra hdigit
    have hpart := isWordStart_of_isDigit (by simpa using hdigit)
    simp [isWordStart, hx] at hpart
  intro x y hx hy
  rw [hwide hx, hwide hy]

theorem closeBrace_eq (h : s.depth ≠ 0 ∨ s.substitutions = []) : s.closeBrace c =
    { s.moveTo (c.advance 1) (.punctuation '\x7d') with depth := s.depth - 1 } := by
  unfold ScanState.closeBrace
  split
  · rename_i hdepth hsubstitutions
    rw [hdepth, hsubstitutions] at h
    simp at h
  · rfl

theorem token_alike (h : Tracks text s σ) (hr : s.cursor.rest = x :: k) (hb : Leads b x)
    (ht : startsTrivia s.cursor.rest = false) (htick : x ≠ '\x60')
    (hclose : x = '\x7d' → s.depth ≠ 0 ∨ s.substitutions = []) :
    ReadAlike text (Resumes text s) (s.token x s.cursor) (token text b s.depth σ) := by
  have htext := h.text_eq
  -- a token of one ASCII character
  have hmark (hx : isAscii x = true) : Tracks text
      (s.moveTo (s.cursor.advance 1) (.punctuation x))
      { σ with pos := s.cursor.offset + 1, last := .punctuation b } :=
    h.moveTo (places_next htext hr hx) (hb.ascii hx ▸ .punctuation)
  rw [ScanState.token, token, h.pos_eq, h.last.isWordAmong_eq]
  simp only [hb.eq_iff (c := '/') (by decide), hb.apply_eq coarse_isQuote,
    hb.eq_iff (c := '\x7b') (by decide), hb.eq_iff (c := '\x7d') (by decide),
    hb.apply_eq coarse_isDigit, hb.eq_iff (c := '(') (by decide),
    hb.eq_iff (c := ')') (by decide), hb.apply_eq coarse_isWordStart, if_neg htick]
  refine .ite (fun hx => ?slash) fun _ => .ite (fun hq => ?quote) fun _ =>
    .ite (fun hx => ?opening) fun _ => .ite (fun hx => ?closing) fun _ =>
    .ite (fun hx => ?digit) fun _ => .ite (fun hx => ?parenthesis) fun _ =>
    .ite (fun hx => ?unparenthesis) fun _ => .ite (fun hx => ?word) fun hx => ?mark
  case slash =>
    subst hx
    obtain ⟨σ', hσ', hslash⟩ := slashToken_alike h hr
    rw [hσ']
    exact .ok hslash
  case quote =>
    have hs : s.cursor.startsQuote = true := by rw [Cursor.startsQuote_of_rest hr, hq]
    refine (stringEnd_alike htext hs).bind fun l stop _ hl => .ok ?_
    exact (h.moveTo hl.closing .value).resumes rfl rfl
  case opening => exact .ok (((hmark (hx ▸ by decide)).withDepth (s.depth + 1)).resumes rfl rfl)
  case closing =>
    rw [closeBrace_eq (hclose hx), ← hx]
    exact .ok (((hmark (hx ▸ by decide)).withDepth (s.depth - 1)).resumes rfl rfl)
  case digit =>
    rw [numberEnd_eq htext hr hx]
    exact .ok ((h.moveTo (.of_reaches htext (.advance _ _)) .value).resumes rfl rfl)
  case parenthesis =>
    exact .ok (((hmark (hx ▸ by decide)).withHeads (congrArg _ h.heads)).resumes rfl rfl)
  case unparenthesis =>
    have hnext := places_next htext hr (hx ▸ by decide)
    have hlast : Denotes text (if σ.heads.head?.getD false then .controlHead else .punctuation b)
        (if s.heads.head?.getD false then .controlHead else .punctuation ')') := by
      rw [h.heads]
      split
      · exact .controlHead
      · rw [hb.ascii (hx ▸ by decide), hx]
        exact .punctuation
    have hafter := (h.moveTo hnext hlast).withHeads (congrArg List.tail h.heads)
    exact .ok (hafter.resumes rfl rfl)
  case word =>
    have hs : headIs isWordStart s.cursor.rest = true := by rw [hr, headIs_cons, hx]
    refine (wordToken_alike h hs ht).bind_right fun s' σ' hword => .ok hword
  case mark =>
    exact .ok ((hmark (isAscii_of_not_isWordStart (by simpa using hx))).resumes rfl rfl)

end ByteScan

end ImportAtlas
