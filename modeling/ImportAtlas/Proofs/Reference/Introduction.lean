import ImportAtlas.Proofs.Reference.Token

namespace ImportAtlas

open Text Lexeme Outcome

def ReferenceKind.Allows (kind : ReferenceKind) (quote : Char) : Prop :=
  isQuote quote = true ∨ quote = '\x60' ∧ kind = .dynamic

namespace Text.Cursor

variable {c d t u v : Cursor} {l : Literal} {A : List Char}

inductive Reads (c : Cursor) (l : Literal) : ReferenceKind → Prop
  | declaration : c.Finds l → Reads c l .declaration
  | reExport : c.Finds l → Reads c l .reExport
  | dynamic {v : Cursor} : c.plainLiteral? = .ok (some l) → l.closing.skipTrivia = .ok v →
      v.endsArgument = true → Reads c l .dynamic

theorem Finds.opening_eq (h : c.Finds l) : l.opening = c := opening_of_literal h.2

theorem Reads.opening_eq {kind : ReferenceKind} (h : c.Reads l kind) : l.opening = c := by
  cases h with
  | declaration h => exact h.opening_eq
  | reExport h => exact h.opening_eq
  | dynamic h => exact (exists_of_plainLiteral h).1

theorem Finds.exists_quotes (h : c.Finds l) :
    ∃ quote body, isQuote quote = true ∧ l.Quotes quote body := by
  obtain ⟨quote, body, hopens, rfl⟩ := exists_of_literal h.1 h.2
  exact ⟨quote, body, hopens.quotes, hopens.quoted⟩

theorem Reads.exists_quotes {kind : ReferenceKind} (h : c.Reads l kind) :
    ∃ quote body, kind.Allows quote ∧ l.Quotes quote body := by
  cases h with
  | declaration h =>
    obtain ⟨quote, body, hq, hl⟩ := h.exists_quotes
    exact ⟨quote, body, .inl hq, hl⟩
  | reExport h =>
    obtain ⟨quote, body, hq, hl⟩ := h.exists_quotes
    exact ⟨quote, body, .inl hq, hl⟩
  | dynamic h =>
    obtain ⟨-, quote, body, hq, hl⟩ := exists_of_plainLiteral h
    exact ⟨quote, body, hq.imp_right fun h => ⟨h, rfl⟩, hl⟩

theorem startsTrivia_of_allows {kind : ReferenceKind} {quote : Char} (h : kind.Allows quote)
    {k : List Char} : startsTrivia (quote :: k) = false := by
  rcases h with h | ⟨rfl, -⟩
  · exact startsTrivia_of_isQuote h
  · rfl

theorem Reads.startsTrivia {kind : ReferenceKind} (h : c.Reads l kind) :
    startsTrivia c.rest = false := by
  obtain ⟨quote, body, hq, hl⟩ := h.exists_quotes
  rw [← h.opening_eq, hl.passes.rest_eq, quoted_append, startsTrivia_of_allows hq]

theorem Opens.finds {quote : Char} {body : List Char} (h : c.Opens quote body) :
    c.Finds ⟨c, body.length + 2⟩ :=
  ⟨h.startsQuote, h.literal⟩

theorem Finds.again {l' : Literal} {quote : Char} {body : List Char} (h : c.Finds l)
    (hl : l.Quotes quote body) (hl' : l'.Quotes quote body) : l'.opening.Finds l' := by
  obtain ⟨quote', body', hopens, rfl⟩ := exists_of_literal h.1 h.2
  obtain ⟨rfl, rfl⟩ := hopens.quoted.unique hl
  have hopens' : l'.opening.Opens quote' body' :=
    ⟨hopens.quotes, hopens.string, _, hl'.passes.rest_eq⟩
  rw [hl'.eq_mk]
  exact hopens'.finds

theorem PlainStep.again {l' : Literal} {quote : Char} {body : List Char}
    (h : c.PlainStep (some l)) (hl : l.Quotes quote body) (hl' : l'.Quotes quote body) :
    l'.opening.PlainStep (some l') := by
  cases h with
  | string hs hl₀ =>
    have hfinds := Finds.again ⟨hs, hl₀⟩ hl hl'
    exact .string hfinds.1 hfinds.2
  | @template rest n hr hn =>
    obtain ⟨A, body', k, rfl, rfl, rfl, hall⟩ := exists_of_templateChunkFrom hn
    have hlen : 0 + (body' ++ ChunkEnd.closed.text).length + 1 = body'.length + 2 := by
      simp [ChunkEnd.text]
    rw [hlen] at hl
    have htemplate : Literal.Quotes ⟨c, body'.length + 2⟩ '\x60' body' :=
      .of_rest (k := k) (hr.trans (by simp [ChunkEnd.text]))
    obtain ⟨rfl, rfl⟩ := htemplate.unique hl
    rw [hl'.eq_mk]
    refine .template (n := body'.length + 1) hl'.passes.rest_eq ?_
    have := hall 0 l'.closing.rest
    simpa [templateChunk?, ChunkEnd.text] using this

theorem exists_of_dynamicArgument (h : c.dynamicArgument = .ok (some l)) :
    ∃ T, Trivia T ∧ c.Passes T l.opening ∧ l.opening.Reads l .dynamic := by
  obtain ⟨t, ht, h⟩ := bind_eq_ok.1 h
  obtain ⟨o, ho, h⟩ := bind_eq_ok.1 h
  cases o with
  | none => cases pure_eq_ok.1 h
  | some m =>
    obtain ⟨v, hv, h⟩ := bind_eq_ok.1 h
    have h := pure_eq_ok.1 h
    split at h
    · rename_i hend
      cases h
      obtain ⟨rfl, quote, body, -, hl⟩ := exists_of_plainLiteral ho
      obtain ⟨T, hT, hp, -⟩ := exists_trivia ht (by simp [hl.passes.rest_eq])
      exact ⟨T, hT, hp, .dynamic ho hv hend⟩
    · cases h

theorem dynamicArgument_of_reads (hp : c.Passes A d) (hA : Trivia A) (h : d.Reads l .dynamic) :
    c.dynamicArgument = .ok (some l) := by
  have ht := skipTrivia_of_trivia hp hA h.startsTrivia
  cases h with
  | dynamic hl hv hend =>
    refine bind_eq_ok.2 ⟨d, ht, bind_eq_ok.2 ⟨some l, hl, bind_eq_ok.2 ⟨_, hv, ?_⟩⟩⟩
    rw [hend, if_pos rfl]
    rfl

end Text.Cursor

inductive ExportPrefix : List Char → Prop
  | bare {T : List Char} : Trivia T → ExportPrefix T
  | typed {T W : List Char} : Trivia T → headIs continuesWord (T ++ ScanState.typeWord) = false →
      Trivia W → ExportPrefix (T ++ ScanState.typeWord ++ W)

def importName : List Char := "import".toList

def exportName : List Char := "export".toList

def requireName : List Char := "require".toList

theorem isWord_importName : IsWord importName := .of_all (by decide) (by decide)

theorem isWord_exportName : IsWord exportName := .of_all (by decide) (by decide)

inductive Introduction : ReferenceKind → List Char → Prop
  | bare {T : List Char} : Trivia T → Introduction .declaration (importName ++ T)
  | clause {T A : List Char} : Trivia T → headIs continuesWord (T ++ A) = false →
      headIs ScanState.opensClause A = true → headIs isBlank A = false → Clause false A →
      Introduction .declaration (importName ++ (T ++ A))
  | dynamic {T U : List Char} : Trivia T → Trivia U →
      Introduction .dynamic (importName ++ (T ++ (['('] ++ U)))
  | star {P A : List Char} : ExportPrefix P → StarClause A →
      Introduction .reExport (exportName ++ (P ++ (['*'] ++ A)))
  | bindings {P A B : List Char} : ExportPrefix P → ExportList A → FromClause B →
      Introduction .reExport (exportName ++ (P ++ (['\x7b'] ++ (A ++ B))))

theorem Introduction.lt_length {kind : ReferenceKind} {gap : List Char}
    (h : Introduction kind gap) : 6 ≤ gap.length := by
  have himport : importName.length = 6 := by decide
  have hexport : exportName.length = 6 := by decide
  cases h <;> simp only [List.length_append] <;> omega

theorem Introduction.ne_nil {kind : ReferenceKind} {gap : List Char}
    (h : Introduction kind gap) : gap ≠ [] := by
  rintro rfl
  exact absurd h.lt_length (by simp)

theorem Introduction.exists_word {kind : ReferenceKind} {gap : List Char}
    (h : Introduction kind gap) :
    ∃ w A, gap = w ++ A ∧ IsWord w := by
  cases h with
  | bare => exact ⟨_, _, rfl, isWord_importName⟩
  | clause => exact ⟨_, _, rfl, isWord_importName⟩
  | dynamic => exact ⟨_, _, rfl, isWord_importName⟩
  | star => exact ⟨_, _, rfl, isWord_exportName⟩
  | bindings => exact ⟨_, _, rfl, isWord_exportName⟩

namespace ScanState

variable {s s' : ScanState} {c d e t u : Cursor} {x : Char} {w A P gap : List Char} {l : Literal}

theorem wordToken_of_word (hw : IsWord w) (hp : c.Passes w d)
    (hd : headIs continuesWord d.rest = false) :
    s.wordToken c = if c.followsPoint then .ok (s.moveTo d (.word w))
      else if w = importName then (s.moveTo d (.word w)).importWord c
      else if w = exportName then (s.moveTo d (.word w)).exportWord c
      else if w = requireName then (s.moveTo d (.word w)).requireWord c s.last
      else .ok (s.moveTo d (.word w)) := by
  have hword : word c.rest = w := by rw [hp.rest_eq, word_append hw hd]
  unfold wordToken
  dsimp only
  rw [hword, ← hp.eq_advance]
  rfl

theorem eq_of_requireWord {start : Cursor} {before : LastToken}
    (h : s.requireWord start before = .ok s') : s' = s := by
  obtain ⟨t, _, h⟩ := bind_eq_ok.1 h
  split at h
  · contradiction
  · exact (pure_eq_ok.1 h).symm

inductive WordStep (s : ScanState) (w : List Char) (c : Cursor) (before : LastToken) :
    ScanState → Prop
  | plain : (c.followsPoint = false → w ≠ importName ∧ w ≠ exportName ∧ w ≠ requireName) →
      WordStep s w c before s
  | importing {t : Cursor} {s' : ScanState} : c.followsPoint = false → w = importName →
      s.cursor.skipTrivia = .ok t → ImportStep s t s' → WordStep s w c before s'
  | exporting {t u : Cursor} {s' : ScanState} : c.followsPoint = false → w = exportName →
      s.cursor.skipTrivia = .ok t → t.skipWord typeWord = .ok u → ExportStep s u s' →
      WordStep s w c before s'
  | requiring : c.followsPoint = false → w = requireName → s.requireWord c before = .ok s →
      WordStep s w c before s

theorem wordStep_of_wordToken (hw : IsWord w) (hp : c.Passes w d)
    (hd : headIs continuesWord d.rest = false) (h : s.wordToken c = .ok s') :
    WordStep (s.moveTo d (.word w)) w c s.last s' := by
  rw [wordToken_of_word hw hp hd] at h
  split at h
  · rename_i hpoint
    cases h
    exact .plain fun hno => absurd (hpoint.symm.trans hno) (by decide)
  rename_i hpoint
  rw [Bool.not_eq_true] at hpoint
  split at h
  · rename_i himport
    obtain ⟨t, ht, h⟩ := exists_importStep h
    exact .importing hpoint himport ht h
  rename_i himport
  split at h
  · rename_i hexport
    obtain ⟨t, u, ht, hu, h⟩ := exists_exportStep h
    exact .exporting hpoint hexport ht hu h
  rename_i hexport
  split at h
  · rename_i hrequire
    obtain rfl := eq_of_requireWord h
    exact .requiring hpoint hrequire h
  · rename_i hrequire
    cases h
    exact .plain fun _ => ⟨himport, hexport, hrequire⟩

theorem wordToken_of_step (hw : IsWord w) (hp : c.Passes w d)
    (hd : headIs continuesWord d.rest = false)
    (h : WordStep (s.moveTo d (.word w)) w c s.last s') : s.wordToken c = .ok s' := by
  rw [wordToken_of_word hw hp hd]
  cases h with
  | plain hplain =>
    split
    · rfl
    · rename_i hpoint
      obtain ⟨himport, hexport, hrequire⟩ := hplain (by simpa using hpoint)
      rw [if_neg himport, if_neg hexport, if_neg hrequire]
  | importing hpoint himport ht h =>
    rw [if_neg (by simp [hpoint]), if_pos himport]
    exact importWord_of_step ht h
  | exporting hpoint hexport ht hu h =>
    rw [if_neg (by simp [hpoint]), if_neg (by rw [hexport]; decide), if_pos hexport]
    exact exportWord_of_step ht hu h
  | requiring hpoint hrequire h =>
    rw [if_neg (by simp [hpoint]), if_neg (by rw [hrequire]; decide),
      if_neg (by rw [hrequire]; decide), if_pos hrequire, h]

theorem exists_wordStep {rest : List Char} (hr : c.rest = x :: rest) (hx : isWordStart x = true)
    (hb : isBlank x = false) (h : s.wordToken c = .ok s') :
    ∃ w d, IsWord w ∧ c.Passes w d ∧ headIs continuesWord d.rest = false ∧
      WordStep (s.moveTo d (.word w)) w c s.last s' := by
  obtain ⟨w, k, hsplit, -, hw, hk⟩ := exists_word hx hb (k := rest)
  obtain ⟨d, hp, rfl⟩ := Cursor.exists_passes (hr.trans hsplit)
  exact ⟨w, d, hw, hp, hk, wordStep_of_wordToken hw hp hk h⟩

theorem token_of_word (hw : IsWord w) (hx : headIs (· = x) w = true) :
    s.token x c = s.wordToken c := by
  refine token_of_isWordStart ?_
  obtain ⟨rest, rfl⟩ := exists_cons_of_headIs hx
  exact hw.start

theorem token_typeWord {k : List Char} (hr : c.rest = typeWord ++ k)
    (hk : headIs continuesWord k = false) : s.token 't' c =
      .ok (s.moveTo (c.advance typeWord.length) (.word typeWord)) := by
  have hp := Cursor.Passes.of_rest hr
  have hk' : headIs continuesWord (c.advance typeWord.length).rest = false := by
    rwa [Cursor.rest_advance, hr, List.drop_left]
  rw [token_of_word isWord_typeWord (by decide)]
  exact wordToken_of_step isWord_typeWord hp hk' (.plain fun _ => by decide)

theorem token_import (hp : c.Passes importName d) (hd : headIs continuesWord d.rest = false)
    (hpoint : c.followsPoint = false) (ht : d.skipTrivia = .ok t)
    (h : ImportStep (s.moveTo d (.word importName)) t s') : s.token 'i' c = .ok s' := by
  rw [token_of_word isWord_importName (by decide)]
  exact wordToken_of_step isWord_importName hp hd (.importing hpoint rfl ht h)

theorem token_export (hp : c.Passes exportName d) (hd : headIs continuesWord d.rest = false)
    (hpoint : c.followsPoint = false) (ht : d.skipTrivia = .ok t)
    (hu : t.skipWord typeWord = .ok u) (h : ExportStep (s.moveTo d (.word exportName)) u s') :
    s.token 'e' c = .ok s' := by
  rw [token_of_word isWord_exportName (by decide)]
  exact wordToken_of_step isWord_exportName hp hd (.exporting hpoint rfl ht hu h)

theorem token_string {quote : Char} {body : List Char} (h : c.Opens quote body) :
    s.token quote c = .ok (s.moveTo (c.advance (body.length + 2)) .value) :=
  token_of_step (.string h.quotes h.literal)

def entering (kind : ReferenceKind) (s : ScanState) : ScanState :=
  match kind with
  | .dynamic => { s with heads := false :: s.heads }
  | _ => s

@[simp] theorem found_entering {kind : ReferenceKind} : (s.entering kind).found = s.found := by
  cases kind <;> rfl

theorem skipWord_of_ne (h : t.wordHere ≠ typeWord) : t.skipWord typeWord = .ok t := if_neg h

theorem skipWord_of_eq (h : t.wordHere = typeWord) :
    t.skipWord typeWord = (t.advance typeWord.length).skipTrivia := if_pos h

theorem of_opensExport {k : List Char} (h : headIs opensExport k = true) :
    startsTrivia k = false ∧ headIs isWordStart k = false ∧ headIs continuesWord k = false := by
  cases k with
  | nil => cases h
  | cons x k =>
    rw [headIs_cons, opensExport, Bool.or_eq_true, decide_eq_true_eq, decide_eq_true_eq] at h
    rcases h with rfl | rfl
    · exact ⟨rfl, (by decide : isWordStart '*' = false), (by decide : continuesWord '*' = false)⟩
    · exact ⟨rfl, (by decide : isWordStart '\x7b' = false),
        (by decide : continuesWord '\x7b' = false)⟩

theorem exists_skipWord (h : ExportPrefix P) (hp : d.Passes P u)
    (hx : headIs opensExport u.rest = true) : headIs continuesWord d.rest = false ∧
      ∃ t, d.skipTrivia = .ok t ∧ t.skipWord typeWord = .ok u := by
  obtain ⟨hstart, hword, hcontinues⟩ := of_opensExport hx
  cases h with
  | bare hT =>
    constructor
    · rw [hp.rest_eq, hT.headIs_continuesWord hcontinues]
    · refine ⟨u, Cursor.skipTrivia_of_trivia hp hT hstart, skipWord_of_ne ?_⟩
      rw [Cursor.wordHere_eq_nil hword]
      exact isWord_typeWord.ne_nil.symm
  | @typed T W hT hjoin hW =>
    obtain ⟨v, hv, hpW⟩ := hp.split
    obtain ⟨t, ht, hv⟩ := hv.split
    have hk : headIs continuesWord v.rest = false := by
      rw [hpW.rest_eq, hW.headIs_continuesWord hcontinues]
    constructor
    · have hne : T ++ typeWord ≠ [] := by simp [isWord_typeWord.ne_nil]
      rw [(ht.trans hv).rest_eq, headIs_append_of_ne_nil hne, hjoin]
    · have hstart' : startsTrivia t.rest = false := by
        rw [hv.rest_eq, isWord_typeWord.startsTrivia]
      refine ⟨t, Cursor.skipTrivia_of_trivia ht hT hstart', ?_⟩
      rw [skipWord_of_eq ((Cursor.wordHere_eq_iff isWord_typeWord).2 ⟨_, hv.rest_eq, hk⟩),
        ← hv.eq_advance]
      exact Cursor.skipTrivia_of_trivia hpW hW hstart

theorem opensClause_ne_slash {x : Char} (h : opensClause x = true) : x ≠ '/' := by
  rintro rfl
  exact absurd h (by decide)

theorem startsTrivia_of_opensClause {k : List Char} (h : headIs opensClause k = true)
    (hb : headIs isBlank k = false) : startsTrivia k = false := by
  cases k with
  | nil => rfl
  | cons x k =>
    rw [headIs_cons] at h hb
    rw [startsTrivia_cons, hb]
    simp [opensClause_ne_slash h]

theorem token_of_introduction {kind : ReferenceKind} (h : Introduction kind gap)
    (hp : c.Passes gap e) (hpoint : c.followsPoint = false) (hl : e.Reads l kind) :
    ∃ x rest, c.rest = x :: rest ∧ startsTrivia c.rest = false ∧
      s.token x c = .ok ((s.entering kind).record kind l) := by
  have hstart : startsTrivia c.rest = false := by
    obtain ⟨w, A, rfl, hw⟩ := h.exists_word
    rw [hp.rest_eq, List.append_assoc, hw.startsTrivia]
  cases h with
  | bare hT =>
    cases hl with
    | declaration hl =>
      obtain ⟨d, hd, hpT⟩ := hp.split
      have hk : headIs continuesWord d.rest = false := by
        rw [hpT.rest_eq, hT.headIs_continuesWord (Cursor.continuesWord_of_startsQuote hl.1)]
      have ht := Cursor.skipTrivia_of_trivia hpT hT (Cursor.startsTrivia_of_startsQuote hl.1)
      exact ⟨'i', _, hd.rest_eq, hstart, token_import hd hk hpoint ht (.bare hl)⟩
  | @clause T A hT hjoin hopens hblank hA =>
    cases hl with
    | declaration hl =>
      obtain ⟨d, hd, hpTA⟩ := hp.split
      obtain ⟨t, ht, hpA⟩ := hpTA.split
      have hne : T ++ A ≠ [] := by simp [hA.ne_nil]
      have hk : headIs continuesWord d.rest = false := by
        rw [hpTA.rest_eq, headIs_append_of_ne_nil hne, hjoin]
      have hopens' : headIs opensClause t.rest = true := by
        rw [hpA.rest_eq, headIs_append_of_ne_nil hA.ne_nil, hopens]
      have hblank' : headIs isBlank t.rest = false := by
        rw [hpA.rest_eq, headIs_append_of_ne_nil hA.ne_nil, hblank]
      have ht := Cursor.skipTrivia_of_trivia ht hT (startsTrivia_of_opensClause hopens' hblank')
      exact ⟨'i', _, hd.rest_eq, hstart, token_import hd hk hpoint ht (.clause hopens' hA hpA hl)⟩
  | dynamic hT hU =>
    obtain ⟨d, hd, hp⟩ := hp.split
    obtain ⟨t, htT, hp⟩ := hp.split
    obtain ⟨u, hu, hpU⟩ := hp.split
    have hr : t.rest = '(' :: u.rest := hu.rest_eq
    have hk : headIs continuesWord d.rest = false := by
      rw [htT.rest_eq]
      exact hT.headIs_continuesWord (by rw [hr]; rfl)
    have ht := Cursor.skipTrivia_of_trivia htT hT (by rw [hr]; rfl)
    obtain rfl : u = t.advance 1 := hu.eq_advance
    refine ⟨'i', _, hd.rest_eq, hstart, token_import hd hk hpoint ht (.dynamic ?_ ?_)⟩
    · rw [hr]
      rfl
    · exact Cursor.dynamicArgument_of_reads hpU hU hl
  | star hP hA =>
    cases hl with
    | reExport hl =>
      obtain ⟨d, hd, hp⟩ := hp.split
      obtain ⟨u, hu, hp⟩ := hp.split
      obtain ⟨v, hv, hpA⟩ := hp.split
      have hr : u.rest = '*' :: v.rest := hv.rest_eq
      obtain ⟨hk, t, ht, htype⟩ := exists_skipWord hP hu (by rw [hr]; rfl)
      obtain rfl : v = u.advance 1 := hv.eq_advance
      refine ⟨'e', _, hd.rest_eq, hstart, token_export hd hk hpoint ht htype ?_⟩
      exact .star (by rw [hr]; rfl) hA hpA hl
  | bindings hP hA hB =>
    cases hl with
    | reExport hl =>
      obtain ⟨d, hd, hp⟩ := hp.split
      obtain ⟨u, hu, hp⟩ := hp.split
      obtain ⟨v, hv, hp⟩ := hp.split
      obtain ⟨w, hw, hpB⟩ := hp.split
      have hr : u.rest = '\x7b' :: v.rest := hv.rest_eq
      obtain ⟨hk, t, ht, htype⟩ := exists_skipWord hP hu (by rw [hr]; rfl)
      obtain rfl : v = u.advance 1 := hv.eq_advance
      refine ⟨'e', _, hd.rest_eq, hstart, token_export hd hk hpoint ht htype ?_⟩
      exact .reExport (by rw [hr]; rfl) hA hw hB hpB hl

inductive Finding (s : ScanState) (c : Cursor) : ScanState → Prop
  | nothing {s' : ScanState} : s'.found = s.found → c.Reaches s'.cursor → Finding s c s'
  | reference {kind : ReferenceKind} {gap : List Char} {l : Literal} : Introduction kind gap →
      c.followsPoint = false → c.Passes gap l.opening → l.opening.Reads l kind →
      Finding s c ((s.entering kind).record kind l)

theorem headIs_blank_of_startsTrivia {k : List Char} (h : startsTrivia k = false) :
    headIs isBlank k = false := by
  cases k with
  | nil => rfl
  | cons x k => exact isBlank_of_startsTrivia h

theorem ImportStep.finding (hp : c.Passes importName d)
    (hk : headIs continuesWord d.rest = false) (hpoint : c.followsPoint = false)
    (ht : d.skipTrivia = .ok t) (h : ImportStep (s.moveTo d (.word importName)) t s') :
    Finding s c s' := by
  cases h with
  | plain => exact .nothing rfl hp.reaches
  | call =>
    have hreach := hp.reaches.trans (Cursor.Reaches.of_skipTrivia ht)
    exact .nothing rfl (hreach.trans (.advance t 1))
  | @dynamic l hx hl =>
    obtain ⟨k, hr⟩ := exists_cons_of_headIs hx
    obtain ⟨T, hT, hpT, -⟩ := Cursor.exists_trivia ht (by simp [hr])
    obtain ⟨U, hU, hpU, hl⟩ := Cursor.exists_of_dynamicArgument hl
    have hparen : t.Passes ['('] (t.advance 1) := .of_rest hr
    exact .reference (.dynamic hT hU) hpoint (hp.trans (hpT.trans (hparen.trans hpU))) hl
  | bare hl =>
    obtain rfl := hl.opening_eq
    obtain ⟨quote, body, -, hq⟩ := hl.exists_quotes
    obtain ⟨T, hT, hpT, -⟩ := Cursor.exists_trivia ht (by simp [hq.passes.rest_eq])
    exact .reference (.bare hT) hpoint (hp.trans hpT) (.declaration hl)
  | clause hx hA hpA hl =>
    obtain rfl := hl.opening_eq
    have hne := hA.ne_nil
    obtain ⟨T, hT, hpT, hstart⟩ := Cursor.exists_trivia ht (by simp [hpA.rest_eq, hne])
    rw [hpA.rest_eq] at hx hstart
    have hblank := headIs_blank_of_startsTrivia hstart
    rw [headIs_append_of_ne_nil hne] at hx hblank
    rw [(hpT.trans hpA).rest_eq, headIs_append_of_ne_nil (by simp [hne])] at hk
    exact .reference (.clause hT hk hx hblank hA) hpoint (hp.trans (hpT.trans hpA))
      (.declaration hl)

theorem exists_exportPrefix (hk : headIs continuesWord d.rest = false) (ht : d.skipTrivia = .ok t)
    (hu : t.skipWord typeWord = .ok u) (hr : u.rest ≠ []) :
    ∃ P, ExportPrefix P ∧ d.Passes P u := by
  by_cases htype : t.wordHere = typeWord
  · rw [skipWord_of_eq htype] at hu
    obtain ⟨k, hr', -⟩ := (Cursor.wordHere_eq_iff isWord_typeWord).1 htype
    have hp := Cursor.Passes.of_rest hr'
    obtain ⟨T, hT, hpT, -⟩ := Cursor.exists_trivia ht (by simp [hr', isWord_typeWord.ne_nil])
    obtain ⟨W, hW, hpW, -⟩ := Cursor.exists_trivia hu hr
    refine ⟨_, .typed hT ?_ hW, (hpT.trans hp).trans hpW⟩
    have hne : T ++ typeWord ≠ [] := by simp [isWord_typeWord.ne_nil]
    rwa [(hpT.trans hp).rest_eq, headIs_append_of_ne_nil hne] at hk
  · rw [skipWord_of_ne htype] at hu
    cases hu
    obtain ⟨T, hT, hpT, -⟩ := Cursor.exists_trivia ht hr
    exact ⟨T, .bare hT, hpT⟩

theorem ExportStep.finding (hp : c.Passes exportName d)
    (hk : headIs continuesWord d.rest = false) (hpoint : c.followsPoint = false)
    (ht : d.skipTrivia = .ok t) (hu : t.skipWord typeWord = .ok u)
    (h : ExportStep (s.moveTo d (.word exportName)) u s') : Finding s c s' := by
  have hreach := hp.reaches.trans ((Cursor.Reaches.of_skipTrivia ht).trans (.of_skipWord hu))
  cases h with
  | plain => exact .nothing rfl hp.reaches
  | list _ _ hpA =>
    exact .nothing rfl (hreach.trans ((Cursor.Reaches.advance u 1).trans hpA.reaches))
  | star hx hA hpA hl =>
    obtain rfl := hl.opening_eq
    obtain ⟨k, hr⟩ := exists_cons_of_headIs hx
    obtain ⟨P, hP, hpP⟩ := exists_exportPrefix hk ht hu (by simp [hr])
    have hone : u.Passes ['*'] (u.advance 1) := .of_rest hr
    exact .reference (.star hP hA) hpoint (hp.trans (hpP.trans (hone.trans hpA))) (.reExport hl)
  | reExport hx hA hpA hB hpB hl =>
    obtain rfl := hl.opening_eq
    obtain ⟨k, hr⟩ := exists_cons_of_headIs hx
    obtain ⟨P, hP, hpP⟩ := exists_exportPrefix hk ht hu (by simp [hr])
    have hone : u.Passes ['\x7b'] (u.advance 1) := .of_rest hr
    exact .reference (.bindings hP hA hB) hpoint
      (hp.trans (hpP.trans (hone.trans (hpA.trans hpB)))) (.reExport hl)

theorem finding_of_wordToken {rest : List Char} (hr : c.rest = x :: rest)
    (hx : isWordStart x = true) (hb : isBlank x = false) (h : s.wordToken c = .ok s') :
    Finding s c s' := by
  obtain ⟨w, d, hw, hp, hk, hstep⟩ := exists_wordStep hr hx hb h
  cases hstep with
  | plain => exact .nothing rfl hp.reaches
  | importing hpoint himport ht h =>
    subst himport
    exact h.finding hp hk hpoint ht
  | exporting hpoint hexport ht hu h =>
    subst hexport
    exact h.finding hp hk hpoint ht hu
  | requiring => exact .nothing rfl hp.reaches

theorem finding_of_token {rest : List Char} (hr : c.rest = x :: rest)
    (hstart : startsTrivia c.rest = false) (h : s.token x c = .ok s') : Finding s c s' := by
  cases tokenStep_of_token h with
  | slash =>
    refine .nothing found_slashToken ?_
    unfold slashToken
    split
    · exact .advance c _
    · exact .advance c 1
  | string _ hl => exact .nothing rfl (.of_literal hl)
  | template => exact .nothing rfl (.advance c 1)
  | openBrace => exact .nothing rfl (.advance c 1)
  | closeBrace => exact .nothing found_closeBrace (cursor_closeBrace ▸ .advance c 1)
  | number => exact .nothing rfl (.advance c _)
  | openParenthesis => exact .nothing rfl (.advance c 1)
  | closeParenthesis => exact .nothing rfl (.advance c 1)
  | word hx h => exact finding_of_wordToken hr hx (isBlank_of_startsTrivia (hr ▸ hstart)) h
  | mark => exact .nothing rfl (.advance c 1)

end ScanState

end ImportAtlas
