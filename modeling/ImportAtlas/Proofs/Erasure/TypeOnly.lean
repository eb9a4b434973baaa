import ImportAtlas.Proofs.Declaration.Source
import ImportAtlas.Proofs.Erasure.Line

namespace ImportAtlas

open Text Lexeme Outcome

namespace ScanState

variable {s s' s'' : ScanState} {A B T w k : List Char} {x : Char}

structure Crosses (s : ScanState) (A : List Char) (s' : ScanState) : Prop where
  plain : s'.Plain
  passes : s.cursor.Passes A s'.cursor
  runs : ∀ L, Runs s' L → Runs s (L.prepend A)

theorem Crosses.trans (h : Crosses s A s') (h' : Crosses s' B s'') : Crosses s (A ++ B) s'' where
  plain := h'.plain
  passes := h.passes.trans h'.passes
  runs L hL := by
    rw [← Layout.prepend_prepend]
    exact h.runs _ (h'.runs L hL)

theorem exists_crosses_token {rest : List Char} (hs : s.Plain) (hT : Trivia T)
    (hr : s.cursor.rest = T ++ (A ++ k)) (hx : A ++ k = x :: rest)
    (hstart : startsTrivia (A ++ k) = false)
    (htoken : ∀ t : Cursor, s.cursor.Passes T t → ∃ s', ({ s with cursor := t } : ScanState).token x t =
      .ok s' ∧ s'.found = s.found ∧ s'.Plain ∧ t.Passes A s'.cursor) :
    ∃ s', Crosses s (T ++ A) s' ∧ s'.cursor.rest = k := by
  obtain ⟨t, hp, htr⟩ := Cursor.exists_passes hr
  obtain ⟨s', hs', hf, hplain, hp'⟩ := htoken t hp
  refine ⟨s', ⟨hplain, hp.trans hp', fun L hL => ?_⟩, ?_⟩
  · rw [← Layout.prepend_prepend]
    exact .of_trivia hs.code hp (.closed hT (htr ▸ hstart))
      (.token hs.code (htr.trans hx) (htr ▸ hstart) hs' hf hp' hL)
  · exact List.append_cancel_left (hp'.rest_eq.symm.trans htr)

theorem exists_crosses_word (hs : s.Plain) (hT : Trivia T) (hr : s.cursor.rest = T ++ (w ++ k))
    (hw : IsWord w) (hk : headIs continuesWord k = false)
    (hharmless : ∀ d : Cursor, d.rest = k → Harmless w d) :
    ∃ s', Crosses s (T ++ w) s' ∧ s'.cursor.rest = k := by
  obtain ⟨x, w', hwx⟩ := List.exists_cons_of_ne_nil hw.ne_nil
  have hx : w ++ k = x :: (w' ++ k) := by rw [hwx, List.cons_append]
  refine exists_crosses_token hs hT hr hx hw.startsTrivia fun t ht => ?_
  have htr : t.rest = w ++ k := List.append_cancel_left (ht.rest_eq.symm.trans hr)
  obtain ⟨d, hp, hd⟩ := Cursor.exists_passes htr
  refine ⟨_, token_of_harmless hw hp (hd ▸ hk) (by rw [hwx]; simp) (.inr (hharmless _ hd)), rfl,
    ⟨hs.code, hs.closed⟩, hp⟩

theorem exists_crosses_equals (hs : s.Plain) (hT : Trivia T) (hr : s.cursor.rest = T ++ '=' :: k) :
    ∃ s', Crosses s (T ++ ['=']) s' ∧ s'.cursor.rest = k := by
  refine exists_crosses_token (A := ['=']) hs hT hr rfl rfl fun t ht => ?_
  have htr : t.rest = ['='] ++ k := List.append_cancel_left (ht.rest_eq.symm.trans hr)
  exact ⟨_, token_of_step (.mark (by decide)), rfl, ⟨hs.code, hs.closed⟩, .of_rest htr⟩

theorem harmless_of_ne {d : Cursor} (himport : w ≠ importName) (hexport : w ≠ exportName)
    (hrequire : w ≠ requireName) : Harmless w d :=
  ⟨fun h => absurd h himport, fun h => absurd h hexport, fun h => absurd h hrequire⟩

end ScanState

namespace Declaration

variable {A : List Char} {c : Char}

theorem endsInPoint_concat (hpoint : c ≠ '.') (hblank : isAsciiBlank c = false) :
    endsInPoint (A ++ [c]) = false := by
  rw [endsInPoint, List.reverse_append, List.reverse_singleton, List.singleton_append,
    Cursor.followsPoint, List.dropWhile_cons_of_neg (by simp [hblank])]
  split
  · rfl
  · rename_i h
    cases h
    exact absurd rfl hpoint
  · rfl

theorem endsInPoint_blank (hblank : isAsciiBlank c = true) :
    endsInPoint (A ++ [c]) = endsInPoint A := by
  rw [endsInPoint, List.reverse_append, List.reverse_singleton, List.singleton_append,
    Cursor.followsPoint, List.dropWhile_cons_of_pos hblank]
  rfl

theorem endsInPoint_word {w : List Char} (hw : IsWord w) : endsInPoint (A ++ w) = false := by
  obtain ⟨w', c, rfl⟩ : ∃ w' c, w = w' ++ [c] :=
    ⟨_, _, (List.dropLast_append_getLast hw.ne_nil).symm⟩
  have hc := hw.continues c (by simp)
  rw [← List.append_assoc]
  refine endsInPoint_concat (Erasure.ne_of_continuesWord hc (by decide)) ?_
  by_contra hblank
  rw [Bool.not_eq_false] at hblank
  rw [continuesWord_of_isBlank (by rw [isBlank, hblank, Bool.true_or])] at hc
  cases hc

theorem endsInPoint_quoted {quote : Char} {body : List Char} (hq : isQuote quote = true) :
    endsInPoint (A ++ quoted quote body) = false := by
  rw [quoted, ← List.append_assoc]
  rcases isQuote_iff.1 hq with rfl | rfl
  · exact endsInPoint_concat (by decide) (by decide)
  · exact endsInPoint_concat (by decide) (by decide)

end Declaration

namespace Erasure.Line

open ScanState Declaration Statement Spaced Token

variable {s : ScanState} {d : Cursor} {T k r w : List Char} {closed : Bool}

theorem headIs_of_wordHere (h : d.wordHere = typeWord) : headIs (· = 't') d.rest = true := by
  rw [Cursor.wordHere_eq] at h
  split at h
  · cases hr : d.rest with
    | nil =>
      rw [hr] at h
      cases h
    | cons c rest =>
      rw [hr, Lexeme.word] at h
      exact decide_eq_true (List.cons.inj h).1
  · cases h

theorem harmless_of_next (hr : d.rest = T ++ r) (hT : Trivia T) (hstart : startsTrivia r = false)
    (himport : w = importName → headIs opensImport r = false)
    (hnext : headIs (fun c => c = 't' || c = '(' || opensExport c) r = false) :
    Harmless w d := by
  obtain ⟨t, hp, rfl⟩ := Cursor.exists_passes hr
  have ht : d.skipTrivia = .ok t := Cursor.skipTrivia_of_passes hp (.closed hT hstart)
  have heads {p : Char → Bool}
      (hp : ∀ c, p c = true → (c = 't' || c = '(' || opensExport c) = true) :
      headIs p t.rest = false := by
    cases hr : t.rest with
    | nil => rfl
    | cons c r =>
      rw [hr, headIs_cons] at hnext
      rw [headIs_cons]
      by_contra hc
      rw [hp c (by simpa using hc)] at hnext
      cases hnext
  have htype : t.wordHere ≠ typeWord := fun h => by
    have := headIs_of_wordHere h
    rw [heads (p := (· = 't')) fun c hc => by rw [hc]; rfl] at this
    cases this
  refine ⟨fun h => ⟨t, ht, himport h⟩, fun _ => ⟨t, t, ht, if_neg htype, ?_⟩, fun _ => ⟨t, ht, ?_⟩⟩
  · exact heads fun c hc => by rw [hc, Bool.or_true]
  · exact heads fun c hc => by rw [hc, Bool.or_true, Bool.true_or]

theorem exists_next (closed : Bool) (ls : List Line) :
    ∃ T r, ending closed ++ following ls = T ++ r ∧ Trivia T ∧ startsTrivia r = false ∧
      headIs (fun c => c = 't' || c = '(' || opensExport c) r = false := by
  cases closed with
  | true => exact ⟨[], _, rfl, .nil, rfl, rfl⟩
  | false =>
    induction ls with
    | nil => exact ⟨[], [], rfl, .nil, rfl, rfl⟩
    | cons l ls ih =>
      cases l with
      | blank =>
        obtain ⟨T, r, hsplit, hT, hstart, hnext⟩ := ih
        exact ⟨'\n' :: T, r, congrArg ('\n' :: ·) hsplit, .blank (by decide) hT, hstart, hnext⟩
      | statement s closed =>
        refine ⟨['\n'], _, rfl, .blank (by decide) .nil, ?_, ?_⟩
        · cases s with
          | bare => rfl
          | clause keyword => cases keyword <;> rfl
          | typeAlias => rfl
        · cases s with
          | bare => rfl
          | clause keyword => cases keyword <;> rfl
          | typeAlias => rfl

theorem harmless_export (n : Name) (hr : d.rest = ' ' :: (typePrefix true ++ (n.text ++ k))) :
    Harmless exportName d := by
  have hr : d.rest = [' '] ++ (typeWord ++ ([' '] ++ (n.text ++ k))) := by
    simpa [typePrefix] using hr
  have hblank : Trivia [' '] := .blank (by decide) .nil
  obtain ⟨t, ht, htr⟩ := Cursor.exists_passes hr
  obtain ⟨v, hv, hvr⟩ := Cursor.exists_passes htr
  obtain ⟨u, hu, hur⟩ := Cursor.exists_passes hvr
  have hskip : d.skipTrivia = .ok t :=
    Cursor.skipTrivia_of_passes ht (.closed hblank (htr ▸ rfl))
  have htype : t.skipWord typeWord = .ok u := by
    have hword : t.wordHere = typeWord :=
      (Cursor.wordHere_eq_iff isWord_typeWord).2 ⟨_, htr, rfl⟩
    rw [Cursor.skipWord, if_pos hword, ← hv.eq_advance]
    exact Cursor.skipTrivia_of_passes hu (.closed hblank (hur ▸ n.isWord.startsTrivia))
  refine ⟨fun h => absurd h (by decide), fun _ => ⟨t, u, hskip, htype, ?_⟩,
    fun h => absurd h (by decide)⟩
  obtain ⟨c, w, hw⟩ := List.exists_cons_of_ne_nil n.isWord.ne_nil
  have hc := n.isWord.continues c (hw ▸ List.mem_cons_self)
  rw [hur, hw, List.cons_append, headIs_cons, opensExport]
  simp [ne_of_continuesWord hc (d := '*') (by decide),
    ne_of_continuesWord hc (d := '\x7b') (by decide)]

theorem exists_crosses_alias (n t : Name) (reserved : t.text ≠ importName) (hs : s.Plain)
    (hT : Trivia T) (ls : List Line)
    (hr : s.cursor.rest = T ++ (statement (.typeAlias n t reserved) closed).text ++ following ls) :
    ∃ A s', Crosses s A s' ∧ s'.cursor.rest = ending closed ++ following ls ∧
      endsInPoint s'.cursor.before.reverse = false := by
  rw [List.append_assoc, text_typeAlias] at hr
  have htext (k : List Char) : aliasText n t ++ k = n.text ++ (' ' :: '=' :: ' ' :: (t.text ++ k)) := by
    simp [aliasText]
  rw [htext] at hr
  have hblank : Trivia [' '] := .blank (by decide) .nil
  obtain ⟨s₁, h₁, hr₁⟩ := exists_crosses_word hs hT hr (.of_all (by decide) (by decide)) (by rfl)
    fun d hd => harmless_export n hd
  have hr₁ : s₁.cursor.rest = [' '] ++ (typeWord ++ (' ' :: (n.text ++
      (' ' :: '=' :: ' ' :: (t.text ++ (ending closed ++ following ls)))))) := by
    simpa [typePrefix] using hr₁
  obtain ⟨s₂, h₂, hr₂⟩ := exists_crosses_word h₁.plain hblank hr₁ isWord_typeWord (by rfl)
    fun d _ => harmless_of_ne (by decide) (by decide) (by decide)
  obtain ⟨s₃, h₃, hr₃⟩ := exists_crosses_word h₂.plain hblank (T := [' ']) hr₂ n.isWord (by rfl)
    fun d hd => harmless_of_next (T := [' ']) hd hblank (by rfl) (fun _ => by rfl) (by rfl)
  obtain ⟨s₄, h₄, hr₄⟩ := exists_crosses_equals h₃.plain hblank (T := [' ']) hr₃
  obtain ⟨B, r, hsplit, hB, hstart, hnext⟩ := exists_next closed ls
  have hjoin : headIs continuesWord (ending closed ++ following ls) = false := by
    cases closed with
    | true => rfl
    | false => exact (endsLine_following ls).head (by decide)
  obtain ⟨s₅, h₅, hr₅⟩ := exists_crosses_word h₄.plain hblank (T := [' ']) hr₄ t.isWord hjoin
    fun d hd => harmless_of_next (hd.trans hsplit) hB hstart (fun h => absurd h reserved) hnext
  refine ⟨_, s₅, h₁.trans (h₂.trans (h₃.trans (h₄.trans h₅))), hr₅, ?_⟩
  rw [before_of_passes h₅.passes, ← List.append_assoc]
  exact endsInPoint_word t.isWord

/-- The references of a line, before those of the lines after it. -/
structure Refers (s : ScanState) (l : Line) (ls : List Line) (s' : ScanState) : Prop where
  plain : s'.Plain
  rest_eq : s'.cursor.rest = following ls
  clear : endsInPoint s'.cursor.before.reverse = false
  runs : ∀ L, Runs s' L → ∃ L', Runs s L' ∧ L'.names = l.reference?.toList ++ L.names

theorem exists_refers_ending {s₁ : ScanState} {l : Line} {ls : List Line} (hs : s₁.Plain)
    (hr : s₁.cursor.rest = ending closed ++ following ls)
    (hclear : endsInPoint s₁.cursor.before.reverse = false)
    (hruns : ∀ L, Runs s₁ L → ∃ L', Runs s L' ∧ L'.names = l.reference?.toList ++ L.names) :
    ∃ s', Refers s l ls s' := by
  have hending : ending closed = [] ∨ ∃ T, Trivia T ∧ ending closed = T ++ [';'] := by
    cases closed with
    | true => exact .inr ⟨[], .nil, rfl⟩
    | false => exact .inl rfl
  obtain ⟨s', hplain, hp, hruns'⟩ := exists_ending hending hs hr
  refine ⟨s', hplain, List.append_cancel_left (hp.rest_eq.symm.trans hr), ?_, fun L hL => ?_⟩
  · rw [before_of_passes hp]
    cases closed with
    | true => exact endsInPoint_concat (by decide) (by decide)
    | false => rwa [ending, if_neg Bool.false_ne_true, List.append_nil]
  · obtain ⟨L', hL', hnames⟩ := hruns _ (hruns' L hL)
    exact ⟨L', hL', by rw [hnames, Layout.names_prepend]⟩

theorem exists_refers_form {kind : ReferenceKind} {l : Line} {ls : List Line} (sp : Spaced)
    (ss : List Spaced) (m : LineLiteral) (closed : Bool)
    (hform : IsForm kind ((sp :: ss).map Spaced.token)) (hspaced : WellSpaced (sp :: ss)) (hs : s.Plain)
    (hr : s.cursor.rest = texts (sp :: ss) ++ [' '] ++ (m.text ++ (ending closed ++ following ls)))
    (hclear : endsInPoint (s.cursor.before.reverse ++ sp.trivia) = false)
    (hl : l.reference? = some (String.ofList m.body, kind)) :
    ∃ s', Refers s l ls s' := by
  obtain ⟨e, hp, he⟩ := Cursor.exists_passes hr
  have hopens : e.Opens m.quote m.body := ⟨m.quotes, m.string, _, he⟩
  obtain ⟨s₁, h₁⟩ := leads_of_form hform hspaced (.blank (by decide) .nil) hopens hs hp
  rw [sighted_of_form hform hclear] at h₁
  have hr₁ : s₁.cursor.rest = ending closed ++ following ls := by
    refine List.append_cancel_left (h₁.passes.rest_eq.symm.trans ?_)
    rw [hr, LineLiteral.text]
    simp
  refine exists_refers_ending h₁.plain hr₁ ?_ fun L hL => ⟨_, h₁.runs L hL, ?_⟩
  · rw [before_of_passes h₁.passes, ← List.append_assoc]
    exact endsInPoint_quoted m.quotes
  · rw [hl]
    rfl

def keywordToken : Keyword → Token
  | .importing => importToken
  | .exporting => exportToken

theorem text_keywordToken (keyword : Keyword) : (keywordToken keyword).text = keyword.text := by
  cases keyword <;> rfl

theorem text_importToken : importToken.text = importName := rfl

theorem text_fromToken : fromToken.text = fromWord := rfl

theorem text_mark (c : Char) : (mark c).text = [c] := rfl

theorem text_word (w : List Char) : (Token.word w).text = w := rfl

theorem texts_nil : texts [] = [] := rfl

theorem exists_refers (st : Statement) (ls : List Line) (hs : s.Plain) (hT : Trivia T)
    (hr : s.cursor.rest = T ++ (statement st closed).text ++ following ls)
    (hclear : endsInPoint (s.cursor.before.reverse ++ T) = false)
    (htypes : (statement st closed).isTypeClause = false) :
    ∃ s', Refers s (statement st closed) ls s' := by
  have hblank : Trivia [' '] := .blank (by decide) .nil
  cases st with
  | bare m =>
    rw [List.append_assoc, text_bare] at hr
    refine exists_refers_form ⟨T, importToken⟩ [] m closed .bare
      ⟨hT, fun _ _ => rfl, .intro⟩ hs ?_ hclear rfl
    rw [hr, texts_cons, texts_nil, text_importToken, List.append_nil, List.append_assoc,
      List.append_assoc]
    rfl
  | clause keyword typesOnly n m =>
    cases typesOnly with
    | true => cases htypes
    | false =>
      rw [List.append_assoc, text_clause] at hr
      have hform : IsForm keyword.kind [keywordToken keyword, mark '\x7b', word n.text, mark '\x7d',
          fromToken] := by
        cases keyword with
        | importing => exact .clause (.named (.bindings (.single (.plain (.word n.isWord)))))
        | exporting => exact .bindings (.single (.plain (.word n.isWord)))
      refine exists_refers_form ⟨T, keywordToken keyword⟩ [⟨[' '], mark '\x7b'⟩,
        ⟨[' '], word n.text⟩, ⟨[' '], mark '\x7d'⟩, ⟨[' '], fromToken⟩] m closed hform
        ⟨hT, fun _ _ => rfl, hblank, fun _ _ => rfl, hblank, fun _ _ => rfl, hblank,
          fun _ _ => rfl, hblank, fun _ _ => rfl, .intro⟩ hs ?_ hclear rfl
      rw [hr]
      simp only [texts_cons, texts_nil, text_keywordToken, text_mark, text_word, text_fromToken,
        typePrefix, clauseText, Bool.false_eq_true, if_false, List.append_assoc, List.cons_append,
        List.nil_append]
  | typeAlias n t reserved =>
    obtain ⟨A, s₁, h₁, hr₁, hclear₁⟩ := exists_crosses_alias n t reserved hs hT ls hr
    exact exists_refers_ending h₁.plain hr₁ hclear₁ fun L hL =>
      ⟨_, h₁.runs L hL, Layout.names_prepend⟩

theorem exists_runs_end (hs : s.Plain) (hT : Trivia T) (hr : s.cursor.rest = T) :
    Runs s (.tail T) := by
  have hr : s.cursor.rest = T ++ [] := hr.trans (List.append_nil T).symm
  obtain ⟨t, hp, htr⟩ := Cursor.exists_passes hr
  have := Runs.of_trivia hs.code hp (.closed hT (htr ▸ rfl)) (.done hs.code htr hs.closed)
  rwa [Layout.prepend, List.append_nil] at this

theorem exists_runs_lines (ls : List Line) (l : Line)
    (htypes : ∀ m ∈ l :: ls, m.isTypeClause = false) (hs : s.Plain) (hT : Trivia T)
    (hr : s.cursor.rest = T ++ l.text ++ following ls)
    (hclear : endsInPoint (s.cursor.before.reverse ++ T) = false) :
    ∃ L, Runs s L ∧ L.names = (l :: ls).filterMap reference? := by
  induction ls generalizing l s T with
  | nil =>
    cases l with
    | blank => exact ⟨_, exists_runs_end hs hT (by simpa [following, text] using hr), rfl⟩
    | statement st closed =>
      obtain ⟨s', h⟩ := exists_refers st [] hs hT hr hclear (htypes _ List.mem_cons_self)
      obtain ⟨L, hL, hnames⟩ := h.runs _ (.done h.plain.code h.rest_eq h.plain.closed)
      exact ⟨L, hL, hnames.trans (filterMap_reference? _ []).symm⟩
  | cons l' ls ih =>
    have htypes' := fun m hm => htypes m (List.mem_cons_of_mem l hm)
    cases l with
    | blank =>
      have hr : s.cursor.rest = T ++ ['\n'] ++ l'.text ++ following ls := by
        simpa [following_cons, text] using hr
      refine ih l' htypes' hs (hT.append (.blank (by decide) .nil)) hr ?_
      rwa [← List.append_assoc, endsInPoint_blank (by decide)]
    | statement st closed =>
      obtain ⟨s', h⟩ := exists_refers st (l' :: ls) hs hT hr hclear (htypes _ List.mem_cons_self)
      obtain ⟨L, hL, hnames⟩ := ih l' htypes' h.plain (T := ['\n']) (.blank (by decide) .nil)
        (h.rest_eq.trans (by rw [following_cons, List.append_assoc]; rfl))
        (by rw [endsInPoint_blank (by decide), h.clear])
      obtain ⟨L', hL', hnames'⟩ := h.runs L hL
      refine ⟨L', hL', hnames'.trans ?_⟩
      rw [hnames, filterMap_reference? _ (l' :: ls)]

theorem initial_source (ls : List Line) : ScanState.initial (source ls) = atStart (source ls) := by
  cases ls with
  | nil => rfl
  | cons l ls =>
    cases l with
    | blank =>
      cases ls with
      | nil => rfl
      | cons => rfl
    | statement st closed =>
      cases st with
      | bare => rfl
      | clause keyword => cases keyword <;> rfl
      | typeAlias => rfl

theorem exists_scan_source (ls : List Line) (htypes : ∀ l ∈ ls, l.isTypeClause = false) :
    ∃ references, scan (String.ofList (source ls)) = .ok references ∧
      references.map (fun r => (r.specifier, r.kind)) = ls.filterMap reference? := by
  obtain ⟨L, hL, hnames⟩ : ∃ L, Runs (atStart (source ls)) L ∧ L.names = ls.filterMap reference? := by
    cases ls with
    | nil => exact ⟨_, exists_runs_end ⟨rfl, rfl⟩ .nil rfl, rfl⟩
    | cons l ls => exact exists_runs_lines ls l htypes ⟨rfl, rfl⟩ .nil rfl rfl
  refine ⟨L.references 0, ?_, (Layout.map_references 0).trans hnames⟩
  rw [scan, String.toList_ofList, initial_source, hL.run_eq]
  rfl

/-- What a module of such lines refers to once its types are erased, and source maps
too.  The scan succeeds.  Only clauses of imports and re-exports are lost, and they
just where an alias without a semicolon comes before, with idle lines between. -/
theorem scan_normalize_source {path : Path} (hpath : isTypeScript path = true) (maps : Bool)
    (ls : List Line) :
    (∃ references, scan (normalize maps path (String.ofList (source ls))) = .ok references ∧
      references.map (fun r => (r.specifier, r.kind)) = kept false ls) ∧
    (kept false ls).Sublist (ls.filterMap reference?) ∧
    (kept false ls = ls.filterMap reference? ↔ ¬ Loses ls) := by
  obtain ⟨ls', htypes, htext, hrefs⟩ := exists_typeOnly_source ls
  have hnormal : normalize maps path (String.ofList (source ls)) = String.ofList (source ls') := by
    rw [normalize, String.toList_ofList, hpath, if_pos rfl, htext, sourceMaps_source, ite_self]
  rw [hnormal, ← hrefs]
  refine ⟨exists_scan_source ls' htypes, ?_, ?_⟩
  · rw [hrefs]
    exact kept_sublist false ls
  · rw [hrefs, kept_eq_iff]
    simp

theorem isQuote_beside : isQuote '\'' = true := rfl

theorem ne_of_mem_beside :
    ∀ c ∈ "./a.js".toList, c ≠ '\'' ∧ c ≠ '\n' ∧ c ≠ '\\' ∧ c ≠ '\r' := by
  intro c hc
  simp only [String.reduceToList, List.mem_cons, List.not_mem_nil, or_false] at hc
  rcases hc with rfl | rfl | rfl | rfl | rfl | rfl <;> decide

theorem stringBody_beside : StringBody '\'' "./a.js".toList := by
  refine .of_forall fun c hc => ?_
  obtain ⟨hquote, hline, hescape, -⟩ := ne_of_mem_beside c hc
  exact ⟨hquote, hline, hescape⟩

theorem inLine_beside : ∀ c ∈ "./a.js".toList, c ≠ '\'' ∧ c ≠ '\r' ∧ c ≠ '\n' := by
  intro c hc
  obtain ⟨hquote, hline, -, hreturn⟩ := ne_of_mem_beside c hc
  exact ⟨hquote, hreturn, hline⟩

def besideLiteral : LineLiteral where
  quote := '\''
  quotes := isQuote_beside
  body := "./a.js".toList
  string := stringBody_beside
  inLine := inLine_beside

def openModule : List Line :=
  [.statement (.typeAlias ⟨['A'], .of_all (by decide) (by decide)⟩
      ⟨['B'], .of_all (by decide) (by decide)⟩ (by decide)) false,
    .statement (.clause .importing false ⟨['a'], .of_all (by decide) (by decide)⟩ besideLiteral)
      false]

theorem scan_normalize_openModule :
    isTypeScript (Path.ofString "/w/mod.ts") = true ∧
    String.ofList (source openModule) = "export type A = B\nimport \x7b a \x7d from './a.js'" ∧
    openModule.filterMap reference? = [("./a.js", .declaration)] ∧
    scan (normalize true (Path.ofString "/w/mod.ts")
      "export type A = B\nimport \x7b a \x7d from './a.js'") = .ok [] ∧ Loses openModule := by
  have hpath : isTypeScript (Path.ofString "/w/mod.ts") = true := by decide +kernel
  have htext : String.ofList (source openModule) =
      "export type A = B\nimport \x7b a \x7d from './a.js'" := by decide +kernel
  obtain ⟨⟨references, hscan, hrefs⟩, -, hiff⟩ := scan_normalize_source hpath true openModule
  have hkept : kept false openModule = [] := rfl
  have hall : openModule.filterMap reference? = [("./a.js", .declaration)] := by decide +kernel
  rw [htext] at hscan
  rw [hkept, List.map_eq_nil_iff] at hrefs
  refine ⟨hpath, htext, hall, hrefs ▸ hscan, ?_⟩
  by_contra hnone
  rw [← hiff, hkept, hall] at hnone
  cases hnone

end Erasure.Line

end ImportAtlas
