import ImportAtlas.Proofs.Reference.Concatenation

namespace ImportAtlas

open Text Lexeme Outcome

namespace Lexeme

variable {body k : List Char} {inClass : Bool} {n : Nat}

/-- What stands between the slashes of a regular expression on one line, from
outside of a class or from inside of one on. -/
inductive RegexBody : Bool → List Char → Prop
  | nil : RegexBody false []
  | char {inClass : Bool} {c : Char} {body : List Char} : c ∉ ['[', ']', '\\', '\n'] →
      (c = '/' → inClass = true) → RegexBody inClass body → RegexBody inClass (c :: body)
  | escape {inClass : Bool} {c : Char} {body : List Char} : c ≠ '\n' →
      RegexBody inClass body → RegexBody inClass ('\\' :: c :: body)
  | openClass {inClass : Bool} {body : List Char} : RegexBody true body →
      RegexBody inClass ('[' :: body)
  | closeClass {inClass : Bool} {body : List Char} : RegexBody false body →
      RegexBody inClass (']' :: body)

theorem RegexBody.regexBodyFrom_append (h : RegexBody inClass body) :
    regexBodyFrom inClass n (body ++ '/' :: k) = some (n + body.length + 1) := by
  induction h generalizing n with
  | nil => simp [regexBodyFrom]
  | @char inClass c body hc hslash _ ih =>
    rw [List.cons_append, regexBodyFrom_cons hc, ih, if_neg ?_]
    · simp only [List.length_cons, Option.some.injEq]
      omega
    · rw [Bool.and_eq_true, decide_eq_true_eq]
      rintro ⟨rfl, hclass⟩
      rw [hslash rfl] at hclass
      contradiction
  | escape _ _ ih =>
    rw [List.cons_append, List.cons_append, regexBodyFrom, ih]
    simp only [List.length_cons, Option.some.injEq]
    omega
  | openClass _ ih =>
    rw [List.cons_append, regexBodyFrom, ih]
    simp only [List.length_cons, Option.some.injEq]
    omega
  | closeClass _ ih =>
    rw [List.cons_append, regexBodyFrom, ih]
    simp only [List.length_cons, Option.some.injEq]
    omega

/-- The body of a regular expression: two slashes would begin a comment, and so
would a slash and a star. -/
structure IsRegex (body : List Char) : Prop where
  ne_nil : body ≠ []
  noComment : headIs (· = '*') body = false
  closed : RegexBody false body

namespace IsRegex

theorem regex?_eq (h : IsRegex body) (hk : headIs isWordPart k = false) :
    regex? ('/' :: (body ++ '/' :: k)) = some (body.length + 2) := by
  have hdrop : (body ++ '/' :: k).drop (1 + body.length + 1 - 1) = k := by
    rw [List.drop_append, List.drop_of_length_le (by omega)]
    simp [Nat.add_comm 1]
  have hflags : k.takeWhile isWordPart = [] := by
    simpa using takeWhile_append_of_headIs (A := []) (p := isWordPart) (by simp) hk
  rw [regex?, h.closed.regexBodyFrom_append, Option.map_some, hdrop, hflags]
  simp only [List.length_nil, Option.some.injEq]
  omega

theorem startsTrivia (h : IsRegex body) : startsTrivia ('/' :: (body ++ '/' :: k)) = false := by
  rw [startsTrivia_cons, headIs_append_of_ne_nil h.ne_nil, (by decide : isBlank '/' = false)]
  have hstar := h.noComment
  cases h.closed with
  | nil => exact absurd rfl h.ne_nil
  | @char _ c body _ hslash =>
    have hc : c ≠ '/' := fun h => absurd (hslash h) (by decide)
    rw [headIs_cons, decide_eq_false_iff_not] at hstar
    simp [hc, hstar]
  | escape => rfl
  | openClass => rfl
  | closeClass => rfl

end IsRegex

inductive TemplateBody : List Char → Prop
  | nil : TemplateBody []
  | char {c : Char} {body : List Char} : c ≠ '\\' → c ≠ '\x60' →
      (c = '$' → headIs (· = '\x7b') body = false) → TemplateBody body → TemplateBody (c :: body)
  | escape {c : Char} {body : List Char} : TemplateBody body → TemplateBody ('\\' :: c :: body)

theorem TemplateBody.templateChunkFrom_append (h : TemplateBody body) :
    templateChunkFrom n (body ++ '\x60' :: k) = some (.closed, n + body.length + 1) := by
  induction h generalizing n with
  | nil => rfl
  | @char c body hescape hclose hopen _ ih =>
    have hbrace (hc : c = '$') : headIs (· = '\x7b') (body ++ '\x60' :: k) = false := by
      have := hopen hc
      cases body with
      | nil => rfl
      | cons => exact this
    rw [List.cons_append, templateChunkFrom_cons hclose hescape hbrace, ih]
    simp only [List.length_cons, Option.some.injEq, Prod.mk.injEq, true_and]
    omega
  | escape _ ih =>
    rw [List.cons_append, List.cons_append, templateChunkFrom, ih]
    simp only [List.length_cons, Option.some.injEq, Prod.mk.injEq, true_and]
    omega

end Lexeme

/-- Before the text `k` and after the token `t` the characters are code without
references, and the last token of the code is `u`. -/
inductive Crossing : List Char → LastToken → List Char → LastToken → Prop
  | trivia {k T : List Char} {t : LastToken} : Trivia T → Crossing k t T t
  | mark {k : List Char} {t : LastToken} {x : Char} : ScanState.isMark x = true →
      isBlank x = false → Crossing k t [x] (.punctuation x)
  | word {k w : List Char} {t : LastToken} : IsWord w →
      w ∉ [importName, exportName, requireName] → headIs continuesWord k = false →
      Crossing k t w (.word w)
  | exported {T y : List Char} {t : LastToken} : Trivia T →
      headIs continuesWord (T ++ y) = false → startsTrivia y = false →
      headIs (fun c => ScanState.opensExport c || c = 't') y = false →
      Crossing (T ++ y) t exportName (.word exportName)
  | required {T y : List Char} {t : LastToken} : Trivia T →
      headIs continuesWord (T ++ y) = false → startsTrivia y = false →
      headIs (· = '(') y = false → Crossing (T ++ y) t requireName (.word requireName)
  | number {k A : List Char} {t : LastToken} {x : Char} : x.isDigit = true →
      (∀ c ∈ A, (isWordPart c || c = '.') = true) →
      headIs (fun c => isWordPart c || c = '.') k = false → Crossing k t (x :: A) .value
  | string {k body : List Char} {t : LastToken} {quote : Char} : isQuote quote = true →
      StringBody quote body → Crossing k t (quoted quote body) .value
  | template {k body : List Char} {t : LastToken} : TemplateBody body →
      Crossing k t (quoted '\x60' body) .value
  | regex {k body : List Char} {t : LastToken} : t.allowsRegex = true → IsRegex body →
      headIs isWordPart k = false → Crossing k t (quoted '/' body) .value
  | slash {k : List Char} {t : LastToken} : headIs (fun c => c = '/' || c = '*') k = false →
      (t.allowsRegex = true → regex? ('/' :: k) = none) → Crossing k t ['/'] (.punctuation '/')
  | group {k A : List Char} {t u : LastToken} : Crossing (')' :: k) (.punctuation '(') A u →
      Crossing k t ('(' :: (A ++ [')']))
        (if t.isWordAmong LastToken.controlWords then .controlHead else .punctuation ')')
  | append {k A B : List Char} {t u v : LastToken} : Crossing (B ++ k) t A u →
      Crossing k u B v → Crossing k t (A ++ B) v

namespace ScanState

variable {s s' : ScanState} {c d : Cursor} {w A T k y body : List Char} {x quote : Char}
  {t u : LastToken}

theorem run_of_token {rest : List Char} (hm : s.mode = .code) (hr : s.cursor.rest = x :: rest)
    (hs : startsTrivia (x :: rest) = false) (h : s.token x s.cursor = .ok s') :
    s.run = s'.run :=
  run_of_step (step_of_token hm hr (hr ▸ hs) h)

theorem startsTrivia_of_ne (hblank : isBlank x = false) (hx : x ≠ '/') :
    startsTrivia (x :: k) = false := by
  rw [startsTrivia_cons, hblank]
  simp [hx]

theorem isBlank_of_isDigit (hx : x.isDigit = true) : isBlank x = false := by
  have hstart := isWordStart_of_isDigit hx
  simp only [isWordStart, Bool.or_eq_false_iff, Bool.not_eq_false'] at hstart
  rw [isBlank, isWideBlank, hstart.2, Bool.not_true, Bool.false_and, Bool.or_false]
  by_contra hblank
  simp only [isAsciiBlank, Bool.not_eq_false, Bool.or_eq_true, decide_eq_true_eq] at hblank
  rcases hblank with (((rfl | rfl) | rfl) | rfl) | rfl <;> contradiction

theorem run_word (hm : s.mode = .code) (hw : IsWord w) (hp : s.cursor.Passes w d)
    (hd : headIs continuesWord d.rest = false)
    (h : WordStep (s.moveTo d (.word w)) w s.cursor s.last s') : s.run = s'.run := by
  have hs : startsTrivia (w ++ d.rest) = false := hw.startsTrivia
  obtain ⟨x, w', rfl⟩ := List.exists_cons_of_ne_nil hw.ne_nil
  refine run_of_token hm hp.rest_eq hs ?_
  rw [token_of_word hw (by simp)]
  exact wordToken_of_step hw hp hd h

theorem WordStep.of_followsPoint (h : c.followsPoint = false → WordStep s w c t s) :
    WordStep s w c t s := by
  cases hpoint : c.followsPoint with
  | true => exact .plain fun h => absurd (hpoint.symm.trans h) (by decide)
  | false => exact h hpoint

theorem wordStep_export (hd : s.cursor.rest = T ++ y) (hT : Trivia T)
    (hs : startsTrivia y = false) (hy : headIs (fun c => opensExport c || c = 't') y = false) :
    WordStep s exportName c t s := by
  obtain ⟨v, hv, rfl⟩ := Cursor.exists_passes hd
  refine .of_followsPoint fun hpoint => .exporting hpoint rfl
    (Cursor.skipTrivia_of_trivia hv hT hs) (skipWord_of_ne ?_) (.plain ?_)
  · intro htype
    obtain ⟨k, hk, -⟩ := (Cursor.wordHere_eq_iff isWord_typeWord).1 htype
    rw [hk] at hy
    contradiction
  · exact headIs_eq_false_of_imp (fun c hc => by simp [hc]) hy

theorem wordStep_require (hd : s.cursor.rest = T ++ y) (hT : Trivia T)
    (hs : startsTrivia y = false) (hy : headIs (· = '(') y = false) :
    WordStep s requireName c t s := by
  obtain ⟨v, hv, rfl⟩ := Cursor.exists_passes hd
  refine .of_followsPoint fun hpoint => .requiring hpoint rfl ?_
  have hhead : ¬ v.rest.head? = some '(' := by
    rw [head?_eq_some_iff, hy]
    decide
  rw [requireWord, Cursor.skipTrivia_of_trivia hv hT hs, ok_bind, decide_eq_false hhead]
  rfl

theorem run_mark (hm : s.mode = .code) (hx : isMark x = true) (hblank : isBlank x = false)
    (hp : s.cursor.Passes [x] d) : s.run = (s.moveTo d (.punctuation x)).run := by
  rw [hp.eq_advance]
  exact run_of_token hm hp.rest_eq (startsTrivia_of_ne hblank (ne_of_eq_true hx (by decide)))
    (token_of_step (.mark hx))

theorem run_number (hm : s.mode = .code) (hx : x.isDigit = true)
    (hA : ∀ c ∈ A, (isWordPart c || c = '.') = true) (hp : s.cursor.Passes (x :: A) d)
    (hd : headIs (fun c => isWordPart c || c = '.') d.rest = false) :
    s.run = (s.moveTo d .value).run := by
  have hnumber : number s.cursor.rest = x :: A := by
    rw [hp.rest_eq, List.cons_append, number, takeWhile_append_of_headIs hA hd]
  have hs : startsTrivia (x :: (A ++ d.rest)) = false :=
    startsTrivia_of_ne (isBlank_of_isDigit hx) (ne_of_eq_true hx (by decide))
  rw [run_of_token hm hp.rest_eq hs (token_of_step (.number hx)), hnumber, ← hp.eq_advance]

theorem run_string (hm : s.mode = .code) (hq : isQuote quote = true) (hb : StringBody quote body)
    (hp : s.cursor.Passes (quoted quote body) d) : s.run = (s.moveTo d .value).run := by
  have hopens : s.cursor.Opens quote body := ⟨hq, hb, d.rest, hp.rest_eq⟩
  have hr := hp.rest_eq
  rw [quoted_append] at hr
  rw [hp.eq_advance, length_quoted]
  exact run_of_token hm hr (startsTrivia_of_isQuote hq) (token_string hopens)

theorem run_template (hm : s.mode = .code) (hb : TemplateBody body)
    (hp : s.cursor.Passes (quoted '\x60' body) d) : s.run = (s.moveTo d .value).run := by
  have hr := hp.rest_eq
  rw [quoted_append] at hr
  have hone : (s.cursor.advance 1).rest = body ++ '\x60' :: d.rest := by
    rw [Cursor.rest_advance, hr]
    rfl
  have hchunk : templateChunk? (s.cursor.advance 1).rest = some (.closed, body.length + 1) := by
    rw [hone, templateChunk?, hb.templateChunkFrom_append, Nat.zero_add]
  have hd : (s.cursor.advance 1).advance (body.length + 1) = d := by
    rw [hp.eq_advance, Cursor.advance_advance, length_quoted]
    congr 1
    omega
  rw [run_of_token hm hr rfl (token_of_step (.template rfl)),
    run_of_step (next_of_text (s := { s with cursor := s.cursor.advance 1, mode := _ }) rfl hchunk)]
  simp only [afterText, ScanState.moveTo, hd, hm]

theorem run_slash {n : Nat} {v : LastToken} (hm : s.mode = .code) (hr : s.cursor.rest = '/' :: k)
    (hs : startsTrivia ('/' :: k) = false)
    (h : s.slashToken s.cursor = s.moveTo (s.cursor.advance n) v) :
    s.run = (s.moveTo (s.cursor.advance n) v).run :=
  run_of_token hm hr hs (h ▸ token_of_step (.slash rfl))

theorem run_closeParenthesis {head : Bool} {heads : List Bool} (hm : s.mode = .code)
    (hheads : s.heads = head :: heads) (hp : s.cursor.Passes [')'] d) :
    s.run = { s.moveTo d (if head then .controlHead else .punctuation ')') with
      heads := heads }.run := by
  rw [run_of_token hm hp.rest_eq rfl (token_of_step (.closeParenthesis rfl)), closeParenthesis,
    hheads, hp.eq_advance]
  rfl

theorem cursor_initial_of_headIs (h : headIs (fun c => c != '#' && c != byteOrderMark) A = true) :
    (initial (A ++ k)).cursor = .ofText (A ++ k) := by
  cases A with
  | nil => contradiction
  | cons x A =>
    rw [headIs_cons, Bool.and_eq_true, bne_iff_ne, bne_iff_ne] at h
    have hmark : ¬ (Cursor.ofText (x :: A ++ k)).rest.head? = some byteOrderMark :=
      fun heq => h.2 (Option.some.inj heq)
    have hhashbang : ¬ (Cursor.ofText (x :: A ++ k)).rest.take 2 = "#!".toList :=
      fun heq => h.1 (List.cons.inj heq).1
    simp only [initial, if_neg hmark, if_neg hhashbang]

end ScanState

namespace Crossing

variable {s : ScanState} {d : Cursor} {k A : List Char} {t u : LastToken}

open ScanState

theorem run_eq (h : Crossing k t A u) (hm : s.mode = .code) (hlast : s.last = t)
    (hp : s.cursor.Passes A d) (hd : d.rest = k) : s.run = (s.moveTo d u).run := by
  induction h generalizing s d with
  | trivia hT =>
    subst hlast
    exact run_past_trivia hm hp hT
  | mark hx hblank => exact run_mark hm hx hblank hp
  | word hw hplain hk =>
    subst hd
    simp only [List.mem_cons, List.not_mem_nil, or_false, not_or] at hplain
    exact run_word hm hw hp hk (.plain fun _ => hplain)
  | exported hT hk hs hy =>
    exact run_word hm isWord_exportName hp (hd ▸ hk) (wordStep_export hd hT hs hy)
  | required hT hk hs hy =>
    exact run_word hm (.of_all (by decide) (by decide)) hp (hd ▸ hk) (wordStep_require hd hT hs hy)
  | number hx hA hk => exact run_number hm hx hA hp (hd ▸ hk)
  | string hq hb => exact run_string hm hq hb hp
  | template hb => exact run_template hm hb hp
  | @regex k body t ht hr hk =>
    subst hlast hd
    have hrest := hp.rest_eq
    rw [quoted_append] at hrest
    rw [hp.eq_advance, length_quoted]
    refine run_slash hm hrest hr.startsTrivia (slashToken_of_some ht ?_)
    rw [hrest, hr.regex?_eq hk]
  | @slash k t hk hn =>
    subst hlast hd
    have hs : startsTrivia ('/' :: d.rest) = false := by
      rw [startsTrivia_cons, hk]
      decide
    rw [hp.eq_advance]
    exact run_slash hm hp.rest_eq hs (slashToken_of_none (hp.rest_eq ▸ hn))
  | @group k A t u _ ih =>
    subst hlast
    obtain ⟨c, hopen, hp⟩ := Cursor.Passes.split (A := ['(']) hp
    obtain ⟨e, hA, hclose⟩ := hp.split
    have he : e.rest = ')' :: k := by rw [hclose.rest_eq, hd]; rfl
    obtain rfl : c = s.cursor.advance 1 := hopen.eq_advance
    rw [run_of_token hm hopen.rest_eq rfl (token_of_step (.openParenthesis rfl))]
    exact (ih (s := { s.moveTo (s.cursor.advance 1) (.punctuation '(') with heads := _ })
      hm rfl hA he).trans (run_closeParenthesis hm rfl hclose)
  | append _ _ ih₁ ih₂ =>
    obtain ⟨e, he, hd'⟩ := hp.split
    rw [ih₁ hm hlast he (by rw [hd'.rest_eq, hd]), ih₂ (s := s.moveTo e _) hm rfl hd' hd]
    rfl

theorem scan_after {text : String} {found : List Reference}
    (h : Crossing text.toList .none A (.punctuation ';'))
    (hbegin : headIs (fun c => c != '#' && c != byteOrderMark) A = true)
    (hpoint : Cursor.PointFree A.reverse) (htext : ¬ BeginsHashbang text)
    (hfound : scan text = .ok found) : scan (String.ofList A ++ text) =
      .ok (found.map (Reference.shift (byteLength A))) := by
  obtain ⟨d, hp, hd⟩ := Cursor.exists_passes (c := .ofText (A ++ text.toList)) rfl
  have hafter : d = (Cursor.ofText text.toList).after A.reverse := by
    refine Cursor.eq_of_before_of_rest (hp.before_eq.trans ?_) hd
    exact List.append_nil _
  have hstart : (initial (A ++ text.toList)).cursor.Passes A d := by
    rwa [cursor_initial_of_headIs hbegin]
  have hlist : (String.ofList A ++ text).toList = A ++ text.toList := by simp
  rw [scan, hlist, h.run_eq rfl rfl hstart hd, ← byteLength_reverse A]
  exact run_of_scan (s := (initial (A ++ text.toList)).moveTo d _) hpoint htext hafter rfl rfl
    List.not_mem_nil rfl hfound

end Crossing

end ImportAtlas
