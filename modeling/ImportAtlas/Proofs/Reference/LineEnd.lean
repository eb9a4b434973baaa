import ImportAtlas.Proofs.Lexeme.LineEnd
import ImportAtlas.Proofs.Reference.Abreast
import ImportAtlas.Proofs.Reference.Rescan

namespace ImportAtlas

open Text Lexeme Outcome

namespace Text.Cursor

variable {c d : Cursor}

theorem offset_eq (c : Cursor) : c.offset = byteLength c.before.reverse := by
  rw [offset, byteLength_reverse]

theorem offset_withReturns (c : Cursor) :
    c.withReturns.offset = byteLength (Text.withReturns c.before.reverse) := by
  rw [offset, withReturns, byteLength_reverse]

theorem followsPoint_withReturns : c.withReturns.followsPoint = c.followsPoint := by
  have hhead {B : List Char} :
      headIs (· = '.') (Text.withReturns B.reverse).reverse = headIs (· = '.') B := by
    cases B with
    | nil => rfl
    | cons x B =>
      by_cases hx : x = '\n'
      · rw [hx, reverse_withReturns_feed]
        rfl
      · rw [reverse_withReturns_cons hx]
        rfl
  have hend := headIs_dropWhile (p := isAsciiBlank) (k := c.before)
  rw [followsPoint_eq, followsPoint_eq, withReturns, dropWhile_reverse_withReturns (by decide), hhead]
  cases hD : c.before.dropWhile isAsciiBlank with
  | nil => rfl
  | cons x D =>
    have hx : x ≠ '\n' := by
      rintro rfl
      rw [hD, headIs_cons] at hend
      exact absurd hend (by decide)
    rw [reverse_withReturns_cons hx, List.tail_cons, List.tail_cons, hhead]

theorem take_hashbang_withReturns {cs : List Char} :
    (Text.withReturns cs).take 2 = "#!".toList ↔ cs.take 2 = "#!".toList := by
  match cs with
  | [] => rfl
  | [x] =>
    by_cases hx : x = '\n'
    · subst hx
      decide
    · rw [withReturns_cons hx]
      rfl
  | x :: y :: cs =>
    by_cases hx : x = '\n'
    · subst hx
      simp
    by_cases hy : y = '\n'
    · subst hy
      simp [withReturns_cons hx]
    · simp [withReturns_cons hx, withReturns_cons hy]

theorem exists_takeWhile_withReturns (cs : List Char) : ∃ T, Trivia T ∧
    (Text.withReturns cs).takeWhile (· != '\n') = cs.takeWhile (· != '\n') ++ T := by
  induction cs with
  | nil => exact ⟨[], .nil, rfl⟩
  | cons x cs ih =>
    by_cases hx : x = '\n'
    · subst hx
      exact ⟨['\r'], .blank (by decide) .nil, rfl⟩
    · obtain ⟨T, hT, htake⟩ := ih
      have hline : (x != '\n') = true := bne_iff_ne.2 hx
      refine ⟨T, hT, ?_⟩
      rw [withReturns_cons hx, List.takeWhile_cons, List.takeWhile_cons, if_pos hline, if_pos hline,
        htake, List.cons_append]

theorem exists_passes_skipHashbang_withReturns (c : Cursor) :
    ∃ T, Trivia T ∧ c.skipHashbang.withReturns.Passes T c.withReturns.skipHashbang := by
  unfold skipHashbang
  rw [rest_withReturns]
  by_cases hc : c.rest.take 2 = "#!".toList
  · rw [if_pos hc, if_pos (take_hashbang_withReturns.2 hc)]
    have hline : '\n' ∉ c.rest.takeWhile (· != '\n') := not_mem_newline_takeWhile (by decide)
    have hsplit : c.rest = c.rest.takeWhile (· != '\n') ++ c.rest.dropWhile (· != '\n') :=
      List.takeWhile_append_dropWhile.symm
    have hpast := (Passes.of_rest hsplit).withReturns
    rw [withReturns_of_not_mem hline] at hpast
    have hp := Passes.of_rest (c := c.withReturns)
      (List.takeWhile_append_dropWhile (p := (· != '\n'))).symm
    obtain ⟨T, hT, htake⟩ := exists_takeWhile_withReturns c.rest
    rw [rest_withReturns, htake] at hp
    rw [htake]
    obtain ⟨d, hd, hpT⟩ := hp.split
    exact ⟨T, hT, hd.unique hpast ▸ hpT⟩
  · rw [if_neg hc, if_neg (mt take_hashbang_withReturns.1 hc)]
    exact ⟨[], .nil, .refl _⟩

end Text.Cursor

/-- The same failure in the text with returns. -/
structure ScanFailure.Returned (t : List Char) (e e' : ScanFailure) : Prop where
  obstruction : e'.obstruction = e.obstruction
  offset : ∃ A B, t = A ++ B ∧ e.offset = byteLength A ∧ e'.offset = byteLength (withReturns A)

/-- The failure with returns at a string that is closed without.  It goes on over a line end,
which is escaped; then its return is, and the line feed ends the string. -/
def ScanFailure.AtBrokenString (t : List Char) (e' : ScanFailure) : Prop :=
  ∃ A quote body B, t = A ++ quote :: (body ++ quote :: B) ∧ isQuote quote = true ∧
    StringBody quote body ∧ '\n' ∈ body ∧
    e' = ⟨byteLength (withReturns A), .unterminatedString⟩

/-- The same reference in the text with returns: its span covers the same part. -/
structure Reference.Returned (t : List Char) (r r' : Reference) : Prop where
  kind : r'.kind = r.kind
  specifier : r'.specifier = String.ofList (withReturns r.specifier.toList)
  span : ∃ A L B, t = A ++ (L ++ B) ∧
    r.start = byteLength A ∧ r.stop = byteLength (A ++ L) ∧
    r'.start = byteLength (withReturns A) ∧ r'.stop = byteLength (withReturns (A ++ L))

/-- The same literal in the text with returns. -/
structure Literal.Returned (t : List Char) (l l' : Literal) : Prop where
  text : l.opening.text = t
  opening : l'.opening = l.opening.withReturns
  quotes : ∃ quote body, quote ≠ '\n' ∧ l.Quotes quote body ∧ l'.Quotes quote (withReturns body)

variable {t : List Char} {c c' : Cursor} {l l' : Literal}

namespace Literal.Returned

theorem closing (h : l.Returned t l') : l'.closing = l.closing.withReturns := by
  obtain ⟨quote, body, hquote, hl, hl'⟩ := h.quotes
  have hquoted : quoted quote (withReturns body) = withReturns (quoted quote body) := by
    rw [quoted, quoted, withReturns_append, withReturns_cons hquote,
      withReturns_of_not_mem (A := [quote]) (by simpa using hquote.symm)]
  have hp := hl'.passes
  rw [h.opening, hquoted] at hp
  exact hp.unique hl.passes.withReturns

theorem toReference (h : l.Returned t l') (kind : ReferenceKind) :
    (l.toReference kind).Returned t (l'.toReference kind) := by
  obtain ⟨quote, body, -, hl, hl'⟩ := h.quotes
  have hbefore : l.closing.before.reverse = l.opening.before.reverse ++ quoted quote body := by
    rw [hl.passes.before_eq, List.reverse_append, List.reverse_reverse]
  refine ⟨rfl, ?_, l.opening.before.reverse, quoted quote body, l.closing.rest, ?_, ?_, ?_, ?_, ?_⟩
  · rw [Literal.toReference, Literal.toReference, hl.body_eq, hl'.body_eq, String.toList_ofList]
  · rw [← h.text, Cursor.text, hl.passes.rest_eq]
  · exact l.opening.offset_eq
  · exact hbefore ▸ l.closing.offset_eq
  · change l'.opening.offset = _
    rw [h.opening, Cursor.offset_withReturns]
  · change l'.closing.offset = _
    rw [h.closing, Cursor.offset_withReturns, hbefore]

end Literal.Returned

theorem returned_fail (hc : c.text = t) (o : ScanObstruction) :
    ScanFailure.Returned t ⟨c.offset, o⟩ ⟨c.withReturns.offset, o⟩ :=
  ⟨rfl, c.before.reverse, c.rest, hc.symm, c.offset_eq, c.offset_withReturns⟩

theorem returned_skipTrivia (hc : c.text = t) :
    Agree (ScanFailure.Returned t) (fun d d' => d.text = t ∧ d' = d.withReturns) c.skipTrivia
      c.withReturns.skipTrivia := by
  rcases exists_triviaBefore c.rest with ⟨A, k, hr, hA⟩ | ⟨A, text, hr, hA, ht⟩
  · obtain ⟨d, hd, rfl⟩ := Cursor.exists_passes hr
    rw [Cursor.skipTrivia_of_passes hd hA,
      Cursor.skipTrivia_of_passes hd.withReturns hA.withReturns]
    exact .ok ⟨hd.reaches.text_eq.trans hc, rfl⟩
  · have hr' : c.withReturns.rest = withReturns A ++ '/' :: '*' :: withReturns text := by
      rw [Cursor.rest_withReturns, hr, withReturns_append, withReturns_cons (by decide),
        withReturns_cons (by decide)]
    have hd := Cursor.Passes.of_rest hr
    rw [Cursor.skipTrivia_of_unclosed hr hA ht, Cursor.skipTrivia_of_unclosed hr' hA.withReturns
      (mt infix_commentEnd_withReturns.1 ht), ← hd.withReturns.eq_advance]
    exact .error (returned_fail (hd.reaches.text_eq.trans hc) _)

theorem returned_literal (hc : c.text = t) (hq : c.startsQuote = true) :
    AgreeUnless (ScanFailure.AtBrokenString t) (ScanFailure.Returned t) (Literal.Returned t)
      c.literal c.withReturns.literal := by
  obtain ⟨quote, k, hr⟩ : ∃ quote k, c.rest = quote :: k := by
    cases hr : c.rest with
    | nil => simp [Cursor.startsQuote_eq, hr] at hq
    | cons quote k => exact ⟨quote, k, rfl⟩
  rw [Cursor.startsQuote_of_rest hr] at hq
  have hquote : quote ≠ '\n' := by
    rintro rfl
    exact absurd hq (by decide)
  have hr' : c.withReturns.rest = quote :: withReturns k := by
    rw [Cursor.rest_withReturns, hr, withReturns_cons hquote]
  have hstring {n : Nat} : stringFrom quote 1 (withReturns k) = some n ↔
      stringFrom quote 1 k = some n ∧ '\n' ∉ k.take (n - 1) := stringFrom_withReturns hq
  -- a line end in a string is escaped, and with the return before it it is not
  have hnone (h : ∀ n, stringFrom quote 1 k = some n → '\n' ∈ k.take (n - 1)) :
      stringFrom quote 1 (withReturns k) = none := by
    refine Option.eq_none_iff_forall_ne_some.2 fun n hn => ?_
    obtain ⟨hn, hline⟩ := hstring.1 hn
    exact hline (h n hn)
  unfold Cursor.literal
  rw [hr, hr', quoted?, quoted?]
  cases hn : stringFrom quote 1 k with
  | none =>
    rw [hnone fun n h => absurd (hn.symm.trans h) (Option.some_ne_none n).symm]
    exact .error (returned_fail hc _)
  | some n =>
    obtain ⟨body, rest, rfl, hbody, hlength⟩ := exists_body_of_stringFrom hn
    obtain rfl : n = body.length + 2 := by omega
    have htake : (body ++ quote :: rest).take (body.length + 2 - 1) = body ++ [quote] := by
      rw [List.append_cons, List.take_left' (by simp)]
    by_cases hline : '\n' ∈ body
    · rw [hnone fun m hm => by
        cases hn.symm.trans hm
        rw [htake]
        exact List.mem_append_left _ hline]
      refine .broken ⟨c.before.reverse, quote, body, rest, ?_, hq, hbody, hline, ?_⟩
      · rw [← hc, Cursor.text, hr]
      · rw [Cursor.offset_withReturns]
    · have hbody' : withReturns body = body := withReturns_of_not_mem hline
      rw [hstring.2 ⟨hn, by rw [htake]; simpa using ⟨hline, hquote.symm⟩⟩]
      refine .ok ⟨hc, rfl, quote, body, hquote, .of_rest (k := rest) ?_, ?_⟩
      · rw [hr, quoted_append]
      · rw [hbody']
        refine .of_rest (k := withReturns rest) ?_
        rw [hr', quoted_append, withReturns_append, hbody', withReturns_cons hquote]

theorem returned_advance {n : Nat} (hc : c.text = t) (h : '\n' ∉ c.rest.take n) :
    (c.advance n).text = t ∧ c.withReturns.advance n = (c.advance n).withReturns :=
  ⟨(Cursor.text_advance n c).trans hc, Cursor.advance_withReturns h⟩

theorem wordHere_withReturns (hs : startsTrivia c.rest = false) :
    c.withReturns.wordHere = c.wordHere := by
  rw [Cursor.wordHere_eq, Cursor.wordHere_eq, Cursor.rest_withReturns,
    headIs_withReturns (by decide), word_withReturns hs]

theorem not_mem_newline_wordHere (hs : startsTrivia c.rest = false) :
    '\n' ∉ c.rest.take c.wordHere.length := by
  rw [Cursor.wordHere_eq]
  split
  · exact not_mem_newline_word hs
  · exact List.not_mem_nil

theorem templateChunk_withReturns (k : List Char) :
    templateChunk? (withReturns k) = (templateChunk? k).map
      (Prod.map id fun n => (withReturns (k.take n)).length) :=
  templateChunkFrom_withReturns (A := []) rfl

theorem returned_template {k : List Char} {n : Nat} (hc : c.text = t) (hr : c.rest = '\x60' :: k)
    (hn : templateChunk? k = some (.closed, n)) :
    Literal.Returned t ⟨c, n + 1⟩ ⟨c.withReturns, (withReturns (k.take n)).length + 1⟩ := by
  obtain ⟨_, body, rest, rfl, rfl, hlength, -⟩ := exists_of_templateChunkFrom hn
  obtain rfl : n = body.length + 1 := by simp [hlength, ChunkEnd.text]
  have htick : withReturns ['\x60'] = ['\x60'] := rfl
  have htake : (body ++ ChunkEnd.closed.text ++ rest).take (body.length + 1) = body ++ ['\x60'] :=
    List.take_left' (by simp [ChunkEnd.text])
  rw [htake, withReturns_append, htick, List.length_append, List.length_singleton]
  refine ⟨hc, rfl, '\x60', body, by decide, .of_rest (k := rest) ?_,
    .of_rest (k := withReturns rest) ?_⟩
  · rw [hr, quoted_append]
    simp [ChunkEnd.text]
  · rw [Cursor.rest_withReturns, hr, withReturns_cons (by decide), quoted_append,
      List.append_assoc, withReturns_append]
    rfl

def lineEnds (t : List Char) : Correspondence where
  place c c' := c.text = t ∧ c' = c.withReturns
  literal := Literal.Returned t
  failure := ScanFailure.Returned t
  broken := ScanFailure.AtBrokenString t
  fail := by
    rintro c _ o ⟨hc, rfl⟩
    exact returned_fail hc o
  head? := by
    rintro c _ ⟨-, rfl⟩ hs
    exact head?_withReturns hs
  wordHere := by
    rintro c _ ⟨-, rfl⟩ hs
    exact wordHere_withReturns hs
  advance_one := by
    rintro c _ ⟨hc, rfl⟩ hs
    refine returned_advance hc ?_
    cases hr : c.rest with
    | nil => exact List.not_mem_nil
    | cons x k => simpa using (ne_newline_of_startsTrivia (hr ▸ hs)).symm
  advance_word := by
    rintro c _ ⟨hc, rfl⟩ hs
    exact returned_advance hc (not_mem_newline_wordHere hs)
  skipTrivia := by
    rintro c _ ⟨hc, rfl⟩
    exact .agree (returned_skipTrivia hc)
  string := by
    rintro c _ ⟨hc, rfl⟩ hq
    exact returned_literal hc hq
  closing := fun h => ⟨(Cursor.text_advance _ _).trans h.text, h.closing⟩
  chunk := by
    rintro c _ ⟨hc, rfl⟩
    rw [Cursor.rest_withReturns, templateChunk_withReturns]
    cases templateChunk? c.rest with
    | none => exact .none
    | some x =>
      exact .some ⟨rfl, (Cursor.text_advance _ _).trans hc, (Cursor.withReturns_advance c x.2).symm⟩
  template := by
    rintro c _ k k' ⟨hc, rfl⟩ hr hr'
    obtain rfl : withReturns k = k' := by
      rw [Cursor.rest_withReturns, hr, withReturns_cons (by decide)] at hr'
      exact (List.cons.inj hr').2
    rw [templateChunk_withReturns]
    cases hn : templateChunk? k with
    | none => exact .none
    | some x =>
      refine .some ⟨rfl, fun hx => returned_template hc hr ?_⟩
      rw [hn, ← hx]

namespace ScanState

/-- No regular expression that is scanned goes on over a line end, which would be escaped. -/
def RegexesWithinLines (s : ScanState) : Prop :=
  ∀ s' c n, Relation.ReflTransGen Next s s' → s'.mode = .code →
    s'.cursor.skipTrivia = .ok c → s'.last.allowsRegex = true → regex? c.rest = some n →
    '\n' ∉ c.rest.take n

theorem regexesWithinLines_initial (h : ¬ ['\\', '\n'] <:+: t) :
    (initial t).RegexesWithinLines := by
  intro s c n hs _ hskip _ hn
  obtain ⟨A, hA, -⟩ := Cursor.skips_skipMark.comp Cursor.skips_skipHashbang (.ofText t)
  have htext : c.text = t :=
    ((hA.reaches.trans (reaches_of_reaches hs)).trans (.of_skipTrivia hskip)).text_eq
  refine not_mem_newline_regex hn fun hescape => h ?_
  rw [← htext, Cursor.text]
  exact hescape.trans (List.suffix_append _ _).isInfix

end ScanState

theorem tokens_lineEnds {last : LastToken} (hs : startsTrivia c.rest = false)
    (hc : (lineEnds t).place c c')
    (hregex : ∀ n, last.allowsRegex = true → regex? c.rest = some n → '\n' ∉ c.rest.take n) :
    (lineEnds t).Tokens last c c' := by
  obtain ⟨hc, rfl⟩ := hc
  constructor
  · intro _
    rw [Cursor.rest_withReturns, number_withReturns hs]
    exact (lineEnds t).skipTrivia (returned_advance hc (not_mem_newline_number hs))
  · intro hlast hslash
    obtain ⟨k, hr⟩ := List.head?_eq_some_iff.1 (head?_eq_some_iff.2 hslash)
    rw [Cursor.rest_withReturns]
    cases hn : regex? c.rest with
    | none =>
      rw [hr] at hn ⊢
      rw [regex?_withReturns_none hn]
      exact .none
    | some n =>
      have hline := hregex n hlast hn
      have hn' : regex? (withReturns c.rest) = some n := by
        rw [hr] at hn hline ⊢
        exact regex?_withReturns hn hline
      rw [hn']
      exact .some ((lineEnds t).skipTrivia (returned_advance hc hline))
  · exact fun _ => Cursor.followsPoint_withReturns
  · rintro - u _ ⟨-, rfl⟩ - -
    exact isDefinition_withReturns

theorem Text.Cursor.skipMark_withReturns (c : Cursor) :
    c.withReturns.skipMark = c.skipMark.withReturns := by
  have hhead : c.withReturns.rest.head? = some byteOrderMark ↔ c.rest.head? = some byteOrderMark := by
    rw [rest_withReturns, head?_eq_some_iff, head?_eq_some_iff, headIs_withReturns (by decide)]
  unfold skipMark
  by_cases hmark : c.rest.head? = some byteOrderMark
  · obtain ⟨k, hr⟩ := List.head?_eq_some_iff.1 hmark
    rw [if_pos hmark, if_pos (hhead.2 hmark)]
    refine advance_withReturns ?_
    rw [hr, List.take_succ_cons, List.take_zero, List.mem_singleton]
    decide
  · rw [if_neg hmark, if_neg (mt hhead.1 hmark)]

theorem states_initial (t : List Char) :
    (lineEnds t).States (.initial t) (.initial (withReturns t)) where
  mode := .code
  code := fun _ => by
    obtain ⟨A, hA, -⟩ := Cursor.skips_skipMark.comp Cursor.skips_skipHashbang (.ofText t)
    obtain ⟨T, hT, hp⟩ :=
      Cursor.exists_passes_skipHashbang_withReturns (Cursor.ofText t).skipMark
    have hskip := Cursor.skipTrivia_past hp hT
    rw [← Cursor.skipMark_withReturns] at hskip
    have hplaces := (lineEnds t).skipTrivia ⟨hA.reaches.text_eq, rfl⟩
    rw [hskip] at hplaces
    exact hplaces
  text := fun h => absurd rfl h
  last := rfl
  heads := rfl
  depth := rfl
  substitutions := .nil
  found := .nil

/-- With a carriage return before each line feed the same references are found, or the same
failure, as long as the scan without comes to no regular expression that goes on over a line
end.  A string that does so breaks the scan off. -/
theorem scan_withReturns (h : (ScanState.initial t).RegexesWithinLines) :
    AgreeUnless (ScanFailure.AtBrokenString t) (ScanFailure.Returned t)
      (List.Forall₂ (Reference.Returned t)) (scan (String.ofList t))
      (scan (String.ofList (withReturns t))) := by
  rw [scan, scan, String.toList_ofList, String.toList_ofList]
  have hrun := (states_initial t).run fun s c c' hs hm hskip hc =>
    tokens_lineEnds (Cursor.startsTrivia_of_skipTrivia hskip) hc fun n => h s c n hs hm hskip
  refine hrun.mono fun _ _ hrefs => hrefs.imp ?_
  rintro _ _ ⟨kind, l, l', hl, rfl, rfl⟩
  exact hl.toReference kind

theorem scan_withReturns_declarations :
    let t := "import a from './a' // a\n/*\n*/ b = /c/\n'd'\nimport(`./e\n`)".toList
    (ScanState.initial t).RegexesWithinLines ∧
      AgreeUnless (ScanFailure.AtBrokenString t) (ScanFailure.Returned t)
        (List.Forall₂ (Reference.Returned t)) (scan (String.ofList t))
        (scan (String.ofList (withReturns t))) := by
  intro t
  have hescape : ¬ ['\\', '\n'] <:+: t := by decide
  have hregex := ScanState.regexesWithinLines_initial hescape
  exact ⟨hregex, scan_withReturns hregex⟩

/-- The string is closed; with the return it is not. -/
theorem scan_withReturns_escaped : '\r' ∉ "s = 'a\\\nb';\n".toList ∧
    scan "s = 'a\\\nb';\n" = .ok [] ∧
    scan (String.ofList (withReturns "s = 'a\\\nb';\n".toList)) = .error ⟨4, .unterminatedString⟩ :=
  ⟨by decide, eq_ok_of_toOption (by decide +kernel), by decide +kernel⟩

end ImportAtlas
