import ImportAtlas.Proofs.Lexeme.Bytes
import ImportAtlas.Proofs.Outcome
import ImportAtlas.Proofs.Reference.Item
import ImportAtlas.Proofs.Text.Boundary
import ImportAtlas.Reference.ByteScan

namespace ImportAtlas

open Text Lexeme Outcome

theorem isBoundary_offset {text : List Char} {c : Cursor} (h : c.text = text) :
    IsBoundary text c.offset :=
  ⟨c.before.reverse, ⟨c.rest, h⟩, byteLength_reverse c.before⟩

abbrev ReadAlike (text : List Char) {α β : Type} (R : α → β → Prop) :
    Except ScanFailure α → ByteScan.Checked β → Prop :=
  Outcome.Agree (fun e i => i = .failure e ∧ IsBoundary text e.offset) R

structure Places (text : List Char) (c : Cursor) (n : Nat) : Prop where
  text_eq : c.text = text
  pos_eq : n = c.offset

theorem Places.of_reaches {text : List Char} {c d : Cursor} (h : c.text = text)
    (hd : c.Reaches d) : Places text d d.offset :=
  ⟨hd.text_eq.trans h, rfl⟩

structure Delimits (text : List Char) (l : Literal) (span : Nat × Nat) : Prop where
  text_eq : l.opening.text = text
  start_eq : span.1 = l.opening.offset
  stop_eq : span.2 = l.closing.offset
  quoted : ∃ quote body, isAscii quote = true ∧ l.Quotes quote body

theorem Delimits.closing {text : List Char} {l : Literal} {start stop : Nat}
    (h : Delimits text l (start, stop)) : Places text l.closing stop :=
  ⟨(Cursor.text_advance l.length l.opening).trans h.text_eq, h.stop_eq⟩

namespace ByteScan

variable {α β : Type} {R : α → β → Prop} {text k A : List Char} {c d : Cursor} {x : Char}

theorem fail_alike (h : c.text = text) (o : ScanObstruction) :
    ReadAlike text R (c.fail o) (Checked.fail c.offset o) :=
  .error ⟨rfl, isBoundary_offset h⟩

theorem places_next (h : c.text = text) (hr : c.rest = x :: k) (hx : isAscii x = true) :
    Places text (c.advance 1) (c.offset + 1) := by
  rw [← Cursor.offset_next_of_isAscii hr hx]
  exact .of_reaches h (.advance c 1)

section Trivia

theorem lineEnd_offset (h : c.text = text) :
    lineEnd text c.offset = (c.advance (c.rest.takeWhile (· != '\n')).length).offset := by
  rw [lineEnd, Cursor.drop_bytes h, takeWhile_bytes, length_bytes, Cursor.offset_advance,
    ← List.prefix_iff_eq_take.1 (List.takeWhile_prefix _)]
  intro d hd
  simp [ne_of_isAscii hd (c := '\n') (by decide)]

theorem commentEndFrom_cons {n : Nat} (h : ¬ ['*', '/'] <+: x :: k) :
    commentEndFrom n (x :: k) = commentEndFrom (n + x.utf8Size) k := by
  rw [commentEndFrom]
  rintro rest rfl rfl
  exact h ⟨rest, rfl⟩

theorem commentEndFrom_unclosed {n : Nat} (h : ¬ ['*', '/'] <:+: A) :
    commentEndFrom n A = none := by
  induction A generalizing n with
  | nil => rfl
  | cons x A ih =>
    rw [commentEndFrom_cons fun hx => h hx.isInfix, ih fun hA => h (hA.trans
      (List.suffix_cons x A).isInfix)]

theorem commentEndFrom_closed {n : Nat} (h : ¬ ['*', '/'] <:+: A) :
    commentEndFrom n (A ++ '*' :: '/' :: k) = some (n + byteLength A) := by
  induction A generalizing n with
  | nil => rfl
  | cons x A ih =>
    rw [List.cons_append, commentEndFrom_cons (not_commentEnd_cons h),
      ih fun hA => h (hA.trans (List.suffix_cons x A).isInfix), byteLength_cons, Nat.add_assoc]

theorem skipTrivia_lineEnd (hr : c.rest = '/' :: '/' :: k) :
    c.skipTrivia = (c.advance (c.rest.takeWhile (· != '\n')).length).skipTrivia := by
  by_cases hk : '\n' ∈ k
  · obtain ⟨A, k, rfl, hA⟩ := List.eq_append_cons_of_mem hk
    have htake : c.rest.takeWhile (· != '\n') = '/' :: '/' :: A := by
      rw [hr]
      refine takeWhile_append_of_headIs (A := '/' :: '/' :: A) (fun d hd => ?_) (by simp)
      rw [bne_iff_ne]
      rintro rfl
      simp [hA] at hd
    have hp : c.Passes ('/' :: '/' :: A) _ := .of_rest hr
    have hline : (c.advance ('/' :: '/' :: A).length).rest = ['\n'] ++ k := by simp [hr]
    have hnext := Cursor.Passes.of_rest hline
    rw [htake, Cursor.skipTrivia_past (hp.trans hnext) (.line hA .nil),
      Cursor.skipTrivia_past hnext (.blank (by decide) .nil)]
  · have htake : c.rest.takeWhile (· != '\n') = '/' :: '/' :: k := by
      rw [hr, List.takeWhile_eq_self_iff]
      intro d hd
      rw [bne_iff_ne]
      rintro rfl
      simp [hk] at hd
    have hp : c.Passes ('/' :: '/' :: k) _ := .of_rest (hr.trans (List.append_nil _).symm)
    have hend : (c.advance ('/' :: '/' :: k).length).rest = [] := by simp [hr]
    have hnone : startsTrivia (c.advance ('/' :: '/' :: k).length).rest = false := by
      rw [hend]
      rfl
    rw [htake, Cursor.skipTrivia_of_passes hp (hend ▸ .ended rfl .nil hk),
      Cursor.skipTrivia_self hnone]

inductive TriviaItem (text : List Char) (c : Cursor) : Checked (Option Nat) → Prop
  | none : startsTrivia c.rest = false → TriviaItem text c (.ok none)
  | some {d : Cursor} : d.text = text → c.skipTrivia = d.skipTrivia →
      d.rest.length < c.rest.length → TriviaItem text c (.ok (some d.offset))
  | unclosed : c.skipTrivia = c.fail .unterminatedComment →
      TriviaItem text c (Checked.fail c.offset .unterminatedComment)

theorem TriviaItem.of_passes {r : Checked (Option Nat)} (h : c.text = text) (hp : c.Passes A d)
    (hA : Trivia A) (hne : A ≠ []) (hr : r = .ok (Option.some (c.offset + byteLength A))) :
    TriviaItem text c r := by
  have hlength := congrArg List.length hp.rest_eq
  have hpos := List.length_pos_iff.2 hne
  rw [List.length_append] at hlength
  rw [hr, ← hp.offset_eq]
  exact .some (hp.reaches.text_eq.trans h) (Cursor.skipTrivia_past hp hA) (by omega)

theorem triviaItem_comment (h : c.text = text) (hr : c.rest = '/' :: '*' :: k) :
    TriviaItem text c (some <$> blockEnd text c.offset) := by
  have hslice : sliceFrom? text (c.offset + 2) = some k := by
    have hp : c.Passes ['/', '*'] _ := .of_rest hr
    have hopen := Cursor.sliceFrom?_offset (hp.reaches.text_eq.trans h)
    rwa [hp.offset_eq, Cursor.rest_advance, hr] at hopen
  rcases exists_first_commentEnd k with hk | ⟨A, k, rfl, hA⟩
  · rw [blockEnd, hslice, Checked.expect, ok_bind, commentEndFrom_unclosed hk]
    exact .unclosed (Cursor.skipTrivia_of_unclosed hr .nil hk)
  · have hp : c.Passes ('/' :: '*' :: A ++ ['*', '/']) _ :=
      .of_rest (k := k) (hr.trans (by simp))
    refine .of_passes h hp (.block hA .nil) (by simp) ?_
    rw [blockEnd, hslice, Checked.expect, ok_bind, commentEndFrom_closed hA]
    have hstop : c.offset + byteLength ('/' :: '*' :: A ++ ['*', '/']) =
        c.offset + 2 + (0 + byteLength A) + 2 := by
      simp [Char.utf8Size]
      omega
    rw [hstop]
    rfl

theorem triviaItem_wide (h : c.text = text) (hr : c.rest = x :: k) (hx : isAscii x = false) :
    triviaItem text c.offset =
      .ok (if isWideBlank x then some (c.offset + x.utf8Size) else none) := by
  obtain ⟨b, hbyte, hb⟩ := Cursor.byte?_of_cons h hr
  have hslash : b ≠ '/' := ne_of_isAscii (hb.wide hx) (by decide)
  have hblank : isAsciiBlank b = false := isAsciiBlank_of_not_isAscii (hb.wide hx)
  rw [triviaItem, hbyte, Cursor.charAt?_offset h, hr, List.head?_cons]
  cases hwide : isWideBlank x with
  | true =>
    rw [Option.filter_some_pos hwide]
    rfl
  | false =>
    rw [Option.filter_some_neg hwide]
    simp [hslash, hblank]
    rfl

theorem triviaItem_ascii (h : c.text = text) (hr : c.rest = x :: k) (hx : isAscii x = true) :
    triviaItem text c.offset =
      if isAsciiBlank x then .ok (some (c.offset + 1))
      else if x = '/' && k.head? = some '/' then .ok (some (lineEnd text c.offset))
      else if x = '/' && k.head? = some '*' then some <$> blockEnd text c.offset
      else .ok none := by
  obtain ⟨b, hbyte, hb⟩ := Cursor.byte?_of_cons h hr
  obtain rfl := hb.ascii hx
  have hnext : byte? text (c.offset + 1) = (bytes k).head? := by
    rw [Cursor.byte?_add h, hr, bytes_cons_of_isAscii hx, List.head?_eq_getElem?,
      List.getElem?_cons_succ]
  have hwide : isWideBlank b = false := by simp [isWideBlank, hx]
  rw [triviaItem, hbyte, Cursor.charAt?_offset h, hr, List.head?_cons,
    Option.filter_some_neg hwide]
  simp only [hnext, head?_bytes (c := '/') (by decide), head?_bytes (c := '*') (by decide)]
  rfl

theorem triviaItem_offset (h : c.text = text) : TriviaItem text c (triviaItem text c.offset) := by
  cases hr : c.rest with
  | nil =>
    rw [triviaItem, Cursor.byte?_of_nil h hr]
    exact .none (by rw [hr]; rfl)
  | cons x k =>
    have hone : c.Passes [x] _ := .of_rest hr
    cases hx : isAscii x with
    | false =>
      rw [triviaItem_wide h hr hx]
      split <;> rename_i hwide
      · exact .of_passes h hone (.blank (by simp [isBlank, hwide]) .nil) (by simp) (by simp)
      · refine .none ?_
        rw [hr, startsTrivia_cons]
        simp [isBlank, hwide, isAsciiBlank_of_not_isAscii hx,
          ne_of_isAscii hx (c := '/') (by decide)]
    | true =>
      rw [triviaItem_ascii h hr hx]
      split
      · rename_i hblank
        refine .of_passes h hone (.blank (by simp [isBlank, hblank]) .nil) (by simp) ?_
        simp [utf8Size_eq_one_iff.2 hx]
      split
      · rename_i hline
        simp only [Bool.and_eq_true, decide_eq_true_eq, List.head?_eq_some_iff] at hline
        obtain ⟨rfl, k, rfl⟩ := hline
        have hreach := Cursor.Reaches.advance c (c.rest.takeWhile (· != '\n')).length
        rw [lineEnd_offset h]
        refine .some (hreach.text_eq.trans h) (skipTrivia_lineEnd hr) ?_
        simp [hr]
        omega
      split
      · rename_i hblock
        simp only [Bool.and_eq_true, decide_eq_true_eq, List.head?_eq_some_iff] at hblock
        obtain ⟨rfl, k, rfl⟩ := hblock
        exact triviaItem_comment h hr
      · rename_i hblank hline hblock
        refine .none ?_
        have hwide : isWideBlank x = false := by simp [isWideBlank, hx]
        rw [hr, startsTrivia_cons]
        cases k with
        | nil => simp [isBlank, hblank, hwide]
        | cons y k =>
          by_cases hslash : x = '/'
          · subst hslash
            simp only [decide_true, Bool.true_and, List.head?_cons, Option.some.injEq,
              decide_eq_true_eq] at hline hblock
            simp [isBlank, hblank, hwide, hline, hblock]
          · simp [isBlank, hblank, hwide, hslash]

theorem skipTrivia_alike (h : c.text = text) :
    ReadAlike text (Places text) c.skipTrivia (skipTrivia text c.offset) := by
  induction hn : c.rest.length using Nat.strong_induction_on generalizing c with
  | h n ih =>
    subst hn
    have hitem := triviaItem_offset h
    rw [skipTrivia]
    split <;> rename_i heq <;> rw [heq] at hitem
    · cases hitem with
      | unclosed hskip => exact hskip ▸ fail_alike h _
    · cases hitem with
      | none hnone =>
        rw [Cursor.skipTrivia_self hnone]
        exact .ok ⟨h, rfl⟩
    · cases hitem with
      | some hd hskip hlt =>
        rw [if_pos (Cursor.offset_lt_of_length_lt (h.trans hd.symm) hlt), hskip]
        exact ih _ hlt hd rfl

end Trivia

section Words

theorem wordEnd_nil (h : c.text = text) (hr : c.rest = []) : wordEnd text c.offset = c.offset := by
  rw [wordEnd]
  split
  · rfl
  · rename_i heq
    rw [Cursor.byte?_of_nil h hr] at heq
    contradiction

theorem wordEnd_cons (h : c.text = text) (hr : c.rest = x :: k) : wordEnd text c.offset =
    if continuesWord x then wordEnd text (c.advance 1).offset else c.offset := by
  obtain ⟨b, hbyte, hb⟩ := Cursor.byte?_of_cons h hr
  rw [wordEnd, Cursor.offset_next hr]
  split <;> rename_i heq <;> rw [hbyte] at heq <;> cases heq
  cases hx : isAscii x with
  | true =>
    obtain rfl := hb.ascii hx
    simp [hx, continuesWord, isWideBlank, utf8Size_eq_one_iff.2 hx]
  | false =>
    rw [hb.wide hx, Cursor.charAt?_offset h, hr]
    simp [continuesWord, isWideBlank, hx, isWordPart_of_not_isAscii hx]
    grind

theorem wordEnd_offset (h : c.text = text) :
    wordEnd text c.offset = (c.advance (c.rest.takeWhile continuesWord).length).offset := by
  induction hk : c.rest generalizing c with
  | nil => exact wordEnd_nil h hk
  | cons x k ih =>
    rw [wordEnd_cons h hk, List.takeWhile_cons]
    split
    · rw [ih ((Cursor.text_advance 1 c).trans h) (Cursor.rest_next hk), Cursor.advance_advance,
        Nat.add_comm]
      rfl
    · rfl

theorem takeWhile_continuesWord (hs : headIs isWordStart c.rest = true)
    (ht : startsTrivia c.rest = false) : c.rest.takeWhile continuesWord = c.wordHere := by
  obtain ⟨hw, k, hr, hk⟩ := Cursor.exists_wordHere hs ht
  rw [hr]
  exact takeWhile_append_of_headIs hw.continues hk

theorem wordEnd_eq (h : c.text = text) (hs : headIs isWordStart c.rest = true)
    (ht : startsTrivia c.rest = false) :
    wordEnd text c.offset = (c.advance c.wordHere.length).offset := by
  rw [wordEnd_offset h, takeWhile_continuesWord hs ht]

theorem slice?_wordEnd (h : c.text = text) (hs : headIs isWordStart c.rest = true)
    (ht : startsTrivia c.rest = false) :
    slice? text c.offset (wordEnd text c.offset) = some c.wordHere := by
  obtain ⟨-, k, hr, -⟩ := Cursor.exists_wordHere hs ht
  rw [wordEnd_eq h hs ht]
  exact Cursor.slice?_of_passes h (.of_rest hr)

theorem coarse_isQuote : Coarse isQuote := by
  intro x y hx hy
  simp [isQuote, ne_of_isAscii hx (c := '\'') (by decide), ne_of_isAscii hx (c := '"') (by decide),
    ne_of_isAscii hy (c := '\'') (by decide), ne_of_isAscii hy (c := '"') (by decide)]

theorem coarse_isWordStart : Coarse isWordStart := by
  intro x y hx hy
  simp [isWordStart, hx, hy]

theorem map_byte? {p : Char → Bool} (h : c.text = text) (hp : Coarse p) :
    ((byte? text c.offset).map p).getD false = headIs p c.rest := by
  rw [Cursor.byte?_offset h]
  exact headIs_bytes hp

theorem byte?_eq_some (h : c.text = text) (hx : isAscii x = true) :
    byte? text c.offset = some x ↔ c.rest.head? = some x := by
  rw [Cursor.byte?_offset h, head?_bytes hx]

theorem byte?_of_head (h : c.text = text) (hr : c.rest = x :: k) (hx : isAscii x = true) :
    byte? text c.offset = some x :=
  (byte?_eq_some h hx).2 (by rw [hr, List.head?_cons])

theorem byte?_ne_of_head (h : c.text = text) (hr : ∀ k, c.rest ≠ x :: k) (hx : isAscii x = true) :
    byte? text c.offset ≠ some x := by
  rw [Ne, byte?_eq_some h hx, List.head?_eq_some_iff]
  rintro ⟨k, hk⟩
  exact hr k hk

theorem quoteAt_eq (h : c.text = text) : quoteAt text c.offset = c.startsQuote :=
  map_byte? h coarse_isQuote

theorem wordAt_eq (h : c.text = text) (ht : startsTrivia c.rest = false) :
    wordAt text c.offset =
      .ok (if headIs isWordStart c.rest then some c.wordHere else none) := by
  rw [wordAt]
  cases hr : c.rest with
  | nil =>
    rw [Cursor.byte?_of_nil h hr]
    rfl
  | cons x k =>
    obtain ⟨b, hbyte, hb⟩ := Cursor.byte?_of_cons h hr
    rw [hbyte]
    dsimp only
    rw [hb.apply_eq coarse_isWordStart, headIs_cons]
    split <;> rename_i hx
    · rw [slice?_wordEnd h (by rw [hr, headIs_cons, hx]) ht]
      rfl
    · rfl

theorem wordAt_ite {w : List Char} (h : c.text = text) (ht : startsTrivia c.rest = false)
    (hw : w ≠ []) (u v : Checked β) :
    (wordAt text c.offset >>= fun o => if o = some w then u else v) =
      if c.wordHere = w then u else v := by
  rw [wordAt_eq h ht, ok_bind]
  split <;> rename_i hs
  · simp only [Option.some.injEq]
  · rw [Bool.not_eq_true] at hs
    rw [if_neg (by simp), Cursor.wordHere_eq_nil hs, if_neg hw.symm]

end Words

section Literals

theorem isAscii_of_isQuote (h : isQuote x = true) : isAscii x = true := by
  rcases isQuote_iff.1 h with rfl | rfl <;> decide

theorem drop_next (h : c.text = text) (hr : c.rest = x :: k) (hx : isAscii x = true) :
    (bytes text).drop (c.offset + 1) = bytes k := by
  rw [← Cursor.offset_next_of_isAscii hr hx, Cursor.drop_bytes ((Cursor.text_advance 1 c).trans h),
    Cursor.rest_next hr]

theorem offset_byteCount {m : Nat} (hr : c.rest = x :: k) (hx : isAscii x = true) (hm : 0 < m) :
    c.offset + byteCount 1 k 1 m = (c.advance m).offset := by
  obtain ⟨m, rfl⟩ := Nat.exists_eq_add_of_lt hm
  rw [Cursor.offset_advance, hr, byteCount, Nat.zero_add, List.take_succ_cons, byteLength_cons,
    utf8Size_eq_one_iff.2 hx, Nat.add_sub_cancel]

theorem stringEnd_of_rest {quote : Char} (h : c.text = text) (hr : c.rest = quote :: k)
    (hquote : isQuote quote = true) :
    stringEnd text c.offset = match (stringFrom quote 1 k).map (byteCount 1 k 1) with
      | some n => .ok (c.offset + n)
      | none => Checked.fail c.offset .unterminatedString := by
  have hascii := isAscii_of_isQuote hquote
  rw [stringEnd, byte?_of_head h hr hascii, Checked.expect, ok_bind, drop_next h hr hascii,
    stringFrom_bytes (n := 1) hascii]
  rfl

theorem stringEnd_alike (h : c.text = text) (hq : c.startsQuote = true) :
    ReadAlike text (fun l stop => Delimits text l (c.offset, stop)) c.literal
      (stringEnd text c.offset) := by
  cases hr : c.rest with
  | nil =>
    rw [Cursor.startsQuote_eq, hr] at hq
    contradiction
  | cons quote k =>
    have hquote : isQuote quote = true := by rwa [Cursor.startsQuote_of_rest hr] at hq
    have hascii := isAscii_of_isQuote hquote
    rw [stringEnd_of_rest h hr hquote]
    cases hm : stringFrom quote 1 k with
    | none =>
      have hliteral : c.literal = c.fail .unterminatedString := by
        simp only [Cursor.literal, hr, quoted?, hm]
      rw [hliteral]
      exact fail_alike h _
    | some m =>
      have hliteral : c.literal = .ok ⟨c, m⟩ := by
        simp only [Cursor.literal, hr, quoted?, hm]
      have hpos := Nat.lt_of_succ_lt (lt_of_stringFrom hm)
      obtain ⟨q, body, hopens, hl⟩ := Cursor.exists_of_literal hq hliteral
      rw [hliteral]
      exact .ok ⟨h, rfl, offset_byteCount hr hascii hpos, q, body,
        isAscii_of_isQuote hopens.quotes, hl ▸ hopens.quoted⟩

theorem plainTemplateEnd_of_rest (h : c.text = text) (hr : c.rest = '\x60' :: k) :
    plainTemplateEnd text c.offset =
      match (templateChunk? k).map (Prod.map id (byteCount 0 k 0)) with
      | some (.closed, n) => .ok (some (c.offset + 1 + n))
      | some (.substitution, _) => .ok none
      | none => Checked.fail c.offset .unterminatedTemplate := by
  rw [plainTemplateEnd, drop_next h hr (by decide), templateChunk?,
    templateChunkFrom_bytes (n := 0)]
  rfl

theorem plainLiteral?_of_rest (hr : c.rest = '\x60' :: k) :
    c.plainLiteral? = match templateChunk? k with
      | some (.closed, n) => .ok (some ⟨c, n + 1⟩)
      | some (.substitution, _) => .ok none
      | none => c.fail .unterminatedTemplate := by
  rw [Cursor.plainLiteral?, hr]
  rcases hm : templateChunk? k with _ | ⟨_ | _, m⟩ <;> simp only [hm]

theorem plainTemplateEnd_alike (h : c.text = text) (hr : c.rest = '\x60' :: k) :
    ReadAlike text (Option.Rel fun l stop => Delimits text l (c.offset, stop)) c.plainLiteral?
      (plainTemplateEnd text c.offset) := by
  have hplain := plainLiteral?_of_rest hr
  rw [plainTemplateEnd_of_rest h hr]
  rcases hm : templateChunk? k with _ | ⟨_ | _, m⟩ <;> rw [hm] at hplain
  · rw [hplain]
    exact fail_alike h _
  · have hstop : c.offset + 1 + byteCount 0 k 0 m = (c.advance (m + 1)).offset := by
      rw [← offset_byteCount hr (by decide) (Nat.succ_pos m), byteCount, byteCount,
        Nat.succ_sub_one, Nat.sub_zero, Nat.zero_add, Nat.add_assoc]
    obtain ⟨-, quote, body, hquote, hl⟩ := Cursor.exists_of_plainLiteral hplain
    rw [hplain]
    refine .ok (.some ⟨h, rfl, hstop, quote, body, ?_, hl⟩)
    rcases hquote with hquote | rfl
    · exact isAscii_of_isQuote hquote
    · decide
  · rw [hplain]
    exact .ok .none

theorem numberEnd_eq (h : c.text = text) (hr : c.rest = x :: k) (hx : x.isDigit = true) :
    numberEnd text c.offset = (c.advance (number c.rest).length).offset := by
  have hnumber : number c.rest = c.rest.takeWhile fun b => isWordPart b || b = '.' := by
    rw [hr, number, List.takeWhile_cons, if_pos (by simp [isWordPart, hx])]
  rw [numberEnd, Cursor.drop_bytes h, takeWhile_bytes, length_bytes, hnumber, Cursor.offset_advance,
    ← List.prefix_iff_eq_take.1 (List.takeWhile_prefix _)]
  intro d hd
  rw [isWordPart_of_not_isAscii hd, Bool.true_or]

theorem regexEnd?_eq (h : c.text = text) :
    regexEnd? text c.offset = (regex? c.rest).map fun n => (c.advance n).offset := by
  rw [regexEnd?, Cursor.drop_bytes h, regex?_bytes, Option.map_map]
  exact Option.map_congr fun n _ => (Cursor.offset_advance n c).symm

end Literals

section Lookaround

def bytesBack (cs : List Char) : List Char := (bytes cs.reverse).reverse

theorem bytesBack_cons : bytesBack (x :: k) = (bytes [x]).reverse ++ bytesBack k := by
  simp [bytesBack, bytes_append]

theorem bytesBack_cons_of_isAscii (hx : isAscii x = true) :
    bytesBack (x :: k) = x :: bytesBack k := by
  rw [bytesBack_cons, bytes_cons_of_isAscii hx]
  rfl

theorem exists_bytesBack_cons (hx : isAscii x = false) :
    ∃ b B, bytesBack (x :: k) = b :: B ∧ isAscii b = false := by
  obtain ⟨b, B, hB⟩ := List.exists_cons_of_ne_nil
    (fun hnil => bytes_singleton_ne_nil (c := x) (List.reverse_eq_nil_iff.1 hnil))
  refine ⟨b, B ++ bytesBack k, by rw [bytesBack_cons, hB]; rfl, ?_⟩
  apply isAscii_of_mem_bytes hx
  rw [← List.mem_reverse, hB]
  exact List.mem_cons_self

theorem dropWhile_bytesBack :
    (bytesBack k).dropWhile isAsciiBlank = bytesBack (k.dropWhile isAsciiBlank) := by
  induction k with
  | nil => rfl
  | cons x k ih =>
    cases hx : isAscii x with
    | true =>
      rw [bytesBack_cons_of_isAscii hx, List.dropWhile_cons, List.dropWhile_cons]
      split
      · exact ih
      · exact (bytesBack_cons_of_isAscii hx).symm
    | false =>
      obtain ⟨b, B, hB, hb⟩ := exists_bytesBack_cons (k := k) hx
      rw [List.dropWhile_cons_of_neg (by simp [isAsciiBlank_of_not_isAscii hx]), hB,
        List.dropWhile_cons_of_neg (by simp [isAsciiBlank_of_not_isAscii hb])]

theorem head?_bytesBack (hx : isAscii x = true) :
    (bytesBack k).head? = some x ↔ k.head? = some x := by
  cases k with
  | nil => rfl
  | cons y k =>
    cases hy : isAscii y with
    | true => rw [bytesBack_cons_of_isAscii hy, List.head?_cons, List.head?_cons]
    | false =>
      obtain ⟨b, B, hB, hb⟩ := exists_bytesBack_cons (k := k) hy
      rw [hB, List.head?_cons, List.head?_cons, Option.some.injEq, Option.some.injEq]
      exact iff_of_false (ne_of_isAscii hb hx) (ne_of_isAscii hy hx)

theorem isMember_eq (h : c.text = text) : isMember text c.offset = .ok c.followsPoint := by
  have hback : (bytes c.before.reverse).reverse = bytesBack c.before := rfl
  rw [isMember, Cursor.bytesBefore?_offset h, Checked.expect, ok_bind, hback, dropWhile_bytesBack,
    Cursor.followsPoint]
  refine congrArg Except.ok ?_
  split <;> rename_i heq
  · rw [heq]
    simp [bytesBack_cons_of_isAscii (x := '.') (by decide)]
  · rename_i k hne
    rw [heq, bytesBack_cons_of_isAscii (by decide), List.head?_cons, List.getElem?_cons_succ,
      ← List.head?_eq_getElem?]
    have hnext : (bytesBack k).head? ≠ some '.' := by
      rw [Ne, head?_bytesBack (by decide), List.head?_eq_some_iff]
      rintro ⟨k', rfl⟩
      exact hne k' rfl
    simpa using hnext
  · have hhead : (bytesBack (c.before.dropWhile isAsciiBlank)).head? ≠ some '.' := by
      rw [Ne, head?_bytesBack (by decide), List.head?_eq_some_iff]
      rintro ⟨k', hk'⟩
      exact heq k' hk'
    simp [hhead]

theorem drop_of_byte? {pos : Nat} {b : Char} (h : byte? text pos = some b) :
    (bytes text).drop pos = b :: (bytes text).drop (pos + 1) := by
  obtain ⟨hlt, rfl⟩ := List.getElem?_eq_some_iff.1 h
  exact List.drop_eq_getElem_cons hlt

theorem drop_of_byte?_none {pos : Nat} (h : byte? text pos = none) : (bytes text).drop pos = [] :=
  List.drop_eq_nil_of_le (List.getElem?_eq_none_iff.1 h)

theorem bodyFollowsFrom_quoteEnd {quote : Char} {depth pos : Nat} (hq : quote ≠ '\\') :
    bodyFollowsFrom depth (some quote) ((bytes text).drop pos) =
      bodyFollowsFrom depth none ((bytes text).drop (quoteEnd text quote pos + 1)) := by
  fun_induction quoteEnd text quote pos with
  | case1 pos hnone =>
    rw [← List.drop_drop, drop_of_byte?_none hnone]
    rfl
  | case2 pos hb ih =>
    rw [← ih, drop_of_byte? hb, ← List.drop_drop (i := 1) (j := pos + 1)]
    cases (bytes text).drop (pos + 1) with
    | nil => rfl
    | cons d rest => rfl
  | case3 pos hb => rw [drop_of_byte? hb, bodyFollowsFrom_string_cons hq, if_pos rfl]
  | case4 pos b hb hesc hne ih =>
    rw [← ih, drop_of_byte? hb, bodyFollowsFrom_string_cons hesc, if_neg hne]

theorem bodyFollows_of_pos {depth pos : Nat} (hdepth : 0 < depth) :
    bodyFollows text depth pos =
      .ok (bodyFollowsFrom depth none ((bytes text).drop pos)) := by
  fun_induction bodyFollows text depth pos with
  | case1 depth pos hnone =>
    rw [drop_of_byte?_none hnone]
    rfl
  | case2 depth pos hb ih =>
    rw [ih (Nat.succ_pos depth), drop_of_byte? hb, bodyFollowsFrom, if_pos rfl]
  | case3 => contradiction
  | case4 pos _ hb =>
    have hrest : bytesFrom? text (pos + 1) = some ((bytes text).drop (pos + 1)) :=
      if_pos (lt_length_of_byte? text hb)
    rw [hrest, drop_of_byte? hb, bodyFollowsFrom, if_neg (by decide), if_pos rfl,
      if_pos (Nat.le_refl 1)]
    rfl
  | case5 depth pos hzero hone hb hne ih =>
    rw [ih (by omega), drop_of_byte? hb, bodyFollowsFrom, if_neg hne, if_pos rfl,
      if_neg (by omega)]
  | case6 depth pos b hb hopen hclose hquote ih =>
    have hesc : b ≠ '\\' := by
      rintro rfl
      revert hquote
      decide
    rw [ih hdepth, ← bodyFollowsFrom_quoteEnd hesc, drop_of_byte? hb, bodyFollowsFrom,
      if_neg hopen, if_neg hclose, if_pos hquote]
  | case7 depth pos b hb hopen hclose hquote ih =>
    rw [ih hdepth, drop_of_byte? hb, bodyFollowsFrom, if_neg hopen, if_neg hclose, if_neg hquote]

theorem bodyFollows_eq (h : c.text = text) (hr : c.rest.head? = some '(') :
    bodyFollows text 0 c.offset = .ok (isDefinition c.rest) := by
  have hb := (byte?_eq_some h (by decide)).2 hr
  have hopen : bodyFollows text 0 c.offset = bodyFollows text 1 (c.offset + 1) := by
    rw [bodyFollows]
    split <;> rename_i heq <;> rw [hb] at heq <;> cases heq
    rfl
  have hbytes : bodyFollowsFrom 0 none (bytes c.rest) = isDefinition c.rest :=
    bodyFollowsFrom_bytes (by simp)
  rw [hopen, bodyFollows_of_pos Nat.one_pos, ← hbytes, ← Cursor.drop_bytes h, drop_of_byte? hb,
    bodyFollowsFrom, if_pos rfl]

end Lookaround

end ByteScan

end ImportAtlas
