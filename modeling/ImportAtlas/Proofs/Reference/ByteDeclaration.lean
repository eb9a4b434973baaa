import ImportAtlas.Proofs.Reference.ByteLexeme
import ImportAtlas.Proofs.Reference.Clause

namespace ImportAtlas

open Text Lexeme Outcome

namespace Text.Cursor

variable {start c d : Cursor}

theorem clauseItem_bind {α : Type} (hq : c.startsQuote = true) (f : Nat → Except ScanFailure α) :
    c.clauseItem >>= f = c.literal >>= fun l => f l.length := by
  rw [clauseItem, if_pos hq]
  cases c.literal with
  | error e => rfl
  | ok l => rfl

def importItem (t : Cursor) : Except ScanFailure (Literal ⊕ Cursor) := do
  let n ← t.clauseItem
  if t.wordHere = fromWord then
    let u ← (t.advance n).skipTrivia
    if u.startsQuote then return .inl (← u.literal) else return .inr u
  else return .inr (t.advance n)

theorem importClause_congr (h : c.skipTrivia = d.skipTrivia) :
    importClause start c = importClause start d := by
  rw [importClause_eq start c, importClause_eq start d, h]

theorem fromClause_congr (h : c.skipTrivia = d.skipTrivia) :
    fromClause start c = fromClause start d := by
  rw [fromClause, fromClause, h]

theorem importClause_byItem : importClause start c = (do
    let t ← c.skipTrivia
    match t.rest with
    | [] => start.fail .importWithoutFrom
    | x :: _ =>
      if x = ';' || x = '=' then start.fail .importWithoutFrom
      else match ← t.importItem with
        | .inl l => return l
        | .inr v => importClause start v) := by
  rw [importClause_eq]
  refine congrArg _ (funext fun t => ?_)
  cases t.rest with
  | nil => rfl
  | cons x rest =>
    dsimp only
    split
    · rfl
    rw [importItem]
    cases t.clauseItem with
    | error e => rfl
    | ok n =>
      rw [ok_bind, ok_bind]
      split
      · cases hu : (t.advance n).skipTrivia with
        | error e => rfl
        | ok u =>
          rw [ok_bind, ok_bind, importClause_congr (skipTrivia_again hu).symm]
          split
          · cases u.literal with
            | error e => rfl
            | ok l => rfl
          · rfl
      · rfl

theorem length_lt_of_importItem (h : c.importItem = .ok (.inr d)) (hr : c.rest ≠ []) :
    d.rest.length < c.rest.length := by
  obtain ⟨n, hn, h⟩ := bind_eq_ok.1 h
  have hreach : (c.advance n).Reaches d := by
    split at h
    · obtain ⟨u, hu, h⟩ := bind_eq_ok.1 h
      split at h
      · obtain ⟨l, -, h⟩ := bind_eq_ok.1 h
        cases h
      · cases h
        exact .of_skipTrivia hu
    · cases h
      exact .refl _
  exact hreach.length_lt (clauseItem_pos hn) hr

section ExportClause

variable {I W k : List Char} {x : Char}

theorem exportClauseEnd_item (hI : ClauseItem k I) (hr : c.rest = I ++ k)
    (hclose : headIs (· = '\x7d') I = false) :
    exportClauseEnd start c = exportClauseEnd start (c.advance I.length) := by
  obtain ⟨x, I, rfl⟩ := List.exists_cons_of_ne_nil hI.ne_nil
  have hskip : c.skipTrivia = .ok c := skipTrivia_self (hr ▸ hI.startsTrivia)
  have hx : x ≠ '\x7d' := by simpa using hclose
  rw [exportClauseEnd_eq, hskip, ok_bind, hI.clauseItem_eq hr, hr, List.cons_append]
  exact if_neg hx

theorem exportClauseEnd_mark (hr : c.rest = x :: k) (ht : startsTrivia c.rest = false)
    (hq : isQuote x = false) (hs : isWordStart x = false) (hclose : x ≠ '\x7d') :
    exportClauseEnd start c = exportClauseEnd start (c.advance 1) :=
  exportClauseEnd_item (I := [x]) (.mark hq hs (hr ▸ ht)) hr (by simpa using hclose)

theorem exportClauseEnd_continues (hr : c.rest = W ++ k) (hW : ∀ d ∈ W, continuesWord d = true)
    (hk : headIs continuesWord k = false) :
    exportClauseEnd start c = exportClauseEnd start (c.advance W.length) := by
  induction W generalizing c with
  | nil => rfl
  | cons x W ih =>
    have hx := hW x List.mem_cons_self
    have hne {d : Char} (hd : continuesWord d = false) : x ≠ d := by
      rintro rfl
      rw [hx] at hd
      contradiction
    have hclose : x ≠ '\x7d' := hne (by decide)
    by_cases hs : isWordStart x = true
    · exact exportClauseEnd_item (.word ⟨hs, hW⟩ hk) hr (by simpa using hclose)
    · have hblank : isBlank x = false := by
        by_contra hb
        rw [continuesWord_of_isBlank (by simpa using hb)] at hx
        contradiction
      have ht : startsTrivia c.rest = false := by
        rw [hr, List.cons_append, startsTrivia_cons]
        simp [hblank, hne (d := '/') (by decide)]
      have hq : isQuote x = false := by
        by_contra hq
        rw [continuesWord_of_isQuote (by simpa using hq)] at hx
        contradiction
      rw [exportClauseEnd_mark hr ht hq (by simpa using hs) hclose,
        ih (by simp [hr]) fun d hd => hW d (List.mem_cons_of_mem x hd), advance_advance,
        List.length_cons, Nat.add_comm]

theorem exportClauseEnd_next (hr : c.rest = x :: k) (ht : startsTrivia c.rest = false)
    (hq : isQuote x = false) (hclose : x ≠ '\x7d') :
    exportClauseEnd start c = exportClauseEnd start (c.advance 1) := by
  by_cases hs : isWordStart x = true
  · obtain ⟨hw, k', hword, hk⟩ := exists_wordHere (by rw [hr, headIs_cons, hs]) ht
    generalize c.wordHere = w at *
    cases w with
    | nil => exact absurd rfl hw.ne_nil
    | cons y w =>
      have hnext : (c.advance 1).rest = w ++ k' := by simp [hword]
      rw [exportClauseEnd_continues hword hw.continues hk, exportClauseEnd_continues hnext
        (fun d hd => hw.continues d (List.mem_cons_of_mem y hd)) hk, advance_advance,
        List.length_cons, Nat.add_comm]
  · exact exportClauseEnd_mark hr ht hq (by simpa using hs) hclose

end ExportClause

end Text.Cursor

namespace ByteScan

variable {text k : List Char} {start c t : Cursor} {x b : Char}

theorem importClause_eq (start pos : Nat) : importClause text start pos = (do
    let place ← skipTrivia text pos
    match byte? text place with
    | none => Checked.fail start .importWithoutFrom
    | some b =>
      if b = ';' || b = '=' then Checked.fail start .importWithoutFrom
      else match ← importItem text place b with
        | .inl literal => .ok literal
        | .inr next =>
          if pos < next then importClause text start next else Checked.fault .stalled) := by
  rw [importClause]
  split
  · rename_i h
    rw [h]
    rfl
  · rename_i place hplace
    rw [hplace, ok_bind]
    split
    · rename_i hb
      rw [hb]
    · rename_i hb
      rw [hb]
      dsimp only
      split
      · rfl
      · split <;> rename_i hitem <;> rw [hitem] <;> rfl

theorem exportClauseEnd_eq (start pos : Nat) : exportClauseEnd text start pos = (do
    let place ← skipTrivia text pos
    match byte? text place with
    | none => Checked.fail start .unterminatedExportClause
    | some b =>
      if b = '\x7d' then .ok (place + 1)
      else (if isQuote b then stringEnd text place else .ok (place + 1)) >>= fun next =>
        if pos < next then exportClauseEnd text start next else Checked.fault .stalled) := by
  rw [exportClauseEnd]
  split
  · rename_i h
    rw [h]
    rfl
  · rename_i place hplace
    rw [hplace, ok_bind]
    split
    · rename_i hb
      rw [hb]
    · rename_i hb
      rw [hb]
      dsimp only
      split
      · rfl
      · split <;> rename_i hitem <;> rw [hitem] <;> rfl

theorem isAscii_of_not_isWordStart (h : isWordStart x = false) : isAscii x = true := by
  rw [isWordStart, Bool.or_eq_false_iff, Bool.not_eq_false'] at h
  exact h.2

theorem importItem_quote (h : t.text = text) (hq : t.startsQuote = true) :
    ReadAlike text (Sum.LiftRel (Delimits text) (Places text)) t.importItem
      (do return .inr (← stringEnd text t.offset)) := by
  have hnone : t.wordHere ≠ fromWord := by
    rw [Cursor.wordHere_eq_nil]
    · exact isWord_fromWord.ne_nil.symm
    · rw [Cursor.startsQuote_eq] at hq
      cases hr : t.rest with
      | nil => rfl
      | cons x k => exact isWordStart_of_isQuote (by rwa [hr, headIs_cons] at hq)
  have hitem : t.importItem = t.literal >>= fun l => .ok (.inr (t.advance l.length)) := by
    rw [Cursor.importItem, Cursor.clauseItem_bind hq]
    simp only [if_neg hnone]
    rfl
  rw [hitem]
  refine (stringEnd_alike h hq).bind fun l n hl hd => .ok (.inr ?_)
  exact Cursor.opening_of_literal hl ▸ hd.closing

theorem importItem_alike (h : t.text = text) (hr : t.rest = x :: k) (hb : Leads b x)
    (ht : startsTrivia t.rest = false) :
    ReadAlike text (Sum.LiftRel (Delimits text) (Places text)) t.importItem
      (importItem text t.offset b) := by
  have hquote : isQuote b = t.startsQuote := by
    rw [hb.apply_eq coarse_isQuote, Cursor.startsQuote_of_rest hr]
  have hstart : isWordStart b = headIs isWordStart t.rest := by
    rw [hb.apply_eq coarse_isWordStart, hr, headIs_cons]
  rw [importItem, hquote, hstart]
  split
  · exact importItem_quote h ‹_›
  rename_i hq
  rw [Cursor.importItem, Cursor.clauseItem, if_neg hq, ok_bind]
  by_cases hs : headIs isWordStart t.rest = true
  · rw [if_pos hs]
    have hpos := List.length_pos_iff.2 (Cursor.exists_wordHere hs ht).1.ne_nil
    dsimp only
    rw [slice?_wordEnd h hs ht, Checked.expect, ok_bind, wordEnd_eq h hs ht, Nat.max_eq_right hpos]
    have hv := Places.of_reaches h (.advance t t.wordHere.length)
    refine .ite (fun _ => ?_) fun _ => .ok (.inr hv)
    refine (skipTrivia_alike hv.text_eq).bind fun u after _ hu => ?_
    obtain ⟨hu, rfl⟩ := hu
    rw [quoteAt_eq hu]
    split <;> rename_i hq
    · exact (stringEnd_alike hu hq).bind fun l n _ hd => .ok (.inl hd)
    · exact .ok (.inr ⟨hu, rfl⟩)
  · rw [if_neg hs]
    rw [Bool.not_eq_true] at hs
    have hx : isAscii x = true := isAscii_of_not_isWordStart (by rwa [hr, headIs_cons] at hs)
    rw [Cursor.wordHere_eq_nil hs, if_neg isWord_fromWord.ne_nil.symm]
    exact .ok (.inr (places_next h hr hx))

theorem importClause_alike (hstart : start.text = text) (h : c.text = text) :
    ReadAlike text (Delimits text) (Cursor.importClause start c)
      (importClause text start.offset c.offset) := by
  induction hn : c.rest.length using Nat.strong_induction_on generalizing c with
  | h n ih =>
    subst hn
    rw [Cursor.importClause_byItem, importClause_eq]
    refine (skipTrivia_alike h).bind fun t place ht hplace => ?_
    obtain ⟨htext, rfl⟩ := hplace
    cases hr : t.rest with
    | nil =>
      rw [Cursor.byte?_of_nil htext hr]
      exact fail_alike hstart _
    | cons x k =>
      obtain ⟨b, hbyte, hb⟩ := Cursor.byte?_of_cons htext hr
      rw [hbyte]
      dsimp only
      simp only [hb.eq_iff (c := ';') (by decide), hb.eq_iff (c := '=') (by decide)]
      refine .ite (fun _ => fail_alike hstart _) fun _ => ?_
      have hitem := importItem_alike htext hr hb (Cursor.startsTrivia_of_skipTrivia ht)
      refine hitem.bind fun r r' hitem hrr => ?_
      cases hrr with
      | inl hl => exact .ok hl
      | @inr v next hv =>
        have hlt : v.rest.length < c.rest.length :=
          Nat.lt_of_lt_of_le (Cursor.length_lt_of_importItem hitem (by simp [hr]))
            (Cursor.Reaches.of_skipTrivia ht).length_le
        obtain ⟨hv, rfl⟩ := hv
        dsimp only
        rw [if_pos (Cursor.offset_lt_of_length_lt (h.trans hv.symm) hlt)]
        exact ih _ hlt hv rfl

section ExportClause

theorem exportClauseEnd_inside (h : c.text = text) (hr : c.rest = x :: k) {n m : Nat}
    (hpos : 0 < n) (hn : n + m = x.utf8Size) (place : Nat) :
    exportClauseEnd text place (c.offset + n) =
      exportClauseEnd text place (c.advance 1).offset := by
  induction m generalizing n with
  | zero => rw [Cursor.offset_next hr, ← hn, Nat.add_zero]
  | succ m ih =>
    have hlt : n < x.utf8Size := by omega
    obtain ⟨b, hbyte, hb⟩ := Cursor.byte?_inside h hr hpos hlt
    have hne {d : Char} (hd : isAscii d = true) : b ≠ d := ne_of_isAscii hb hd
    have hitem : triviaItem text (c.offset + n) = .ok none := by
      rw [triviaItem, hbyte, Cursor.charAt?_inside h hr hpos hlt]
      simp [isAsciiBlank_of_not_isAscii hb, hne (d := '/') (by decide)]
      rfl
    have hskip : skipTrivia text (c.offset + n) = .ok (c.offset + n) := by
      rw [skipTrivia]
      split <;> rename_i heq <;> rw [hitem] at heq <;> cases heq
    have hquote : isQuote b = false := by
      simp [isQuote, hne (d := '\'') (by decide), hne (d := '"') (by decide)]
    rw [exportClauseEnd_eq, hskip, ok_bind, hbyte]
    dsimp only
    rw [if_neg (hne (by decide)), hquote, if_neg Bool.false_ne_true, ok_bind,
      if_pos (Nat.lt_succ_self _), Nat.add_assoc, ih (Nat.succ_pos n) (by omega)]

theorem exportClauseEnd_alike (hstart : start.text = text) (h : c.text = text) :
    ReadAlike text (Places text) (Cursor.exportClauseEnd start c)
      (exportClauseEnd text start.offset c.offset) := by
  induction hn : c.rest.length using Nat.strong_induction_on generalizing c with
  | h n ih =>
    subst hn
    rw [Cursor.exportClauseEnd_eq, exportClauseEnd_eq]
    refine (skipTrivia_alike h).bind fun t place ht hplace => ?_
    obtain ⟨htext, rfl⟩ := hplace
    have hreach := Cursor.Reaches.of_skipTrivia ht
    have hlength := hreach.length_le
    cases hr : t.rest with
    | nil =>
      rw [Cursor.byte?_of_nil htext hr]
      exact fail_alike hstart _
    | cons x k =>
      obtain ⟨b, hbyte, hb⟩ := Cursor.byte?_of_cons htext hr
      rw [hbyte]
      dsimp only
      simp only [hb.eq_iff (c := '\x7d') (by decide), hb.apply_eq coarse_isQuote]
      refine .ite (fun hx => ?_) fun hx => ?_
      · exact .ok (places_next htext hr (hx ▸ by decide))
      by_cases hq : isQuote x = true
      · have hs : t.startsQuote = true := by rw [Cursor.startsQuote_of_rest hr, hq]
        rw [if_pos hq, Cursor.clauseItem_bind hs]
        refine (stringEnd_alike htext hs).bind fun l next hl hd => ?_
        have hlt : l.closing.rest.length < c.rest.length := by
          obtain rfl := Cursor.opening_of_literal hl
          exact Nat.lt_of_lt_of_le ((Cursor.Reaches.refl _).length_lt
            (Cursor.length_pos_of_literal hl) (by simp [hr])) hlength
        obtain ⟨hclosing, rfl⟩ := hd.closing
        rw [if_pos (Cursor.offset_lt_of_length_lt (h.trans hclosing.symm) hlt),
          ← Cursor.opening_of_literal hl]
        exact ih _ hlt hclosing rfl
      · -- one byte is passed over here, which may end within a word or within a character
        have hlt : (t.advance 1).rest.length < c.rest.length :=
          Nat.lt_of_lt_of_le ((Cursor.Reaches.refl _).length_lt Nat.one_pos (by simp [hr])) hlength
        have hchar : (t.clauseItem >>= fun n => Cursor.exportClauseEnd start (t.advance n)) =
            Cursor.exportClauseEnd start (t.advance 1) := by
          rw [← Cursor.exportClauseEnd_next hr (Cursor.startsTrivia_of_skipTrivia ht)
            (by simpa using hq) hx, Cursor.exportClauseEnd_eq start t, Cursor.skipTrivia_again ht,
            ht, ok_bind, hr]
          exact (if_neg hx).symm
        have hsize := x.utf8Size_pos
        have hle : c.offset ≤ t.offset := by
          obtain ⟨A, hA⟩ := Cursor.Passes.of_reaches hreach
          rw [hA.offset_eq]
          exact Nat.le_add_right _ _
        rw [if_neg hq, ok_bind, if_pos (Nat.lt_succ_of_le hle), hchar,
          exportClauseEnd_inside htext hr Nat.one_pos (Nat.add_sub_cancel' hsize)]
        exact ih _ hlt ((Cursor.text_advance 1 t).trans htext) rfl

end ExportClause

theorem places_word {w : List Char} {n : Nat} (h : c.text = text) (hw : IsWord w)
    (hc : c.wordHere = w) (hn : n = byteLength w) :
    Places text (c.advance w.length) (c.offset + n) := by
  obtain ⟨k, hr, -⟩ := (Cursor.wordHere_eq_iff hw).1 hc
  have hp : c.Passes w _ := .of_rest hr
  rw [hn, ← hp.offset_eq]
  exact .of_reaches h hp.reaches

theorem fromClause_alike (hstart : start.text = text) (h : c.text = text) :
    ReadAlike text (Delimits text) (Cursor.fromClause start c)
      (fromClause text start.offset c.offset) := by
  rw [Cursor.fromClause, fromClause]
  refine (skipTrivia_alike h).bind fun t place ht hplace => ?_
  obtain ⟨htext, rfl⟩ := hplace
  rw [wordAt_ite htext (Cursor.startsTrivia_of_skipTrivia ht) (by decide)]
  refine .ite (fun hw => ?_) fun _ => fail_alike hstart _
  have hnext := places_word htext isWord_fromWord hw (n := 4) (by decide)
  rw [hw, hnext.pos_eq]
  refine (skipTrivia_alike hnext.text_eq).bind fun u after _ hu => ?_
  obtain ⟨hu, rfl⟩ := hu
  rw [quoteAt_eq hu]
  split <;> rename_i hq
  · exact (stringEnd_alike hu hq).bind_right fun l stop hd => .ok hd
  · exact fail_alike hu _

theorem skipType_alike (h : c.text = text) (ht : startsTrivia c.rest = false) :
    ReadAlike text (Places text) (c.skipWord "type".toList) (skipType text c.offset) := by
  rw [skipType, wordAt_ite h ht (by decide), Cursor.skipWord]
  refine .ite (fun hw => ?_) fun _ => .ok ⟨h, rfl⟩
  have hnext := places_word h (.of_all (by decide) (by decide)) hw (n := 4) (by decide)
  rw [hnext.pos_eq]
  exact skipTrivia_alike hnext.text_eq

theorem exportName_alike (hstart : start.text = text) (h : c.text = text)
    (ht : startsTrivia c.rest = false) :
    ReadAlike text (Places text) (Cursor.exportName start c)
      (exportName text start.offset c.offset) := by
  rw [Cursor.exportName, exportName, wordAt_ite h ht (by decide)]
  refine .ite (fun hw => ?_) fun _ => .ok ⟨h, rfl⟩
  have hnext := places_word h isWord_asWord hw (n := 2) (by decide)
  rw [hnext.pos_eq]
  refine (skipTrivia_alike hnext.text_eq).bind fun u after hskip hu => ?_
  obtain ⟨hu, rfl⟩ := hu
  rw [quoteAt_eq hu, map_byte? hu coarse_isWordStart]
  split <;> rename_i hq
  · exact (stringEnd_alike hu hq).bind_left fun l stop _ hd => .ok hd.closing
  by_cases hs : headIs isWordStart u.rest = true
  · have hut := Cursor.startsTrivia_of_skipTrivia hskip
    rw [if_pos hs, if_neg (Cursor.exists_wordHere hs hut).1.ne_nil, wordEnd_eq hu hs hut]
    exact .ok (.of_reaches hu (.advance u _))
  · rw [if_neg hs, Cursor.wordHere_eq_nil (by simpa using hs), if_pos rfl]
    exact fail_alike hstart _

structure Argument (text : List Char) (l : Literal) (span : Nat × Nat × Nat) : Prop where
  delimits : Delimits text l (span.1, span.2.1)
  skipped : ∃ u, l.closing.skipTrivia = .ok u ∧ Places text u span.2.2

theorem plainLiteral_alike (h : c.text = text) :
    ReadAlike text (Option.Rel fun l stop => Delimits text l (c.offset, stop)) c.plainLiteral?
      (plainLiteralEnd text c.offset) := by
  rw [plainLiteralEnd, quoteAt_eq h]
  simp only [byte?_eq_some h (x := '\x60') (by decide)]
  by_cases hr : c.rest.head? = some '\x60'
  · obtain ⟨k, hk⟩ := List.head?_eq_some_iff.1 hr
    have hq : c.startsQuote = false := Cursor.startsQuote_of_rest hk
    rw [hq, if_neg Bool.false_ne_true, if_pos hr]
    exact plainTemplateEnd_alike h hk
  · have hplain : c.plainLiteral? =
        if c.startsQuote then some <$> c.literal else .ok none := by
      unfold Cursor.plainLiteral?
      split
      · exact absurd (List.head?_eq_some_iff.2 ⟨_, ‹_›⟩) hr
      · rfl
    rw [hplain, if_neg hr]
    exact .ite (fun hq => (stringEnd_alike h hq).map fun l stop hd => .some hd) fun _ => .ok .none

theorem endsArgument_eq (h : c.text = text) :
    (decide (byte? text c.offset = some ')') || decide (byte? text c.offset = some ',')) =
      c.endsArgument := by
  simp only [byte?_eq_some h (x := ')') (by decide), byte?_eq_some h (x := ',') (by decide)]
  rfl

theorem dynamicArgument_alike (h : c.text = text) :
    ReadAlike text (Option.Rel (Argument text)) c.dynamicArgument
      (dynamicArgument text c.offset) := by
  rw [Cursor.dynamicArgument, dynamicArgument]
  refine (skipTrivia_alike h).bind fun t place ht hplace => ?_
  obtain ⟨htext, rfl⟩ := hplace
  refine (plainLiteral_alike htext).bind fun o stop? _ hstop => ?_
  cases hstop with
  | none => exact .ok .none
  | @some l stop hd =>
    obtain ⟨hclosing, rfl⟩ := hd.closing
    refine (skipTrivia_alike hclosing).bind fun u after hu hafter => ?_
    obtain ⟨hafter, rfl⟩ := hafter
    rw [endsArgument_eq hafter]
    split
    · exact .ok (.some ⟨hd, u, hu, hafter, rfl⟩)
    · exact .ok .none

end ByteScan

end ImportAtlas
