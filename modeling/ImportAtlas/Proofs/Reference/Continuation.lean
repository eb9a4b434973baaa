import ImportAtlas.Proofs.Lexeme.Body
import ImportAtlas.Proofs.Reference.Rescan
import ImportAtlas.Proofs.Reference.Steps

/-! The run on a text is the beginning of the run on a longer one.  The scanner
looks ahead, so the text that comes after has to be such that every look ahead
that met the end of the text is answered in the same way. -/

namespace ImportAtlas

open Text Lexeme Outcome

def Substitution.extend (x : List Char) (t : Substitution) : Substitution :=
  ⟨t.opening.extend x, t.depth⟩

def ScanMode.extend (x : List Char) : ScanMode → ScanMode
  | .code => .code
  | .template opening => .template (opening.extend x)

def attended (c : Char) : Bool :=
  isQuote c || ['(', ')', ',', '*', '\x7b', '\x60', 'f', 't'].contains c

namespace Text.Cursor

variable {c : Cursor} {x : List Char}

def KeepsBeginning (k x : List Char) : Prop := k ≠ [] ∨ headIs (· = '\n') x = true

theorem skipMark_extend (h : KeepsBeginning c.rest x) :
    (c.extend x).skipMark = c.skipMark.extend x := by
  rcases h with hr | hx
  · have hhead : (c.extend x).rest.head? = c.rest.head? := List.head?_append_of_ne_nil c.rest hr
    unfold skipMark
    rw [hhead]
    split
    · exact advance_extend (List.length_pos_iff.2 hr)
    · rfl
  · obtain ⟨y, rfl⟩ := ScanState.exists_cons_of_headIs hx
    have hhead : (c.extend ('\n' :: y)).rest.head? = some byteOrderMark ↔
        c.rest.head? = some byteOrderMark := by
      rw [rest_extend]
      cases c.rest with
      | nil => simp [byteOrderMark]
      | cons => rfl
    unfold skipMark
    by_cases hmark : c.rest.head? = some byteOrderMark
    · obtain ⟨k, hk⟩ := List.head?_eq_some_iff.1 hmark
      rw [if_pos hmark, if_pos (hhead.2 hmark)]
      exact advance_extend (by simp [hk])
    · rw [if_neg hmark, if_neg (mt hhead.1 hmark)]

theorem skipHashbang_extend (h : KeepsBeginning c.skipHashbang.rest x)
    (hx : headIs (· = '!') x = false) :
    (c.extend x).skipHashbang = c.skipHashbang.extend x := by
  unfold skipHashbang at h ⊢
  by_cases hc : c.rest.take 2 = "#!".toList
  · have hle : 2 ≤ c.rest.length := by
      have := congrArg List.length hc
      rw [List.length_take] at this
      simp only [String.reduceToList, List.length_cons, List.length_nil] at this
      omega
    have hline : (c.rest ++ x).takeWhile (· != '\n') = c.rest.takeWhile (· != '\n') := by
      rw [if_pos hc, rest_advance, drop_takeWhile] at h
      refine takeWhile_append_of_dropWhile ?_
      by_cases hr : c.rest.dropWhile (· != '\n') = []
      · obtain ⟨y, rfl⟩ := ScanState.exists_cons_of_headIs (h.resolve_left (not_not_intro hr))
        rw [hr]
        rfl
      · rw [headIs_append_of_ne_nil hr, headIs_dropWhile]
    rw [if_pos hc, rest_extend, List.take_append_of_le_length hle, if_pos hc, hline]
    exact advance_extend (List.takeWhile_sublist _).length_le
  · rw [if_neg hc] at h ⊢
    refine if_neg ?_
    rw [rest_extend]
    match hrest : c.rest with
    | [] =>
      obtain ⟨y, rfl⟩ := ScanState.exists_cons_of_headIs (h.resolve_left (not_not_intro hrest))
      simp
    | a :: b :: k =>
      rw [hrest] at hc
      exact hc
    | [a] =>
      cases x with
      | nil => rwa [List.append_nil, ← hrest]
      | cons y x =>
        rw [headIs_cons, decide_eq_false_iff_not] at hx
        simp [hx]

end Text.Cursor

namespace ScanState

variable {s s' s₁ s₂ f : ScanState} {c d t t' u : Cursor} {a : Char} {w x rest : List Char}

def extend (x : List Char) (s : ScanState) : ScanState :=
  { s with cursor := s.cursor.extend x, mode := s.mode.extend x,
           substitutions := s.substitutions.map (Substitution.extend x) }

theorem extend_record {kind : ReferenceKind} {l : Literal} {quote : Char} {body : List Char}
    (h : l.Quotes quote body) :
    (s.record kind l).extend x = (s.extend x).record kind (l.extend x) := by
  simp only [record, extend, h.closing_extend, h.toReference_extend]

theorem extend_entering {kind : ReferenceKind} :
    (s.entering kind).extend x = (s.extend x).entering kind := by
  cases kind <;> rfl

/-- At the end of the run the text `x` may come after: it goes on with no number
and no flags, a comment in the last line ends, and then something begins that no
look ahead asks for. -/
structure Admits (f : ScanState) (x : List Char) : Prop where
  value : f.cursor.rest = [] → f.last = .value →
    headIs (fun c => isWordPart c || c = '.') x = false
  ahead : ∃ T y, f.cursor.rest ++ x = T ++ y ∧ Trivia T ∧ startsTrivia y = false ∧
    headIs attended y = false ∧ (f.last = .word importName → headIs isWordStart y = false)

/-- A slash that opens no regular expression opens none in the longer text. -/
def KeepsSlash (x : List Char) (s : ScanState) : Prop :=
  s.mode = .code → s.last.allowsRegex = true → ∀ t rest, s.cursor.skipTrivia = .ok t →
    t.rest = '/' :: rest → regex? t.rest = none → regex? (t.rest ++ x) = none

theorem keepsSlash_of_not_mem (h : '/' ∉ s.cursor.rest) (hs : Relation.ReflTransGen Next s s') :
    s'.KeepsSlash x := by
  intro _ _ t rest ht hr
  obtain ⟨A, hp⟩ := Cursor.Passes.of_reaches ((reaches_of_reaches hs).trans (.of_skipTrivia ht))
  refine absurd ?_ h
  rw [hp.rest_eq, hr]
  exact List.mem_append_right A List.mem_cons_self

structure Extensible (x : List Char) (f s : ScanState) : Prop where
  ends : Relation.ReflTransGen Next s f
  final : f.step = .ok none
  admits : f.Admits x
  apart : Apart s.cursor.rest x
  slashes : ∀ s', Relation.ReflTransGen Next s s' → s'.KeepsSlash x

inductive Ahead (x : List Char) (s : ScanState) (t : Cursor) : Cursor → Prop
  | within : t.rest ≠ [] → Apart t.rest x → Ahead x s t (t.extend x)
  | ended {t' : Cursor} : t.rest = [] → headIs attended t'.rest = false →
      (s.last = .word importName → headIs isWordStart t'.rest = false) → Ahead x s t t'

namespace Ahead

theorem headIs_eq_false {p : Char → Bool} (h : Ahead x s t t')
    (hp : ∀ c, p c = true → attended c = true) (ht : headIs p t.rest = false) :
    headIs p t'.rest = false := by
  cases h with
  | within hr => rwa [Cursor.headIs_extend hr]
  | ended _ hhead => exact headIs_eq_false_of_imp hp hhead

theorem wordHere_ne (h : Ahead x s t t') (hw : IsWord w) (hhead : headIs attended w = true)
    (ht : t.wordHere ≠ w) : t'.wordHere ≠ w := by
  cases h with
  | within hr hx => exact fun h => ht (Cursor.wordHere_of_extend hx hr hw h)
  | ended _ hahead =>
    intro h
    obtain ⟨k, hr, -⟩ := (Cursor.wordHere_eq_iff hw).1 h
    rw [hr, headIs_append_of_ne_nil hw.ne_nil, hhead] at hahead
    contradiction

theorem opensImport (h : Ahead x s t t') (hlast : s.last = .word importName)
    (ht : headIs opensImport t.rest = false) : headIs opensImport t'.rest = false := by
  cases h with
  | within hr => rwa [Cursor.headIs_extend hr]
  | ended _ hhead hword =>
    have hword := hword hlast
    cases hr : t'.rest with
    | nil => rfl
    | cons a rest =>
      rw [hr, headIs_cons] at hhead hword
      simp only [attended, List.contains_eq_mem, List.mem_cons, List.not_mem_nil, or_false,
        Bool.or_eq_false_iff, decide_eq_false_iff_not, not_or] at hhead
      simp [ScanState.opensImport, opensClause, hhead, hword]

end Ahead

namespace Extensible

theorem next (h : Extensible x f s) (hs : Next s s₁) : Extensible x f s₁ where
  ends := reaches_end h.ends h.final (.single hs)
  final := h.final
  admits := h.admits
  apart := Cursor.apart_of_reaches hs.reaches h.apart
  slashes s' hs' := h.slashes s' (.head hs hs')

theorem token (h : Extensible x f s) (hm : s.mode = .code) (ht : s.cursor.skipTrivia = .ok t)
    (hr : t.rest = a :: rest) (hs : s.token a t = .ok s₁) : Extensible x f s₁ :=
  h.next (next_of_token hm ht hr hs)

theorem eq_of_rest (h : Extensible x f s) (hm : s.mode = .code)
    (ht : s.cursor.skipTrivia = .ok t) (hr : t.rest = []) : s = f := by
  rcases Relation.ReflTransGen.cases_head h.ends with rfl | ⟨s₁, hs₁, -⟩
  · rfl
  · obtain ⟨t', a, rest, ht', hr', -⟩ := Next.exists_token hs₁ hm
    rw [ht] at ht'
    cases ht'
    rw [hr] at hr'
    contradiction

theorem ahead (h : Extensible x f s) (hm : s.mode = .code) (ht : s.cursor.skipTrivia = .ok t) :
    ∃ t', (s.cursor.extend x).skipTrivia = .ok t' ∧ Ahead x s t t' := by
  have hx := Cursor.apart_of_reaches (.of_skipTrivia ht) h.apart
  by_cases hr : t.rest = []
  · obtain rfl := h.eq_of_rest hm ht hr
    obtain ⟨T, y, hsplit, hT, hy, hhead, hword⟩ := h.admits.ahead
    have hp : (s.cursor.extend x).Passes T ((s.cursor.extend x).advance T.length) :=
      .of_rest hsplit
    have hrest : ((s.cursor.extend x).advance T.length).rest = y := by
      rw [Cursor.rest_advance, Cursor.rest_extend, hsplit, List.drop_left]
    refine ⟨_, Cursor.skipTrivia_of_trivia hp hT (hrest ▸ hy), .ended hr ?_ ?_⟩
    · rwa [hrest]
    · rwa [hrest]
  · exact ⟨t.extend x, Cursor.skipTrivia_extend ht hr hx, .within hr hx⟩

theorem exists_after_literal {l : Literal} (h : Extensible x f s) (hm : s.mode = .code)
    (ht : s.cursor.skipTrivia = .ok t) (hl : t.PlainStep (some l)) :
    ∃ s₂, Extensible x f s₂ ∧ s₂.mode = .code ∧ s₂.cursor = l.closing := by
  cases hl with
  | @template rest n hr hn =>
    have hs₁ := h.token hm ht hr rfl
    have hone : (t.advance 1).rest = rest := by rw [Cursor.rest_advance, hr]; rfl
    have hs₂ := hs₁.next (next_of_text rfl (hone ▸ hn))
    refine ⟨_, hs₂, mode_afterText, ?_⟩
    rw [cursor_afterText, Literal.closing, Nat.add_comm n 1]
    exact Cursor.advance_advance 1 n t
  | string hs hl =>
    obtain ⟨quote, body, hopens, rfl⟩ := Cursor.exists_of_literal hs hl
    obtain ⟨k, hr⟩ := hopens.rest_eq
    rw [quoted_append] at hr
    exact ⟨_, h.token hm ht hr (token_string hopens), hm, rfl⟩

theorem dynamicArgument (h : Extensible x f s) (hm : s.mode = .code)
    (harg : s.cursor.dynamicArgument = .ok none) :
    (s.cursor.extend x).dynamicArgument = .ok none := by
  obtain ⟨t, ht, harg⟩ := bind_eq_ok.1 harg
  obtain ⟨o, ho, harg⟩ := bind_eq_ok.1 harg
  obtain ⟨t', ht', hahead⟩ := h.ahead hm ht
  cases o with
  | none =>
    refine bind_eq_ok.2 ⟨t', ht', bind_eq_ok.2 ⟨none, Cursor.plainLiteral_eq_ok.2 ?_, rfl⟩⟩
    cases Cursor.plainLiteral_eq_ok.1 ho with
    | none hhead =>
      refine .none (hahead.headIs_eq_false (fun c hc => ?_) hhead)
      simp only [Bool.or_eq_true, decide_eq_true_eq] at hc
      rcases hc with rfl | hc
      · decide
      · simp [attended, hc]
    | @substitution rest _ hr hn =>
      cases hahead with
      | within =>
        have hr' : (t.extend x).rest = '\x60' :: (rest ++ x) := by
          rw [Cursor.rest_extend, hr, List.cons_append]
        exact .substitution hr' (Cursor.templateChunk_extend hn)
      | ended hnil => simp [hr] at hnil
  | some l =>
    obtain ⟨v, hv, harg⟩ := bind_eq_ok.1 harg
    have hend : v.endsArgument = false := by
      have harg := pure_eq_ok.1 harg
      split at harg
      · contradiction
      · simp_all
    have hl := Cursor.plainLiteral_eq_ok.1 ho
    obtain ⟨rfl, quote, body, -, hq⟩ := Cursor.exists_of_plainLiteral ho
    have hr : l.opening.rest ≠ [] := by simp [hq.passes.rest_eq]
    obtain ⟨s₂, hs₂, hm₂, hcursor⟩ := h.exists_after_literal hm ht hl
    rw [← hcursor] at hv
    obtain ⟨v', hv', hahead'⟩ := hs₂.ahead hm₂ hv
    rw [hcursor, ← hq.closing_extend] at hv'
    cases hahead with
    | ended hnil => exact absurd hnil hr
    | within =>
      have hsome := Cursor.plainLiteral_eq_ok.2 (hl.extend_some (x := x))
      refine bind_eq_ok.2 ⟨_, ht', bind_eq_ok.2 ⟨some _, hsome, bind_eq_ok.2 ⟨v', hv', ?_⟩⟩⟩
      have hend' : v'.endsArgument = false := by
        rw [Cursor.endsArgument_eq] at hend ⊢
        refine hahead'.headIs_eq_false (fun c hc => ?_) hend
        simp only [Bool.or_eq_true, decide_eq_true_eq] at hc
        rcases hc with rfl | rfl <;> decide
      rw [hend']
      rfl

theorem importStep (h : Extensible x f s₁) (hm : s.mode = .code)
    (hlast : s.last = .word importName) (ht : s.cursor.skipTrivia = .ok t)
    (hs₁ : ImportStep s t s₁) (hf : s₁.found = s.found) (hx : Apart t.rest x) :
    ∃ t', (s.extend x).cursor.skipTrivia = .ok t' ∧ ImportStep (s.extend x) t' (s₁.extend x) := by
  cases hs₁ with
  | plain hhead =>
    obtain ⟨t', ht', hahead⟩ := h.ahead hm ht
    exact ⟨t', ht', .plain (hahead.opensImport hlast hhead)⟩
  | call hhead harg =>
    have hr := Cursor.rest_ne_nil_of_headIs hhead
    have hone := Cursor.advance_extend (x := x) (List.length_pos_iff.2 hr)
    have hcall : ImportStep (s.extend x) (t.extend x)
        ((s.extend x).enterCall ((t.extend x).advance 1)) := by
      refine .call ?_ ?_
      · rw [Cursor.headIs_extend hr, hhead]
      · rw [hone]
        exact h.dynamicArgument hm harg
    rw [hone] at hcall
    exact ⟨_, Cursor.skipTrivia_extend ht hr hx, hcall⟩
  | dynamic => simp [record, enterCall, ScanState.moveTo] at hf
  | bare => simp [record] at hf
  | clause => simp [record] at hf

theorem exportStep (h : Extensible x f s₁) (hm : s.mode = .code)
    (hk : headIs continuesWord s.cursor.rest = false) (ht : s.cursor.skipTrivia = .ok t)
    (hu : t.skipWord typeWord = .ok u) (hs₁ : ExportStep s u s₁) (hf : s₁.found = s.found) :
    ∃ t' u', (s.extend x).cursor.skipTrivia = .ok t' ∧ t'.skipWord typeWord = .ok u' ∧
      ExportStep (s.extend x) u' (s₁.extend x) := by
  cases hs₁ with
  | plain hhead =>
    obtain ⟨t', ht', hahead⟩ := h.ahead hm ht
    have hopens (c : Char) (hc : opensExport c = true) : attended c = true := by
      simp only [opensExport, Bool.or_eq_true, decide_eq_true_eq] at hc
      rcases hc with rfl | rfl <;> decide
    by_cases htype : t.wordHere = typeWord
    · -- the look ahead goes on after the word `type`, which is the next token
      obtain ⟨k, hr, hk'⟩ := (Cursor.wordHere_eq_iff isWord_typeWord).1 htype
      have hs₂ := h.token hm ht hr (token_typeWord hr hk')
      rw [skipWord_of_eq htype] at hu
      obtain ⟨u', hu', hahead'⟩ := hs₂.ahead hm hu
      cases hahead with
      | ended hnil => simp [hr, typeWord] at hnil
      | within _ hx =>
        have hlong := Cursor.wordHere_extend hx isWord_typeWord htype
        have hadvance := (Cursor.Passes.of_rest hr).extend (x := x).eq_advance
        refine ⟨_, _, ht', ?_, .plain (hahead'.headIs_eq_false hopens hhead)⟩
        rw [skipWord_of_eq hlong, ← hadvance]
        exact hu'
    · rw [skipWord_of_ne htype] at hu
      cases hu
      have hne := hahead.wordHere_ne isWord_typeWord (by decide) htype
      exact ⟨_, _, ht', skipWord_of_ne hne, .plain (hahead.headIs_eq_false hopens hhead)⟩
  | @list A d v hhead hA hpA hv hfrom =>
    have hr := Cursor.rest_ne_nil_of_headIs hhead
    obtain ⟨P, hP, hpP⟩ := exists_exportPrefix hk ht hu hr
    have hone := Cursor.advance_extend (x := x) (List.length_pos_iff.2 hr)
    have hhead' : headIs (· = '\x7b') (u.extend x).rest = true := by
      rw [Cursor.headIs_extend hr, hhead]
    have hopens : headIs opensExport (u.extend x).rest = true := by
      obtain ⟨k, hk⟩ := exists_cons_of_headIs hhead'
      rw [hk]
      rfl
    obtain ⟨-, t', ht', hu'⟩ := exists_skipWord hP hpP.extend hopens
    obtain ⟨v', hv', hahead⟩ := h.ahead hm hv
    have hne := hahead.wordHere_ne isWord_fromWord (by decide) hfrom
    exact ⟨_, _, ht', hu', .list hhead' hA (hone ▸ hpA.extend) hv' hne⟩
  | star => simp [record] at hf
  | reExport => simp [record] at hf

theorem requireWord {start start' : Cursor} {before : LastToken} (h : Extensible x f s)
    (hm : s.mode = .code) (hs : s.requireWord start before = .ok s) :
    (s.extend x).requireWord start' before = .ok (s.extend x) := by
  obtain ⟨t, ht, hs⟩ := bind_eq_ok.1 hs
  obtain ⟨t', ht', hahead⟩ := h.ahead hm ht
  refine bind_eq_ok.2 ⟨t', ht', ?_⟩
  have hpass : ¬ (t'.rest.head? = some '(' && !before.isWordAmong ["function"] &&
      !isDefinition t'.rest) = true := by
    split at hs
    · contradiction
    · rename_i hno
      simp only [Bool.and_eq_true, decide_eq_true_eq, Bool.not_eq_true', head?_eq_some_iff]
        at hno ⊢
      rintro ⟨⟨hhead, hfunction⟩, hbody⟩
      cases hahead with
      | within hr =>
        rw [Cursor.headIs_extend hr] at hhead
        refine hno ⟨⟨hhead, hfunction⟩, ?_⟩
        by_contra hbody'
        rw [Bool.not_eq_false, isDefinition] at hbody'
        rw [Cursor.rest_extend, isDefinition, bodyFollowsFrom_append hbody'] at hbody
        contradiction
      | ended _ hunattended =>
        rw [headIs_eq_false_of_imp (fun c hc => ?_) hunattended] at hhead
        · contradiction
        · rw [decide_eq_true_eq] at hc
          subst hc
          decide
  exact if_neg hpass

theorem wordToken (h : Extensible x f s₁) (hm : s.mode = .code) (hr : t.rest = a :: rest)
    (ha : isWordStart a = true) (hb : isBlank a = false) (hx : Apart t.rest x)
    (hs₁ : s.wordToken t = .ok s₁) (hf : s₁.found = s.found) :
    (s.extend x).wordToken (t.extend x) = .ok (s₁.extend x) := by
  obtain ⟨w, d, hw, hp, hk, hstep⟩ := exists_wordStep hr ha hb hs₁
  have hxd : Apart d.rest x := Cursor.apart_of_reaches hp.reaches hx
  have hk' : headIs continuesWord (d.extend x).rest = false :=
    (hp.rest_eq ▸ hx).headIs_continuesWord hw hk
  have again {s₁' : ScanState}
      (hstep' : WordStep ((s.moveTo d (.word w)).extend x) w (t.extend x) s.last s₁') :
      (s.extend x).wordToken (t.extend x) = .ok s₁' := wordToken_of_step hw hp.extend hk' hstep'
  cases hstep with
  | plain hplain => exact again (.plain hplain)
  | importing hno hname hu hstep =>
    subst hname
    have hxu := Cursor.apart_of_reaches (.of_skipTrivia hu) hxd
    obtain ⟨u', hu', hstep'⟩ :=
      h.importStep (s := s.moveTo d _) hm rfl hu hstep hf hxu
    exact again (.importing hno rfl hu' hstep')
  | exporting hno hname hu hv hstep =>
    obtain ⟨u', v', hu', hv', hstep'⟩ :=
      h.exportStep (s := s.moveTo d _) hm hk hu hv hstep hf
    exact again (.exporting hno hname hu' hv' hstep')
  | requiring hno hname hcall => exact again (.requiring hno hname (h.requireWord hm hcall))

theorem headIs_after_value {p : Char → Bool} (h : Extensible x f s) (hm : s.mode = .code)
    (hlast : s.last = .value) (hp : ∀ c, p c = true → (isWordPart c || c = '.') = true)
    (hend : headIs p s.cursor.rest = false) : headIs p (s.cursor.rest ++ x) = false := by
  by_cases hr : s.cursor.rest = []
  · have ht : s.cursor.skipTrivia = .ok s.cursor := Cursor.skipTrivia_self (by rw [hr]; rfl)
    obtain rfl := h.eq_of_rest hm ht hr
    rw [hr, List.nil_append]
    exact headIs_eq_false_of_imp hp (h.admits.value hr hlast)
  · rwa [headIs_append_of_ne_nil hr]

theorem slashToken (h : Extensible x f s) (hm : s.mode = .code) (ht : s.cursor.skipTrivia = .ok t)
    (hr : t.rest = '/' :: rest) :
    (s.extend x).slashToken (t.extend x) = (s.slashToken t).extend x := by
  have h₁ := h.token hm ht hr (token_of_step (.slash rfl))
  rcases s.slash_cases t.rest with ⟨n, hlast, hn⟩ | hnone
  · rw [slashToken_of_some hlast hn] at h₁ ⊢
    rw [hr] at hn
    obtain ⟨A, k, rfl, rfl, hk, hall⟩ := exists_of_regex? hn
    have hrest : (t.advance (A.length + 1)).rest = k := by simp [hr]
    have hk' : headIs isWordPart (k ++ x) = false := by
      have := h₁.headIs_after_value hm rfl (p := isWordPart) (fun c hc => by simp [hc])
      simp only [ScanState.moveTo, hrest] at this
      exact this hk
    have hn' : regex? (t.extend x).rest = some (A.length + 1) := by
      rw [Cursor.rest_extend, hr, List.cons_append, List.append_assoc]
      exact hall _ hk'
    rw [slashToken_of_some (s := s.extend x) hlast hn', Cursor.advance_extend (by simp [hr])]
    rfl
  · have hnone' (hlast : s.last.allowsRegex = true) : regex? (t.extend x).rest = none :=
      h.slashes s .refl hm hlast t rest ht hr (hnone hlast)
    rw [slashToken_of_none hnone, slashToken_of_none (s := s.extend x) hnone',
      Cursor.advance_extend (List.length_pos_iff.2 (by simp [hr]))]
    rfl

theorem number_extend (h : Extensible x f s) (hm : s.mode = .code)
    (ht : s.cursor.skipTrivia = .ok t) (hr : t.rest = a :: rest) (ha : a.isDigit = true) :
    number (t.extend x).rest = number t.rest := by
  have h₁ := h.token hm ht hr (token_of_step (.number ha))
  have hrest : (t.advance (number t.rest).length).rest =
      rest.dropWhile fun d => isWordPart d || d = '.' := by
    rw [Cursor.rest_advance, hr, number, List.length_cons, List.drop_succ_cons, drop_takeWhile]
  have hend := h₁.headIs_after_value hm rfl (p := fun c => isWordPart c || c = '.')
    (fun _ hc => hc)
  simp only [ScanState.moveTo, hrest] at hend
  rw [Cursor.rest_extend, hr, List.cons_append, number, number,
    takeWhile_append_of_dropWhile (hend headIs_dropWhile)]

theorem closeBrace_extend (hone : (t.extend x).advance 1 = (t.advance 1).extend x) :
    (s.extend x).closeBrace (t.extend x) = (s.closeBrace t).extend x := by
  obtain ⟨cursor, mode, last, heads, depth, substitutions, found⟩ := s
  cases depth with
  | succ n => simp only [ScanState.closeBrace, extend, ScanState.moveTo, hone]
  | zero =>
    cases substitutions with
    | nil =>
      simp only [ScanState.closeBrace, extend, ScanState.moveTo, hone, List.map_nil]
    | cons sub outer =>
      simp only [ScanState.closeBrace, extend, hone, List.map_cons, ScanMode.extend,
        Substitution.extend]

theorem token_extend (h : Extensible x f s) (hm : s.mode = .code)
    (ht : s.cursor.skipTrivia = .ok t) (hr : t.rest = a :: rest) (hs₁ : s.token a t = .ok s₁) :
    (s.extend x).token a (t.extend x) = .ok (s₁.extend x) := by
  have h₁ := h.token hm ht hr hs₁
  have hstart := Cursor.startsTrivia_of_skipTrivia ht
  have hx := Cursor.apart_of_reaches (.of_skipTrivia ht) h.apart
  have hone := Cursor.advance_extend (x := x) (c := t) (List.length_pos_iff.2 (by simp [hr]))
  -- a token that finds something is told by its introduction, any other one by its kind
  cases finding_of_token hr hstart hs₁ with
  | reference hgap hpoint hp hreads =>
    obtain ⟨quote, body, -, hq⟩ := hreads.exists_quotes
    have hreads' := hreads.extend (Cursor.apart_of_reaches hp.reaches hx)
    obtain ⟨b, rest', hb, -, htoken⟩ :=
      token_of_introduction (s := s.extend x) hgap hp.extend hpoint hreads'
    rw [Cursor.rest_extend, hr, List.cons_append] at hb
    cases hb
    rw [htoken, extend_record hq, extend_entering]
  | nothing hf =>
    cases tokenStep_of_token hs₁ with
    | slash hslash =>
      subst hslash
      rw [token_of_step (.slash rfl), h.slashToken hm ht hr]
    | @string l hquote hl =>
      have hs : t.startsQuote = true := by rw [Cursor.startsQuote_of_rest hr, hquote]
      obtain ⟨quote, body, hopens, rfl⟩ := Cursor.exists_of_literal hs hl
      rw [token_of_step (.string hquote hopens.extend.literal)]
      exact congrArg (fun c => Except.ok (ScanState.moveTo c .value (s.extend x)))
        hopens.quoted.closing_extend
    | template htick =>
      rw [token_of_step (.template htick), hone]
      rfl
    | openBrace hbrace =>
      rw [token_of_step (.openBrace hbrace), hone]
      rfl
    | closeBrace hbrace => rw [token_of_step (.closeBrace hbrace), closeBrace_extend hone]
    | number ha =>
      have hle : (number t.rest).length ≤ t.rest.length := by
        rw [hr, number]
        simpa using (List.takeWhile_sublist _).length_le
      rw [token_of_step (.number ha), h.number_extend hm ht hr ha, Cursor.advance_extend hle]
      rfl
    | openParenthesis hparen =>
      rw [token_of_step (.openParenthesis hparen), hone]
      rfl
    | closeParenthesis hparen =>
      rw [token_of_step (.closeParenthesis hparen)]
      simp only [ScanState.closeParenthesis, hone]
      rfl
    | word ha hw =>
      have hb := isBlank_of_startsTrivia (hr ▸ hstart)
      rw [token_of_step (.word ha (h₁.wordToken hm hr ha hb hx hw hf))]
    | mark hmark =>
      rw [token_of_step (.mark hmark), hone]
      rfl

theorem next_extend (h : Extensible x f s) (hs : Next s s₁) : Next (s.extend x) (s₁.extend x) := by
  cases hm : s.mode with
  | template opening =>
    obtain ⟨e, n, hn, rfl⟩ := hs.exists_text hm
    have hm' : (s.extend x).mode = .template (opening.extend x) := by rw [extend, hm]; rfl
    have hle : n ≤ s.cursor.rest.length := by
      obtain ⟨A, -, k, hr, -, rfl, -⟩ := exists_of_templateChunkFrom hn
      rw [hr, List.length_append]
      omega
    have htext : (s.afterText opening n e).extend x =
        (s.extend x).afterText (opening.extend x) n e := by
      have hadvance := Cursor.advance_extend (x := x) hle
      cases e with
      | closed => simp only [afterText, extend, ScanState.moveTo, hadvance, ScanMode.extend]
      | substitution =>
        simp only [afterText, extend, ScanState.moveTo, hadvance, ScanMode.extend, List.map_cons,
          Substitution.extend]
    rw [htext]
    exact next_of_text hm' (Cursor.templateChunk_extend hn)
  | code =>
    obtain ⟨t, a, rest, ht, hr, hs₁⟩ := hs.exists_token hm
    have hm' : (s.extend x).mode = .code := by rw [extend, hm]; rfl
    have hx := Cursor.apart_of_reaches (.of_skipTrivia ht) h.apart
    have ht' := Cursor.skipTrivia_extend ht (by simp [hr]) hx
    have hr' : (t.extend x).rest = a :: (rest ++ x) := by
      rw [Cursor.rest_extend, hr, List.cons_append]
    exact next_of_token hm' ht' hr' (h.token_extend hm ht hr hs₁)

theorem reaches_extend (h : Extensible x f s) :
    Relation.ReflTransGen Next (s.extend x) (f.extend x) := by
  have hends := h.ends
  induction hends using Relation.ReflTransGen.head_induction_on with
  | refl => exact .refl
  | head hs _ ih => exact .head (h.next_extend hs) (ih (h.next hs))

end Extensible

theorem initial_extend {cs : List Char} (h : Cursor.KeepsBeginning (initial cs).cursor.rest x)
    (hx : headIs (· = '!') x = false) : initial (cs ++ x) = (initial cs).extend x := by
  have hmark : Cursor.KeepsBeginning (Cursor.ofText cs).skipMark.rest x := by
    obtain ⟨A, hp, -⟩ := Cursor.skips_skipHashbang (Cursor.ofText cs).skipMark
    rw [hp.rest_eq]
    exact h.imp_left (List.append_ne_nil_of_right_ne_nil A)
  have hcs : Cursor.KeepsBeginning (Cursor.ofText cs).rest x := by
    obtain ⟨A, hp, -⟩ := Cursor.skips_skipMark (.ofText cs)
    rw [hp.rest_eq]
    exact hmark.imp_left (List.append_ne_nil_of_right_ne_nil A)
  have hcursor : ((Cursor.ofText cs).extend x).skipMark.skipHashbang =
      (initial cs).cursor.extend x := by
    rw [Cursor.skipMark_extend hcs]
    exact Cursor.skipHashbang_extend h hx
  exact congrArg (fun c => { initial cs with cursor := c }) hcursor

end ScanState

end ImportAtlas
