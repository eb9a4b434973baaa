import ImportAtlas.Proofs.Declaration.Form

namespace ImportAtlas.Declaration

open Text Lexeme Token Spaced

namespace Token

inductive Valid : Token → Prop
  | word {w : List Char} : IsWord w → Valid (word w)
  | mark {c : Char} : c ∈ ['*', '\x7b', '\x7d', ','] → Valid (mark c)
  | string {quote : Char} {body : List Char} : isQuote quote = true → StringBody quote body →
      Valid (string quote body)

variable {t n : Token} {k : List Char}

theorem IsBindingName.valid (h : IsBindingName n) : n.Valid := by
  cases h with
  | word hw => exact .word hw
  | string hq hb => exact .string hq hb

theorem IsBindingName.startsName (h : IsBindingName n) :
    (headIs isQuote n.text || headIs isWordStart n.text) = true := by
  cases h with
  | word hw => simp [Token.text, hw.start]
  | string hq => simp [Token.text, quoted, hq]

theorem IsName.isBindingName (h : IsName n) : IsBindingName n := by
  cases h with
  | word hw => exact .word hw

theorem eq_false_of_mark {p : Char → Bool} {c : Char} (h : c ∈ ['*', '\x7b', '\x7d', ','])
    (hp : ['*', '\x7b', '\x7d', ','].any p = false) : p c = false := by
  simpa using List.any_eq_false.1 hp c h

theorem isQuote_of_mark {c : Char} (h : c ∈ ['*', '\x7b', '\x7d', ',']) : isQuote c = false :=
  eq_false_of_mark h (by decide)

theorem isWordStart_of_mark {c : Char} (h : c ∈ ['*', '\x7b', '\x7d', ',']) :
    isWordStart c = false :=
  eq_false_of_mark h (by decide)

theorem startsTrivia_of_mark {c : Char} (h : c ∈ ['*', '\x7b', '\x7d', ',']) :
    startsTrivia (c :: k) = false := by
  have hblank : isBlank c = false := eq_false_of_mark h (by decide)
  have hslash : c ≠ '/' := by
    rintro rfl
    revert h
    decide
  rw [startsTrivia_cons, hblank]
  simp [hslash]

theorem Valid.clauseItem (h : t.Valid)
    (hk : ∀ w, t = .word w → headIs continuesWord k = false) : ClauseItem k t.text := by
  cases h with
  | word hw => exact .word hw (hk _ rfl)
  | mark hc => exact .mark (isQuote_of_mark hc) (isWordStart_of_mark hc) (startsTrivia_of_mark hc)
  | string hq hb => exact .string hq hb

def isString : Token → Bool
  | .string _ _ => true
  | _ => false

theorem Valid.headIs_isQuote (h : t.Valid) : headIs isQuote t.text = t.isString := by
  cases h with
  | word hw =>
    have := hw.headIs_isQuote (k := [])
    rwa [List.append_nil] at this
  | mark hc => exact isQuote_of_mark hc
  | string hq => exact hq

theorem Valid.headIs_eq_false (h : t.Valid) {p : Char → Bool}
    (hp : ∀ c, p c = true → isWordStart c = false ∧ isQuote c = false ∧
      c ∉ ['*', '\x7b', '\x7d', ',']) : headIs p t.text = false := by
  by_contra hhead
  rw [Bool.not_eq_false] at hhead
  cases h with
  | word hw =>
    obtain ⟨c, w, rfl⟩ := List.exists_cons_of_ne_nil hw.ne_nil
    have hs := hw.start
    rw [headIs_cons, (hp c hhead).1] at hs
    contradiction
  | mark hc => exact (hp _ hhead).2.2 hc
  | string hq =>
    rw [(hp _ hhead).2.1] at hq
    contradiction

theorem Valid.headIs_brace (h : t.Valid) (hne : t ≠ .mark '\x7d') :
    headIs (· = '\x7d') t.text = false := by
  cases h with
  | mark hc =>
    rw [text, headIs_cons, decide_eq_false_iff_not]
    rintro rfl
    exact hne rfl
  | word hw =>
    obtain ⟨c, w, rfl⟩ := List.exists_cons_of_ne_nil hw.ne_nil
    rw [text, headIs_cons, decide_eq_false_iff_not]
    rintro rfl
    exact absurd (headIs_cons ▸ hw.start) (by decide)
  | string hq =>
    rw [text, quoted, List.cons_append, headIs_cons, decide_eq_false_iff_not]
    rintro rfl
    contradiction

theorem eq_word_of_text (h : t.Valid) {w : List Char} (hw : IsWord w) (ht : t.text = w) :
    t = .word w := by
  cases h with
  | word => exact congrArg _ ht
  | mark hc =>
    have := hw.start
    rw [← ht, text, headIs_cons, isWordStart_of_mark hc] at this
    contradiction
  | string hq =>
    have := hw.start
    rw [← ht, text, quoted, List.cons_append, headIs_cons, isWordStart_of_isQuote hq] at this
    contradiction

inductive Calm : Token → Prop
  | asToken : Calm asToken
  | fromToken : Calm fromToken
  | comma : Calm (.mark ',')
  | brace : Calm (.mark '\x7d')

end Token

def Chain : List Token → Prop
  | [] => True
  | t :: ts => t.Valid ∧
      (t = importToken ∨ t = exportToken ∨ t = fromToken → ∀ u ∈ ts.head?, Calm u) ∧ Chain ts

namespace Chain

variable {t n : Token} {ts b bs : List Token}

theorem name (hn : IsBindingName n) (hc : ∀ u ∈ ts.head?, Calm u) (h : Chain ts) :
    Chain (n :: ts) :=
  ⟨hn.valid, fun _ => hc, h⟩

theorem mark {c : Char} (hc : c ∈ ['*', '\x7b', '\x7d', ',']) (h : Chain ts) :
    Chain (.mark c :: ts) :=
  ⟨.mark hc, fun hkeyword => (by rcases hkeyword with h | h | h <;> cases h), h⟩

theorem asToken (h : Chain ts) : Chain (asToken :: ts) := by
  refine ⟨.word isWord_asWord, fun hkeyword => ?_, h⟩
  exact absurd hkeyword (by decide)

theorem fromToken : Chain [fromToken] :=
  ⟨.word isWord_fromWord, by simp, .intro⟩

theorem binding (hb : IsBinding b) (hc : ∀ u ∈ ts.head?, Calm u) (h : Chain ts) :
    Chain (b ++ ts) := by
  cases hb with
  | plain hn => exact .name hn hc h
  | renamed hn hm =>
    refine .name hn ?_ (.asToken (.name hm hc h))
    rintro u ⟨⟩
    exact .asToken

theorem bindingList (hb : IsBindingList bs) (hc : ∀ u ∈ ts.head?, Calm u) (h : Chain ts) :
    Chain (bs ++ ts) := by
  induction hb with
  | nil => exact h
  | single hb => exact .binding hb hc h
  | cons hb _ ih =>
    rw [List.append_assoc]
    refine .binding hb ?_ (.mark (by decide) ih)
    rintro u ⟨⟩
    exact .comma

theorem valid_of_bindingList (hb : IsBindingList bs) :
    ∀ t ∈ bs, t.Valid ∧ t ≠ Token.mark '\x7d' := by
  have name {n : Token} (hn : IsBindingName n) : n.Valid ∧ n ≠ Token.mark '\x7d' :=
    ⟨hn.valid, by rintro rfl; cases hn⟩
  have binding {b : List Token} (hb : IsBinding b) :
      ∀ t ∈ b, t.Valid ∧ t ≠ Token.mark '\x7d' := by
    cases hb with
    | plain hn => simpa using name hn
    | renamed hn hm =>
      simp only [List.mem_cons, List.not_mem_nil, or_false, forall_eq_or_imp, forall_eq]
      exact ⟨name hn, ⟨.word isWord_asWord, by decide⟩, name hm⟩
  induction hb with
  | nil => simp
  | single hb => exact binding hb
  | cons hb _ ih =>
    intro t ht
    rcases List.mem_append.1 ht with ht | ht
    · exact binding hb t ht
    · rcases List.mem_cons.1 ht with rfl | ht
      · exact ⟨.mark (by decide), by decide⟩
      · exact ih t ht

theorem named (h : IsNamed ts) : Chain (ts ++ [Token.fromToken]) := by
  cases h with
  | star hn =>
    refine .mark (by decide) (.asToken (.name hn.isBindingName ?_ .fromToken))
    rintro u ⟨⟩
    exact .fromToken
  | bindings hb =>
    rw [List.cons_append, List.append_assoc]
    refine .mark (by decide) (.bindingList hb ?_ (.mark (by decide) .fromToken))
    rintro u ⟨⟩
    exact .brace

theorem clause (h : IsImportClause ts) : Chain (ts ++ [Token.fromToken]) := by
  cases h with
  | default hn =>
    refine .name hn.isBindingName ?_ .fromToken
    rintro u ⟨⟩
    exact .fromToken
  | named h => exact .named h
  | both hn h =>
    refine .name hn.isBindingName ?_ (.mark (by decide) (.named h))
    rintro u ⟨⟩
    exact .comma

end Chain

namespace Spaced

variable {s : Spaced} {ss rest : List Spaced} {U : List Char}

theorem texts_cons : texts (s :: ss) = s.trivia ++ s.token.text ++ texts ss := by
  simp [texts, text]

theorem texts_ne_nil (h : ∀ t ∈ ss.map token, t.Valid) (hss : ss ≠ []) : texts ss ≠ [] := by
  cases ss with
  | nil => contradiction
  | cons s ss =>
    have hs := (h s.token (by simp)).clauseItem (k := []) (by simp)
    rw [texts_cons]
    simp [hs.ne_nil]

theorem valid_of_chain {ts : List Token} (h : Chain ts) : ∀ t ∈ ts, t.Valid := by
  induction ts with
  | nil => simp
  | cons t ts ih =>
    intro u hu
    rcases List.mem_cons.1 hu with rfl | hu
    · exact h.1
    · exact ih h.2.2 u hu

theorem clause_of_chain (hs : WellSpaced ss) (hc : Chain (ss.map token))
    (hlast : (ss.map token).getLast? = some fromToken) (hU : Trivia U) {b : Bool}
    (hb : b = true → ∀ t ∈ (ss.map token).head?, t.isString = false) :
    Clause b (texts ss ++ U) := by
  induction ss generalizing b with
  | nil => contradiction
  | cons s ss ih =>
    obtain ⟨hT, hjoin, hss⟩ := hs
    obtain ⟨hv, hcalm, hcs⟩ := hc
    rw [texts_cons]
    cases hnil : ss with
    | nil =>
      rw [hnil, List.map_cons, List.map_nil, List.getLast?_singleton, Option.some.injEq] at hlast
      rw [hlast, texts, List.flatMap_nil, List.append_nil]
      exact .close hT hU
    | cons s' ss' =>
      rw [← hnil]
      have hne : ss ≠ [] := by simp [hnil]
      have htexts := texts_ne_nil (valid_of_chain hcs) hne
      have hI : ClauseItem (texts ss ++ U) s.token.text :=
        (hv.clauseItem hjoin).congr (head?_append_of_ne_nil htexts)
      have hlast' : (ss.map token).getLast? = some fromToken := by
        rw [hnil] at hlast ⊢
        simpa using hlast
      rw [List.append_assoc]
      refine .item hT hI ?_ ?_ (ih hss hcs hlast' ?_)
      · refine hv.headIs_eq_false fun c h => ?_
        rw [Bool.or_eq_true, decide_eq_true_eq, decide_eq_true_eq] at h
        rcases h with rfl | rfl <;> decide
      · intro hb'
        rw [hv.headIs_isQuote]
        exact hb hb' s.token rfl
      · intro hfrom u hu
        have heq := eq_word_of_text hv isWord_fromWord (of_decide_eq_true hfrom)
        cases hcalm (.inr (.inr heq)) u hu <;> rfl

theorem exists_exportList {bs tail : List Token} (hbs : ∀ t ∈ bs, t.Valid ∧ t ≠ mark '\x7d')
    (hs : WellSpaced ss) (hss : ss.map token = bs ++ mark '\x7d' :: tail) :
    ∃ A rest, texts ss = A ++ texts rest ∧ ExportList A ∧ WellSpaced rest ∧
      rest.map token = tail := by
  induction bs generalizing ss with
  | nil =>
    obtain ⟨s, rest, rfl, hs', hrest⟩ := List.map_eq_cons_iff.1 hss
    refine ⟨s.trivia ++ ['\x7d'], rest, ?_, .close hs.1, hs.2.2, hrest⟩
    rw [texts_cons, hs']
    rfl
  | cons t bs ih =>
    obtain ⟨s, ss, rfl, hs', hrest⟩ := List.map_eq_cons_iff.1 hss
    obtain ⟨hv, hne⟩ := hbs t List.mem_cons_self
    obtain ⟨hT, hjoin, hss⟩ := hs
    obtain ⟨A, rest, htexts, hA, hspaced, htail⟩ :=
      ih (fun u hu => hbs u (List.mem_cons_of_mem t hu)) hss hrest
    subst hs'
    have hI : ClauseItem A s.token.text := by
      refine (hv.clauseItem hjoin).congr ?_
      rw [htexts]
      exact (head?_append_of_ne_nil hA.ne_nil).symm
    refine ⟨s.trivia ++ s.token.text ++ A, rest, ?_, .item hT hI ?_ hA, hspaced, htail⟩
    · rw [texts_cons, htexts, List.append_assoc]
      simp
    · exact hv.headIs_brace hne

theorem fromClause_of_tokens (hs : WellSpaced ss) (hss : ss.map token = [fromToken])
    (hU : Trivia U) : FromClause (texts ss ++ U) := by
  obtain ⟨s, rest, rfl, hs', hrest⟩ := List.map_eq_cons_iff.1 hss
  obtain rfl := List.map_eq_nil_iff.1 hrest
  have htext : texts [s] ++ U = s.trivia ++ fromWord ++ U := by
    rw [texts_cons, hs']
    simp [texts, fromToken, Token.text]
  rw [htext]
  exact .mk hs.1 hU

theorem starClause_of_tokens (hs : WellSpaced ss)
    (hss : ss.map token = [fromToken] ∨
      ∃ n, IsBindingName n ∧ ss.map token = [asToken, n, fromToken]) (hU : Trivia U) :
    StarClause (texts ss ++ U) := by
  rcases hss with hss | ⟨n, hn, hss⟩
  · exact .plain (fromClause_of_tokens hs hss hU)
  · obtain ⟨s₁, ss₁, rfl, hs₁, hss⟩ := List.map_eq_cons_iff.1 hss
    obtain ⟨s₂, ss₂, rfl, rfl, hfrom⟩ := List.map_eq_cons_iff.1 hss
    obtain ⟨hT₁, hjoin₁, hT₂, hjoin₂, hs⟩ := hs
    have hne : texts ss₂ ≠ [] := by
      refine texts_ne_nil ?_ (by rintro rfl; cases hfrom)
      rw [hfrom]
      intro t ht
      obtain rfl := List.mem_singleton.1 ht
      exact .word isWord_fromWord
    have hN : ClauseItem (texts ss₂ ++ U) s₂.token.text :=
      (hn.valid.clauseItem hjoin₂).congr (head?_append_of_ne_nil hne)
    have hjoin : headIs continuesWord (s₂.trivia ++ s₂.token.text) = false := by
      have h := hjoin₁ asWord hs₁
      rwa [texts_cons, headIs_append_of_ne_nil (by simp [hN.ne_nil])] at h
    have htext : texts (s₁ :: s₂ :: ss₂) ++ U =
        s₁.trivia ++ asWord ++ s₂.trivia ++ s₂.token.text ++ (texts ss₂ ++ U) := by
      rw [texts_cons, texts_cons, hs₁]
      simp [asToken, Token.text]
    rw [htext]
    exact .named hT₁ hT₂ hjoin hN hn.startsName (fromClause_of_tokens hs hfrom hU)

end Spaced

end ImportAtlas.Declaration
