import ImportAtlas.Proofs.Reference.Item

namespace ImportAtlas

open Text Lexeme Outcome

def fromWord : List Char := "from".toList

theorem isWord_fromWord : IsWord fromWord := .of_all (by decide) (by decide)

/-- What precedes the literal of an `import` declaration.  An item `from` that
a literal follows would be the end; `afterFrom` says that the item before is
one. -/
inductive Clause : Bool → List Char → Prop
  | close {afterFrom : Bool} {T U : List Char} : Trivia T → Trivia U →
      Clause afterFrom (T ++ fromWord ++ U)
  | item {afterFrom : Bool} {T I A : List Char} : Trivia T → ClauseItem A I →
      headIs (fun c => c = ';' || c = '=') I = false →
      (afterFrom = true → headIs isQuote I = false) →
      Clause (I = fromWord) A → Clause afterFrom (T ++ I ++ A)

inductive ExportList : List Char → Prop
  | close {T : List Char} : Trivia T → ExportList (T ++ ['\x7d'])
  | item {T I A : List Char} : Trivia T → ClauseItem A I → headIs (· = '\x7d') I = false →
      ExportList A → ExportList (T ++ I ++ A)

inductive FromClause : List Char → Prop
  | mk {T U : List Char} : Trivia T → Trivia U → FromClause (T ++ fromWord ++ U)

def asWord : List Char := "as".toList

theorem isWord_asWord : IsWord asWord := .of_all (by decide) (by decide)

inductive StarClause : List Char → Prop
  | plain {A : List Char} : FromClause A → StarClause A
  | named {T V N A : List Char} : Trivia T → Trivia V → headIs continuesWord (V ++ N) = false →
      ClauseItem A N → (headIs isQuote N || headIs isWordStart N) = true → FromClause A →
      StarClause (T ++ asWord ++ V ++ N ++ A)

variable {A B I k : List Char} {start c : Cursor} {l : Literal}

theorem Clause.ne_nil {b : Bool} (h : Clause b A) : A ≠ [] := by
  cases h with
  | close => simp [fromWord]
  | item _ hI => simp [hI.ne_nil]

theorem FromClause.ne_nil (h : FromClause A) : A ≠ [] := by
  cases h
  simp [fromWord]

theorem FromClause.prepend (hA : Trivia A) (h : FromClause B) : FromClause (A ++ B) := by
  obtain ⟨hT, hU⟩ := h
  rw [← List.append_assoc, ← List.append_assoc]
  exact .mk (hA.append hT) hU

theorem ExportList.ne_nil (h : ExportList A) : A ≠ [] := by
  cases h with
  | close => simp
  | item _ hI => simp [hI.ne_nil]

theorem head?_append_of_ne_nil (h : A ≠ []) : A.head? = (A ++ k).head? := by
  cases A with
  | nil => contradiction
  | cons => rfl

namespace Text.Cursor

theorem importClause_eq (start c : Cursor) : importClause start c = (do
    let t ← c.skipTrivia
    match t.rest with
    | [] => start.fail .importWithoutFrom
    | x :: _ =>
      if x = ';' || x = '=' then start.fail .importWithoutFrom
      else
        let n ← t.clauseItem
        if t.wordHere = fromWord then
          let u ← (t.advance n).skipTrivia
          if u.startsQuote then u.literal else importClause start (t.advance n)
        else importClause start (t.advance n)) := by
  rw [importClause]
  split
  · rename_i h
    rw [h]
    rfl
  · rename_i t ht
    rw [ht]
    change _ = match t.rest with
      | [] => start.fail .importWithoutFrom
      | x :: _ => _
    split
    · rename_i hr
      rw [hr]
    · rename_i hr
      rw [hr]
      dsimp only
      split
      · rfl
      · split
        · rename_i hn
          rw [hn]
          rfl
        · rename_i hn
          rw [hn]
          change _ = if t.wordHere = fromWord then _ else _
          split
          · rename_i hw
            rw [if_pos (show t.wordHere = fromWord from hw)]
            split
            · rename_i hu
              rw [hu]
              rfl
            · rename_i hu
              rw [hu]
              rfl
          · rename_i hw
            rw [if_neg (show t.wordHere ≠ fromWord from hw)]

theorem exportClauseEnd_eq (start c : Cursor) : exportClauseEnd start c = (do
    let t ← c.skipTrivia
    match t.rest with
    | [] => start.fail .unterminatedExportClause
    | x :: _ =>
      if x = '\x7d' then .ok (t.advance 1)
      else do
        let n ← t.clauseItem
        exportClauseEnd start (t.advance n)) := by
  rw [exportClauseEnd]
  split
  · rename_i h
    rw [h]
    rfl
  · rename_i t ht
    rw [ht]
    change _ = match t.rest with
      | [] => start.fail .unterminatedExportClause
      | x :: _ => _
    split
    · rename_i hr
      rw [hr]
    · rename_i hr
      rw [hr]
      dsimp only
      split
      · rfl
      · split
        · rename_i hn
          rw [hn]
          rfl
        · rename_i hn
          rw [hn]
          rfl

variable {d : Cursor}

theorem skipTrivia_of_trivia (h : c.Passes A d) (hA : Trivia A)
    (hd : startsTrivia d.rest = false) : c.skipTrivia = .ok d :=
  skipTrivia_of_passes h (.closed hA hd)

theorem startsTrivia_of_startsQuote (h : d.startsQuote = true) : startsTrivia d.rest = false := by
  rw [startsQuote_eq] at h
  cases hr : d.rest with
  | nil => rfl
  | cons x rest =>
    rw [hr] at h
    exact startsTrivia_of_isQuote h

theorem continuesWord_of_startsQuote (h : d.startsQuote = true) :
    headIs continuesWord d.rest = false := by
  rw [startsQuote_eq] at h
  cases hr : d.rest with
  | nil => rfl
  | cons x rest =>
    rw [hr] at h
    exact continuesWord_of_isQuote h

variable {t v : Cursor}

theorem skipTrivia_of_item (h : c.Passes A t) (hA : Trivia A) (hv : t.Passes I v)
    (hI : ClauseItem v.rest I) : c.skipTrivia = .ok t :=
  skipTrivia_of_trivia h hA (by rw [hv.rest_eq, hI.startsTrivia])

theorem importClause_item (ht : c.skipTrivia = .ok t) (hv : t.Passes I v)
    (hI : ClauseItem v.rest I) (hend : headIs (fun c => c = ';' || c = '=') I = false) :
    importClause start c = if I = fromWord then (do
        let u ← v.skipTrivia
        if u.startsQuote then u.literal else importClause start v)
      else importClause start v := by
  obtain ⟨x, I', rfl⟩ := List.exists_cons_of_ne_nil hI.ne_nil
  rw [headIs_cons] at hend
  rw [importClause_eq, ht, ok_bind, hv.rest_eq, List.cons_append]
  dsimp only
  rw [if_neg (by simpa using hend), hI.clauseItem_eq hv.rest_eq]
  change (if _ then _ else _) = _
  rw [← hv.eq_advance]
  simp only [hI.wordHere_eq_iff hv.rest_eq isWord_fromWord]

theorem clauseItem_fromWord {U : List Char} (hU : Trivia U) (hp : v.Passes U d)
    (hd : d.startsQuote = true) : ClauseItem v.rest fromWord := by
  refine .word isWord_fromWord ?_
  rw [hp.rest_eq, hU.headIs_continuesWord (continuesWord_of_startsQuote hd)]

theorem clauseItem_of_passes (hI : ClauseItem A I) (hA : A ≠ []) (hp : v.Passes A d) :
    ClauseItem v.rest I :=
  hI.congr (hp.rest_eq ▸ head?_append_of_ne_nil hA)

theorem exists_item_of_clause {b : Bool} (h : Clause b A) (hp : c.Passes A d)
    (hd : d.startsQuote = true) : ∃ t I v, c.skipTrivia = .ok t ∧ t.Passes I v ∧
      ClauseItem v.rest I ∧ (b = true → headIs isQuote I = false) := by
  cases h with
  | close hT hU =>
    obtain ⟨v, hv, hp⟩ := hp.split
    obtain ⟨t, ht, hv⟩ := hv.split
    have hI := clauseItem_fromWord hU hp hd
    exact ⟨t, _, v, skipTrivia_of_item ht hT hv hI, hv, hI, fun _ => by decide⟩
  | item hT hI _ hs hA =>
    obtain ⟨v, hv, hp⟩ := hp.split
    obtain ⟨t, ht, hv⟩ := hv.split
    have hI := clauseItem_of_passes hI hA.ne_nil hp
    exact ⟨t, _, v, skipTrivia_of_item ht hT hv hI, hv, hI, hs⟩

theorem importClause_of_clause {b : Bool} (h : Clause b A) (hp : c.Passes A d)
    (hd : d.startsQuote = true) : importClause start c = d.literal := by
  induction h generalizing c with
  | close hT hU =>
    obtain ⟨v, hv, hp⟩ := hp.split
    obtain ⟨t, ht, hv⟩ := hv.split
    have hI := clauseItem_fromWord hU hp hd
    rw [importClause_item (skipTrivia_of_item ht hT hv hI) hv hI (by decide), if_pos rfl,
      skipTrivia_of_trivia hp hU (startsTrivia_of_startsQuote hd)]
    exact if_pos hd
  | item hT hI hend _ hA ih =>
    obtain ⟨v, hv, hp⟩ := hp.split
    obtain ⟨t, ht, hv⟩ := hv.split
    have hI := clauseItem_of_passes hI hA.ne_nil hp
    rw [importClause_item (skipTrivia_of_item ht hT hv hI) hv hI hend]
    split
    · rename_i hfrom
      obtain ⟨u, I', w, hu, hw, hI', hs⟩ := exists_item_of_clause hA hp hd
      have hq : u.startsQuote = false := by
        rw [startsQuote_eq, hw.rest_eq, headIs_append_of_ne_nil hI'.ne_nil,
          hs (decide_eq_true hfrom)]
      rw [hu]
      exact (if_neg (by simp [hq])).trans (ih hp)
    · exact ih hp

def Finds (c : Cursor) (l : Literal) : Prop := c.startsQuote = true ∧ c.literal = .ok l

theorem exists_trivia (h : c.skipTrivia = .ok t) (hr : t.rest ≠ []) :
    ∃ T, Trivia T ∧ c.Passes T t ∧ startsTrivia t.rest = false := by
  obtain ⟨T, hp, hT⟩ := skipTrivia_eq_ok.1 h
  cases hT with
  | closed hT hs => exact ⟨T, hT, hp, hs⟩
  | ended hnil => contradiction

theorem exists_item {x : Char} {rest : List Char} {n : Nat} (ht : c.skipTrivia = .ok t)
    (hr : t.rest = x :: rest) (hn : t.clauseItem = .ok n) :
    ∃ T I, Trivia T ∧ c.Passes T t ∧ t.Passes I (t.advance n) ∧
      ClauseItem (t.advance n).rest I ∧ ∀ p, headIs p I = p x := by
  obtain ⟨T, hT, hp, hs⟩ := exists_trivia ht (by simp [hr])
  obtain ⟨I, k, hI, hitem, rfl⟩ := ClauseItem.of_clauseItem hr hs hn
  have hv := Passes.of_rest hI
  have hk : (t.advance I.length).rest = k := by simp [hI]
  refine ⟨T, I, hT, hp, hv, by rwa [hk], fun p => ?_⟩
  rw [← headIs_append_of_ne_nil hitem.ne_nil, ← hI, hr, headIs_cons]

theorem exists_clause {b : Bool} (h : importClause start c = .ok l)
    (hb : b = true → ∀ u, c.skipTrivia = .ok u → u.startsQuote = false) :
    ∃ A d, Clause b A ∧ c.Passes A d ∧ d.Finds l := by
  fun_induction importClause start c generalizing b with
  | case1 => contradiction
  | case2 => contradiction
  | case3 => contradiction
  | case4 => contradiction
  | case5 => contradiction
  | case6 c t ht x rest hr _ n hn hw u hu hs =>
    obtain ⟨T, I, hT, hp, hv, hI, hx⟩ := exists_item ht hr hn
    obtain rfl : I = fromWord := (hI.wordHere_eq_iff hv.rest_eq isWord_fromWord).1 hw
    obtain ⟨U, hU, hp', -⟩ := exists_trivia hu (by
      rintro hnil
      rw [startsQuote_eq, hnil] at hs
      contradiction)
    exact ⟨_, u, .close hT hU, (hp.trans hv).trans hp', hs, h⟩
  | case7 c t ht x rest hr hend n hn hw u hu hs ih =>
    obtain ⟨T, I, hT, hp, hv, hI, hx⟩ := exists_item ht hr hn
    have hfrom : I = fromWord := (hI.wordHere_eq_iff hv.rest_eq isWord_fromWord).1 hw
    obtain ⟨A, d, hA, hpA, hd⟩ := ih h (b := true) fun _ u' hu' => by
      rw [hu] at hu'
      cases hu'
      simpa using hs
    refine ⟨_, d, .item hT (hI.congr ?_) ?_ ?_ (by rwa [decide_eq_true hfrom]),
      (hp.trans hv).trans hpA, hd⟩
    · exact hpA.rest_eq ▸ (head?_append_of_ne_nil hA.ne_nil).symm
    · rw [hx]
      simpa using hend
    · intro h
      rw [hx, ← startsQuote_of_rest hr]
      exact hb h t ht
  | case8 c t ht x rest hr hend n hn hw ih =>
    obtain ⟨T, I, hT, hp, hv, hI, hx⟩ := exists_item ht hr hn
    have hfrom : I ≠ fromWord := fun h => hw ((hI.wordHere_eq_iff hv.rest_eq isWord_fromWord).2 h)
    obtain ⟨A, d, hA, hpA, hd⟩ := ih h (b := false) (absurd · (by decide))
    refine ⟨_, d, .item hT (hI.congr ?_) ?_ ?_ (by rwa [decide_eq_false hfrom]),
      (hp.trans hv).trans hpA, hd⟩
    · exact hpA.rest_eq ▸ (head?_append_of_ne_nil hA.ne_nil).symm
    · rw [hx]
      simpa using hend
    · intro h
      rw [hx, ← startsQuote_of_rest hr]
      exact hb h t ht

theorem exportClauseEnd_of_list (h : ExportList A) (hp : c.Passes A d) :
    exportClauseEnd start c = .ok d := by
  induction h generalizing c with
  | close hT =>
    obtain ⟨t, ht, hp⟩ := hp.split
    have hr : t.rest = '\x7d' :: d.rest := hp.rest_eq
    rw [exportClauseEnd_eq, skipTrivia_of_trivia ht hT (by rw [hr]; rfl), ok_bind, hr]
    exact congrArg _ hp.eq_advance.symm
  | item hT hI hend hA ih =>
    obtain ⟨v, hv, hpA⟩ := hp.split
    obtain ⟨t, ht, hv⟩ := hv.split
    have hI := clauseItem_of_passes hI hA.ne_nil hpA
    obtain ⟨x, I', rfl⟩ := List.exists_cons_of_ne_nil hI.ne_nil
    rw [headIs_cons] at hend
    rw [exportClauseEnd_eq, skipTrivia_of_item ht hT hv hI, ok_bind, hv.rest_eq, List.cons_append]
    dsimp only
    rw [if_neg (by simpa using hend), hI.clauseItem_eq hv.rest_eq]
    change exportClauseEnd start (t.advance _) = _
    rw [← hv.eq_advance]
    exact ih hpA

theorem exists_exportList (h : exportClauseEnd start c = .ok d) :
    ∃ A, ExportList A ∧ c.Passes A d := by
  fun_induction exportClauseEnd start c with
  | case1 => contradiction
  | case2 => contradiction
  | case3 c t ht rest hr =>
    cases h
    obtain ⟨T, hT, hp, -⟩ := exists_trivia ht (by simp [hr])
    exact ⟨_, .close hT, hp.trans (.of_rest (k := rest) hr)⟩
  | case4 => contradiction
  | case5 c t ht x rest hr hend n hn ih =>
    obtain ⟨T, I, hT, hp, hv, hI, hx⟩ := exists_item ht hr hn
    obtain ⟨A, hA, hpA⟩ := ih h
    refine ⟨_, .item hT (hI.congr ?_) ?_ hA, (hp.trans hv).trans hpA⟩
    · exact hpA.rest_eq ▸ (head?_append_of_ne_nil hA.ne_nil).symm
    · rw [hx]
      simpa using hend

theorem exists_from_of_fromClause (h : FromClause A) (hp : c.Passes A d)
    (hd : d.startsQuote = true) : ∃ t, c.skipTrivia = .ok t ∧ t.wordHere = fromWord := by
  obtain ⟨hT, hU⟩ := h
  obtain ⟨v, hv, hp⟩ := hp.split
  obtain ⟨t, ht, hv⟩ := hv.split
  have hI := clauseItem_fromWord hU hp hd
  exact ⟨t, skipTrivia_of_item ht hT hv hI, (hI.wordHere_eq_iff hv.rest_eq isWord_fromWord).2 rfl⟩

theorem fromClause_of_passes (h : FromClause A) (hp : c.Passes A d) (hd : d.startsQuote = true) :
    fromClause start c = d.literal := by
  obtain ⟨hT, hU⟩ := h
  obtain ⟨v, hv, hp⟩ := hp.split
  obtain ⟨t, ht, hv⟩ := hv.split
  have hI := clauseItem_fromWord hU hp hd
  have hw : t.wordHere = fromWord := (hI.wordHere_eq_iff hv.rest_eq isWord_fromWord).2 rfl
  rw [fromClause, skipTrivia_of_item ht hT hv hI]
  change (if t.wordHere = fromWord then _ else _) = _
  rw [if_pos hw, hw, ← hv.eq_advance, skipTrivia_of_trivia hp hU (startsTrivia_of_startsQuote hd)]
  exact if_pos hd

theorem exists_fromClause (h : fromClause start c = .ok l) :
    ∃ A d, FromClause A ∧ c.Passes A d ∧ d.Finds l := by
  obtain ⟨t, ht, h⟩ := bind_eq_ok.1 h
  split at h
  · rename_i hw
    obtain ⟨u, hu, h⟩ := bind_eq_ok.1 h
    split at h
    · rename_i hs
      obtain ⟨k, hr, hk⟩ := (wordHere_eq_iff isWord_fromWord).1 hw
      obtain ⟨T, hT, hp, -⟩ := exists_trivia ht (by simp [hr, fromWord])
      obtain ⟨U, hU, hp', -⟩ := exists_trivia hu (by
        rintro hnil
        rw [startsQuote_eq, hnil] at hs
        contradiction)
      have hv : t.Passes fromWord (t.advance t.wordHere.length) := hw ▸ .of_rest hr
      exact ⟨_, u, ⟨hT, hU⟩, (hp.trans hv).trans hp', hs, h⟩
    · contradiction
  · contradiction

def starClause (start c : Cursor) : Except ScanFailure Literal := do
  fromClause start (← exportName start (← c.skipTrivia))

theorem exportName_of_ne (h : t.wordHere ≠ asWord) : exportName start t = .ok t :=
  if_neg h

def nameEnd (start c : Cursor) : Except ScanFailure Cursor :=
  if c.startsQuote then Literal.closing <$> c.literal
  else if c.wordHere = [] then start.fail .exportNameExpected
  else .ok (c.advance c.wordHere.length)

theorem exportName_of_as (h : t.wordHere = asWord) :
    exportName start t = (t.advance asWord.length).skipTrivia >>= nameEnd start := by
  have hite : exportName start t = if t.wordHere = asWord then
      (t.advance asWord.length).skipTrivia >>= nameEnd start else .ok t := by
    unfold exportName nameEnd
    congr 1
  rw [hite, if_pos h]

theorem nameEnd_of_item {N : List Char} {w : Cursor} (hN : ClauseItem w.rest N)
    (hp : v.Passes N w) (hs : (headIs isQuote N || headIs isWordStart N) = true) :
    nameEnd start v = .ok w := by
  cases hN with
  | word hN hk =>
    have hq : v.startsQuote = false := by rw [startsQuote_eq, hp.rest_eq, hN.headIs_isQuote]
    have hw : v.wordHere = N := (wordHere_eq_iff hN).2 ⟨_, hp.rest_eq, hk⟩
    rw [nameEnd, hq, hw, if_neg (by simp), if_neg hN.ne_nil, hp.eq_advance]
  | string hq hb =>
    have hopens : v.Opens _ _ := ⟨hq, hb, _, hp.rest_eq⟩
    rw [nameEnd, if_pos hopens.startsQuote, hopens.literal, hp.eq_advance, length_quoted]
    rfl
  | mark hq hw => simp [hq, hw] at hs

theorem exists_name {w : Cursor} (h : nameEnd start v = .ok w)
    (hv : startsTrivia v.rest = false) : ∃ N, ClauseItem w.rest N ∧ v.Passes N w ∧
      (headIs isQuote N || headIs isWordStart N) = true := by
  unfold nameEnd at h
  split at h
  · rename_i hs
    obtain ⟨m, hm, rfl⟩ := functor_map_eq_ok.1 h
    obtain ⟨quote, body, hopens, rfl⟩ := exists_of_literal hs hm
    refine ⟨_, .string hopens.quotes hopens.string, hopens.quoted.passes, ?_⟩
    rw [quoted, List.cons_append, headIs_cons, hopens.quotes, Bool.true_or]
  · split at h
    · contradiction
    · rename_i hne
      cases h
      have hs : headIs isWordStart v.rest = true := by
        by_contra hs
        exact hne (wordHere_eq_nil (by simpa using hs))
      obtain ⟨hw, k, hr, hk⟩ := exists_wordHere hs hv
      have hp := Passes.of_rest hr
      have hk' : (v.advance v.wordHere.length).rest = k := by rw [rest_advance, hr, List.drop_left]
      refine ⟨_, .word hw (by rwa [hk']), hp, ?_⟩
      rw [hw.start, Bool.or_true]

theorem starClause_of_clause (h : StarClause A) (hp : c.Passes A d) (hd : d.startsQuote = true) :
    starClause start c = d.literal := by
  cases h with
  | plain h =>
    obtain ⟨hT, hU⟩ := h
    obtain ⟨v, hv, hp⟩ := hp.split
    obtain ⟨t, ht, hv⟩ := hv.split
    have hI := clauseItem_fromWord hU hp hd
    have has : t.wordHere ≠ asWord := by
      rw [Ne, hI.wordHere_eq_iff hv.rest_eq isWord_asWord]
      decide
    rw [starClause, skipTrivia_of_item ht hT hv hI]
    change (exportName start t >>= fromClause start) = _
    rw [exportName_of_ne has]
    exact fromClause_of_passes (.mk .nil hU) (hv.trans hp) hd
  | @named T V N A hT hV hb hN hs hA =>
    obtain ⟨w, hw, hpA⟩ := hp.split
    obtain ⟨v, hv, hw⟩ := hw.split
    obtain ⟨u, hu, hv⟩ := hv.split
    obtain ⟨t, ht, hu⟩ := hu.split
    have hN := clauseItem_of_passes hN hA.ne_nil hpA
    have hb : headIs continuesWord u.rest = false := by
      have hVN : V ++ N ≠ [] := by simp [hN.ne_nil]
      rw [(hv.trans hw).rest_eq, headIs_append_of_ne_nil hVN, hb]
    have hI : ClauseItem u.rest asWord := .word isWord_asWord hb
    have has : t.wordHere = asWord := (hI.wordHere_eq_iff hu.rest_eq isWord_asWord).2 rfl
    have hname : exportName start t = .ok w := by
      rw [exportName_of_as has, ← hu.eq_advance, skipTrivia_of_item hv hV hw hN]
      exact nameEnd_of_item hN hw hs
    rw [starClause, skipTrivia_of_item ht hT hu hI]
    change (exportName start t >>= fromClause start) = _
    rw [hname]
    exact fromClause_of_passes hA hpA hd

theorem exists_starClause (h : starClause start c = .ok l) :
    ∃ A d, StarClause A ∧ c.Passes A d ∧ d.Finds l := by
  obtain ⟨u, hu, h⟩ := bind_eq_ok.1 h
  obtain ⟨w, hw, h⟩ := bind_eq_ok.1 h
  obtain ⟨A, d, hA, hpA, hd⟩ := exists_fromClause h
  by_cases has : u.wordHere = asWord
  · rw [exportName_of_as has] at hw
    obtain ⟨v, hv, hw⟩ := bind_eq_ok.1 hw
    obtain ⟨k, hr, hk⟩ := (wordHere_eq_iff isWord_asWord).1 has
    obtain ⟨T, hT, hp, -⟩ := exists_trivia hu (by simp [hr, asWord])
    have hpas := Passes.of_rest hr
    obtain ⟨N, hN, hpN, hs⟩ := exists_name hw (startsTrivia_of_skipTrivia hv)
    obtain ⟨V, hV, hpV, -⟩ := exists_trivia hv (by simp [hpN.rest_eq, hN.ne_nil])
    refine ⟨_, d, .named hT hV ?_ (hN.congr ?_) hs hA,
      (((hp.trans hpas).trans hpV).trans hpN).trans hpA, hd⟩
    · have hVN : V ++ N ≠ [] := by simp [hN.ne_nil]
      have hk' : (u.advance asWord.length).rest = k := by rw [rest_advance, hr, List.drop_left]
      rw [← headIs_append_of_ne_nil hVN, ← (hpV.trans hpN).rest_eq, hk', hk]
    · exact hpA.rest_eq ▸ (head?_append_of_ne_nil hA.ne_nil).symm
  · rw [exportName_of_ne has] at hw
    cases hw
    obtain ⟨T, hT, hp, -⟩ := exists_trivia hu (by simp [hpA.rest_eq, hA.ne_nil])
    exact ⟨_, d, .plain (hA.prepend hT), hp.trans hpA, hd⟩

end Text.Cursor

end ImportAtlas
