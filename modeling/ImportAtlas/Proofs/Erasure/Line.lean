import ImportAtlas.Proofs.Erasure.Basic
import ImportAtlas.Proofs.Reference.Introduction

namespace ImportAtlas.Erasure

open Text Lexeme ScanState

structure LineLiteral where
  quote : Char
  quotes : isQuote quote = true
  body : List Char
  string : StringBody quote body
  inLine : ∀ c ∈ body, c ≠ quote ∧ c ≠ '\r' ∧ c ≠ '\n'

def LineLiteral.text (m : LineLiteral) : List Char := quoted m.quote m.body

structure Name where
  text : List Char
  isWord : IsWord text

inductive Keyword where
  | importing
  | exporting
  deriving DecidableEq

namespace Keyword

def text : Keyword → List Char
  | importing => importName
  | exporting => exportName

def kind : Keyword → ReferenceKind
  | importing => .declaration
  | exporting => .reExport

end Keyword

inductive Statement where
  | bare (m : LineLiteral)
  | clause (keyword : Keyword) (typesOnly : Bool) (name : Name) (m : LineLiteral)
  | typeAlias (name target : Name) (reserved : target.text ≠ importName)

namespace Statement

def clauseText (name : Name) (m : LineLiteral) : List Char :=
  ['\x7b', ' '] ++ name.text ++ [' ', '\x7d', ' '] ++ fromWord ++ ' ' :: m.text

def aliasText (name target : Name) : List Char := name.text ++ [' ', '=', ' '] ++ target.text

def typePrefix (typesOnly : Bool) : List Char := if typesOnly then typeWord ++ [' '] else []

def text : Statement → List Char
  | bare m => importName ++ ' ' :: m.text
  | clause keyword typesOnly name m =>
    keyword.text ++ ' ' :: (typePrefix typesOnly ++ clauseText name m)
  | typeAlias name target _ => exportName ++ ' ' :: (typePrefix true ++ aliasText name target)

/-- What the statement refers to when the module runs. -/
def reference? : Statement → Option (String × ReferenceKind)
  | bare m => some (String.ofList m.body, .declaration)
  | clause keyword false _ m => some (String.ofList m.body, keyword.kind)
  | _ => none

end Statement

/-- A line with at most one statement, which a semicolon may close. -/
inductive Line where
  | blank
  | statement (s : Statement) (closed : Bool)

namespace Line

def ending (closed : Bool) : List Char := if closed then [';'] else []

def text : Line → List Char
  | blank => []
  | statement s closed => s.text ++ ending closed

def reference? : Line → Option (String × ReferenceKind)
  | blank => none
  | statement s _ => s.reference?

def following (ls : List Line) : List Char := ls.flatMap fun l => '\n' :: l.text

/-- The text of a module of some lines. -/
def source (ls : List Line) : List Char := (following ls).tail

def isOpenAlias : Line → Bool
  | statement (.typeAlias ..) false => true
  | _ => false

def isIdle : Line → Bool
  | blank => true
  | statement (.typeAlias ..) closed => !closed
  | _ => false

def isValueClause : Line → Bool
  | statement (.clause _ false _ _) _ => true
  | _ => false

def isTypeClause : Line → Bool
  | statement (.clause _ true _ _) _ => true
  | _ => false

def afterClause? : List Line → Option (List Line)
  | [] => none
  | l :: ls =>
    if l.isIdle then afterClause? ls
    else if l.isValueClause || l.isTypeClause then some ls
    else none

/-- The references that are left.  A clause that an alias is still open before is lost. -/
def kept : Bool → List Line → List (String × ReferenceKind)
  | _, [] => []
  | pending, l :: ls =>
    if l.isIdle then kept (pending || l.isOpenAlias) ls
    else if pending && l.isValueClause then kept false ls
    else l.reference?.toList ++ kept false ls

/-- A clause comes next, idle lines aside, that imports or re-exports more than types. -/
def ReachesValue : List Line → Prop
  | [] => False
  | l :: ls => l.isValueClause = true ∨ l.isIdle = true ∧ ReachesValue ls

/-- Such a clause comes after an open alias. -/
def Loses : List Line → Prop
  | [] => False
  | l :: ls => l.isOpenAlias = true ∧ ReachesValue ls ∨ Loses ls

end Line

section Search

variable {A P Q k : List Char} {c d : Char}

def endsSearch (c : Char) : Bool := c = ';' || c = '\'' || c = '"'

theorem isQuote_of_endsSearch (h : endsSearch c = false) : isQuote c = false := by
  simp only [endsSearch, Bool.or_eq_false_iff] at h
  simp only [isQuote, h.1.2, h.2, Bool.or_self]

theorem ne_of_continuesWord (hc : continuesWord c = true) (hd : continuesWord d = false) :
    c ≠ d := by
  rintro rfl
  rw [hc] at hd
  cases hd

theorem endsSearch_of_continuesWord (hc : continuesWord c = true) : endsSearch c = false := by
  simp [endsSearch, ne_of_continuesWord hc (d := ';') (by decide),
    ne_of_continuesWord hc (d := '\'') (by decide), ne_of_continuesWord hc (d := '"') (by decide)]

theorem isIndent_of_continuesWord (hc : continuesWord c = true) : isIndent c = false := by
  simp [isIndent, ne_of_continuesWord hc (d := ' ') (by decide),
    ne_of_continuesWord hc (d := '\t') (by decide)]

theorem skipIndent_of_head (h : headIs isIndent k = false) : skipIndent k = k := by
  cases k with
  | nil => rfl
  | cons c k => exact List.dropWhile_cons_of_neg (by simpa using h)

theorem skipIndent_blank : skipIndent (' ' :: k) = skipIndent k := rfl

theorem stripHead_append (w k : List Char) : stripHead w (w ++ k) = some k :=
  stripHead_eq_some.2 rfl

theorem skipKeyword_append (w : List Char) (h : headIs isIndent k = false) :
    skipKeyword w (w ++ ' ' :: k) = some k := by
  rw [skipKeyword, stripHead_append, Option.bind_some]
  exact congrArg some ((skipIndent_blank).trans (skipIndent_of_head h))

theorem exists_of_fromRest? {rest : List Char} (h : fromRest? A = some rest) :
    ∃ I q r, A = fromWord ++ I ++ q :: r ∧ (∀ c ∈ I, isIndent c = true) ∧ isQuote q = true := by
  obtain ⟨B, hB, h⟩ := Option.bind_eq_some_iff.1 h
  obtain ⟨r, hr, -⟩ := Option.map_eq_some_iff.1 h
  rw [stripHead_eq_some] at hB
  refine ⟨B.takeWhile isIndent, ?_⟩
  have hsplit : B.takeWhile isIndent ++ skipIndent B = B := List.takeWhile_append_dropWhile
  cases hskip : skipIndent B with
  | nil =>
    rw [hskip] at hr
    cases hr
  | cons q r' =>
    rw [hskip, skipLiteral] at hr
    rw [hskip] at hsplit
    refine ⟨q, r', ?_, fun c hc => List.mem_takeWhile_imp hc, ?_⟩
    · rw [hB, List.append_assoc, hsplit]
      rfl
    · by_contra hq
      rw [Bool.not_eq_true, isQuote, Bool.or_comm] at hq
      rw [hq] at hr
      cases hr

theorem fromRest?_append_eq_none (hQ : ∀ c ∈ Q, isQuote c = false) (hd : isQuote d = false)
    (hindent : isIndent d = false) (hfrom : d ∉ fromWord) : fromRest? (Q ++ d :: k) = none := by
  rw [Option.eq_none_iff_forall_ne_some]
  intro rest h
  obtain ⟨I, q, r, heq, hI, hq⟩ := exists_of_fromRest? h
  have hd' : d ∉ fromWord ++ I := by
    rw [List.mem_append]
    rintro (hmem | hmem)
    · exact hfrom hmem
    · rw [hI d hmem] at hindent
      cases hindent
  have hne : ∀ x, isQuote x = false → q ≠ x := by
    rintro x hx rfl
    rw [hq] at hx
    cases hx
  rcases List.append_eq_append_iff.1 heq with ⟨B, hB, hk⟩ | ⟨B, hB, hk⟩
  · rcases List.cons_eq_append_iff.1 hk with ⟨-, hk⟩ | ⟨B, rfl, -⟩
    · exact hne d hd (List.cons.inj hk).1
    · exact hd' (hB ▸ by simp)
  · rcases List.cons_eq_append_iff.1 hk with ⟨-, hk⟩ | ⟨B, rfl, -⟩
    · exact hne d hd (List.cons.inj hk).1.symm
    · exact hne q (hQ q (hB ▸ by simp)) rfl

theorem fromRest?_eq_none (hP : ∀ c ∈ P, isQuote c = false) : fromRest? P = none := by
  rw [Option.eq_none_iff_forall_ne_some]
  intro rest h
  obtain ⟨I, q, r, rfl, -, hq⟩ := exists_of_fromRest? h
  rw [hP q (by simp)] at hq
  cases hq

theorem typeClauseRest?_cons (h : fromRest? (c :: k) = none) :
    typeClauseRest? (c :: k) = if endsSearch c then none else typeClauseRest? k := by
  rw [typeClauseRest?, h]
  rfl

theorem typeClauseRest?_eq_none (hP : ∀ c ∈ P, endsSearch c = false) :
    typeClauseRest? P = none := by
  have hquote := fun c hc => isQuote_of_endsSearch (hP c hc)
  induction P with
  | nil => rfl
  | cons c P ih =>
    rw [typeClauseRest?_cons (fromRest?_eq_none hquote), hP c List.mem_cons_self]
    exact ih (fun x hx => hP x (.tail _ hx)) fun x hx => hquote x (.tail _ hx)

theorem fromRest?_of_ne (hc : c ≠ 'f') : fromRest? (c :: k) = none := by
  have : stripHead "from".toList (c :: k) = none := if_neg (Ne.symm hc)
  rw [fromRest?, this, Option.bind_none]

def Fruitless (P : List Char) : Prop := ∀ c ∈ P, endsSearch c = false ∧ c ≠ 'f'

instance : Decidable (Fruitless P) := List.decidableBAll _ P

theorem typeClauseRest?_skip (hP : Fruitless P) :
    typeClauseRest? (P ++ k) = typeClauseRest? k := by
  induction P with
  | nil => rfl
  | cons c P ih =>
    obtain ⟨hc, hP⟩ := List.forall_mem_cons.1 hP
    rw [List.cons_append, typeClauseRest?_cons (fromRest?_of_ne hc.2), hc.1]
    exact ih hP

theorem typeClauseRest?_append (hP : ∀ c ∈ P, endsSearch c = false) (hd : isQuote d = false)
    (hindent : isIndent d = false) (hfrom : d ∉ fromWord) :
    typeClauseRest? (P ++ d :: k) = if endsSearch d then none else typeClauseRest? k := by
  have hquote := fun c hc => isQuote_of_endsSearch (hP c hc)
  induction P with
  | nil => exact typeClauseRest?_cons (fromRest?_append_eq_none (Q := []) nofun hd hindent hfrom)
  | cons c P ih =>
    have hnone : fromRest? (c :: (P ++ d :: k)) = none :=
      fromRest?_append_eq_none hquote hd hindent hfrom
    rw [List.cons_append, typeClauseRest?_cons hnone, hP c List.mem_cons_self]
    exact ih (fun x hx => hP x (.tail _ hx)) fun x hx => hquote x (.tail _ hx)

end Search

namespace Line

def EndsLine (k : List Char) : Prop := k = [] ∨ ∃ k', k = '\n' :: k'

variable {k : List Char} {closed : Bool} {ls : List Line} {l : Line}

theorem following_cons : following (l :: ls) = '\n' :: (l.text ++ following ls) := rfl

theorem endsLine_following (ls : List Line) : EndsLine (following ls) := by
  cases ls with
  | nil => exact .inl rfl
  | cons l ls => exact .inr ⟨_, following_cons⟩

theorem EndsLine.head (h : EndsLine k) {p : Char → Bool} (hp : p '\n' = false) :
    headIs p k = false := by
  rcases h with rfl | ⟨k', rfl⟩
  · rfl
  · exact hp

theorem skipLiteral_text (m : LineLiteral) : skipLiteral (m.text ++ k) = some k := by
  have hall : ∀ c ∈ m.body,
      (decide (c ≠ m.quote) && decide (c ≠ '\r') && decide (c ≠ '\n')) = true := by
    intro c hc
    obtain ⟨hq, hr, hn⟩ := m.inLine c hc
    simp [hq, hr, hn]
  have hquote : (decide (m.quote = '"') || decide (m.quote = '\'')) = true :=
    (Bool.or_comm _ _).trans m.quotes
  rw [LineLiteral.text, quoted_append, skipLiteral, if_pos hquote, List.dropWhile_append_of_pos hall,
    List.dropWhile_cons_of_neg (by simp)]
  dsimp only
  rw [if_pos rfl]

theorem fromRest?_text (m : LineLiteral) (hk : EndsLine k) :
    fromRest? (fromWord ++ ' ' :: (m.text ++ (ending closed ++ k))) = some k := by
  have hquote : isIndent m.quote = false := by
    rcases isQuote_iff.1 m.quotes with h | h <;> rw [h] <;> rfl
  have hskip : skipIndent (m.text ++ (ending closed ++ k)) = m.text ++ (ending closed ++ k) :=
    skipIndent_of_head hquote
  rw [fromRest?, show "from".toList = fromWord from rfl, stripHead_append, Option.bind_some,
    skipIndent_blank, hskip, skipLiteral_text, Option.map_some]
  cases closed with
  | true => rfl
  | false =>
    rw [ending, if_neg Bool.false_ne_true, List.nil_append, skipIndent_of_head (hk.head rfl)]
    rcases hk with rfl | ⟨k', rfl⟩ <;> rfl

theorem endsSearch_name (n : Name) : ∀ c ∈ n.text, endsSearch c = false :=
  fun _ hc => endsSearch_of_continuesWord (n.isWord.continues _ hc)

open Statement

theorem text_bare (m : LineLiteral) : (statement (.bare m) closed).text ++ k =
    importName ++ ' ' :: (m.text ++ (ending closed ++ k)) := by
  simp [text, Statement.text]

theorem text_clause (keyword : Keyword) (typesOnly : Bool) (n : Name) (m : LineLiteral) :
    (statement (.clause keyword typesOnly n m) closed).text ++ k =
      keyword.text ++ ' ' :: (typePrefix typesOnly ++ (clauseText n m ++ (ending closed ++ k))) := by
  simp [text, Statement.text]

theorem text_typeAlias (n t : Name) (reserved : t.text ≠ importName) :
    (statement (.typeAlias n t reserved) closed).text ++ k =
      exportName ++ ' ' :: (typePrefix true ++ (aliasText n t ++ (ending closed ++ k))) := by
  simp [text, Statement.text]

theorem typeClauseRest?_clause (n : Name) (m : LineLiteral) (hk : EndsLine k) :
    typeClauseRest? (clauseText n m ++ (ending closed ++ k)) = some k := by
  have hpass : ∀ c ∈ '\x7b' :: ' ' :: (n.text ++ [' ']), endsSearch c = false := by
    intro c hc
    simp only [List.mem_append, List.mem_cons, List.not_mem_nil, or_false] at hc
    rcases hc with rfl | rfl | hc | rfl
    · rfl
    · rfl
    · exact endsSearch_name n c hc
    · rfl
  have hsplit : clauseText n m ++ (ending closed ++ k) = '\x7b' :: ' ' :: (n.text ++ [' ']) ++
      '\x7d' :: ([' '] ++ (fromWord ++ ' ' :: (m.text ++ (ending closed ++ k)))) := by
    simp [clauseText]
  have hfrom : fromRest? (fromWord ++ ' ' :: (m.text ++ (ending closed ++ k))) = some k :=
    fromRest?_text m hk
  rw [hsplit, typeClauseRest?_append hpass rfl rfl (by decide), if_neg (by decide),
    typeClauseRest?_skip (by decide)]
  rw [show fromWord = 'f' :: "rom".toList from rfl, List.cons_append] at hfrom ⊢
  rw [typeClauseRest?, hfrom]

theorem typeClauseRest?_alias (n t : Name) (hk : EndsLine k) :
    typeClauseRest? (aliasText n t ++ (ending closed ++ k)) =
      if closed then none else typeClauseRest? k := by
  have hpass : ∀ c ∈ aliasText n t, endsSearch c = false := by
    intro c hc
    simp only [aliasText, List.mem_append, List.mem_cons, List.not_mem_nil, or_false] at hc
    rcases hc with (hc | rfl | rfl | rfl) | hc
    · exact endsSearch_name n c hc
    · rfl
    · rfl
    · rfl
    · exact endsSearch_name t c hc
  cases closed with
  | true => exact typeClauseRest?_append hpass rfl rfl (by decide)
  | false =>
    rw [ending, if_neg Bool.false_ne_true, List.nil_append, if_neg Bool.false_ne_true]
    rcases hk with rfl | ⟨k', rfl⟩
    · rw [List.append_nil]
      exact typeClauseRest?_eq_none hpass
    · rw [typeClauseRest?_append hpass rfl rfl (by decide)]
      exact (typeClauseRest?_skip (P := ['\n']) (by decide)).symm

theorem typeClauseRest?_literal (m : LineLiteral) : typeClauseRest? (m.text ++ k) = none := by
  rw [LineLiteral.text, quoted_append]
  rcases isQuote_iff.1 m.quotes with h | h <;> rw [h] <;> rfl

theorem typeClauseRest?_following (ls : List Line) :
    typeClauseRest? (following ls) = (afterClause? ls).map following := by
  induction ls with
  | nil => rfl
  | cons l ls ih =>
    have hls := endsLine_following ls
    have skip (A k : List Char) (hA : Fruitless A) :
        typeClauseRest? ('\n' :: (A ++ ' ' :: k)) = typeClauseRest? k := by
      have hpass : Fruitless ('\n' :: (A ++ [' '])) := by
        intro c hc
        simp only [List.mem_cons, List.mem_append, List.not_mem_nil, or_false] at hc
        rcases hc with rfl | hc | rfl
        · decide
        · exact hA c hc
        · decide
      rw [← typeClauseRest?_skip hpass (k := k)]
      simp
    rw [following_cons]
    cases l with
    | blank => exact (typeClauseRest?_skip (P := ['\n']) (by decide)).trans ih
    | statement s closed =>
      cases s with
      | bare m =>
        rw [text_bare, skip importName _ (by decide)]
        exact typeClauseRest?_literal m
      | clause keyword typesOnly n m =>
        have hkeyword : Fruitless keyword.text := by
          cases keyword <;> decide
        have hprefix : Fruitless (typePrefix typesOnly) := by
          cases typesOnly <;> decide
        have hafter : afterClause? (statement (.clause keyword typesOnly n m) closed :: ls) =
            some ls := by
          cases typesOnly <;> rfl
        rw [text_clause, skip _ _ hkeyword, typeClauseRest?_skip hprefix,
          typeClauseRest?_clause n m hls, hafter]
        rfl
      | typeAlias n t reserved =>
        rw [text_typeAlias, skip exportName _ (by decide), typeClauseRest?_skip (by decide),
          typeClauseRest?_alias n t hls, ih]
        cases closed <;> rfl

def erased? : Line → List Line → Option (List Line)
  | statement (.clause _ true _ _) _, ls => some ls
  | statement (.typeAlias ..) false, ls => afterClause? ls
  | _, _ => none

theorem headIs_isIndent_name (n : Name) (k : List Char) : headIs isIndent (n.text ++ k) = false := by
  obtain ⟨c, w, hw⟩ := List.exists_cons_of_ne_nil n.isWord.ne_nil
  have hc := n.isWord.continues c (hw ▸ List.mem_cons_self)
  rw [hw, List.cons_append, headIs_cons, isIndent_of_continuesWord hc]

theorem skipKeywords_append (keyword : Keyword) (h : headIs isIndent k = false) :
    (skipKeyword "import".toList (keyword.text ++ ' ' :: k)).or
      (skipKeyword "export".toList (keyword.text ++ ' ' :: k)) = some k := by
  cases keyword with
  | importing => exact congrArg (Option.or · _) (skipKeyword_append importName h)
  | exporting => exact skipKeyword_append exportName h

theorem typeOnlyRest?_append (keyword : Keyword) (h : headIs isIndent k = false) :
    typeOnlyRest? (keyword.text ++ ' ' :: k) =
      (skipKeyword "type".toList k).bind typeClauseRest? := by
  have hskip : skipIndent (keyword.text ++ ' ' :: k) = keyword.text ++ ' ' :: k := by
    cases keyword <;> rfl
  rw [typeOnlyRest?, hskip, skipKeywords_append keyword h, Option.bind_some]

theorem typeOnlyRest?_type (keyword : Keyword) (h : headIs isIndent k = false) :
    typeOnlyRest? (keyword.text ++ ' ' :: (typePrefix true ++ k)) = typeClauseRest? k := by
  have hprefix : typePrefix true ++ k = typeWord ++ ' ' :: k := by simp [typePrefix]
  rw [typeOnlyRest?_append keyword (by rfl), hprefix]
  exact congrArg (Option.bind · typeClauseRest?) (skipKeyword_append typeWord h)

theorem typeOnlyRest?_text (l : Line) (ls : List Line) :
    typeOnlyRest? (l.text ++ following ls) = (erased? l ls).map following := by
  have hls := endsLine_following ls
  cases l with
  | blank =>
    rw [show text blank = [] from rfl, List.nil_append]
    rcases hls with h | ⟨k, h⟩ <;> rw [h] <;> rfl
  | statement s closed =>
    cases s with
    | bare m =>
      rw [text_bare]
      refine (typeOnlyRest?_append .importing ?_).trans ?_
      all_goals
        rw [LineLiteral.text, quoted_append]
        rcases isQuote_iff.1 m.quotes with h | h <;> rw [h] <;> rfl
    | clause keyword typesOnly n m =>
      rw [text_clause]
      cases typesOnly with
      | true => exact (typeOnlyRest?_type keyword (by rfl)).trans (typeClauseRest?_clause n m hls)
      | false => exact typeOnlyRest?_append keyword (by rfl)
    | typeAlias n t reserved =>
      have hhead : headIs isIndent (aliasText n t ++ (ending closed ++ following ls)) = false := by
        rw [aliasText, List.append_assoc, List.append_assoc]
        exact headIs_isIndent_name n _
      rw [text_typeAlias]
      refine (typeOnlyRest?_type .exporting hhead).trans ((typeClauseRest?_alias n t hls).trans ?_)
      rw [typeClauseRest?_following]
      cases closed <;> rfl

theorem newline_not_mem_name (n : Name) : '\n' ∉ n.text := fun h =>
  absurd (n.isWord.continues _ h) (by decide)

theorem newline_not_mem_literal (m : LineLiteral) : '\n' ∉ m.text := by
  have hquote : '\n' ≠ m.quote := by
    rcases isQuote_iff.1 m.quotes with h | h <;> rw [h] <;> decide
  have hbody : '\n' ∉ m.body := fun h => (m.inLine _ h).2.2 rfl
  simp [LineLiteral.text, quoted, hquote, hbody]

theorem newline_not_mem_text (l : Line) : '\n' ∉ l.text := by
  cases l with
  | blank => exact List.not_mem_nil
  | statement s closed =>
    have hending : '\n' ∉ ending closed := by cases closed <;> decide
    refine List.mem_append.not.2 (not_or.2 ⟨?_, hending⟩)
    cases s with
    | bare m =>
      simp only [Statement.text, List.mem_append, List.mem_cons, not_or]
      exact ⟨by decide, by decide, newline_not_mem_literal m⟩
    | clause keyword typesOnly n m =>
      simp only [Statement.text, clauseText, List.mem_append, List.mem_cons, not_or]
      refine ⟨by cases keyword <;> decide, by decide, by cases typesOnly <;> decide, ?_⟩
      exact ⟨⟨⟨⟨by decide, newline_not_mem_name n⟩, by decide⟩, by decide⟩, by decide,
        newline_not_mem_literal m⟩
    | typeAlias n t reserved =>
      simp only [Statement.text, aliasText, List.mem_append, List.mem_cons, not_or]
      exact ⟨by decide, by decide, by decide, ⟨newline_not_mem_name n, by decide⟩,
        newline_not_mem_name t⟩

theorem exists_last_of_statement (s : Statement) (closed : Bool) :
    ∃ A c, (statement s closed).text = A ++ [c] ∧ c ≠ '\n' := by
  have hne : (statement s closed).text ≠ [] := by
    refine List.append_ne_nil_of_left_ne_nil ?_ _
    cases s with
    | bare => exact List.cons_ne_nil _ _
    | clause keyword => cases keyword <;> exact List.cons_ne_nil _ _
    | typeAlias => exact List.cons_ne_nil _ _
  refine ⟨_, _, (List.dropLast_append_getLast hne).symm, fun h => ?_⟩
  exact newline_not_mem_text _ (h ▸ List.getLast_mem hne)

theorem exists_of_afterClause? {rest : List Line} (h : afterClause? ls = some rest) :
    rest.length < ls.length ∧
      ∃ A c, c ≠ '\n' ∧ following ls = A ++ c :: following rest := by
  induction ls with
  | nil => cases h
  | cons l ls ih =>
    rw [following_cons]
    rw [afterClause?] at h
    split at h
    · obtain ⟨hlength, A, c, hc, hsplit⟩ := ih h
      refine ⟨Nat.lt_succ_of_lt hlength, '\n' :: (l.text ++ A), c, hc, ?_⟩
      rw [hsplit]
      simp
    · split at h
      · cases h
        cases l with
        | blank => contradiction
        | statement s closed =>
          obtain ⟨A, c, htext, hc⟩ := exists_last_of_statement s closed
          refine ⟨Nat.lt_succ_self _, '\n' :: A, c, hc, ?_⟩
          rw [htext]
          simp
      · cases h

theorem exists_of_erased? {rest : List Line} (h : erased? l ls = some rest) :
    rest.length ≤ ls.length ∧
      ∃ A c, c ≠ '\n' ∧ l.text ++ following ls = A ++ c :: following rest := by
  unfold erased? at h
  split at h
  · rename_i keyword n m closed
    cases h
    obtain ⟨A, c, htext, hc⟩ := exists_last_of_statement (.clause keyword true n m) closed
    exact ⟨Nat.le_refl _, A, c, hc, by rw [htext]; simp⟩
  · rename_i n t reserved
    obtain ⟨hlength, A, c, hc, hsplit⟩ := exists_of_afterClause? h
    exact ⟨Nat.le_of_lt hlength, _, c, hc, by rw [hsplit, List.append_assoc]⟩
  · cases h

theorem kept_of_afterClause?_eq_none (h : afterClause? ls = none) (pending : Bool) :
    kept pending ls = kept false ls := by
  induction ls generalizing pending with
  | nil => rfl
  | cons l ls ih =>
    rw [afterClause?] at h
    rw [kept, kept]
    split at h
    · rename_i hidle
      rw [if_pos hidle, if_pos hidle, ih h, ih h (false || _)]
    · rename_i hidle
      split at h
      · cases h
      · rename_i hclause
        rw [Bool.not_eq_true, Bool.or_eq_false_iff] at hclause
        simp [hidle, hclause.1]

theorem kept_of_afterClause? {rest : List Line} (h : afterClause? ls = some rest) :
    kept true ls = kept false rest := by
  induction ls with
  | nil => cases h
  | cons l ls ih =>
    rw [afterClause?] at h
    rw [kept]
    split at h
    · rename_i hidle
      rw [if_pos hidle]
      exact ih h
    · rename_i hidle
      rw [if_neg hidle]
      split at h
      · rename_i hclause
        cases h
        by_cases hvalue : l.isValueClause = true
        · rw [if_pos (by simp [hvalue])]
        · have htype : l.isTypeClause = true := by simpa [hvalue] using hclause
          have hnone : l.reference? = none := by
            unfold isTypeClause at htype
            split at htype
            · rfl
            · cases htype
          rw [if_neg (by simp [hvalue]), hnone]
          rfl
      · cases h

theorem kept_of_erased? {rest : List Line} (h : erased? l ls = some rest) :
    kept false (l :: ls) = kept false rest := by
  unfold erased? at h
  split at h
  · cases h
    rfl
  · exact kept_of_afterClause? h
  · cases h

theorem kept_of_erased?_eq_none (h : erased? l ls = none) :
    l.isTypeClause = false ∧ kept false (l :: ls) = l.reference?.toList ++ kept false ls := by
  cases l with
  | blank => exact ⟨rfl, rfl⟩
  | statement s closed =>
    cases s with
    | bare m => exact ⟨rfl, rfl⟩
    | clause keyword typesOnly n m =>
      cases typesOnly with
      | true => cases h
      | false => exact ⟨rfl, rfl⟩
    | typeAlias n t reserved =>
      cases closed with
      | true => exact ⟨rfl, rfl⟩
      | false => exact ⟨rfl, kept_of_afterClause?_eq_none h true⟩

theorem filterMap_reference? (l : Line) (ls : List Line) :
    (l :: ls).filterMap reference? = l.reference?.toList ++ ls.filterMap reference? := by
  rw [List.filterMap_cons]
  cases l.reference? <;> rfl

theorem isIdle_cases (l : Line) :
    (l.isIdle = true ∧ l.isValueClause = false ∧ l.reference? = none) ∨
      (l.isIdle = false ∧ l.isOpenAlias = false ∧
        (l.isValueClause = true → l.reference? ≠ none)) := by
  cases l with
  | blank => exact .inl ⟨rfl, rfl, rfl⟩
  | statement s closed =>
    cases s with
    | bare => exact .inr ⟨rfl, rfl, nofun⟩
    | clause keyword typesOnly =>
      cases typesOnly with
      | true => exact .inr ⟨rfl, rfl, nofun⟩
      | false => exact .inr ⟨rfl, rfl, fun _ => nofun⟩
    | typeAlias =>
      cases closed with
      | true => exact .inr ⟨rfl, rfl, nofun⟩
      | false => exact .inl ⟨rfl, rfl, rfl⟩

theorem kept_sublist (pending : Bool) (ls : List Line) :
    (kept pending ls).Sublist (ls.filterMap reference?) := by
  induction ls generalizing pending with
  | nil => exact .slnil
  | cons l ls ih =>
    rw [kept, filterMap_reference?]
    split
    · exact (ih _).trans (List.sublist_append_right _ _)
    · split
      · exact (ih _).trans (List.sublist_append_right _ _)
      · exact (ih _).append_left _

theorem kept_eq_iff (pending : Bool) (ls : List Line) :
    kept pending ls = ls.filterMap reference? ↔
      ¬ (pending = true ∧ ReachesValue ls ∨ Loses ls) := by
  induction ls generalizing pending with
  | nil => simp [kept, ReachesValue, Loses]
  | cons l ls ih =>
    rw [kept, filterMap_reference?, ReachesValue, Loses]
    rcases isIdle_cases l with ⟨hidle, hvalue, hnone⟩ | ⟨hidle, hopen, hreference⟩
    · rw [if_pos hidle, hnone, hvalue, hidle]
      refine (ih _).trans ?_
      simp only [Bool.or_eq_true, Bool.false_eq_true, false_or, true_and]
      grind
    · rw [if_neg (by simp [hidle]), hopen, hidle]
      by_cases hlost : pending && l.isValueClause
      · rw [if_pos hlost]
        rw [Bool.and_eq_true] at hlost
        obtain ⟨r, hr⟩ := Option.ne_none_iff_exists'.1 (hreference hlost.2)
        refine iff_of_false (fun heq => ?_) (not_not_intro (.inl ⟨hlost.1, .inl hlost.2⟩))
        have hlength := (kept_sublist false ls).length_le
        rw [heq, hr, Option.toList_some, List.singleton_append, List.length_cons] at hlength
        omega
      · rw [if_neg hlost, List.append_cancel_left_eq, ih]
        rw [Bool.and_eq_true] at hlost
        grind

theorem eraseFrom_text {form : Form} (h : form (l.text ++ following ls) = none) :
    eraseFrom form 0 true (l.text ++ following ls) =
      l.text ++ eraseFrom form 0 false (following ls) := by
  cases l with
  | blank =>
    cases ls with
    | nil => rfl
    | cons l ls =>
      rw [show text blank = [] from rfl, List.nil_append, following_cons] at h ⊢
      exact eraseFrom_of_none h
  | statement s closed =>
    obtain ⟨A, c, htext, -⟩ := exists_last_of_statement s closed
    exact eraseFrom_line h (newline_not_mem_text _) (by simp [htext])

theorem exists_eraseFrom_following (ls : List Line) :
    ∃ ls', (∀ l ∈ ls', l.isTypeClause = false) ∧
      eraseFrom (.ofRest typeOnlyRest?) 0 false (following ls) = following ls' ∧
      ls'.filterMap reference? = kept false ls := by
  induction hn : ls.length using Nat.strong_induction_on generalizing ls with
  | h n ih =>
    subst hn
    cases ls with
    | nil => exact ⟨[], nofun, rfl, rfl⟩
    | cons l ls =>
      cases herased : erased? l ls with
      | none =>
        obtain ⟨ls', htypes, htext, hrefs⟩ := ih ls.length (Nat.lt_succ_self _) ls rfl
        obtain ⟨hl, hkept⟩ := kept_of_erased?_eq_none herased
        have hnone : Form.ofRest typeOnlyRest? (l.text ++ following ls) = none :=
          ofRest_eq_none (by rw [typeOnlyRest?_text, herased, Option.map_none])
        refine ⟨l :: ls', List.forall_mem_cons.2 ⟨hl, htypes⟩, ?_, ?_⟩
        · rw [following_cons, eraseFrom_newline, eraseFrom_text hnone, htext, following_cons]
        · rw [filterMap_reference?, hkept, hrefs]
      | some rest =>
        obtain ⟨hlength, A, c, hc, hsplit⟩ := exists_of_erased? herased
        obtain ⟨ls', htypes, htext, hrefs⟩ := ih rest.length (Nat.lt_succ_of_le hlength) rest rfl
        have hrest : typeOnlyRest? (A ++ c :: following rest) = some (following rest) := by
          rw [← hsplit, typeOnlyRest?_text, herased, Option.map_some]
        refine ⟨blank :: ls', List.forall_mem_cons.2 ⟨rfl, htypes⟩, ?_, ?_⟩
        · rw [following_cons, eraseFrom_newline, hsplit, eraseFrom_of_rest? hrest,
            decide_eq_false hc, htext]
          rfl
        · rw [kept_of_erased? herased, ← hrefs]
          rfl

theorem exists_typeOnly_source (ls : List Line) :
    ∃ ls', (∀ l ∈ ls', l.isTypeClause = false) ∧ typeOnly (source ls) = source ls' ∧
      ls'.filterMap reference? = kept false ls := by
  obtain ⟨ls', htypes, htext, hrefs⟩ := exists_eraseFrom_following ls
  refine ⟨ls', htypes, ?_, hrefs⟩
  rw [source, source, ← htext]
  cases ls with
  | nil => rfl
  | cons l ls => rfl

theorem erase_source_eq {form : Form}
    (h : ∀ (l : Line) (ls : List Line), form (l.text ++ following ls) = none) (ls : List Line) :
    erase form (source ls) = source ls := by
  have hfollowing (ls : List Line) : eraseFrom form 0 false (following ls) = following ls := by
    induction ls with
    | nil => rfl
    | cons l ls ih => rw [following_cons, eraseFrom_newline, eraseFrom_text (h l ls), ih]
  cases ls with
  | nil => rfl
  | cons l ls => exact (eraseFrom_text (h l ls)).trans (congrArg _ (hfollowing ls))

theorem skipIndent_text (l : Line) (ls : List Line) :
    headIs (· = '/') (skipIndent (l.text ++ following ls)) = false := by
  cases l with
  | blank =>
    cases ls with
    | nil => rfl
    | cons l ls => rfl
  | statement s closed =>
    cases s with
    | bare => rfl
    | clause keyword => cases keyword <;> rfl
    | typeAlias => rfl

theorem stripHead_eq_none {c : Char} {head k : List Char} (h : headIs (· = c) k = false) :
    stripHead (c :: head) k = none := by
  cases k with
  | nil => rfl
  | cons d k => exact if_neg fun heq => absurd heq.symm (of_decide_eq_false h)

theorem sourceMaps_source (ls : List Line) : sourceMaps (source ls) = source ls := by
  have hline : erase (.ofRest lineMapRest?) (source ls) = source ls := by
    refine erase_source_eq (fun l ls => ofRest_eq_none ?_) ls
    rw [lineMapRest?, stripHead_eq_none (skipIndent_text l ls), Option.bind_none]
  have hblock : erase (.ofRest blockMapRest?) (source ls) = source ls := by
    refine erase_source_eq (fun l ls => ofRest_eq_none ?_) ls
    rw [blockMapRest?, stripHead_eq_none (skipIndent_text l ls), Option.bind_none]
  rw [sourceMaps, hline, hblock]

end Line

end ImportAtlas.Erasure
