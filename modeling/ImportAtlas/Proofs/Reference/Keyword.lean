import ImportAtlas.Proofs.Reference.Clause
import ImportAtlas.Reference.State

namespace ImportAtlas

open Text Lexeme Outcome

theorem Lexeme.isWordStart_of_isDigit {x : Char} (h : x.isDigit = true) :
    isWordStart x = false := by
  have hx : 48 ≤ x.toNat ∧ x.toNat ≤ 57 := by
    simpa [Char.isDigit, UInt32.le_iff_toNat_le] using h
  have hupper : x.isUpper = false := decide_eq_false fun h => by
    have : 65 ≤ x.toNat := UInt32.le_iff_toNat_le.1 h.1
    omega
  have hlower : x.isLower = false := Bool.and_eq_false_imp.2 fun h => by
    have : 97 ≤ x.toNat := UInt32.le_iff_toNat_le.1 (of_decide_eq_true h)
    omega
  have hletter : x.isAlpha = false := Bool.or_eq_false_iff.2 ⟨hupper, hlower⟩
  have hascii : isAscii x = true := by
    simp only [isAscii, decide_eq_true_eq]
    omega
  have hunderscore : x ≠ '_' := by
    rintro rfl
    contradiction
  have hdollar : x ≠ '$' := by
    rintro rfl
    contradiction
  simp [isWordStart, hletter, hascii, hunderscore, hdollar]

namespace ScanState

variable {s s' : ScanState} {start t : Cursor} {l : Literal}

def opensClause (x : Char) : Bool := x = '\x7b' || x = '*' || isWordStart x

def opensImport (x : Char) : Bool := x = '(' || isQuote x || opensClause x

def opensExport (x : Char) : Bool := x = '*' || x = '\x7b'

def enterCall (c : Cursor) (s : ScanState) : ScanState :=
  { s.moveTo c (.punctuation '(') with heads := false :: s.heads }

inductive ImportStep (s : ScanState) (t : Cursor) : ScanState → Prop
  | plain : headIs opensImport t.rest = false → ImportStep s t s
  | call : headIs (· = '(') t.rest = true → (t.advance 1).dynamicArgument = .ok none →
      ImportStep s t (s.enterCall (t.advance 1))
  | dynamic {l : Literal} : headIs (· = '(') t.rest = true →
      (t.advance 1).dynamicArgument = .ok (some l) →
      ImportStep s t ((s.enterCall (t.advance 1)).record .dynamic l)
  | bare {l : Literal} : t.Finds l → ImportStep s t (s.record .declaration l)
  | clause {A : List Char} {d : Cursor} {l : Literal} : headIs opensClause t.rest = true →
      Clause false A → t.Passes A d → d.Finds l → ImportStep s t (s.record .declaration l)

inductive ExportStep (s : ScanState) (t : Cursor) : ScanState → Prop
  | plain : headIs opensExport t.rest = false → ExportStep s t s
  | star {A : List Char} {d : Cursor} {l : Literal} : headIs (· = '*') t.rest = true →
      StarClause A → (t.advance 1).Passes A d → d.Finds l →
      ExportStep s t (s.record .reExport l)
  | list {A : List Char} {d u : Cursor} : headIs (· = '\x7b') t.rest = true → ExportList A →
      (t.advance 1).Passes A d → d.skipTrivia = .ok u → u.wordHere ≠ fromWord →
      ExportStep s t (s.moveTo d (.punctuation '\x7d'))
  | reExport {A B : List Char} {d e : Cursor} {l : Literal} :
      headIs (· = '\x7b') t.rest = true → ExportList A → (t.advance 1).Passes A d →
      FromClause B → d.Passes B e → e.Finds l → ExportStep s t (s.record .reExport l)

theorem exists_importStep (h : s.importWord start = .ok s') :
    ∃ t, s.cursor.skipTrivia = .ok t ∧ ImportStep s t s' := by
  obtain ⟨t, ht, h⟩ := bind_eq_ok.1 h
  refine ⟨t, ht, ?_⟩
  split at h
  · rename_i hr
    cases pure_eq_ok.1 h
    exact .plain (by rw [hr]; rfl)
  · rename_i x rest hr
    have head (p : Char → Bool) : headIs p t.rest = p x := by rw [hr, headIs_cons]
    split at h
    · rename_i hx
      have hx : headIs (· = '(') t.rest = true := by rw [head]; exact decide_eq_true hx
      obtain ⟨l, hl, h⟩ := bind_eq_ok.1 h
      split at h
      · cases pure_eq_ok.1 h
        exact .dynamic hx hl
      · cases pure_eq_ok.1 h
        exact .call hx hl
    · rename_i hparen
      split at h
      · rename_i hx
        obtain ⟨l, hl, h⟩ := bind_eq_ok.1 h
        cases pure_eq_ok.1 h
        exact .bare ⟨by rw [Cursor.startsQuote_of_rest hr, hx], hl⟩
      · rename_i hquote
        split at h
        · rename_i hx
          obtain ⟨l, hl, h⟩ := bind_eq_ok.1 h
          cases pure_eq_ok.1 h
          obtain ⟨A, d, hA, hp, hd⟩ := Cursor.exists_clause (b := false) hl (absurd · (by decide))
          exact .clause ((head _).trans hx) hA hp hd
        · rename_i hx
          cases pure_eq_ok.1 h
          refine .plain ?_
          rw [head]
          simp_all [opensImport, opensClause]

theorem importWord_of_step (ht : s.cursor.skipTrivia = .ok t) (h : ImportStep s t s') :
    s.importWord start = .ok s' := by
  rw [importWord, ht, ok_bind]
  cases hr : t.rest with
  | nil =>
    cases h with
    | plain => rfl
    | call hx => simp [hr] at hx
    | dynamic hx => simp [hr] at hx
    | bare hl => simp [Cursor.Finds, Cursor.startsQuote_eq, hr] at hl
    | clause hx => simp [hr] at hx
  | cons x rest =>
    dsimp only
    cases h with
    | plain hx =>
      rw [hr, headIs_cons] at hx
      simp only [opensImport, opensClause, Bool.or_eq_false_iff, decide_eq_false_iff_not] at hx
      simp [hx]
      rfl
    | call hx hl =>
      rw [hr, headIs_cons, decide_eq_true_eq] at hx
      rw [if_pos hx]
      change ((t.advance 1).dynamicArgument >>= _) = _
      rw [hl]
      rfl
    | dynamic hx hl =>
      rw [hr, headIs_cons, decide_eq_true_eq] at hx
      rw [if_pos hx]
      change ((t.advance 1).dynamicArgument >>= _) = _
      rw [hl]
      rfl
    | bare hl =>
      obtain ⟨hq, hl⟩ := hl
      rw [Cursor.startsQuote_of_rest hr] at hq
      have hparen : x ≠ '(' := by
        rintro rfl
        contradiction
      rw [if_neg hparen, if_pos hq, hl]
      rfl
    | clause hx hA hp hd =>
      rw [hr, headIs_cons] at hx
      have hparen : x ≠ '(' := by
        rintro rfl
        contradiction
      have hq : isQuote x = false := by
        by_contra hq
        rcases isQuote_iff.1 (by simpa using hq) with rfl | rfl
        · contradiction
        · contradiction
      rw [if_neg hparen, hq, if_neg (by simp)]
      refine (if_pos hx).trans (bind_eq_ok.2 ⟨_, ?_, rfl⟩)
      exact (Cursor.importClause_of_clause hA hp hd.1).trans hd.2

def typeWord : List Char := "type".toList

theorem isWord_typeWord : IsWord typeWord := .of_all (by decide) (by decide)

theorem exists_exportStep (h : s.exportWord start = .ok s') :
    ∃ t u, s.cursor.skipTrivia = .ok t ∧ t.skipWord typeWord = .ok u ∧ ExportStep s u s' := by
  obtain ⟨t, ht, h⟩ := bind_eq_ok.1 h
  obtain ⟨u, hu, h⟩ := bind_eq_ok.1 h
  refine ⟨t, u, ht, hu, ?_⟩
  split at h
  · rename_i rest hr
    obtain ⟨v, hv, h⟩ := bind_eq_ok.1 h
    obtain ⟨w, hw, h⟩ := bind_eq_ok.1 h
    obtain ⟨l, hl, h⟩ := bind_eq_ok.1 h
    cases pure_eq_ok.1 h
    have hstar : Cursor.starClause start (u.advance 1) = .ok l :=
      bind_eq_ok.2 ⟨v, hv, bind_eq_ok.2 ⟨w, hw, hl⟩⟩
    obtain ⟨A, d, hA, hp, hd⟩ := Cursor.exists_starClause hstar
    exact .star (by rw [hr]; rfl) hA hp hd
  · rename_i rest hr
    have hx : headIs (· = '\x7b') u.rest = true := by rw [hr]; rfl
    obtain ⟨d, hd, h⟩ := bind_eq_ok.1 h
    obtain ⟨v, hv, h⟩ := bind_eq_ok.1 h
    obtain ⟨A, hA, hp⟩ := Cursor.exists_exportList hd
    split at h
    · obtain ⟨l, hl, h⟩ := bind_eq_ok.1 h
      cases pure_eq_ok.1 h
      obtain ⟨B, e, hB, hp', he⟩ := Cursor.exists_fromClause hl
      exact .reExport hx hA hp hB hp' he
    · rename_i hfrom
      cases pure_eq_ok.1 h
      exact .list hx hA hp hv hfrom
  · rename_i hstar hbrace
    cases pure_eq_ok.1 h
    refine .plain ?_
    cases hr : u.rest with
    | nil => rfl
    | cons x rest =>
      rw [headIs_cons, opensExport, Bool.or_eq_false_iff, decide_eq_false_iff_not,
        decide_eq_false_iff_not]
      constructor
      · rintro rfl
        exact hstar rest hr
      · rintro rfl
        exact hbrace rest hr

theorem exists_cons_of_headIs {x : Char} {k : List Char} (h : headIs (· = x) k = true) :
    ∃ rest, k = x :: rest := by
  cases k with
  | nil => contradiction
  | cons y rest =>
    rw [headIs_cons, decide_eq_true_eq] at h
    exact ⟨rest, by rw [h]⟩

theorem exportWord_of_step {u : Cursor} (ht : s.cursor.skipTrivia = .ok t)
    (hu : t.skipWord typeWord = .ok u) (h : ExportStep s u s') : s.exportWord start = .ok s' := by
  have hword : t.skipWord "type".toList = .ok u := hu
  rw [exportWord, ht, ok_bind, hword, ok_bind]
  cases h with
  | plain hx =>
    split
    · rename_i hr
      simp [hr, opensExport] at hx
    · rename_i hr
      simp [hr, opensExport] at hx
    · rfl
  | star hx hA hp hd =>
    obtain ⟨rest, hr⟩ := exists_cons_of_headIs hx
    rw [hr]
    have hstar : Cursor.starClause start (u.advance 1) = .ok _ :=
      (Cursor.starClause_of_clause hA hp hd.1).trans hd.2
    obtain ⟨v, hv, h⟩ := bind_eq_ok.1 hstar
    obtain ⟨w, hw, hl⟩ := bind_eq_ok.1 h
    exact bind_eq_ok.2 ⟨v, hv, bind_eq_ok.2 ⟨w, hw, bind_eq_ok.2 ⟨_, hl, rfl⟩⟩⟩
  | list hx hA hp hv hfrom =>
    obtain ⟨rest, hr⟩ := exists_cons_of_headIs hx
    rw [hr]
    refine bind_eq_ok.2 ⟨_, Cursor.exportClauseEnd_of_list hA hp, bind_eq_ok.2 ⟨_, hv, ?_⟩⟩
    exact if_neg hfrom
  | reExport hx hA hp hB hp' he =>
    obtain ⟨rest, hr⟩ := exists_cons_of_headIs hx
    rw [hr]
    obtain ⟨v, hv, hword⟩ := Cursor.exists_from_of_fromClause hB hp' he.1
    refine bind_eq_ok.2 ⟨_, Cursor.exportClauseEnd_of_list hA hp, bind_eq_ok.2 ⟨v, hv, ?_⟩⟩
    refine (if_pos hword).trans (bind_eq_ok.2 ⟨_, ?_, rfl⟩)
    exact (Cursor.fromClause_of_passes hB hp' he.1).trans he.2

end ScanState

end ImportAtlas
