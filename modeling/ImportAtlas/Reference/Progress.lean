import ImportAtlas.Outcome
import ImportAtlas.Reference.State

namespace ImportAtlas

open Text Lexeme Outcome

namespace Lexeme

theorem lt_of_templateChunkFrom {n m : Nat} {e : ChunkEnd} {cs : List Char}
    (h : templateChunkFrom n cs = some (e, m)) : n < m := by
  fun_induction templateChunkFrom n cs with
  | case1 => contradiction
  | case2 => contradiction
  | case3 _ _ _ ih => exact Nat.lt_of_le_of_lt (Nat.le_add_right _ 2) (ih h)
  | case4 => simp_all; omega
  | case5 => simp_all; omega
  | case6 _ _ _ _ _ _ _ ih => exact Nat.lt_of_succ_lt (ih h)

theorem lt_of_regexBodyFrom {inClass : Bool} {n m : Nat} {cs : List Char}
    (h : regexBodyFrom inClass n cs = some m) : n < m := by
  fun_induction regexBodyFrom inClass n cs with
  | case1 => contradiction
  | case2 => contradiction
  | case3 => contradiction
  | case4 _ _ _ _ ih => exact Nat.lt_of_le_of_lt (Nat.le_add_right _ 2) (ih h)
  | case5 _ _ _ ih => exact Nat.lt_of_succ_lt (ih h)
  | case6 _ _ _ ih => exact Nat.lt_of_succ_lt (ih h)
  | case7 => simp_all; omega
  | case8 _ _ _ _ _ _ _ _ _ _ ih => exact Nat.lt_of_succ_lt (ih h)

theorem regex?_pos {cs : List Char} {n : Nat} (h : regex? cs = some n) : 0 < n := by
  unfold regex? at h
  split at h
  · obtain ⟨m, hm, rfl⟩ := Option.map_eq_some_iff.1 h
    have := lt_of_regexBodyFrom hm
    omega
  · contradiction

end Lexeme

namespace Text.Cursor.Reaches

theorem of_importClause {start c : Cursor} {l : Literal} (h : importClause start c = .ok l) :
    Reaches c l.closing := by
  fun_induction importClause start c with
  | case1 => contradiction
  | case2 => contradiction
  | case3 => contradiction
  | case4 => contradiction
  | case5 => contradiction
  | case6 c t ht _ _ _ _ n _ _ u hu _ =>
    exact ((Reaches.of_skipTrivia ht).trans (.advance t n)).trans
      ((Reaches.of_skipTrivia hu).trans (.of_literal h))
  | case7 c t ht _ _ _ _ n _ _ _ _ _ ih =>
    exact ((Reaches.of_skipTrivia ht).trans (.advance t n)).trans (ih h)
  | case8 c t ht _ _ _ _ n _ _ ih =>
    exact ((Reaches.of_skipTrivia ht).trans (.advance t n)).trans (ih h)

theorem of_exportClauseEnd {start c d : Cursor} (h : exportClauseEnd start c = .ok d) :
    Reaches c d := by
  fun_induction exportClauseEnd start c with
  | case1 => contradiction
  | case2 => contradiction
  | case3 c t ht =>
    injection h with h
    exact h ▸ (Reaches.of_skipTrivia ht).trans (.advance t 1)
  | case4 => contradiction
  | case5 c t ht _ _ _ _ n _ ih =>
    exact ((Reaches.of_skipTrivia ht).trans (.advance t n)).trans (ih h)

theorem of_fromClause {start c : Cursor} {l : Literal} (h : fromClause start c = .ok l) :
    Reaches c l.closing := by
  obtain ⟨t, ht, h⟩ := bind_eq_ok.1 h
  split at h
  · obtain ⟨u, hu, h⟩ := bind_eq_ok.1 h
    split at h
    · exact ((Reaches.of_skipTrivia ht).trans (.advance t _)).trans
        ((Reaches.of_skipTrivia hu).trans (.of_literal h))
    · contradiction
  · contradiction

theorem of_skipWord {w : List Char} {c d : Cursor} (h : skipWord w c = .ok d) : Reaches c d := by
  unfold skipWord at h
  split at h
  · exact (Reaches.advance c _).trans (.of_skipTrivia h)
  · injection h with h
    exact h ▸ .refl c

theorem of_exportName {start c d : Cursor} (h : exportName start c = .ok d) : Reaches c d := by
  unfold exportName at h
  split at h
  · obtain ⟨t, ht, h⟩ := bind_eq_ok.1 h
    have hct := (Reaches.advance c 2).trans (.of_skipTrivia ht)
    split at h
    · obtain ⟨l, hl, h⟩ := bind_eq_ok.1 h
      exact pure_eq_ok.1 h ▸ hct.trans (.of_literal hl)
    · split at h
      · contradiction
      · exact pure_eq_ok.1 h ▸ hct.trans (.advance t _)
  · exact pure_eq_ok.1 h ▸ .refl c

theorem of_plainLiteral {c : Cursor} {l : Literal} (h : c.plainLiteral? = .ok (some l)) :
    Reaches c l.closing := by
  unfold plainLiteral? at h
  split at h
  · split at h
    · contradiction
    · cases h
      exact .advance c _
    · cases h
  · split at h
    · obtain ⟨m, hm, h⟩ := map_eq_ok.1 h
      cases h
      exact .of_literal hm
    · cases h

theorem of_dynamicArgument {c : Cursor} {l : Literal}
    (h : c.dynamicArgument = .ok (some l)) : Reaches c l.closing := by
  obtain ⟨t, ht, h⟩ := bind_eq_ok.1 h
  obtain ⟨m, hm, h⟩ := bind_eq_ok.1 h
  split at h
  · cases pure_eq_ok.1 h
  · obtain ⟨u, _, h⟩ := bind_eq_ok.1 h
    have h := pure_eq_ok.1 h
    split at h <;> cases h
    exact (Reaches.of_skipTrivia ht).trans (.of_plainLiteral hm)

end Text.Cursor.Reaches

namespace ScanState

theorem reaches_of_importWord {start : Cursor} {s s' : ScanState}
    (h : s.importWord start = .ok s') : s.cursor.Reaches s'.cursor := by
  obtain ⟨t, ht, h⟩ := bind_eq_ok.1 h
  have ht := Cursor.Reaches.of_skipTrivia ht
  split at h
  · exact pure_eq_ok.1 h ▸ .refl _
  · split at h
    · obtain ⟨l, hl, h⟩ := bind_eq_ok.1 h
      split at h <;> rw [← pure_eq_ok.1 h]
      · exact (ht.trans (.advance t 1)).trans (.of_dynamicArgument hl)
      · exact ht.trans (.advance t 1)
    · split at h
      · obtain ⟨l, hl, h⟩ := bind_eq_ok.1 h
        exact pure_eq_ok.1 h ▸ ht.trans (.of_literal hl)
      · split at h
        · obtain ⟨l, hl, h⟩ := bind_eq_ok.1 h
          exact pure_eq_ok.1 h ▸ ht.trans (.of_importClause hl)
        · exact pure_eq_ok.1 h ▸ .refl _

theorem reaches_of_exportWord {start : Cursor} {s s' : ScanState}
    (h : s.exportWord start = .ok s') : s.cursor.Reaches s'.cursor := by
  obtain ⟨t, ht, h⟩ := bind_eq_ok.1 h
  obtain ⟨t', ht', h⟩ := bind_eq_ok.1 h
  have ht := (Cursor.Reaches.of_skipTrivia ht).trans (.of_skipWord ht')
  split at h
  · obtain ⟨u, hu, h⟩ := bind_eq_ok.1 h
    obtain ⟨v, hv, h⟩ := bind_eq_ok.1 h
    obtain ⟨l, hl, h⟩ := bind_eq_ok.1 h
    exact pure_eq_ok.1 h ▸ ((ht.trans (.advance t' 1)).trans (.of_skipTrivia hu)).trans
      ((Cursor.Reaches.of_exportName hv).trans (.of_fromClause hl))
  · obtain ⟨u, hu, h⟩ := bind_eq_ok.1 h
    have hu := (ht.trans (.advance t' 1)).trans (.of_exportClauseEnd hu)
    obtain ⟨v, _, h⟩ := bind_eq_ok.1 h
    split at h
    · obtain ⟨l, hl, h⟩ := bind_eq_ok.1 h
      exact pure_eq_ok.1 h ▸ hu.trans (.of_fromClause hl)
    · exact pure_eq_ok.1 h ▸ hu
  · exact pure_eq_ok.1 h ▸ .refl _

theorem reaches_of_requireWord {start : Cursor} {t : LastToken} {s s' : ScanState}
    (h : s.requireWord start t = .ok s') : s.cursor.Reaches s'.cursor := by
  obtain ⟨u, _, h⟩ := bind_eq_ok.1 h
  split at h
  · contradiction
  · exact pure_eq_ok.1 h ▸ .refl _

theorem reaches_of_wordToken {c : Cursor} {s s' : ScanState} (h : s.wordToken c = .ok s') :
    (c.advance (word c.rest).length).Reaches s'.cursor := by
  unfold wordToken at h
  dsimp only at h
  split at h
  · cases h
    exact .refl _
  · split at h
    · exact reaches_of_importWord h
    · split at h
      · exact reaches_of_exportWord h
      · split at h
        · exact reaches_of_requireWord h
        · cases h
          exact .refl _

theorem length_lt_of_token {x : Char} {c : Cursor} {s s' : ScanState} (hc : c.rest ≠ [])
    (h : s.token x c = .ok s') : s'.cursor.rest.length < c.rest.length := by
  have one : (c.advance 1).rest.length < c.rest.length :=
    (Cursor.Reaches.refl _).length_lt Nat.one_pos hc
  unfold token at h
  split at h
  · cases h
    unfold slashToken
    split
    · rename_i n hn
      split at hn
      · exact (Cursor.Reaches.refl _).length_lt (regex?_pos hn) hc
      · cases hn
    · exact one
  split at h
  · obtain ⟨l, hl, h⟩ := bind_eq_ok.1 h
    cases pure_eq_ok.1 h
    have hpos := Cursor.length_pos_of_literal hl
    cases Cursor.opening_of_literal hl
    exact (Cursor.Reaches.refl _).length_lt hpos hc
  split at h
  · cases h
    exact one
  split at h
  · cases h
    exact one
  split at h
  · cases h
    unfold closeBrace
    split <;> exact one
  split at h
  · cases h
    refine (Cursor.Reaches.refl _).length_lt ?_ hc
    cases hr : c.rest with
    | nil => contradiction
    | cons => simp [number]
  split at h
  · cases h
    exact one
  split at h
  · cases h
    exact one
  split at h
  · refine (reaches_of_wordToken h).length_lt ?_ hc
    cases hr : c.rest with
    | nil => contradiction
    | cons => simp [word]
  · cases h
    exact one

theorem length_lt_of_templateText {opening : Cursor} {s s' : ScanState}
    (h : s.templateText opening = .ok s') :
    s'.cursor.rest.length < s.cursor.rest.length := by
  have hne {e n} (hn : templateChunk? s.cursor.rest = some (e, n)) : s.cursor.rest ≠ [] := by
    rintro hnil
    rw [hnil] at hn
    cases hn
  unfold templateText at h
  split at h
  · contradiction
  · rename_i hn
    cases h
    exact (Cursor.Reaches.refl _).length_lt (lt_of_templateChunkFrom hn) (hne hn)
  · rename_i hn
    cases h
    exact (Cursor.Reaches.refl _).length_lt (lt_of_templateChunkFrom hn) (hne hn)

theorem length_lt_of_step {s s' : ScanState} (h : s.step = .ok (some s')) :
    s'.cursor.rest.length < s.cursor.rest.length := by
  unfold step at h
  split at h
  · obtain ⟨t, ht, h⟩ := functor_map_eq_ok.1 h
    cases h
    exact length_lt_of_templateText ht
  · obtain ⟨c, hc, h⟩ := bind_eq_ok.1 h
    have hle := (Cursor.Reaches.of_skipTrivia hc).length_le
    split at h
    · split at h
      · cases pure_eq_ok.1 h
      · contradiction
    · rename_i hr
      obtain ⟨t, ht, h⟩ := functor_map_eq_ok.1 h
      cases h
      exact Nat.lt_of_lt_of_le (length_lt_of_token (by simp [hr]) ht) hle

end ScanState

end ImportAtlas
