import ImportAtlas.Proofs.Erasure.Heading

/-! What is left of a text without its comments about source maps.  It is part of the
text.  Erasing once more changes nothing if no line of it begins with such a comment, and
one does just if the first time exposed it. -/

namespace ImportAtlas

open Text Lexeme

namespace Text.Cursor

variable {A E : List Char} {c d : Cursor}

theorem eq_nil_or_of_startsLine (h : c.startsLine = true) :
    c.before.reverse = [] ∨ ∃ P, c.before.reverse = P ++ ['\n'] := by
  obtain ⟨before, rest⟩ := c
  cases before with
  | nil => exact .inl rfl
  | cons x before =>
    obtain rfl : x = '\n' := by simpa [startsLine] using h
    exact .inr ⟨before.reverse, by simp⟩

theorem startsLine_reverse {P : List Char} (h : P = [] ∨ ∃ P', P = P' ++ ['\n']) :
    startsLine ⟨P.reverse, A⟩ = true := by
  rcases h with rfl | ⟨P, rfl⟩ <;> simp [startsLine]

theorem Passes.startsLine_of_feed (hp : c.Passes E d) (h : c.rest = A ++ '\n' :: d.rest) :
    d.startsLine = true := by
  have hE : E = A ++ ['\n'] :=
    List.append_cancel_right (by rw [← hp.rest_eq, h, List.append_assoc]; rfl)
  subst hE
  exact hp.startsLine_eq

theorem Passes.exists_split (hA : c.Passes A d) {e : Cursor} (hE : c.Passes E e) :
    (∃ B, E = A ++ B ∧ d.Passes B e) ∨ e.Reaches d := by
  rcases List.append_eq_append_iff.1 (hA.rest_eq.symm.trans hE.rest_eq) with
    ⟨B, rfl, -⟩ | ⟨B, rfl, -⟩
  · obtain ⟨d', hd, he⟩ := hE.split
    exact .inl ⟨B, rfl, hd.unique hA ▸ he⟩
  · obtain ⟨e', he, hd⟩ := hA.split
    exact .inr (he.unique hE ▸ hd.reaches)

end Text.Cursor

namespace Erasure

variable {rest? : List Char → Option (List Char)} {A E H P Q k cs : List Char}
  {b c d e r : Cursor}

theorem eraseFrom_sublist (form : Form) (skip : Nat) (lineStart : Bool) (cs : List Char) :
    (eraseFrom form skip lineStart cs).Sublist cs := by
  fun_induction eraseFrom form skip lineStart cs with
  | case1 => exact List.Sublist.refl _
  | case2 _ _ _ _ ih => exact ih.cons _
  | case3 _ _ ih => exact ih.cons_cons _
  | case4 _ _ _ _ ih => exact ih.cons _
  | case5 _ _ _ ih => exact ih.cons_cons _

theorem erase_sublist (form : Form) (cs : List Char) : (erase form cs).Sublist cs :=
  eraseFrom_sublist form 0 true cs

theorem remains_ofText (rest? : List Char → Option (List Char)) (cs : List Char) :
    remains rest? (.ofText cs) = erase (.ofRest rest?) cs := rfl

def Lacks (rest? : List Char → Option (List Char)) (cs : List Char) : Prop :=
  ∀ c : Cursor, c.text = cs → c.startsLine = true → rest? c.rest = none

/-- A line begins here, in the text or in what is left of it. -/
def BeginsLine (rest? : List Char → Option (List Char)) (c : Cursor) : Prop :=
  c.startsLine = true ∨ ∃ E e, Erases rest? E e c

section Places

variable (hslash : OpensWithSlash rest?)

include hslash

theorem erase_eq_self_iff : erase (.ofRest rest?) cs = cs ↔ Lacks rest? cs := by
  have hall : (Cursor.ofText cs).Passes cs ⟨cs.reverse, []⟩ :=
    ⟨(List.append_nil cs).symm, (List.append_nil cs.reverse).symm⟩
  constructor
  · intro h c hc hstart
    rcases exists_first rest? hall with hspares | ⟨B, C, E, e, q, rfl, -, hB, hE, hspares⟩
    · cases hrest : rest? c.rest with
      | none => rfl
      | some k =>
        obtain ⟨E, d, hE⟩ := hslash.exists_erases hstart hrest
        have hne : c.rest ≠ [] := by
          rw [hE.passes.rest_eq]
          simp [hE.ne_nil hslash]
        have hc' : (Cursor.ofText cs).Passes c.before.reverse c :=
          ⟨hc.symm, by simp [Cursor.ofText]⟩
        exact absurd hE (hspares _ c.rest c hc.symm hne hc' E d)
    · have hlt := List.length_pos_iff.2 (hE.ne_nil hslash)
      have hle := (eraseFrom_sublist (.ofRest rest?) 0 q.startsLine q.rest).length_le
      rw [← remains_ofText, remains_append hslash hspares hB, hE.remains_eq hslash] at h
      have hlen := congrArg List.length (h.trans (hB.rest_eq.trans (by rw [hE.passes.rest_eq])))
      simp only [List.length_append, remains] at hlen
      omega
  · intro h
    have hspares : Spares rest? (.ofText cs) cs := by
      intro B C d _ _ hd E e hE
      have hnone := h d (hd.reaches.text_eq) hE.startsLine
      rw [hE.rest_eq] at hnone
      contradiction
    rw [← remains_ofText, remains_append hslash hspares hall, remains_of_nil rfl, List.append_nil]

theorem exists_place (h : remains rest? c = P ++ Q)
    (hP : P = [] ∧ BeginsLine rest? c ∨ ∃ P', P = P' ++ ['\n']) :
    ∃ b, c.Reaches b ∧ Q = remains rest? b ∧ Stays rest? b ∧ BeginsLine rest? b := by
  induction hn : c.rest.length using Nat.strong_induction_on generalizing c P with
  | h n ih =>
    subst hn
    by_cases hstays : Stays rest? c
    · rcases hP with ⟨rfl, hbegins⟩ | ⟨P, rfl⟩
      · exact ⟨c, .refl c, h.symm, hstays, hbegins⟩
      cases hr : c.rest with
      | nil =>
        rw [remains_of_nil hr] at h
        simp at h
      | cons x k =>
        obtain ⟨d, hd, rfl⟩ := Cursor.exists_passes (A := [x]) hr
        have hlt : d.rest.length < c.rest.length := by simp [hr]
        rw [remains_cons hslash hstays hd] at h
        obtain ⟨b, hb, hplace⟩ : ∃ b, d.Reaches b ∧ Q = remains rest? b ∧ Stays rest? b ∧
            BeginsLine rest? b := by
          cases P with
          | nil =>
            obtain ⟨rfl, htail⟩ := List.cons.inj h
            exact ih _ hlt htail (.inl ⟨rfl, .inl (Cursor.Passes.startsLine_eq (A := []) hd)⟩) rfl
          | cons y P =>
            exact ih _ hlt (List.cons.inj h).2 (.inr ⟨P, rfl⟩) rfl
        exact ⟨b, hd.reaches.trans hb, hplace⟩
    · simp only [Stays, not_forall, not_not] at hstays
      obtain ⟨E, q, hE⟩ := hstays
      have hlt := List.length_pos_iff.2 (hE.ne_nil hslash)
      rw [hE.remains_eq hslash] at h
      obtain ⟨b, hb, hplace⟩ :=
        ih q.rest.length (by rw [hE.passes.rest_eq, List.length_append]; omega) h
          (hP.imp_left fun hP => ⟨hP.1, .inr ⟨E, c, hE⟩⟩) rfl
      exact ⟨b, hE.passes.reaches.trans hb, hplace⟩

theorem exists_passes_of_remains (hstays : Stays rest? c) (hH : '\n' ∉ H)
    (h : remains rest? c = H ++ k) : ∃ d, c.Passes H d ∧ k = remains rest? d := by
  induction H generalizing c with
  | nil => exact ⟨c, .refl c, h.symm⟩
  | cons x H ih =>
    rw [List.mem_cons, not_or] at hH
    cases hr : c.rest with
    | nil =>
      rw [remains_of_nil hr] at h
      contradiction
    | cons y k' =>
      obtain ⟨d, hd, rfl⟩ := Cursor.exists_passes (A := [y]) hr
      rw [remains_cons hslash hstays hd] at h
      obtain ⟨rfl, htail⟩ := List.cons.inj h
      obtain ⟨e, he, hk⟩ := ih (stays_after hd (Ne.symm hH.1)) hH.2 htail
      exact ⟨e, hd.trans he, hk⟩

theorem remains_of_passes (hstays : Stays rest? c) (hH : '\n' ∉ H) (hp : c.Passes H d) :
    remains rest? c = H ++ remains rest? d := by
  refine remains_append hslash (fun B C e hBC _ he => ?_) hp
  rcases List.eq_nil_or_concat' B with rfl | ⟨B, x, rfl⟩
  · exact he.unique (.refl c) ▸ hstays
  · refine stays_of_startsLine (he.startsLine_eq.trans (decide_eq_false ?_))
    rintro rfl
    exact hH (by simp [hBC])

theorem closes_of_remains (h : Closes (remains rest? c)) :
    Closes c.rest ∨ ∃ A e E d, c.Passes A e ∧ '*' ∉ A ∧ Erases rest? E e d ∧
      Closes (remains rest? d) := by
  have hall : c.Passes c.rest ⟨c.rest.reverse ++ c.before, []⟩ := ⟨by simp, rfl⟩
  rcases exists_first rest? hall with hspares | ⟨B, C, E, e, d, -, -, hB, hE, hspares⟩
  · rw [remains_append hslash hspares hall, remains_of_nil rfl, List.append_nil] at h
    exact .inl h
  rw [remains_append hslash hspares hB, hE.remains_eq hslash] at h
  by_cases hstar : '*' ∈ B
  · -- the star stands before the end of a line
    left
    rw [hB.rest_eq]
    obtain ⟨X, B, rfl, hX⟩ := List.eq_append_cons_of_mem hstar
    rw [List.append_assoc, closes_append hX, List.cons_append, closes_star] at h ⊢
    cases B with
    | nil =>
      have hstart := hE.startsLine
      rw [hB.startsLine_eq] at hstart
      exact absurd hstart (by decide)
    | cons y B => exact h
  · exact .inr ⟨B, e, E, d, hB, hstar, hE, (closes_append hstar).1 h⟩

end Places

theorem lacks_erase_line (cs : List Char) :
    Lacks lineMapRest? (erase (.ofRest lineMapRest?) cs) := by
  intro p hp hstart
  by_contra hrest
  obtain ⟨H, k, hH, hline⟩ := lineMapRest?_isSome.1 (Option.isSome_iff_ne_none.2 hrest)
  obtain ⟨b, -, hQ, hstays, hbegins⟩ :=
    exists_place (c := .ofText cs) opensWithSlash_line (hp.symm : _ = p.before.reverse ++ p.rest)
      ((Cursor.eq_nil_or_of_startsLine hstart).imp_left fun h => ⟨h, .inl rfl⟩)
  obtain ⟨d, hd, -⟩ := exists_passes_of_remains opensWithSlash_line hstays
    (hH.not_mem_newline (by decide)) (hQ.symm.trans hline)
  have hb : b.startsLine = false := by
    by_contra hb
    obtain ⟨k, hk⟩ := Option.isSome_iff_exists.1
      (lineMapRest?_isSome.2 ⟨H, d.rest, hH, hd.rest_eq⟩)
    obtain ⟨E, e, hE⟩ := opensWithSlash_line.exists_erases (by simpa using hb) hk
    exact hstays E e hE
  -- what is erased before goes up to the end of the line
  obtain ⟨E, e, hE⟩ := hbegins.resolve_left (by simp [hb])
  obtain ⟨H', X, L, -, hL, heq, hend⟩ := exists_of_lineMapRest? hE.rest_eq
  rcases hL.eq_nil_or with rfl | ⟨R, -, rfl⟩
  · obtain ⟨I, E', rfl, hI⟩ := hH.exists_slash
    have hreturn := hend rfl
    rw [hd.rest_eq] at hreturn
    cases I with
    | nil => exact absurd hreturn (by simp)
    | cons x I =>
      have hx := hI x List.mem_cons_self
      obtain rfl : x = '\r' := by simpa using hreturn
      exact absurd hx (by decide)
  · rw [hE.passes.startsLine_of_feed (A := H' ++ (X ++ R)) (by rw [heq]; simp)] at hb
    contradiction

/-- No comment about a source map begins a line of the text.  A block comment is one if
it ends at the first star. -/
structure Clean (cs : List Char) : Prop where
  line : ∀ (c : Cursor) (H k : List Char), c.text = cs → c.startsLine = true →
    Heading '/' H → c.rest ≠ H ++ k
  block : ∀ (c : Cursor) (H k : List Char), c.text = cs → c.startsLine = true →
    Heading '*' H → c.rest = H ++ k → ¬ Closes k

/-- No complete comment about a source map begins a line of the text.  A block comment
ends at the first star with a slash behind it, whatever stands before that. -/
structure Bare (cs : List Char) : Prop extends Clean cs where
  closed : ∀ (c : Cursor) (H k : List Char), c.text = cs → c.startsLine = true →
    Heading '*' H → c.rest = H ++ k → ¬ ['*', '/'] <:+: k

theorem clean_iff : Clean cs ↔ Lacks lineMapRest? cs ∧ Lacks blockMapRest? cs := by
  simp only [Lacks, ← Option.not_isSome_iff_eq_none, lineMapRest?_isSome, blockMapRest?_isSome]
  constructor
  · rintro ⟨hline, hblock⟩
    exact ⟨fun c hc hs ⟨H, k, hH, hk⟩ => hline c H k hc hs hH hk,
      fun c hc hs ⟨H, k, hH, hk, hcloses⟩ => hblock c H k hc hs hH hk hcloses⟩
  · rintro ⟨hline, hblock⟩
    exact ⟨fun c H k hc hs hH hk => hline c hc hs ⟨H, k, hH, hk⟩,
      fun c H k hc hs hH hk hcloses => hblock c hc hs ⟨H, k, hH, hk, hcloses⟩⟩

/-- The comment from `c` to `d`, once erased, lets another one begin a line.  That one
stands behind it, or around it: it opens a line before and is closed only after. -/
inductive Exposes (c d : Cursor) : Prop
  | line {H k : List Char} : d.startsLine = false → Heading '/' H → d.rest = H ++ k → Exposes c d
  | block {H k : List Char} : d.startsLine = false → Heading '*' H →
      remains blockMapRest? d = H ++ k → Closes k → Exposes c d
  | around {b : Cursor} {H A : List Char} : b.startsLine = true → Heading '*' H → '*' ∉ A →
      b.Passes (H ++ A) c → Closes (remains blockMapRest? d) → Exposes c d

theorem Erases.exists_heading (h : Erases blockMapRest? E c d) :
    ∃ H k, Heading '*' H ∧ c.rest = H ++ k := by
  obtain ⟨H, k, hH, hk, -⟩ := blockMapRest?_isSome.1 (Option.isSome_iff_exists.2 ⟨_, h.rest_eq⟩)
  exact ⟨H, k, hH, hk⟩

theorem Erases.exists_eq (h : Erases blockMapRest? E c d) :
    ∃ H X I L, Heading '*' H ∧ '*' ∉ X ∧ (∀ c ∈ I, isIndent c = true) ∧ LineEnd L ∧
      E = H ++ (X ++ '*' :: '/' :: (I ++ L)) := by
  obtain ⟨H, X, I, L, hH, hX, hI, hL, heq⟩ := exists_of_blockMapRest? h.rest_eq
  refine ⟨H, X, I, L, hH, hX, hI, hL, List.append_cancel_right (?_ : E ++ d.rest = _ ++ d.rest)⟩
  rw [← h.passes.rest_eq, heq]
  simp

theorem not_mem_newline_of_append {I L B : List Char} (hI : ∀ c ∈ I, isIndent c = true)
    (hL : LineEnd L) (h : A ++ B = '*' :: '/' :: (I ++ L)) (hB : B ≠ []) : '\n' ∉ A := by
  have hT : '\n' ∉ '*' :: '/' :: I := by
    simp only [List.mem_cons, not_or]
    exact ⟨by decide, by decide, fun hc => absurd (hI _ hc) (by decide)⟩
  have hprefix {T : List Char} (hT : '\n' ∉ T) {B : List Char} (h : A ++ B = T) : '\n' ∉ A :=
    fun hA => hT (h ▸ List.mem_append_left B hA)
  rcases hL.eq_nil_or with rfl | ⟨R, hR, rfl⟩
  · exact hprefix hT (by rw [h, List.append_nil])
  · obtain ⟨B, x, rfl⟩ := (List.eq_nil_or_concat' B).resolve_left hB
    have hTR : '\n' ∉ '*' :: '/' :: I ++ R := by
      rw [List.mem_append, not_or]
      exact ⟨hT, hR⟩
    have hconcat : (A ++ B) ++ [x] = ('*' :: '/' :: I ++ R) ++ ['\n'] := by
      rw [List.append_assoc, h]
      simp
    exact hprefix hTR (List.append_inj_left' hconcat rfl)

theorem Erases.eq_nil_of_heading (h : Erases blockMapRest? (A ++ E) c d) (hA : c.Passes A b)
    (hE : b.Passes E d) (hne : A ≠ []) (hstart : b.startsLine = true) (hH : Heading '*' H)
    (hb : b.rest = H ++ k) : E = [] := by
  by_contra hE'
  obtain ⟨A, x, rfl⟩ := (List.eq_nil_or_concat' A).resolve_left hne
  rw [hA.startsLine_eq, decide_eq_true_eq] at hstart
  subst hstart
  obtain ⟨H', X, I, L, hH', hX, hI, hL, heq⟩ := h.exists_eq
  have hnotcloses : ¬ Closes (E ++ d.rest) := by
    rw [← hE.rest_eq, hb]
    exact hH.not_closes
  rcases List.append_eq_append_iff.1 heq with ⟨B, rfl, -⟩ | ⟨B, hA', heq⟩
  · exact hH'.not_mem_newline (by decide) (by simp)
  rcases List.append_eq_append_iff.1 heq with ⟨B', rfl, htail⟩ | ⟨B', rfl, rfl⟩
  · -- behind the star nothing opens a line before the end
    rcases List.eq_nil_or_concat' B' with rfl | ⟨B', x, rfl⟩
    · exact hnotcloses ⟨[], _, by simp, by rw [← List.nil_append E, ← htail]; rfl⟩
    · obtain rfl : '\n' = x := by simpa using congrArg List.getLast? hA'
      exact not_mem_newline_of_append hI hL htail.symm hE' (by simp)
  · -- the first star is that of the end
    refine hnotcloses ⟨B', I ++ L ++ d.rest, fun hc => hX (List.mem_append_right B hc), ?_⟩
    rw [List.append_assoc]
    rfl

theorem exists_remains_of_heading (hr : r.Reaches b) (hstart : b.startsLine = true)
    (hH : Heading '*' H) (hb : b.rest = H ++ k) :
    ∃ P, remains blockMapRest? r = P ++ remains blockMapRest? b ∧
      (P = [] ∧ r.startsLine = true ∨ ∃ P', P = P' ++ ['\n']) := by
  obtain ⟨A, hA⟩ := Cursor.Passes.of_reaches hr
  induction hn : A.length using Nat.strong_induction_on generalizing r A with
  | h n ih =>
    subst hn
    cases A with
    | nil =>
      obtain rfl := hA.unique (.refl r)
      exact ⟨[], rfl, .inl ⟨rfl, hstart⟩⟩
    | cons x A =>
      by_cases hstays : Stays blockMapRest? r
      · obtain ⟨r', hr', hA'⟩ := Cursor.Passes.split (A := [x]) hA
        obtain ⟨P, hP, hline⟩ := ih A.length (by simp) hA'.reaches A hA' rfl
        refine ⟨x :: P, ?_, .inr ?_⟩
        · rw [remains_cons opensWithSlash_block hstays hr', hP, List.cons_append]
        · rcases hline with ⟨rfl, hline⟩ | ⟨P, rfl⟩
          · rw [Cursor.Passes.startsLine_eq (A := []) hr', decide_eq_true_eq] at hline
            exact ⟨[], by rw [hline]; rfl⟩
          · exact ⟨x :: P, rfl⟩
      · simp only [Stays, not_forall, not_not] at hstays
        obtain ⟨E, q, hE⟩ := hstays
        have hq : q.Reaches b := by
          rcases hA.exists_split hE.passes with ⟨B, rfl, hB⟩ | hq
          · obtain rfl := hE.eq_nil_of_heading hA hB (by simp) hstart hH hb
            exact hB.unique (.refl b) ▸ .refl b
          · exact hq
        obtain ⟨B, hB⟩ := Cursor.Passes.of_reaches hq
        have hlen := congrArg List.length (hA.text_unique (hE.passes.trans hB))
        have hlt := List.length_pos_iff.2 (hE.ne_nil opensWithSlash_block)
        rw [List.length_append] at hlen
        obtain ⟨P, hP, hline⟩ := ih B.length (by omega) hq B hB rfl
        rw [hE.remains_eq opensWithSlash_block]
        exact ⟨P, hP, hline.imp_left fun hP => ⟨hP.1, hE.startsLine⟩⟩

theorem Erases.mem_star (h : Erases blockMapRest? E c d) : '*' ∈ E := by
  obtain ⟨H, X, I, L, -, -, -, -, rfl⟩ := h.exists_eq
  simp

theorem spares_of_heading (hA : '*' ∉ A) (hc : b.Passes A c) (hstart : c.startsLine = true)
    (hH : Heading '*' H) (hrest : c.rest = H ++ k) : Spares blockMapRest? b A := by
  rintro B C x rfl hC hB E q hE
  obtain ⟨x', hx', hC'⟩ := hc.split
  obtain rfl := hx'.unique hB
  have hstar {D : List Char} (hCD : C = E ++ D) : False :=
    hA (List.mem_append_right B (hCD ▸ List.mem_append_left D hE.mem_star))
  rcases hC'.exists_split hE.passes with ⟨D, rfl, hD⟩ | hq
  · obtain rfl := hE.eq_nil_of_heading hC' hD hC hstart hH hrest
    exact hstar (D := []) (by simp)
  · obtain ⟨D, hD⟩ := Cursor.Passes.of_reaches hq
    exact hstar (hC'.text_unique (hE.passes.trans hD))

variable {ls : List Char}

theorem exists_opening (hb : b.text = ls) (hstart : b.startsLine = true) (hH : Heading '*' H)
    (hrest : b.rest = H ++ k) : ∃ p : Cursor, p.text = erase (.ofRest blockMapRest?) ls ∧
      p.startsLine = true ∧ p.rest = remains blockMapRest? b := by
  have hr : (Cursor.ofText ls).Reaches b :=
    Cursor.Passes.reaches (A := b.before.reverse) ⟨hb.symm, by simp [Cursor.ofText]⟩
  obtain ⟨P, hP, hline⟩ := exists_remains_of_heading hr hstart hH hrest
  refine ⟨⟨P.reverse, remains blockMapRest? b⟩, ?_, ?_, rfl⟩
  · rw [← remains_ofText, hP, Cursor.text, List.reverse_reverse]
  · exact Cursor.startsLine_reverse (hline.imp_left And.left)

theorem exists_beginsLine {p : Cursor} (hp : p.text = erase (.ofRest blockMapRest?) ls)
    (hstart : p.startsLine = true) : ∃ b : Cursor, b.text = ls ∧
      p.rest = remains blockMapRest? b ∧ Stays blockMapRest? b ∧ BeginsLine blockMapRest? b := by
  obtain ⟨b, hb, hplace⟩ := exists_place (c := .ofText ls) opensWithSlash_block
    (hp.symm : _ = p.before.reverse ++ p.rest)
    ((Cursor.eq_nil_or_of_startsLine hstart).imp_left fun h => ⟨h, .inl rfl⟩)
  exact ⟨b, hb.text_eq, hplace⟩

theorem not_exposes_of_clean (hclean : Clean (erase (.ofRest blockMapRest?) ls)) (hc : c.text = ls)
    (hE : Erases blockMapRest? E c d) : ¬ Exposes c d := by
  intro hexposes
  obtain ⟨H', k', hH', hk'⟩ := hE.exists_heading
  obtain ⟨p, hp, hstart, hrest⟩ := exists_opening hc hE.startsLine hH' hk'
  rw [hE.remains_eq opensWithSlash_block] at hrest
  cases hexposes with
  | line hd hH hk =>
    obtain ⟨e, he, -⟩ := Cursor.exists_passes hk
    rw [remains_of_passes opensWithSlash_block (stays_of_startsLine hd)
      (hH.not_mem_newline (by decide)) he] at hrest
    exact hclean.line p _ _ hp hstart hH hrest
  | block hd hH hk hcloses => exact hclean.block p _ _ hp hstart hH (hrest.trans hk) hcloses
  | @around b H A hb hH hA hpasses hcloses =>
    obtain ⟨e, he, hAc⟩ := hpasses.split
    -- the comment that is erased opens before the heading is closed
    have hstays : Stays blockMapRest? b := by
      intro E q hE
      have hopen : ¬ Closes e.rest := by
        rw [hAc.rest_eq, closes_append hA, hk']
        exact hH'.not_closes
      refine hopen (hH.isSome_blockMapRest?.1 ?_)
      rw [← he.rest_eq, hE.rest_eq]
      rfl
    obtain ⟨p', hp', hstart', hrest'⟩ :=
      exists_opening (hpasses.reaches.text_eq.symm.trans hc) hb hH he.rest_eq
    rw [remains_of_passes opensWithSlash_block hstays (hH.not_mem_newline (by decide)) he,
      remains_append opensWithSlash_block (spares_of_heading hA hAc hE.startsLine hH' hk') hAc,
      hE.remains_eq opensWithSlash_block] at hrest'
    exact hclean.block p' _ _ hp' hstart' hH hrest' ((closes_append hA).2 hcloses)

theorem clean_of_not_exposes (hls : Lacks lineMapRest? ls)
    (hexposes : ∀ E c d, c.text = ls → Erases blockMapRest? E c d → ¬ Exposes c d) :
    Clean (erase (.ofRest blockMapRest?) ls) := by
  constructor
  case line =>
    intro p H k hp hstart hH hk
    obtain ⟨b, htext, hrest, hstays, hbegins⟩ := exists_beginsLine hp hstart
    obtain ⟨e, he, -⟩ := exists_passes_of_remains opensWithSlash_block hstays
      (hH.not_mem_newline (by decide)) (hrest.symm.trans hk)
    by_cases hb : b.startsLine = true
    · exact absurd (hls b htext hb)
        (Option.isSome_iff_ne_none.1 (lineMapRest?_isSome.2 ⟨H, e.rest, hH, he.rest_eq⟩))
    · obtain ⟨E, c, hE⟩ := hbegins.resolve_left hb
      exact hexposes E c b (hE.passes.reaches.text_eq.symm.trans htext) hE
        (.line (by simpa using hb) hH he.rest_eq)
  case block =>
    intro p H k hp hstart hH hk hcloses
    obtain ⟨b, htext, hrest, hstays, hbegins⟩ := exists_beginsLine hp hstart
    obtain ⟨e, he, rfl⟩ := exists_passes_of_remains opensWithSlash_block hstays
      (hH.not_mem_newline (by decide)) (hrest.symm.trans hk)
    by_cases hb : b.startsLine = true
    · rcases closes_of_remains opensWithSlash_block hcloses with
        hcloses | ⟨A, c, E, d, hA, hstar, hE, hcloses⟩
      · obtain ⟨k, hk⟩ := Option.isSome_iff_exists.1 (hH.isSome_blockMapRest?.2 hcloses)
        rw [← he.rest_eq] at hk
        obtain ⟨E, q, hE⟩ := opensWithSlash_block.exists_erases hb hk
        exact hstays E q hE
      · have hpasses := he.trans hA
        exact hexposes E c d (hpasses.reaches.text_eq.trans htext) hE
          (.around hb hH hstar hpasses hcloses)
    · obtain ⟨E, c, hE⟩ := hbegins.resolve_left hb
      exact hexposes E c b (hE.passes.reaches.text_eq.symm.trans htext) hE
        (.block (by simpa using hb) hH (hrest.symm.trans hk) hcloses)

theorem clean_erase_block_iff (hls : Lacks lineMapRest? ls) :
    Clean (erase (.ofRest blockMapRest?) ls) ↔
      ∀ E c d, c.text = ls → Erases blockMapRest? E c d → ¬ Exposes c d :=
  ⟨fun hclean _ _ _ hc hE => not_exposes_of_clean hclean hc hE, clean_of_not_exposes hls⟩

theorem exists_line_of_beginsLine (hb : b.text = ls) (hbegins : BeginsLine blockMapRest? b)
    (hstays : Stays blockMapRest? b) (hH : Heading '*' H) (he : b.Passes H e) :
    ∃ p : Cursor, p.text = erase (.ofRest blockMapRest?) ls ∧ p.startsLine = true ∧
      p.rest = H ++ remains blockMapRest? e := by
  rw [← remains_of_passes opensWithSlash_block hstays (hH.not_mem_newline (by decide)) he]
  rcases hbegins with hstart | ⟨E, c, hE⟩
  · exact exists_opening hb hstart hH he.rest_eq
  · obtain ⟨H', k', hH', hk'⟩ := hE.exists_heading
    rw [← hE.remains_eq opensWithSlash_block]
    exact exists_opening (hE.passes.reaches.text_eq.symm.trans hb) hE.startsLine hH' hk'

theorem bare_erase_block_iff : Bare (erase (.ofRest blockMapRest?) ls) ↔
    Clean (erase (.ofRest blockMapRest?) ls) ∧ ∀ b H e, b.text = ls →
      BeginsLine blockMapRest? b → Stays blockMapRest? b → Heading '*' H → b.Passes H e →
      ¬ ['*', '/'] <:+: remains blockMapRest? e := by
  constructor
  · intro hbare
    refine ⟨hbare.toClean, fun b H e hb hbegins hstays hH he => ?_⟩
    obtain ⟨p, hp, hstart, hrest⟩ := exists_line_of_beginsLine hb hbegins hstays hH he
    exact hbare.closed p H _ hp hstart hH hrest
  · rintro ⟨hclean, hclosed⟩
    refine ⟨hclean, fun p H k hp hstart hH hk => ?_⟩
    obtain ⟨b, hb, hrest, hstays, hbegins⟩ := exists_beginsLine hp hstart
    obtain ⟨e, he, rfl⟩ := exists_passes_of_remains opensWithSlash_block hstays
      (hH.not_mem_newline (by decide)) (hrest.symm.trans hk)
    exact hclosed b H e hb hbegins hstays hH he

theorem sourceMaps_eq_self_iff : sourceMaps cs = cs ↔ Clean cs := by
  rw [clean_iff, ← erase_eq_self_iff opensWithSlash_line, ← erase_eq_self_iff opensWithSlash_block]
  constructor
  · intro h
    have hle := (erase_sublist (.ofRest blockMapRest?) (erase (.ofRest lineMapRest?) cs)).length_le
    have hline : erase (.ofRest lineMapRest?) cs = cs :=
      (erase_sublist _ cs).eq_of_length_le ((congrArg List.length h).symm.le.trans hle)
    rw [sourceMaps, hline] at h
    exact ⟨hline, h⟩
  · rintro ⟨hline, hblock⟩
    rw [sourceMaps, hline, hblock]

/-- Only text is erased; what is left stays as it is just if no comment begins a line of
it, and that is so just if no block comment exposes another comment when it is erased.
A comment with a star within it stays, and begins a line of what is left. -/
theorem sourceMaps_characterized (cs : List Char) :
    (sourceMaps cs).Sublist cs ∧
    (sourceMaps (sourceMaps cs) = sourceMaps cs ↔ Clean (sourceMaps cs)) ∧
    (Clean (sourceMaps cs) ↔ ∀ E c d, c.text = erase (.ofRest lineMapRest?) cs →
      Erases blockMapRest? E c d → ¬ Exposes c d) ∧
    (Bare (sourceMaps cs) ↔ Clean (sourceMaps cs) ∧ ∀ b H e,
      b.text = erase (.ofRest lineMapRest?) cs → BeginsLine blockMapRest? b →
      Stays blockMapRest? b → Heading '*' H → b.Passes H e →
      ¬ ['*', '/'] <:+: remains blockMapRest? e) :=
  ⟨(erase_sublist _ _).trans (erase_sublist _ _), sourceMaps_eq_self_iff,
    clean_erase_block_iff (lacks_erase_line cs), bare_erase_block_iff⟩

example : sourceMaps "/*# sourceMappingURL=a*b */".toList =
    "/*# sourceMappingURL=a*b */".toList := by decide +kernel

def adjacentComments : List Char := "/*# sourceMappingURL=x*/ //# sourceMappingURL=y".toList

/-- The line comment is left, and erased the next time. -/
theorem sourceMaps_adjacentComments :
    sourceMaps adjacentComments = "//# sourceMappingURL=y".toList ∧
    sourceMaps (sourceMaps adjacentComments) = [] ∧ ¬ Clean (sourceMaps adjacentComments) := by
  have hfirst : sourceMaps adjacentComments = "//# sourceMappingURL=y".toList := by decide +kernel
  have hsecond : sourceMaps (sourceMaps adjacentComments) = [] := by decide +kernel
  refine ⟨hfirst, hsecond, fun hclean => ?_⟩
  have hsame := sourceMaps_eq_self_iff.2 hclean
  rw [hsecond, hfirst] at hsame
  exact absurd hsame (by decide)

end Erasure

end ImportAtlas
