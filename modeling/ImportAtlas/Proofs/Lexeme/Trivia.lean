import Mathlib.Data.List.Infix
import ImportAtlas.Proofs.Lexeme.Forms
import ImportAtlas.Reference.Basic

namespace ImportAtlas

namespace Lexeme

open Text

variable {A B k text : List Char} {n : Nat}

attribute [local simp] triviaFrom

/-- Blanks and closed comments. -/
inductive Trivia : List Char → Prop
  | nil : Trivia []
  | blank {c : Char} {A : List Char} : isBlank c = true → Trivia A → Trivia (c :: A)
  | line {text A : List Char} : '\n' ∉ text → Trivia A →
      Trivia ('/' :: '/' :: text ++ '\n' :: A)
  | block {text A : List Char} : ¬ ['*', '/'] <:+: text → Trivia A →
      Trivia ('/' :: '*' :: text ++ '*' :: '/' :: A)

def startsTrivia : List Char → Bool
  | [] => false
  | '/' :: '/' :: _ => true
  | '/' :: '*' :: _ => true
  | c :: _ => isBlank c

/-- The trivia before `k`, all of them.  The end of the text closes a line
comment too. -/
inductive TriviaBefore (k : List Char) : List Char → Prop
  | closed {A : List Char} : Trivia A → startsTrivia k = false → TriviaBefore k A
  | ended {A text : List Char} : k = [] → Trivia A → '\n' ∉ text →
      TriviaBefore k (A ++ '/' :: '/' :: text)

theorem Trivia.append (hA : Trivia A) (hB : Trivia B) : Trivia (A ++ B) := by
  induction hA with
  | nil => exact hB
  | blank hc _ ih => exact .blank hc ih
  | line ht _ ih => simpa using Trivia.line ht ih
  | block ht _ ih => simpa using Trivia.block ht ih

theorem triviaFrom_line (ht : '\n' ∉ text) :
    triviaFrom .lineComment n (text ++ '\n' :: k) =
      triviaFrom .between (n + text.length + 1) k := by
  induction text generalizing n with
  | nil => simp
  | cons c text ih =>
    have hc : c ≠ '\n' := fun h => ht (h ▸ List.mem_cons_self)
    rw [List.cons_append, triviaFrom, if_neg hc, ih fun h => ht (List.mem_cons_of_mem c h)]
    simp [Nat.add_right_comm, Nat.add_assoc]

theorem triviaFrom_line_end (ht : '\n' ∉ text) :
    triviaFrom .lineComment n text = .ok (n + text.length) := by
  induction text generalizing n with
  | nil => rfl
  | cons c text ih =>
    have hc : c ≠ '\n' := fun h => ht (h ▸ List.mem_cons_self)
    rw [triviaFrom, if_neg hc, ih fun h => ht (List.mem_cons_of_mem c h)]
    simp [Nat.add_right_comm, Nat.add_assoc]

theorem triviaFrom_block_cons {o : Nat} {c : Char} (h : ¬ ['*', '/'] <+: c :: k) :
    triviaFrom (.blockComment o) n (c :: k) = triviaFrom (.blockComment o) (n + 1) k := by
  rw [triviaFrom]
  rintro rest rfl rfl
  exact h ⟨rest, rfl⟩

theorem not_commentEnd_cons {c : Char} (h : ¬ ['*', '/'] <:+: c :: text) :
    ¬ ['*', '/'] <+: c :: (text ++ '*' :: '/' :: k) := by
  intro hc
  cases text with
  | nil => simp at hc
  | cons d text => exact h (List.IsPrefix.isInfix (by simpa using hc))

theorem triviaFrom_block {o : Nat} (ht : ¬ ['*', '/'] <:+: text) :
    triviaFrom (.blockComment o) n (text ++ '*' :: '/' :: k) =
      triviaFrom .between (n + text.length + 2) k := by
  induction text generalizing n with
  | nil => rfl
  | cons c text ih =>
    rw [List.cons_append, triviaFrom_block_cons (not_commentEnd_cons ht),
      ih fun h => ht (h.trans (List.suffix_cons c text).isInfix)]
    simp [Nat.add_right_comm, Nat.add_assoc]

theorem triviaFrom_block_end {o : Nat} (ht : ¬ ['*', '/'] <:+: text) :
    triviaFrom (.blockComment o) n text = .error o := by
  induction text generalizing n with
  | nil => rfl
  | cons c text ih =>
    rw [triviaFrom_block_cons fun h => ht h.isInfix]
    exact ih fun h => ht (h.trans (List.suffix_cons c text).isInfix)

theorem startsTrivia_cons {c : Char} :
    startsTrivia (c :: k) = (isBlank c || (c = '/' && headIs (fun d => d = '/' || d = '*') k)) := by
  have hslash : isBlank '/' = false := by decide
  by_cases hc : c = '/'
  · subst hc
    cases k with
    | nil => simp [startsTrivia]
    | cons d k =>
      by_cases hd : d = '/' ∨ d = '*'
      · rcases hd with rfl | rfl <;> simp [startsTrivia]
      · rw [not_or] at hd
        rw [startsTrivia]
        · simp [hd.1, hd.2]
        · simp [hd.1]
        · simp [hd.2]
  · simp [startsTrivia, hc]

theorem isBlank_of_startsTrivia {c : Char} (h : startsTrivia (c :: k) = false) :
    isBlank c = false := by
  unfold startsTrivia at h
  split at h
  · contradiction
  · contradiction
  · contradiction
  · simp_all

theorem startsTrivia_of_isBlank {c : Char} (h : isBlank c = true) :
    startsTrivia (c :: k) = true := by
  unfold startsTrivia
  split <;> simp_all

theorem startsTrivia_of_isQuote {c : Char} (h : isQuote c = true) :
    startsTrivia (c :: k) = false := by
  rcases isQuote_iff.1 h with rfl | rfl <;> rfl

theorem triviaFrom_blank {c : Char} (h : isBlank c = true) :
    triviaFrom .between n (c :: k) = triviaFrom .between (n + 1) k := by
  have hslash : isBlank '/' = false := by decide
  rw [triviaFrom, if_pos h]
  · rintro _ rfl
    rw [hslash] at h
    contradiction
  · rintro _ rfl
    rw [hslash] at h
    contradiction

theorem triviaFrom_of_not_startsTrivia (h : startsTrivia k = false) :
    triviaFrom .between n k = .ok n := by
  cases k with
  | nil => rfl
  | cons c k =>
    rw [triviaFrom, isBlank_of_startsTrivia h]
    · simp
    · rintro _ rfl rfl
      contradiction
    · rintro _ rfl rfl
      contradiction

theorem Trivia.triviaFrom (h : Trivia A) :
    triviaFrom .between n (A ++ k) = triviaFrom .between (n + A.length) k := by
  induction h generalizing n with
  | nil => rfl
  | blank hc _ ih =>
    rw [List.cons_append, triviaFrom_blank hc, ih]
    simp [Nat.add_right_comm, Nat.add_assoc]
  | @line text A ht _ ih =>
    have hsplit : '/' :: '/' :: text ++ '\n' :: A ++ k =
        '/' :: '/' :: (text ++ '\n' :: (A ++ k)) := by
      simp
    rw [hsplit, Lexeme.triviaFrom, triviaFrom_line ht, ih]
    congr 1
    simp only [List.length_append, List.length_cons]
    omega
  | @block text A ht _ ih =>
    have hsplit : '/' :: '*' :: text ++ '*' :: '/' :: A ++ k =
        '/' :: '*' :: (text ++ '*' :: '/' :: (A ++ k)) := by
      simp
    rw [hsplit, Lexeme.triviaFrom, triviaFrom_block ht, ih]
    congr 1
    simp only [List.length_append, List.length_cons]
    omega

theorem TriviaBefore.startsTrivia (h : TriviaBefore k A) : startsTrivia k = false := by
  cases h with
  | closed _ hk => exact hk
  | ended hk => rw [hk]; rfl

theorem TriviaBefore.triviaFrom (h : TriviaBefore k A) :
    triviaFrom .between n (A ++ k) = .ok (n + A.length) := by
  cases h with
  | closed hA hk => rw [hA.triviaFrom, triviaFrom_of_not_startsTrivia hk]
  | @ended A text hk hA ht =>
    rw [hk, List.append_nil, hA.triviaFrom, Lexeme.triviaFrom, triviaFrom_line_end ht]
    simp [Nat.add_assoc, Nat.add_comm 2]

theorem exists_first_commentEnd (cs : List Char) :
    ¬ ['*', '/'] <:+: cs ∨
      ∃ text rest, cs = text ++ '*' :: '/' :: rest ∧ ¬ ['*', '/'] <:+: text := by
  induction cs with
  | nil => exact .inl (by simp)
  | cons c cs ih =>
    by_cases hc : ['*', '/'] <+: c :: cs
    · obtain ⟨rest, hrest⟩ := hc
      exact .inr ⟨[], rest, hrest.symm, by simp⟩
    · rcases ih with hcs | ⟨text, rest, rfl, ht⟩
      · exact .inl fun h => (List.infix_cons_iff.1 h).elim hc hcs
      · refine .inr ⟨c :: text, rest, rfl, fun h => ?_⟩
        rcases List.infix_cons_iff.1 h with h | h
        · exact hc (h.trans (by simp))
        · exact ht h

theorem TriviaBefore.prepend (hA : Trivia A) (h : TriviaBefore k B) :
    TriviaBefore k (A ++ B) := by
  cases h with
  | closed hB hk => exact .closed (hA.append hB) hk
  | ended hk hB ht => rw [← List.append_assoc]; exact .ended hk (hA.append hB) ht

def Unclosed (cs : List Char) : Prop :=
  ∃ A text, cs = A ++ '/' :: '*' :: text ∧ Trivia A ∧ ¬ ['*', '/'] <:+: text

theorem Unclosed.prepend (hA : Trivia A) : Unclosed k → Unclosed (A ++ k) := by
  rintro ⟨B, text, rfl, hB, ht⟩
  exact ⟨A ++ B, text, by simp, hA.append hB, ht⟩

theorem triviaFrom_unclosed (hA : Trivia A) (ht : ¬ ['*', '/'] <:+: text) :
    triviaFrom .between n (A ++ '/' :: '*' :: text) = .error (n + A.length) := by
  rw [hA.triviaFrom, triviaFrom, triviaFrom_block_end ht]

theorem Unclosed.triviaFrom (h : Unclosed k) : ∃ o, triviaFrom .between n k = .error o := by
  obtain ⟨A, text, rfl, hA, ht⟩ := h
  exact ⟨_, triviaFrom_unclosed hA ht⟩

theorem exists_triviaBefore (cs : List Char) :
    (∃ A k, cs = A ++ k ∧ TriviaBefore k A) ∨ Unclosed cs := by
  have step {A k : List Char} (hA : Trivia A) :
      (∃ B k', k = B ++ k' ∧ TriviaBefore k' B) ∨ Unclosed k →
      (∃ B k', A ++ k = B ++ k' ∧ TriviaBefore k' B) ∨ Unclosed (A ++ k) := by
    rintro (⟨B, k', rfl, hB⟩ | h)
    · exact .inl ⟨A ++ B, k', by simp, hB.prepend hA⟩
    · exact .inr (h.prepend hA)
  -- the text after the first blank or comment is shorter, whatever state its reader is in
  induction hn : cs.length using Nat.strong_induction_on generalizing cs with
  | h n ih =>
    subst hn
    fun_cases startsTrivia cs with
    | case1 => exact .inl ⟨[], [], rfl, .closed .nil rfl⟩
    | case2 rest =>
      by_cases hr : '\n' ∈ rest
      · obtain ⟨text, k, rfl, ht⟩ := List.eq_append_cons_of_mem hr
        simpa using step (.line ht .nil) (ih k.length (by simp; omega) k rfl)
      · exact .inl ⟨_, [], (List.append_nil _).symm, .ended rfl .nil hr⟩
    | case3 rest =>
      rcases exists_first_commentEnd rest with hr | ⟨text, k, rfl, ht⟩
      · exact .inr ⟨[], rest, rfl, .nil, hr⟩
      · simpa using step (.block ht .nil) (ih k.length (by simp; omega) k rfl)
    | case4 c k h₁ h₂ =>
      by_cases hc : isBlank c = true
      · simpa using step (.blank hc .nil) (ih k.length (by simp) k rfl)
      · refine .inl ⟨[], c :: k, rfl, .closed .nil ?_⟩
        rw [startsTrivia]
        · simpa using hc
        · exact h₁
        · exact h₂

theorem Trivia.of_append (h : Trivia (A ++ B)) (hA : Trivia A) : Trivia B := by
  have hall := (TriviaBefore.closed h rfl : TriviaBefore [] (A ++ B)).triviaFrom (n := 0)
  rw [List.append_nil] at hall
  rcases exists_triviaBefore B with ⟨B', k, rfl, hB⟩ | hB
  · have hpart := (hB.prepend hA).triviaFrom (n := 0)
    rw [List.append_assoc, hall, Except.ok.injEq] at hpart
    obtain rfl : k = [] := by
      simp only [List.length_append] at hpart
      exact List.length_eq_zero_iff.1 (by omega)
    rw [List.append_nil] at h ⊢
    cases hB with
    | closed hB => exact hB
    | @ended B' text _ hB htext =>
      -- one more character would belong to the comment, and yet to no trivia
      have hopen : TriviaBefore [] (A ++ B' ++ '/' :: '/' :: (text ++ ['a'])) :=
        .ended rfl (hA.append hB) (by simp [htext])
      have hmore := hopen.triviaFrom (n := 0)
      have hone := h.triviaFrom (k := ['a']) (n := 0)
      rw [triviaFrom_of_not_startsTrivia (k := ['a']) (by decide)] at hone
      simp only [List.append_assoc, List.cons_append, List.append_nil] at hone hmore
      rw [hmore, Except.ok.injEq] at hone
      simp only [List.length_append, List.length_cons, List.length_nil] at hone
      omega
  · obtain ⟨o, ho⟩ := (hB.prepend hA).triviaFrom (n := 0)
    rw [hall] at ho
    contradiction

theorem Trivia.headIs_reverse {p : Char → Bool} (hA : Trivia A)
    (hslash : p '/' = false) (hblank : ∀ c, isBlank c = true → p c = false) :
    headIs p A.reverse = false := by
  induction hA with
  | nil => rfl
  | @blank c A hc _ ih =>
    cases A with
    | nil => exact hblank c hc
    | cons => rwa [← List.singleton_append, headIs_reverse_append (by simp)]
  | @line text A _ _ ih =>
    cases A with
    | nil => rw [headIs_reverse_append (by simp)]; exact hblank _ (by decide)
    | cons => rwa [List.append_cons, headIs_reverse_append (by simp)]
  | @block text A _ _ ih =>
    cases A with
    | nil => rw [headIs_reverse_append (by simp)]; exact hslash
    | cons => rwa [List.append_cons, List.append_cons, headIs_reverse_append (by simp)]

end Lexeme

namespace Text.Cursor

open Lexeme

variable {c d : Cursor} {A : List Char}

theorem skipTrivia_of_passes (h : c.Passes A d) (hA : TriviaBefore d.rest A) :
    c.skipTrivia = .ok d := by
  have : trivia c.rest = .ok A.length := by
    rw [trivia, h.rest_eq, hA.triviaFrom, Nat.zero_add]
  rw [skipTrivia, this, h.eq_advance]

theorem skipTrivia_eq_ok : c.skipTrivia = .ok d ↔ ∃ A, c.Passes A d ∧ TriviaBefore d.rest A := by
  refine ⟨fun h => ?_, fun ⟨A, hp, hA⟩ => skipTrivia_of_passes hp hA⟩
  rcases exists_triviaBefore c.rest with ⟨A, k, hr, hA⟩ | ho
  · have hp := Passes.of_rest hr
    have hk : (c.advance A.length).rest = k := by simp [hr]
    rw [skipTrivia_of_passes hp (by rwa [hk])] at h
    cases h
    exact ⟨A, hp, by rwa [hk]⟩
  · obtain ⟨o, ho⟩ := ho.triviaFrom
    rw [skipTrivia, trivia, ho] at h
    contradiction

theorem skipTrivia_of_unclosed {text : List Char} (hr : c.rest = A ++ '/' :: '*' :: text)
    (hA : Trivia A) (ht : ¬ ['*', '/'] <:+: text) :
    c.skipTrivia = (c.advance A.length).fail .unterminatedComment := by
  rw [skipTrivia, trivia, hr, triviaFrom_unclosed hA ht, Nat.zero_add]

theorem skipTrivia_past (hp : c.Passes A d) (hA : Trivia A) : c.skipTrivia = d.skipTrivia := by
  rcases exists_triviaBefore d.rest with ⟨B, k, hr, hB⟩ | ⟨B, text, hr, hB, ht⟩
  · have hd := Passes.of_rest hr
    have hk : (d.advance B.length).rest = k := by rw [rest_advance, hr, List.drop_left]
    rw [← hk] at hB
    rw [skipTrivia_of_passes hd hB, skipTrivia_of_passes (hp.trans hd) (hB.prepend hA)]
  · have hr' : c.rest = (A ++ B) ++ '/' :: '*' :: text := by
      rw [hp.rest_eq, hr, List.append_assoc]
    rw [skipTrivia_of_unclosed hr hB ht, skipTrivia_of_unclosed hr' (hA.append hB) ht,
      hp.eq_advance, advance_advance, List.length_append]

theorem startsTrivia_of_skipTrivia (h : c.skipTrivia = .ok d) : startsTrivia d.rest = false := by
  obtain ⟨A, -, hA⟩ := skipTrivia_eq_ok.1 h
  exact hA.startsTrivia

theorem skipTrivia_self (h : startsTrivia c.rest = false) : c.skipTrivia = .ok c :=
  skipTrivia_of_passes (.refl _) (.closed .nil h)

theorem skipTrivia_again (h : c.skipTrivia = .ok d) : d.skipTrivia = c.skipTrivia :=
  (skipTrivia_self (startsTrivia_of_skipTrivia h)).trans h.symm

end Text.Cursor

end ImportAtlas
