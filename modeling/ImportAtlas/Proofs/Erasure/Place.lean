import ImportAtlas.Proofs.Erasure.Basic
import ImportAtlas.Proofs.Lexeme.Body
import ImportAtlas.Proofs.Lexeme.Regex

namespace ImportAtlas

open Text Lexeme

namespace Text.Cursor

variable {A : List Char} {c d : Cursor} {x : Char}

def startsLine (c : Cursor) : Bool := c.before.head?.all (· = '\n')

theorem Passes.startsLine_eq (hp : c.Passes (A ++ [x]) d) : d.startsLine = decide (x = '\n') := by
  simp [startsLine, hp.before_eq]

end Text.Cursor

namespace Erasure

/-- A text of the form stands at the beginning of a line: it is erased, from `c` up to
`d`. -/
structure Erases (rest? : List Char → Option (List Char)) (E : List Char) (c d : Cursor) :
    Prop where
  startsLine : c.startsLine = true
  passes : c.Passes E d
  rest_eq : rest? c.rest = some d.rest

instance {rest? : List Char → Option (List Char)} {E : List Char} {c d : Cursor} :
    Decidable (Erases rest? E c d) :=
  decidable_of_iff (c.startsLine = true ∧ c.Passes E d ∧ rest? c.rest = some d.rest)
    ⟨fun h => ⟨h.1, h.2.1, h.2.2⟩, fun h => ⟨h.startsLine, h.passes, h.rest_eq⟩⟩

/-- Nothing that is erased begins here. -/
def Stays (rest? : List Char → Option (List Char)) (c : Cursor) : Prop :=
  ∀ E d, ¬ Erases rest? E c d

/-- Nothing that is erased begins within `A`. -/
def Spares (rest? : List Char → Option (List Char)) (c : Cursor) (A : List Char) : Prop :=
  ∀ B C d, A = B ++ C → C ≠ [] → c.Passes B d → Stays rest? d

/-- What is left of the text from here on. -/
def remains (rest? : List Char → Option (List Char)) (c : Cursor) : List Char :=
  eraseFrom (.ofRest rest?) 0 c.startsLine c.rest

def OpensWithSlash (rest? : List Char → Option (List Char)) : Prop :=
  ∀ cs k, rest? cs = some k → ∃ I E, cs = I ++ '/' :: (E ++ k) ∧ ∀ c ∈ I, isIndent c = true

variable {rest? : List Char → Option (List Char)} {A B E k : List Char} {c d e : Cursor}
  {x : Char} {p : Char → Bool}

theorem isAsciiBlank_of_isIndent (h : isIndent x = true) : isAsciiBlank x = true := by
  simp only [isIndent, Bool.or_eq_true, decide_eq_true_eq] at h
  rcases h with rfl | rfl <;> decide

theorem stays_of_startsLine (h : c.startsLine = false) : Stays rest? c := by
  intro E d he
  rw [he.startsLine] at h
  contradiction

theorem stays_after (hp : c.Passes [x] d) (hx : x ≠ '\n') : Stays rest? d :=
  stays_of_startsLine ((Cursor.Passes.startsLine_eq (A := []) hp).trans (decide_eq_false hx))

theorem OpensWithSlash.exists_erases (hslash : OpensWithSlash rest?) (hc : c.startsLine = true)
    (h : rest? c.rest = some k) : ∃ E d, Erases rest? E c d := by
  obtain ⟨I, E, hr, -⟩ := hslash _ _ h
  rw [List.append_cons, ← List.append_assoc] at hr
  obtain ⟨d, hp, rfl⟩ := Cursor.exists_passes hr
  exact ⟨_, d, hc, hp, h⟩

namespace Erases

theorem exists_slash (hslash : OpensWithSlash rest?) (h : Erases rest? E c d) :
    ∃ I E', E = I ++ '/' :: E' ∧ ∀ c ∈ I, isIndent c = true := by
  obtain ⟨I, E', hr, hI⟩ := hslash _ _ h.rest_eq
  refine ⟨I, E', List.append_cancel_right (?_ : E ++ d.rest = I ++ '/' :: E' ++ d.rest), hI⟩
  rw [← h.passes.rest_eq, hr, List.append_assoc, List.cons_append]

theorem headIs_rest (hslash : OpensWithSlash rest?) (h : Erases rest? E c d) :
    headIs (fun x => isIndent x || x = '/') c.rest = true := by
  obtain ⟨I, E', rfl, hI⟩ := h.exists_slash hslash
  rw [h.passes.rest_eq]
  cases I with
  | nil => rfl
  | cons x I => simp [hI x List.mem_cons_self]

theorem ne_nil (hslash : OpensWithSlash rest?) (h : Erases rest? E c d) : E ≠ [] := by
  obtain ⟨I, E', rfl, -⟩ := h.exists_slash hslash
  simp

theorem remains_eq (hslash : OpensWithSlash rest?) (h : Erases rest? E c d) :
    remains rest? c = remains rest? d := by
  obtain ⟨A, x, rfl⟩ := (List.eq_nil_or_concat' E).resolve_left (h.ne_nil hslash)
  have hr : c.rest = A ++ x :: d.rest := by rw [h.passes.rest_eq, List.append_assoc]; rfl
  have hrest := h.rest_eq
  rw [hr] at hrest
  rw [remains, remains, h.startsLine, hr, h.passes.startsLine_eq, eraseFrom_of_rest? hrest]

end Erases

theorem remains_of_nil (h : c.rest = []) : remains rest? c = [] := by
  rw [remains, h, eraseFrom_nil]

theorem remains_cons (hslash : OpensWithSlash rest?) (h : Stays rest? c) (hp : c.Passes [x] d) :
    remains rest? c = x :: remains rest? d := by
  have hr : c.rest = x :: d.rest := hp.rest_eq
  have hd : d.startsLine = decide (x = '\n') := Cursor.Passes.startsLine_eq (A := []) hp
  rw [remains, remains, hr, hd]
  cases hc : c.startsLine with
  | false => rfl
  | true =>
    refine eraseFrom_of_none (ofRest_eq_none ?_)
    cases hrest : rest? (x :: d.rest) with
    | none => rfl
    | some k =>
      obtain ⟨E, e, he⟩ := hslash.exists_erases hc (hr ▸ hrest)
      exact absurd he (h E e)

namespace Spares

theorem nil : Spares rest? c [] := by
  intro B C d hA hC _
  exact absurd (List.append_eq_nil_iff.1 hA.symm).2 hC

theorem cons (h : Stays rest? c) (hp : c.Passes [x] d) (hA : Spares rest? d A) :
    Spares rest? c (x :: A) := by
  rintro B C e heq hC he
  cases B with
  | nil => exact he.unique (.refl c) ▸ h
  | cons y B =>
    rw [List.cons_append, List.cons.injEq] at heq
    obtain ⟨rfl, rfl⟩ := heq
    obtain ⟨d', hd', he⟩ := Cursor.Passes.split (A := [x]) he
    obtain rfl := hd'.unique hp
    exact hA B C e rfl hC he

theorem stays (h : Spares rest? c (x :: A)) : Stays rest? c :=
  h [] (x :: A) c rfl (by simp) (.refl c)

theorem tail (h : Spares rest? c (x :: A)) (hp : c.Passes [x] d) : Spares rest? d A := by
  rintro B C e rfl hC he
  exact h (x :: B) C e rfl hC (hp.trans he)

theorem of_line (hslash : OpensWithSlash rest?) (hline : '\n' ∉ A)
    (hhead : headIs (fun x => isIndent x || x = '/') A = false) (hp : c.Passes A d) :
    Spares rest? c A := by
  rintro B C e rfl hC hB
  rcases List.eq_nil_or_concat' B with rfl | ⟨B, x, rfl⟩
  · intro E q hE
    obtain rfl := hB.unique (.refl c)
    have hslashed := hE.headIs_rest hslash
    rw [hp.rest_eq, headIs_append_of_ne_nil (by simpa using hC), hhead] at hslashed
    contradiction
  · refine stays_of_startsLine (hB.startsLine_eq.trans (decide_eq_false ?_))
    rintro rfl
    exact hline (by simp)

end Spares

theorem remains_append (hslash : OpensWithSlash rest?) (h : Spares rest? c A)
    (hp : c.Passes A d) : remains rest? c = A ++ remains rest? d := by
  induction A generalizing c with
  | nil => rw [hp.unique (.refl c), List.nil_append]
  | cons x A ih =>
    obtain ⟨e, he, hp⟩ := Cursor.Passes.split (A := [x]) hp
    rw [remains_cons hslash h.stays he, ih (h.tail he) hp, List.cons_append]

theorem exists_first (rest? : List Char → Option (List Char)) (hp : c.Passes A d) :
    Spares rest? c A ∨ ∃ B C E e q, A = B ++ C ∧ C ≠ [] ∧ c.Passes B e ∧ Erases rest? E e q ∧
      Spares rest? c B := by
  induction A generalizing c with
  | nil => exact .inl .nil
  | cons x A ih =>
    by_cases hc : Stays rest? c
    · obtain ⟨e, he, hp⟩ := Cursor.Passes.split (A := [x]) hp
      rcases ih hp with hA | ⟨B, C, E, e', q, rfl, hC, hB, hE, hspares⟩
      · exact .inl (.cons hc he hA)
      · exact .inr ⟨x :: B, C, E, e', q, rfl, hC, he.trans hB, hE, .cons hc he hspares⟩
    · simp only [Stays, not_forall, not_not] at hc
      obtain ⟨E, q, hE⟩ := hc
      exact .inr ⟨[], x :: A, E, c, q, rfl, by simp, .refl c, hE, .nil⟩

section Ahead

variable (hslash : OpensWithSlash rest?)

include hslash

theorem headIs_remains (h : Stays rest? c) : headIs p (remains rest? c) = headIs p c.rest := by
  cases hr : c.rest with
  | nil => rw [remains_of_nil hr]
  | cons x k =>
    obtain ⟨d, hp, -⟩ := Cursor.exists_passes (A := [x]) hr
    rw [remains_cons hslash h hp, headIs_cons, headIs_cons]

theorem startsTrivia_remains (h : startsTrivia c.rest = false) (hc : Stays rest? c) :
    startsTrivia (remains rest? c) = false := by
  cases hr : c.rest with
  | nil => rw [remains_of_nil hr]; rfl
  | cons x k =>
    obtain ⟨d, hp, rfl⟩ := Cursor.exists_passes (A := [x]) hr
    rw [hr] at h
    have hx : x ≠ '\n' := by
      rintro rfl
      exact absurd (isBlank_of_startsTrivia h) (by decide)
    rw [startsTrivia_cons] at h
    rw [remains_cons hslash hc hp, startsTrivia_cons, headIs_remains hslash (stays_after hp hx), h]

theorem takeWhile_remains (hp : p '\n' = false) (h : Stays rest? c) :
    (remains rest? c).takeWhile p = c.rest.takeWhile p := by
  induction hr : c.rest generalizing c with
  | nil => rw [remains_of_nil hr]
  | cons x k ih =>
    obtain ⟨d, hd, rfl⟩ := Cursor.exists_passes (A := [x]) hr
    rw [remains_cons hslash h hd, List.takeWhile_cons, List.takeWhile_cons]
    split
    · rename_i hx
      have hline : x ≠ '\n' := by
        rintro rfl
        rw [hp] at hx
        contradiction
      rw [ih (stays_after hd hline) rfl]
    · rfl

theorem wordHere_remains (h : Stays rest? c) (hd : d.rest = remains rest? c) :
    d.wordHere = c.wordHere := by
  rw [Cursor.wordHere_eq, Cursor.wordHere_eq, hd, headIs_remains hslash h]
  split
  · rename_i hword
    cases hr : c.rest with
    | nil => simp [hr] at hword
    | cons x k =>
      obtain ⟨e, he, rfl⟩ := Cursor.exists_passes (A := [x]) hr
      have hx : x ≠ '\n' := by
        rintro rfl
        rw [hr, headIs_cons] at hword
        exact absurd hword (by decide)
      rw [remains_cons hslash h he]
      exact congrArg (x :: ·) (takeWhile_remains hslash (p := continuesWord) (by decide)
        (stays_after he hx))
  · rfl

theorem keepsOpen_remains (h : Stays rest? c)
    (hescape : ∀ E d e B, c.Reaches d → Erases rest? E d e → d.before ≠ '\n' :: '\\' :: B) :
    KeepsOpen c.rest (remains rest? c) := by
  induction hn : c.rest.length using Nat.strong_induction_on generalizing c with
  | h n ih =>
    subst hn
    cases hr : c.rest with
    | nil =>
      rw [remains_of_nil hr]
      exact .refl []
    | cons x k =>
      obtain ⟨d, hd, rfl⟩ := Cursor.exists_passes (A := [x]) hr
      rw [remains_cons hslash h hd]
      have hlater {e : Cursor} (he : d.Reaches e) : ∀ E e' f B, e.Reaches e' →
          Erases rest? E e' f → e'.before ≠ '\n' :: '\\' :: B :=
        fun E e' f B he' => hescape E e' f B ((hd.reaches.trans he).trans he')
      by_cases hline : x = '\n'
      · subst hline
        exact fun _ _ _ _ => rfl
      by_cases hslosh : x = '\\'
      · subst hslosh
        cases hk : d.rest with
        | nil =>
          rw [remains_of_nil hk]
          exact .refl _
        | cons y k =>
          obtain ⟨e, he, rfl⟩ := Cursor.exists_passes (A := [y]) hk
          -- nothing is erased behind an escaped line end
          have hstays : Stays rest? e := by
            by_cases hy : y = '\n'
            · subst hy
              exact fun E f hE => hlater he.reaches E e f c.before (.refl e) hE
                (by rw [he.before_eq, hd.before_eq]; rfl)
            · exact stays_after he hy
          rw [remains_cons hslash (stays_after hd hline) he]
          have hlt : e.rest.length < c.rest.length := by
            rw [hr, hk, List.length_cons, List.length_cons]
            omega
          exact .escape (ih _ hlt hstays (hlater he.reaches) rfl)
      · exact .cons hslosh
          (ih _ (by simp [hr]) (stays_after hd hline) (hlater (.refl d)) rfl)

theorem head?_dropWhile_remains (h : (c.rest.dropWhile isAsciiBlank).head? = some '\x7b') :
    ((remains rest? c).dropWhile isAsciiBlank).head? = some '\x7b' := by
  induction hr : c.rest generalizing c with
  | nil => simp [hr] at h
  | cons x k ih =>
    obtain ⟨d, hd, rfl⟩ := Cursor.exists_passes (A := [x]) hr
    have hstays : Stays rest? c := by
      intro E e hE
      obtain ⟨I, E', hslashed, hI⟩ := hslash _ _ hE.rest_eq
      rw [hslashed, List.dropWhile_append_of_pos fun y hy => isAsciiBlank_of_isIndent (hI y hy)] at h
      simp [isAsciiBlank] at h
    rw [remains_cons hslash hstays hd]
    rw [hr] at h
    rw [List.dropWhile_cons] at h ⊢
    split
    · rename_i hx
      rw [if_pos hx] at h
      exact ih h rfl
    · rename_i hx
      rw [if_neg hx] at h
      exact h

theorem bodyFollowsFrom_remains {depth : Nat} {within : Option Char}
    (hquiet : ∀ E d e, c.Reaches d → Erases rest? E d e → Quiet E)
    (hwithin : IsOpen within) (h : bodyFollowsFrom depth within c.rest = true) :
    bodyFollowsFrom depth within (remains rest? c) = true := by
  induction hn : c.rest.length using Nat.strong_induction_on generalizing c depth within with
  | h n ih =>
    subst hn
    have next {d : Cursor} {depth : Nat} {within : Option Char} (hd : c.Reaches d)
        (hlt : d.rest.length < c.rest.length) (hwithin : IsOpen within)
        (h : bodyFollowsFrom depth within d.rest = true) :
        bodyFollowsFrom depth within (remains rest? d) = true :=
      ih _ hlt (fun E e f he => hquiet E e f (hd.trans he)) hwithin h rfl
    by_cases hstays : Stays rest? c
    · cases hr : c.rest with
      | nil => simp [hr, bodyFollowsFrom] at h
      | cons x k =>
        obtain ⟨d, hd, rfl⟩ := Cursor.exists_passes (A := [x]) hr
        rw [hr] at h
        rw [remains_cons hslash hstays hd]
        by_cases hesc : within = none ∨ x ≠ '\\'
        · exact bodyFollowsFrom_cons_mono hesc hwithin (head?_dropWhile_remains hslash)
            (fun depth within => next hd.reaches (by simp [hr])) h
        · -- an escaped character does not begin a line
          obtain ⟨hopen, hslosh⟩ := not_or.1 hesc
          obtain ⟨quote, rfl⟩ := Option.ne_none_iff_exists'.1 hopen
          obtain rfl := not_not.1 hslosh
          cases hk : d.rest with
          | nil => simp [hk, bodyFollowsFrom] at h
          | cons y k =>
            obtain ⟨e, he, rfl⟩ := Cursor.exists_passes (A := [y]) hk
            rw [hk, bodyFollowsFrom] at h
            rw [remains_cons hslash (stays_after hd (by decide)) he, bodyFollowsFrom]
            have hlt : e.rest.length < c.rest.length := by
              rw [hr, hk, List.length_cons, List.length_cons]
              omega
            exact next (hd.reaches.trans he.reaches) hlt hwithin h
    · simp only [Stays, not_forall, not_not] at hstays
      obtain ⟨E, q, hE⟩ := hstays
      rw [hE.passes.rest_eq, bodyFollowsFrom_quiet (hquiet E c q (.refl c) hE) hwithin] at h
      have hlt := List.length_pos_iff.2 (hE.ne_nil hslash)
      rw [hE.remains_eq hslash]
      refine next hE.passes.reaches ?_ hwithin h
      rw [hE.passes.rest_eq, List.length_append]
      omega

end Ahead

end Erasure

end ImportAtlas
