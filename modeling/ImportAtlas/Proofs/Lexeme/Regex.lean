import ImportAtlas.Proofs.Lexeme.Forms

namespace ImportAtlas.Lexeme

open Text

variable {c d : Char} {inClass : Bool} {A k k' : List Char} {n m : Nat}

def Neutral (A : List Char) : Prop := ∀ c ∈ A, c ∉ ['[', ']', '\\', '\n']

theorem Neutral.of_cons (h : Neutral (c :: A)) : Neutral A :=
  fun d hd => h d (List.mem_cons_of_mem c hd)

theorem regexBodyFrom_cons (h : c ∉ ['[', ']', '\\', '\n']) :
    regexBodyFrom inClass n (c :: k) =
      if c = '/' && !inClass then some (n + 1) else regexBodyFrom inClass (n + 1) k := by
  simp only [List.mem_cons, List.not_mem_nil, or_false, not_or] at h
  obtain ⟨hopen, hclose, hesc, hline⟩ := h
  rw [regexBodyFrom]
  · exact hline
  · exact fun h _ => hesc h
  · exact fun _ _ h _ => hesc h
  · exact hopen
  · exact hclose

theorem regexBodyFrom_eq_none (h : regexBodyFrom inClass n k = none) :
    regexBodyFrom inClass m k = none := by
  cases hm : regexBodyFrom inClass m k with
  | none => rfl
  | some l =>
    obtain ⟨A, k, rfl, -, -, hall⟩ := exists_of_regexBodyFrom hm
    rw [hall] at h
    contradiction

theorem Neutral.regexBodyFrom_eq_none (hA : Neutral A)
    (h : regexBodyFrom inClass n (A ++ k) = none) : regexBodyFrom inClass m k = none := by
  induction A generalizing n with
  | nil => exact Lexeme.regexBodyFrom_eq_none h
  | cons c A ih =>
    rw [List.cons_append, regexBodyFrom_cons (hA c List.mem_cons_self)] at h
    split at h
    · contradiction
    · exact ih hA.of_cons h

theorem Neutral.regexBodyFrom_append (hA : Neutral A) (hslash : '/' ∉ A) :
    regexBodyFrom inClass n (A ++ k) = regexBodyFrom inClass (n + A.length) k := by
  induction A generalizing n with
  | nil => rfl
  | cons c A ih =>
    have hc : c ≠ '/' := fun h => hslash (h ▸ List.mem_cons_self)
    rw [List.cons_append, regexBodyFrom_cons (hA c List.mem_cons_self),
      ih hA.of_cons fun h => hslash (List.mem_cons_of_mem c h)]
    simp [hc, Nat.add_right_comm, Nat.add_assoc]

def KeepsOpen (k k' : List Char) : Prop :=
  ∀ inClass n m, regexBodyFrom inClass n k = none → regexBodyFrom inClass m k' = none

theorem KeepsOpen.refl (k : List Char) : KeepsOpen k k := fun _ _ _ => regexBodyFrom_eq_none

theorem KeepsOpen.neutral {B : List Char} (hA : Neutral A) (hB : Neutral B) (hslash : '/' ∉ B)
    (h : KeepsOpen k k') : KeepsOpen (A ++ k) (B ++ k') := by
  intro inClass n m hn
  rw [hB.regexBodyFrom_append hslash]
  exact h inClass n _ (hA.regexBodyFrom_eq_none hn)

theorem KeepsOpen.cons (hc : c ≠ '\\') (h : KeepsOpen k k') : KeepsOpen (c :: k) (c :: k') := by
  intro inClass n m hn
  by_cases hneutral : c ∉ ['[', ']', '\\', '\n']
  · rw [regexBodyFrom_cons hneutral] at hn ⊢
    split at hn
    · contradiction
    · rename_i hslash
      rw [if_neg hslash]
      exact h _ _ _ hn
  · rw [not_not] at hneutral
    simp only [List.mem_cons, List.not_mem_nil, or_false] at hneutral
    rcases hneutral with rfl | rfl | rfl | rfl
    · rw [regexBodyFrom] at hn ⊢
      exact h _ _ _ hn
    · rw [regexBodyFrom] at hn ⊢
      exact h _ _ _ hn
    · contradiction
    · rfl

theorem KeepsOpen.escape (h : KeepsOpen k k') :
    KeepsOpen ('\\' :: c :: k) ('\\' :: d :: k') := by
  intro inClass n m hn
  rw [regexBodyFrom] at hn ⊢
  exact h _ _ _ hn

theorem KeepsOpen.append (h : KeepsOpen (c :: k) (d :: k')) (htail : KeepsOpen k k') :
    ∀ A, KeepsOpen (A ++ c :: k) (A ++ d :: k')
  | [] => h
  | x :: A => by
    by_cases hx : x = '\\'
    · subst hx
      cases A with
      | nil => exact htail.escape
      | cons _ A => exact (h.append htail A).escape
    · exact (h.append htail A).cons hx

theorem regex?_eq_none (h : KeepsOpen k k') (hk : regex? ('/' :: k) = none) :
    regex? ('/' :: k') = none := by
  rw [regex?, Option.map_eq_none_iff] at hk ⊢
  exact h _ _ _ hk

theorem exists_of_regex? (h : regex? ('/' :: k) = some n) :
    ∃ A rest, k = A ++ rest ∧ n = A.length + 1 ∧ headIs isWordPart rest = false ∧
      ∀ rest', headIs isWordPart rest' = false → regex? ('/' :: (A ++ rest')) = some n := by
  obtain ⟨m, hm, rfl⟩ := Option.map_eq_some_iff.1 h
  obtain ⟨A, k, rfl, -, rfl, hall⟩ := exists_of_regexBodyFrom hm
  have hdrop {k : List Char} : (A ++ k).drop (1 + A.length - 1) = k := by
    rw [Nat.add_sub_cancel_left, List.drop_left]
  refine ⟨A ++ k.takeWhile isWordPart, k.dropWhile isWordPart, ?_, ?_, headIs_dropWhile, ?_⟩
  · rw [List.append_assoc, List.takeWhile_append_dropWhile]
  · rw [hdrop, List.length_append]
    omega
  · intro rest' hrest'
    rw [List.append_assoc, regex?, hall, Option.map_some, hdrop, hdrop,
      takeWhile_append_of_headIs (fun d hd => List.mem_takeWhile_imp hd) hrest']

theorem exists_slash_of_regexBodyFrom {cs : List Char} {inClass : Bool} {n m : Nat}
    (h : regexBodyFrom inClass n cs = some m) :
    ∃ B k, cs = B ++ '/' :: k ∧ m = n + B.length + 1 := by
  fun_induction regexBodyFrom inClass n cs with
  | case1 => contradiction
  | case2 => contradiction
  | case3 => contradiction
  | case4 inClass n c rest ih =>
    obtain ⟨B, k, rfl, rfl⟩ := ih h
    exact ⟨'\\' :: c :: B, k, rfl, by simp only [List.length_cons]; omega⟩
  | case5 inClass n rest ih =>
    obtain ⟨B, k, rfl, rfl⟩ := ih h
    exact ⟨'[' :: B, k, rfl, by simp only [List.length_cons]; omega⟩
  | case6 inClass n rest ih =>
    obtain ⟨B, k, rfl, rfl⟩ := ih h
    exact ⟨']' :: B, k, rfl, by simp only [List.length_cons]; omega⟩
  | case7 inClass n c rest _ _ _ _ _ hc =>
    cases h
    simp only [Bool.and_eq_true, decide_eq_true_eq] at hc
    exact ⟨[], rest, by rw [hc.1]; rfl, rfl⟩
  | case8 inClass n c rest _ _ _ _ _ _ ih =>
    obtain ⟨B, k, rfl, rfl⟩ := ih h
    exact ⟨c :: B, k, rfl, by simp only [List.length_cons]; omega⟩

theorem headIs_reverse_of_regex? {k : List Char} {n : Nat} (h : regex? k = some n) :
    headIs (fun c => c = '/' || isWordPart c) (k.take n).reverse = true := by
  unfold regex? at h
  split at h
  · rename_i rest
    obtain ⟨m, hm, rfl⟩ := Option.map_eq_some_iff.1 h
    obtain ⟨B, k, rfl, rfl⟩ := exists_slash_of_regexBodyFrom hm
    have hdrop : (B ++ '/' :: k).drop (1 + B.length + 1 - 1) = k := by
      rw [List.drop_append]
      simp [Nat.add_comm]
    have hsplit : '/' :: (B ++ '/' :: k) =
        ('/' :: B ++ '/' :: k.takeWhile isWordPart) ++ k.dropWhile isWordPart := by
      simp
    rw [hdrop, hsplit, List.take_left' (by simp; omega)]
    refine headIs_reverse_append (by simp) |>.trans (headIs_reverse_of_forall (by simp) ?_)
    intro c hc
    rcases List.mem_cons.1 hc with rfl | hc
    · rfl
    · simp [List.mem_takeWhile_imp hc]
  · contradiction

theorem regexBodyFrom_append {x : List Char}
    (hx : ∀ inClass n, regexBodyFrom inClass n x = none ∧ regexBodyFrom inClass n x.tail = none)
    (h : regexBodyFrom inClass n k = none) : regexBodyFrom inClass n (k ++ x) = none := by
  fun_induction regexBodyFrom inClass n k with
  | case1 => exact (hx _ _).1
  | case2 => rfl
  | case3 inClass n =>
    cases x with
    | nil => rfl
    | cons c x => exact (hx inClass (n + 2)).2
  | case4 inClass n _ rest ih => simpa [regexBodyFrom] using ih h
  | case5 inClass n rest ih => simpa [regexBodyFrom] using ih h
  | case6 inClass n rest ih => simpa [regexBodyFrom] using ih h
  | case7 => contradiction
  | case8 inClass n c rest hline hend hesc hopen hclose hslash ih =>
    have hescape : c ≠ '\\' := ne_escape hend hesc
    have hc : c ∉ ['[', ']', '\\', '\n'] := by
      simp only [List.mem_cons, List.not_mem_nil, or_false, not_or]
      exact ⟨hopen, hclose, hescape, hline⟩
    rw [List.cons_append, regexBodyFrom_cons hc, if_neg hslash, ih h]

theorem regexBodyFrom_of_not_mem (h : '/' ∉ k) : regexBodyFrom inClass n k = none := by
  cases hm : regexBodyFrom inClass n k with
  | none => rfl
  | some m =>
    obtain ⟨B, k, rfl, -⟩ := exists_slash_of_regexBodyFrom hm
    exact absurd (List.mem_append_right B List.mem_cons_self) h

theorem regex?_append {x : List Char}
    (hx : ∀ inClass n, regexBodyFrom inClass n x = none ∧ regexBodyFrom inClass n x.tail = none)
    (h : regex? ('/' :: k) = none) : regex? ('/' :: k ++ x) = none := by
  rw [List.cons_append, regex?, Option.map_eq_none_iff] at *
  exact regexBodyFrom_append hx h

theorem regex?_append_lines (h : regex? ('/' :: k) = none) :
    regex? ('/' :: k ++ '\n' :: ';' :: '\n' :: k') = none :=
  regex?_append (fun _ _ => ⟨rfl, rfl⟩) h

theorem regex?_append_of_not_mem {x : List Char} (hx : '/' ∉ x) (h : regex? ('/' :: k) = none) :
    regex? ('/' :: k ++ x) = none :=
  regex?_append (fun _ _ => ⟨regexBodyFrom_of_not_mem hx,
    regexBodyFrom_of_not_mem fun h => hx (List.mem_of_mem_tail h)⟩) h

end ImportAtlas.Lexeme
