import ImportAtlas.Erasure

namespace ImportAtlas.Erasure

variable {form : Form} {rest? : List Char → Option (List Char)} {A k : List Char} {c d : Char}
  {n : Nat} {lineStart : Bool}

@[simp] theorem eraseFrom_nil : eraseFrom form n lineStart [] = [] := by
  cases n <;> cases lineStart <;> rfl

theorem eraseFrom_newline :
    eraseFrom form 0 false ('\n' :: k) = '\n' :: eraseFrom form 0 true k := rfl

theorem eraseFrom_append (h : '\n' ∉ A) :
    eraseFrom form 0 false (A ++ k) = A ++ eraseFrom form 0 false k := by
  induction A with
  | nil => rfl
  | cons c A ih =>
    rw [List.mem_cons, not_or] at h
    rw [List.cons_append, eraseFrom, decide_eq_false (Ne.symm h.1), ih h.2, List.cons_append]

theorem eraseFrom_of_none (h : form (c :: k) = none) :
    eraseFrom form 0 true (c :: k) = c :: eraseFrom form 0 (decide (c = '\n')) k := by
  rw [eraseFrom, h]

theorem eraseFrom_line (h : form (A ++ k) = none) (hA : '\n' ∉ A) (hne : A ≠ []) :
    eraseFrom form 0 true (A ++ k) = A ++ eraseFrom form 0 false k := by
  obtain ⟨c, A, rfl⟩ := List.exists_cons_of_ne_nil hne
  rw [List.mem_cons, not_or] at hA
  rw [List.cons_append] at h ⊢
  rw [eraseFrom_of_none h, decide_eq_false (Ne.symm hA.1), eraseFrom_append hA.2]
  rfl

theorem eraseFrom_skip :
    eraseFrom form (A.length + 1) lineStart (A ++ c :: k) =
      eraseFrom form 0 (decide (c = '\n')) k := by
  induction A generalizing lineStart with
  | nil => rfl
  | cons d A ih => exact ih

theorem eraseFrom_of_rest? (h : rest? (A ++ c :: k) = some k) :
    eraseFrom (.ofRest rest?) 0 true (A ++ c :: k) =
      eraseFrom (.ofRest rest?) 0 (decide (c = '\n')) k := by
  have hform : Form.ofRest rest? (A ++ c :: k) = some (A.length + 1) := by
    rw [Form.ofRest, h, Option.map_some, List.length_append, List.length_cons]
    congr 1
    omega
  cases A with
  | nil =>
    rw [List.nil_append] at hform ⊢
    rw [eraseFrom, hform]
    rfl
  | cons d A =>
    rw [List.cons_append] at hform ⊢
    rw [eraseFrom, hform]
    exact eraseFrom_skip

theorem ofRest_eq_none (h : rest? k = none) : Form.ofRest rest? k = none := by
  rw [Form.ofRest, h, Option.map_none]

end ImportAtlas.Erasure
