import ImportAtlas.Text.Cut

namespace ImportAtlas

open Text

/-- A position between two characters of the text, or at one of its ends. -/
def IsBoundary (text : List Char) (n : Nat) : Prop := ∃ A, A <+: text ∧ byteLength A = n

namespace Text

variable {A B : List Char}

theorem eq_nil_of_byteLength_eq_zero (h : byteLength A = 0) : A = [] := by
  cases A with
  | nil => rfl
  | cons c A =>
    have := c.utf8Size_pos
    rw [byteLength_cons] at h
    omega

theorem byteLength_pos (h : A ≠ []) : 0 < byteLength A :=
  Nat.pos_of_ne_zero (mt eq_nil_of_byteLength_eq_zero h)

end Text

namespace IsBoundary

variable {text A B : List Char} {n : Nat}

theorem le (h : IsBoundary text n) : n ≤ byteLength text := by
  obtain ⟨A, ⟨B, rfl⟩, rfl⟩ := h
  rw [byteLength_append]
  exact Nat.le_add_right _ _

theorem append : IsBoundary (A ++ B) (byteLength A) := ⟨A, List.prefix_append A B, rfl⟩

theorem exists_append (h : IsBoundary (A ++ text) n) (hle : byteLength A ≤ n) :
    ∃ B C, text = B ++ C ∧ n = byteLength A + byteLength B := by
  obtain ⟨P, hP, rfl⟩ := h
  rcases List.prefix_or_prefix_of_prefix (List.prefix_append A text) hP with ⟨B, rfl⟩ | ⟨D, rfl⟩
  · obtain ⟨C, hC⟩ := hP
    rw [List.append_assoc, List.append_cancel_left_eq] at hC
    exact ⟨B, C, hC.symm, byteLength_append A B⟩
  · rw [byteLength_append] at hle
    have hD : D = [] := eq_nil_of_byteLength_eq_zero (by omega)
    exact ⟨[], text, rfl, by simp [hD]⟩

end IsBoundary

end ImportAtlas
