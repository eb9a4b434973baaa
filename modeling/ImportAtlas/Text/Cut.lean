import ImportAtlas.Text.Utf8

namespace ImportAtlas.Text

/-- Cut a text after `n` bytes, `taken` being what precedes it, latest first.
There is no cut inside a character or beyond the end. -/
def cutFrom (taken : List Char) : Nat → List Char → Option (List Char × List Char)
  | 0, cs => some (taken.reverse, cs)
  | _ + 1, [] => none
  | n + 1, c :: cs =>
    if c.utf8Size ≤ n + 1 then cutFrom (c :: taken) (n + 1 - c.utf8Size) cs else none

def cut? (n : Nat) (cs : List Char) : Option (List Char × List Char) := cutFrom [] n cs

theorem cutFrom_eq {taken cs left right : List Char} {n : Nat}
    (h : cutFrom taken n cs = some (left, right)) :
    left ++ right = taken.reverse ++ cs ∧ byteLength left = byteLength taken + n := by
  fun_induction cutFrom taken n cs with
  | case1 taken cs =>
    cases h
    simp
  | case2 => contradiction
  | case3 taken n c cs hc ih =>
    have := ih h
    simp only [List.reverse_cons, List.append_assoc, List.cons_append, List.nil_append,
      byteLength_cons] at this
    exact ⟨this.1, by omega⟩
  | case4 => contradiction

theorem cut?_eq {cs left right : List Char} {n : Nat} (h : cut? n cs = some (left, right)) :
    left ++ right = cs ∧ byteLength left = n := by
  simpa using cutFrom_eq h

variable {A B : List Char}

theorem cutFrom_append (taken : List Char) :
    cutFrom taken (byteLength A) (A ++ B) = some (taken.reverse ++ A, B) := by
  induction A generalizing taken with
  | nil => simp [cutFrom]
  | cons c A ih =>
    have hpos := c.utf8Size_pos
    obtain ⟨m, hm⟩ : ∃ m, c.utf8Size + byteLength A = m + 1 :=
      ⟨c.utf8Size + byteLength A - 1, by omega⟩
    rw [byteLength_cons, hm, List.cons_append, cutFrom, if_pos (by omega)]
    have hA : m + 1 - c.utf8Size = byteLength A := by omega
    rw [hA, ih]
    simp

theorem cut?_append : cut? (byteLength A) (A ++ B) = some (A, B) := cutFrom_append []

end ImportAtlas.Text
