import Mathlib.Data.List.TakeWhile
import ImportAtlas.Text.Split

namespace ImportAtlas.Text

variable {p : Char → Bool} {s rest cs : List Char} {c : Char}

theorem cutAtFirst_append (hs : ∀ d ∈ s, p d = false) (hc : p c = true) :
    cutAtFirst p (s ++ c :: rest) = some (s, rest) := by
  have hn : ∀ d ∈ s, (!p d) = true := by simpa using hs
  rw [cutAtFirst, List.dropWhile_append_of_pos hn, List.takeWhile_append_of_pos hn]
  simp [hc]

theorem cutAtFirst_of_forall (h : ∀ d ∈ cs, p d = false) : cutAtFirst p cs = none := by
  have hnil : cs.dropWhile (!p ·) = [] := List.dropWhile_eq_nil_iff.2 (by simpa using h)
  rw [cutAtFirst, hnil]

theorem cutAtLast_append (hs : ∀ d ∈ rest, p d = false) (hc : p c = true) :
    cutAtLast p (s ++ c :: rest) = some (s, rest) := by
  have h : (s ++ c :: rest).reverse = rest.reverse ++ c :: s.reverse := by simp
  rw [cutAtLast, h, cutAtFirst_append (by simpa using hs) hc]
  simp

theorem cutAtLast_of_forall (h : ∀ d ∈ cs, p d = false) : cutAtLast p cs = none := by
  rw [cutAtLast, cutAtFirst_of_forall (by simpa using h), Option.map_none]

theorem forall_or_exists_last (p : Char → Bool) (cs : List Char) :
    (∀ d ∈ cs, p d = false) ∨
      ∃ s c rest, cs = s ++ c :: rest ∧ p c = true ∧ ∀ d ∈ rest, p d = false := by
  induction cs with
  | nil => exact .inl (by simp)
  | cons d cs ih =>
    rcases ih with hcs | ⟨s, c, rest, rfl, hc, hrest⟩
    · cases hd : p d with
      | true => exact .inr ⟨[], d, cs, rfl, hd, hcs⟩
      | false => exact .inl (List.forall_mem_cons.2 ⟨hd, hcs⟩)
    · exact .inr ⟨d :: s, c, rest, rfl, hc, hrest⟩

theorem forall_or_exists_first (p : Char → Bool) (cs : List Char) :
    (∀ d ∈ cs, p d = false) ∨
      ∃ s c rest, cs = s ++ c :: rest ∧ p c = true ∧ ∀ d ∈ s, p d = false := by
  rcases forall_or_exists_last p cs.reverse with hcs | ⟨s, c, rest, hcs, hc, hrest⟩
  · exact .inl (by simpa using hcs)
  · refine .inr ⟨rest.reverse, c, s.reverse, ?_, hc, by simpa using hrest⟩
    rw [← List.reverse_reverse cs, hcs]
    simp

theorem cutAtLast_eq_some : cutAtLast p cs = some (s, rest) ↔
    ∃ c, cs = s ++ c :: rest ∧ p c = true ∧ ∀ d ∈ rest, p d = false := by
  constructor
  · intro h
    rcases forall_or_exists_last p cs with hcs | ⟨s', c, rest', rfl, hc, hrest⟩
    · rw [cutAtLast_of_forall hcs] at h
      contradiction
    · rw [cutAtLast_append hrest hc] at h
      cases h
      exact ⟨c, rfl, hc, hrest⟩
  · rintro ⟨c, rfl, hc, hrest⟩
    exact cutAtLast_append hrest hc

end ImportAtlas.Text
