import ImportAtlas.Outcome
import ImportAtlas.Json.Token

namespace ImportAtlas.Json

namespace Token

open Outcome

theorem length_spell_le (ws cs : List Char) : (spell ws cs).2.length ≤ cs.length := by
  fun_induction spell ws cs with
  | case1 => simp
  | case2 => simp
  | case3 _ _ _ ih => exact Nat.le_succ_of_le ih
  | case4 => simp

theorem length_stringToken_le (s : StringState) (v : StringValue) (cs : List Char) :
    (stringToken s v cs).2.length ≤ cs.length := by
  fun_induction stringToken s v cs <;> simp_all <;> omega

theorem length_dropWhile_le (p : Char → Bool) (cs : List Char) :
    (cs.dropWhile p).length ≤ cs.length := by
  have h := congrArg List.length (List.takeWhile_append_dropWhile (p := p) (l := cs))
  rw [List.length_append] at h
  omega

theorem length_lt_of_digitRun {cs ds rest : List Char} (h : digitRun cs = .ok (ds, rest)) :
    rest.length < cs.length := by
  have hl := congrArg List.length (List.takeWhile_append_dropWhile (p := Char.isDigit) (l := cs))
  rw [List.length_append] at hl
  unfold digitRun at h
  split at h
  · contradiction
  · rename_i hne
    cases h
    have := List.length_pos_iff.2 hne
    omega

theorem length_lt_of_integerPart {cs ds rest : List Char}
    (h : integerPart cs = .ok (ds, rest)) : rest.length < cs.length := by
  obtain ⟨⟨ds', r⟩, hr, h⟩ := bind_eq_ok.1 h
  dsimp only at h
  split at h <;> cases h
  exact length_lt_of_digitRun hr

theorem length_le_of_fractionPart {cs ds rest : List Char}
    (h : fractionPart cs = .ok (ds, rest)) : rest.length ≤ cs.length := by
  unfold fractionPart at h
  split at h
  · exact Nat.le_of_lt (Nat.lt_succ_of_lt (length_lt_of_digitRun h))
  · cases h
    exact Nat.le_refl _

theorem length_le_of_powerPart {cs rest : List Char} {n : Int}
    (h : powerPart cs = .ok (n, rest)) : rest.length ≤ cs.length := by
  unfold powerPart at h
  split at h
  · cases h
    exact Nat.le_refl _
  · split at h
    · obtain ⟨⟨ds, r⟩, hr, h⟩ := map_eq_ok.1 h
      cases h
      have hlt := length_lt_of_digitRun hr
      split at hlt
      · rw [List.length_tail] at hlt
        rw [List.length_cons]
        omega
      · rw [List.length_cons]
        omega
    · cases h
      exact Nat.le_refl _

theorem length_lt_of_scientific {cs rest : List Char} {n : Nat} {e : Int}
    (h : scientific cs = .ok (n, e, rest)) : rest.length < cs.length := by
  obtain ⟨⟨ds, r⟩, hr, h⟩ := bind_eq_ok.1 h
  have hr := length_lt_of_integerPart hr
  obtain ⟨⟨_, r'⟩, hf, h⟩ := bind_eq_ok.1 h
  have hf := length_le_of_fractionPart hf
  obtain ⟨⟨_, r''⟩, hp, h⟩ := bind_eq_ok.1 h
  have hp := length_le_of_powerPart hp
  cases pure_eq_ok.1 h
  omega

theorem length_numberToken_lt (sign : List Char) {cs : List Char} (hcs : cs ≠ []) :
    (numberToken sign cs).2.length < cs.length := by
  unfold numberToken
  split
  · exact List.length_pos_iff.2 hcs
  · exact length_lt_of_scientific (by assumption)

theorem length_beginning_le (c : Char) (rest : List Char) :
    (beginning c rest).2.length ≤ rest.length := by
  unfold beginning
  split
  all_goals first
    | exact Nat.le_refl _
    | exact length_stringToken_le _ _ _
    | exact length_spell_le _ _
    | skip
  · by_cases h : rest = []
    · subst h
      decide
    · exact Nat.le_of_lt (length_numberToken_lt _ h)
  · split
    · exact Nat.le_of_lt_succ (length_numberToken_lt _ (List.cons_ne_nil _ _))
    · exact Nat.zero_le _

end Token

def tokens (cs : List Char) : List Token :=
  match _h : cs.dropWhile Token.isBlank with
  | [] => []
  | c :: rest => (Token.beginning c rest).1 :: tokens (Token.beginning c rest).2
termination_by cs.length
decreasing_by
  have hb := Token.length_beginning_le c rest
  have hd := Token.length_dropWhile_le Token.isBlank cs
  rw [_h, List.length_cons] at hd
  omega

end ImportAtlas.Json
