import ImportAtlas.Text.Cursor

namespace ImportAtlas.Text.Cursor

variable {A B k : List Char} {c d e : Cursor}

theorem eq_of_before_of_rest (hb : c.before = d.before) (hr : c.rest = d.rest) : c = d := by
  cases c
  cases d
  simp_all

/-- From `c` one comes to `d` over the characters `A`. -/
structure Passes (c : Cursor) (A : List Char) (d : Cursor) : Prop where
  rest_eq : c.rest = A ++ d.rest
  before_eq : d.before = A.reverse ++ c.before

instance : Decidable (Passes c A d) :=
  decidable_of_iff (c.rest = A ++ d.rest ∧ d.before = A.reverse ++ c.before)
    ⟨fun h => ⟨h.1, h.2⟩, fun h => ⟨h.rest_eq, h.before_eq⟩⟩

namespace Passes

theorem refl (c : Cursor) : Passes c [] c := ⟨rfl, rfl⟩

theorem trans (h : Passes c A d) (h' : Passes d B e) : Passes c (A ++ B) e where
  rest_eq := by rw [h.rest_eq, h'.rest_eq, List.append_assoc]
  before_eq := by rw [h'.before_eq, h.before_eq, List.reverse_append, List.append_assoc]

theorem of_rest (h : c.rest = A ++ k) : Passes c A (c.advance A.length) where
  rest_eq := by simp [h]
  before_eq := by simp [before_advance, h]

theorem of_take (c : Cursor) (n : Nat) : Passes c (c.rest.take n) (c.advance n) where
  rest_eq := by simp
  before_eq := before_advance n c

theorem of_reaches (h : Reaches c d) : ∃ A, Passes c A d := by
  obtain ⟨n, rfl⟩ := h
  exact ⟨_, of_take c n⟩

theorem eq_advance (h : Passes c A d) : d = c.advance A.length := by
  apply eq_of_before_of_rest
  · simp [before_advance, h.rest_eq, h.before_eq]
  · simp [h.rest_eq]

theorem reaches (h : Passes c A d) : Reaches c d := h.eq_advance ▸ .advance c _

theorem unique (h : Passes c A d) (h' : Passes c A e) : d = e :=
  h.eq_advance.trans h'.eq_advance.symm

theorem text_unique (h : Passes c A d) (h' : Passes c B d) : A = B :=
  List.append_cancel_right (h.rest_eq.symm.trans h'.rest_eq)

theorem offset_eq (h : Passes c A d) : d.offset = c.offset + byteLength A := by
  simp [offset, h.before_eq, Nat.add_comm]

theorem split (h : Passes c (A ++ B) e) : ∃ d, Passes c A d ∧ Passes d B e := by
  refine ⟨_, of_rest (h.rest_eq.trans (List.append_assoc A B e.rest)), ?_, ?_⟩
  · simp [h.rest_eq]
  · simp [before_advance, h.rest_eq, h.before_eq]

theorem exists_append (h : Passes c A e) (hd : Passes c B d) (hle : Reaches d e) :
    ∃ A', A = B ++ A' ∧ Passes d A' e := by
  obtain ⟨A', h'⟩ := of_reaches hle
  refine ⟨A', ?_, h'⟩
  refine List.append_cancel_right (?_ : A ++ e.rest = B ++ A' ++ e.rest)
  rw [← h.rest_eq, hd.rest_eq, h'.rest_eq, List.append_assoc]

end Passes

theorem Reaches.isSuffix (h : Reaches c d) : d.rest <:+ c.rest := by
  obtain ⟨A, hp⟩ := Passes.of_reaches h
  exact hp.rest_eq ▸ List.suffix_append A d.rest

theorem Reaches.antisymm (h : Reaches c d) (h' : Reaches d c) : c = d := by
  obtain ⟨A, hA⟩ := Passes.of_reaches h
  obtain ⟨B, hB⟩ := Passes.of_reaches h'
  obtain ⟨rfl, -⟩ := List.append_eq_nil_iff.1 ((hA.trans hB).text_unique (.refl c))
  exact (Passes.refl c).unique hA

theorem exists_passes (h : c.rest = A ++ k) : ∃ d, Passes c A d ∧ d.rest = k :=
  ⟨_, .of_rest h, by simp [h]⟩

end ImportAtlas.Text.Cursor
