import ImportAtlas.Text.Utf8

/-! A place in a text: the characters before it, nearest first, and those that
follow.  Moving never changes the text, only where it is cut. -/

namespace ImportAtlas.Text

structure Cursor where
  before : List Char
  rest : List Char
  deriving DecidableEq

namespace Cursor

def ofText (cs : List Char) : Cursor := ⟨[], cs⟩

def text (c : Cursor) : List Char := c.before.reverse ++ c.rest

def offset (c : Cursor) : Nat := byteLength c.before

def advance : Nat → Cursor → Cursor
  | 0, c => c
  | _ + 1, ⟨before, []⟩ => ⟨before, []⟩
  | n + 1, ⟨before, x :: rest⟩ => advance n ⟨x :: before, rest⟩

@[simp] theorem text_ofText (cs : List Char) : (ofText cs).text = cs := rfl

@[simp] theorem text_advance (n : Nat) (c : Cursor) : (c.advance n).text = c.text := by
  fun_induction advance n c with
  | case1 => rfl
  | case2 => rfl
  | case3 _ _ _ _ ih => simpa [text] using ih

@[simp] theorem rest_advance (n : Nat) (c : Cursor) : (c.advance n).rest = c.rest.drop n := by
  fun_induction advance n c with
  | case1 => rfl
  | case2 => simp
  | case3 _ _ _ _ ih => simpa using ih

theorem before_advance (n : Nat) (c : Cursor) :
    (c.advance n).before = (c.rest.take n).reverse ++ c.before := by
  fun_induction advance n c with
  | case1 => simp
  | case2 => simp
  | case3 _ _ _ _ ih => simp [ih]

theorem offset_advance (n : Nat) (c : Cursor) :
    (c.advance n).offset = c.offset + byteLength (c.rest.take n) := by
  simp [offset, before_advance, Nat.add_comm]

theorem advance_advance (m n : Nat) (c : Cursor) :
    (c.advance m).advance n = c.advance (m + n) := by
  fun_induction advance m c with
  | case1 => simp
  | case2 => cases n <;> rfl
  | case3 m _ _ _ ih => rw [ih, Nat.succ_add]; rfl

def Reaches (c d : Cursor) : Prop := ∃ n, d = c.advance n

namespace Reaches

theorem refl (c : Cursor) : Reaches c c := ⟨0, rfl⟩

theorem advance (c : Cursor) (n : Nat) : Reaches c (c.advance n) := ⟨n, rfl⟩

theorem trans {c d e : Cursor} : Reaches c d → Reaches d e → Reaches c e := by
  rintro ⟨m, rfl⟩ ⟨n, rfl⟩
  exact ⟨m + n, advance_advance m n c⟩

theorem text_eq {c d : Cursor} : Reaches c d → d.text = c.text := by
  rintro ⟨n, rfl⟩
  exact text_advance n c

theorem length_le {c d : Cursor} : Reaches c d → d.rest.length ≤ c.rest.length := by
  rintro ⟨n, rfl⟩
  simp

theorem length_lt {c d : Cursor} {n : Nat} (h : Reaches (c.advance n) d) (hn : 0 < n)
    (hc : c.rest ≠ []) : d.rest.length < c.rest.length := by
  have hle := h.length_le
  have hpos := List.length_pos_iff.2 hc
  rw [rest_advance, List.length_drop] at hle
  omega

end Reaches

end Cursor

end ImportAtlas.Text
