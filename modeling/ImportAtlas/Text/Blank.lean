namespace ImportAtlas.Text

def byteOrderMark : Char := '\uFEFF'

def isAscii (c : Char) : Bool := c.toNat < 0x80

def isAsciiBlank (c : Char) : Bool :=
  c = ' ' || c = '\t' || c = '\n' || c = '\x0C' || c = '\r'

def isWhiteSpace (c : Char) : Bool :=
  let n := c.toNat
  (0x09 ≤ n && n ≤ 0x0D) || n = 0x20 || n = 0x85 || n = 0xA0 || n = 0x1680 ||
    (0x2000 ≤ n && n ≤ 0x200A) || n = 0x2028 || n = 0x2029 || n = 0x202F ||
    n = 0x205F || n = 0x3000

def isWideBlank (c : Char) : Bool :=
  !isAscii c && (c = byteOrderMark || isWhiteSpace c)

def isBlank (c : Char) : Bool := isAsciiBlank c || isWideBlank c

theorem isAscii_of_isAsciiBlank {c : Char} (h : isAsciiBlank c = true) : isAscii c = true := by
  simp only [isAsciiBlank, Bool.or_eq_true, decide_eq_true_eq] at h
  rcases h with (((rfl | rfl) | rfl) | rfl) | rfl <;> decide

end ImportAtlas.Text
