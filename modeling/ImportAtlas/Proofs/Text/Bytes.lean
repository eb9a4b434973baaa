import Mathlib.Data.List.TakeWhile
import ImportAtlas.Proofs.Text.Passage
import ImportAtlas.Text.Bytes

namespace ImportAtlas.Text

variable {cs A B : List Char} {c d x b : Char} {p : Char → Bool}

@[simp] theorem bytes_nil : bytes [] = [] := rfl

theorem bytes_append : bytes (A ++ B) = bytes A ++ bytes B := by
  simp [bytes]

theorem bytes_cons : bytes (c :: cs) = bytes [c] ++ bytes cs := bytes_append (A := [c])

@[simp] theorem length_bytes : (bytes cs).length = byteLength cs := by
  induction cs with
  | nil => rfl
  | cons c cs ih =>
    rw [bytes_cons, List.length_append, ih]
    simp [bytes]

theorem utf8Size_eq_one_iff : c.utf8Size = 1 ↔ isAscii c = true := by
  rw [Char.utf8Size_eq_one_iff, UInt32.le_iff_toNat_le, isAscii, decide_eq_true_eq]
  exact Nat.lt_succ_iff.symm

theorem bytes_cons_of_isAscii (h : isAscii c = true) : bytes (c :: cs) = c :: bytes cs := by
  have hval : c.val.toUInt8.toNat = c.toNat := by
    simp only [isAscii, decide_eq_true_eq] at h
    simp only [UInt32.toNat_toUInt8]
    exact Nat.mod_eq_of_lt (Nat.lt_trans h (by decide))
  rw [bytes_cons, bytes, List.flatMap_singleton,
    String.utf8EncodeChar_eq_singleton (utf8Size_eq_one_iff.2 h), List.map_singleton, hval,
    Char.ofNat_toNat]
  rfl

theorem le_of_mem_utf8EncodeChar (h : isAscii c = false) :
    ∀ u ∈ String.utf8EncodeChar c, 0x80 ≤ u.toNat := by
  simp only [isAscii, decide_eq_false_iff_not, Nat.not_lt] at h
  have hval : c.val.toNat = c.toNat := rfl
  fun_cases String.utf8EncodeChar c with
  | case1 v hle => omega
  | case2 => simp only [List.forall_mem_cons, UInt8.toNat_ofNat']; simp; omega
  | case3 => simp only [List.forall_mem_cons, UInt8.toNat_ofNat']; simp; omega
  | case4 => simp only [List.forall_mem_cons, UInt8.toNat_ofNat']; simp; omega

theorem isAscii_of_mem_bytes (h : isAscii c = false) (hb : b ∈ bytes [c]) : isAscii b = false := by
  obtain ⟨u, hu, rfl⟩ := List.mem_map.1 hb
  rw [List.flatMap_singleton] at hu
  have hvalid : u.toNat.isValidChar := .inl (Nat.lt_trans u.toNat_lt (by decide))
  have hnat : (Char.ofNat u.toNat).toNat = u.toNat := by
    rw [Char.ofNat, dif_pos hvalid]
    rfl
  rw [isAscii, hnat]
  simpa using le_of_mem_utf8EncodeChar h u hu

theorem bytes_singleton_ne_nil : bytes [c] ≠ [] := by
  simp [bytes, String.utf8EncodeChar_ne_nil]

/-- The byte `b` begins the character `x`. -/
structure Leads (b x : Char) : Prop where
  ascii : isAscii x = true → b = x
  wide : isAscii x = false → isAscii b = false

def Coarse (p : Char → Bool) : Prop :=
  ∀ c d, isAscii c = false → isAscii d = false → p c = p d

theorem Leads.apply_eq (h : Leads b x) (hp : Coarse p) : p b = p x := by
  cases hx : isAscii x with
  | true => rw [h.ascii hx]
  | false => exact hp b x (h.wide hx) hx

theorem Leads.eq_iff (h : Leads b x) (hc : isAscii c = true) : b = c ↔ x = c := by
  have hne {d : Char} (hd : isAscii d = false) : d ≠ c := by
    rintro rfl
    rw [hc] at hd
    contradiction
  cases hx : isAscii x with
  | true => rw [h.ascii hx]
  | false => exact iff_of_false (hne (h.wide hx)) (hne hx)

theorem exists_bytes_cons (x : Char) (rest : List Char) : ∃ b B, Leads b x ∧
    bytes (x :: rest) = b :: (B ++ bytes rest) ∧ B.length + 1 = x.utf8Size ∧
    ∀ d ∈ B, isAscii d = false := by
  cases hx : isAscii x with
  | true =>
    refine ⟨x, [], ⟨fun _ => rfl, id⟩, bytes_cons_of_isAscii hx, ?_, by simp⟩
    exact (utf8Size_eq_one_iff.2 hx).symm
  | false =>
    obtain ⟨b, B, hB⟩ := List.exists_cons_of_ne_nil (bytes_singleton_ne_nil (c := x))
    have hmem (d : Char) (hd : d ∈ b :: B) : isAscii d = false :=
      isAscii_of_mem_bytes hx (hB ▸ hd)
    have hlen : (b :: B).length = x.utf8Size := by
      rw [← hB, length_bytes]
      rfl
    refine ⟨b, B, ⟨fun h => ?_, fun _ => hmem b (by simp)⟩, ?_, hlen,
      fun d hd => hmem d (List.mem_cons_of_mem b hd)⟩
    · rw [hx] at h
      contradiction
    · rw [bytes_cons, hB]
      rfl

theorem takeWhile_bytes (hp : ∀ c, isAscii c = false → p c = true) :
    (bytes cs).takeWhile p = bytes (cs.takeWhile p) := by
  induction cs with
  | nil => rfl
  | cons x cs ih =>
    cases hx : isAscii x with
    | true =>
      rw [bytes_cons_of_isAscii hx, List.takeWhile_cons, List.takeWhile_cons]
      split
      · rw [ih, bytes_cons_of_isAscii hx]
      · rfl
    | false =>
      have hall (b : Char) (hb : b ∈ bytes [x]) : p b = true := hp b (isAscii_of_mem_bytes hx hb)
      rw [bytes_cons, List.takeWhile_append_of_pos hall, ih, List.takeWhile_cons, if_pos (hp x hx)]
      exact bytes_cons.symm

theorem cutFrom_inside {taken : List Char} {n : Nat} (hpos : 0 < n) (hn : n < x.utf8Size) :
    cutFrom taken (byteLength A + n) (A ++ x :: cs) = none := by
  induction A generalizing taken with
  | nil =>
    obtain ⟨m, rfl⟩ := Nat.exists_eq_add_of_lt hpos
    rw [byteLength_nil, List.nil_append, Nat.zero_add, Nat.zero_add, cutFrom, if_neg]
    omega
  | cons c A ih =>
    have hc := c.utf8Size_pos
    obtain ⟨m, hm⟩ : ∃ m, byteLength (c :: A) + n = m + 1 := ⟨byteLength (c :: A) + n - 1, by omega⟩
    rw [byteLength_cons] at hm
    rw [byteLength_cons, hm, List.cons_append, cutFrom, if_pos (by omega)]
    have hm' : m + 1 - c.utf8Size = byteLength A + n := by omega
    rw [hm', ih]

namespace Cursor

variable {text k : List Char} {c d : Cursor} {x : Char}

theorem rest_next (hr : c.rest = x :: k) : (c.advance 1).rest = k := by
  rw [rest_advance, hr, List.drop_one, List.tail_cons]

theorem offset_next (hr : c.rest = x :: k) : (c.advance 1).offset = c.offset + x.utf8Size := by
  simp [offset_advance, hr]

theorem offset_next_of_isAscii (hr : c.rest = x :: k) (hx : isAscii x = true) :
    (c.advance 1).offset = c.offset + 1 := by
  rw [offset_next hr, utf8Size_eq_one_iff.2 hx]

theorem bytes_text (c : Cursor) : bytes c.text = bytes c.before.reverse ++ bytes c.rest :=
  bytes_append

theorem length_bytes_before (c : Cursor) : (bytes c.before.reverse).length = c.offset := by
  rw [length_bytes, byteLength_reverse, offset]

theorem drop_bytes (h : c.text = text) : (bytes text).drop c.offset = bytes c.rest := by
  rw [← h, bytes_text, ← length_bytes_before, List.drop_left]

theorem bytesFrom?_offset (h : c.text = text) :
    bytesFrom? text c.offset = some (bytes c.rest) := by
  rw [bytesFrom?, drop_bytes h, if_pos]
  rw [← h, bytes_text, List.length_append, length_bytes_before]
  exact Nat.le_add_right _ _

theorem bytesBefore?_offset (h : c.text = text) :
    bytesBefore? text c.offset = some (bytes c.before.reverse) := by
  rw [← h, bytesBefore?, bytes_text, List.length_append, ← length_bytes_before, List.take_left,
    if_pos (Nat.le_add_right _ _)]

theorem byte?_add (h : c.text = text) (n : Nat) :
    byte? text (c.offset + n) = (bytes c.rest)[n]? := by
  rw [byte?, ← drop_bytes h, List.getElem?_drop]

theorem byte?_offset (h : c.text = text) : byte? text c.offset = (bytes c.rest).head? := by
  rw [← Nat.add_zero c.offset, byte?_add h, List.head?_eq_getElem?]

theorem byte?_of_nil (h : c.text = text) (hr : c.rest = []) : byte? text c.offset = none := by
  rw [byte?_offset h, hr]
  rfl

theorem byte?_of_cons (h : c.text = text) (hr : c.rest = x :: k) :
    ∃ b, byte? text c.offset = some b ∧ Leads b x := by
  obtain ⟨b, B, hb, hbytes, -⟩ := exists_bytes_cons x k
  exact ⟨b, by rw [byte?_offset h, hr, hbytes]; rfl, hb⟩

theorem sliceFrom?_offset (h : c.text = text) : sliceFrom? text c.offset = some c.rest := by
  have hcut : cut? c.offset text = some (c.before.reverse, c.rest) := by
    rw [← h, offset, ← byteLength_reverse]
    exact cut?_append
  rw [sliceFrom?, hcut]
  rfl

theorem slice?_of_passes (h : c.text = text) (hp : c.Passes A d) :
    slice? text c.offset d.offset = some A := by
  rw [slice?, hp.offset_eq, if_pos (Nat.le_add_right _ _), sliceFrom?_offset h,
    Nat.add_sub_cancel_left, hp.rest_eq]
  change (cut? (byteLength A) (A ++ d.rest) >>= fun cut => some cut.1) = _
  rw [cut?_append]
  rfl

theorem charAt?_offset (h : c.text = text) : charAt? text c.offset = c.rest.head? := by
  rw [charAt?, sliceFrom?_offset h]
  rfl

theorem charAt?_inside (h : c.text = text) (hr : c.rest = x :: k) {n : Nat} (hpos : 0 < n)
    (hn : n < x.utf8Size) : charAt? text (c.offset + n) = none := by
  have hcut : cut? (c.offset + n) text = none := by
    rw [← h, Cursor.text, hr, offset, ← byteLength_reverse]
    exact cutFrom_inside hpos hn
  rw [charAt?, sliceFrom?, hcut]
  rfl

theorem byte?_inside (h : c.text = text) (hr : c.rest = x :: k) {n : Nat} (hpos : 0 < n)
    (hn : n < x.utf8Size) : ∃ b, byte? text (c.offset + n) = some b ∧ isAscii b = false := by
  obtain ⟨b, B, -, hbytes, hlen, hB⟩ := exists_bytes_cons x k
  obtain ⟨m, rfl⟩ := Nat.exists_eq_add_of_lt hpos
  have hm : m < B.length := by omega
  refine ⟨B[m], ?_, hB _ (List.getElem_mem hm)⟩
  rw [byte?_add h, hr, hbytes, Nat.zero_add, List.getElem?_cons_succ, List.getElem?_append_left hm,
    List.getElem?_eq_getElem hm]

theorem offset_lt_of_length_lt (h : c.text = d.text) (hlt : d.rest.length < c.rest.length) :
    c.offset < d.offset := by
  rcases List.append_eq_append_iff.1 h with ⟨A, hbefore, hrest⟩ | ⟨A, -, hrest⟩
  · cases A with
    | nil => simp [hrest] at hlt
    | cons x A =>
      have hpos := x.utf8Size_pos
      have hlen := congrArg byteLength hbefore
      simp only [byteLength_append, byteLength_reverse, byteLength_cons] at hlen
      simp only [offset]
      omega
  · rw [hrest, List.length_append] at hlt
    omega

end Cursor

end ImportAtlas.Text
