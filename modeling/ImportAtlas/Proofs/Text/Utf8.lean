import ImportAtlas.Proofs.Text.ByteOrder
import ImportAtlas.Text.Utf8

namespace ImportAtlas.Text

variable {cs out : List Char} {c : Char} {index : Nat} {rest : List UInt8}

namespace Continuation

variable {lead v : Nat}

theorem le_of_ofLead? {next : Continuation} (h : ofLead? lead = some next) : 0x80 ≤ lead := by
  by_contra hlow
  have hnone : ofLead? lead = none := by
    unfold ofLead?
    split_ifs <;> simp_all <;> omega
  rw [hnone] at h
  contradiction

theorem exists_three (hlow : 0x800 ≤ v) (hhigh : v < 0x10000) (hvalid : v < 0xD800 ∨ 0xE000 ≤ v) :
    ∃ low high, ofLead? (v / 4096 % 16 + 224) = some ⟨low, high, 1⟩ ∧
      low ≤ v / 64 % 64 + 128 ∧ v / 64 % 64 + 128 ≤ high := by
  unfold ofLead?
  split_ifs <;> simp_all <;> omega

theorem exists_four (hlow : 0x10000 ≤ v) (hhigh : v < 0x110000) :
    ∃ low high, ofLead? (v / 262144 % 8 + 240) = some ⟨low, high, 2⟩ ∧
      low ≤ v / 4096 % 64 + 128 ∧ v / 4096 % 64 + 128 ≤ high := by
  unfold ofLead?
  split_ifs <;> simp_all <;> omega

end Continuation

section Step

variable {start seen bits low high further : Nat} {b : UInt8} {next : Continuation}

theorem decodeFrom_lead (h : Continuation.ofLead? b.toNat = some next) :
    decodeFrom .between index (b :: rest) out =
      decodeFrom (.inside index 1 (leadBits b.toNat) next) (index + 1) rest out := by
  rw [decodeFrom, if_neg (Nat.not_lt.2 (Continuation.le_of_ofLead? h)), h]

theorem decodeFrom_last (hlow : low ≤ b.toNat) (hhigh : b.toNat ≤ high) :
    decodeFrom (.inside start seen bits ⟨low, high, 0⟩) index (b :: rest) out =
      decodeFrom .between (index + 1) rest (Char.ofNat (bits * 0x40 + b.toNat % 0x40) :: out) := by
  simp [decodeFrom, hlow, hhigh]

theorem decodeFrom_next (hlow : low ≤ b.toNat) (hhigh : b.toNat ≤ high) :
    decodeFrom (.inside start seen bits ⟨low, high, further + 1⟩) index (b :: rest) out =
      decodeFrom (.inside start (seen + 1) (bits * 0x40 + b.toNat % 0x40) ⟨0x80, 0xBF, further⟩)
        (index + 1) rest out := by
  simp [decodeFrom, hlow, hhigh]

end Step

section Payload

variable {v : Nat}

theorem toNat_ofNat_of_lt {n : Nat} (h : n < 256) : (UInt8.ofNat n).toNat = n := by
  rw [UInt8.toNat_ofNat']
  exact Nat.mod_eq_of_lt h

theorem decodeFrom_two (hlow : 0x80 ≤ v) (hhigh : v < 0x800) :
    decodeFrom .between index (.ofNat (v / 64 % 32 + 192) :: .ofNat (v % 64 + 128) :: rest) out =
      decodeFrom .between (index + 2) rest (Char.ofNat v :: out) := by
  have hfirst := toNat_ofNat_of_lt (n := v / 64 % 32 + 192) (by omega)
  have hlast := toNat_ofNat_of_lt (n := v % 64 + 128) (by omega)
  have hlead : Continuation.ofLead? (v / 64 % 32 + 192) = some ⟨0x80, 0xBF, 0⟩ := by
    simp [Continuation.ofLead?]
    omega
  have hbits : leadBits (v / 64 % 32 + 192) * 0x40 + (v % 64 + 128) % 0x40 = v := by
    rw [leadBits, if_pos (by omega)]
    omega
  rw [decodeFrom_lead (by rw [hfirst]; exact hlead), decodeFrom_last (by omega) (by omega),
    hfirst, hlast, hbits]

theorem decodeFrom_three (hlow : 0x800 ≤ v) (hhigh : v < 0x10000)
    (hvalid : v < 0xD800 ∨ 0xE000 ≤ v) :
    decodeFrom .between index (.ofNat (v / 4096 % 16 + 224) :: .ofNat (v / 64 % 64 + 128) ::
        .ofNat (v % 64 + 128) :: rest) out =
      decodeFrom .between (index + 3) rest (Char.ofNat v :: out) := by
  have hfirst := toNat_ofNat_of_lt (n := v / 4096 % 16 + 224) (by omega)
  have hsecond := toNat_ofNat_of_lt (n := v / 64 % 64 + 128) (by omega)
  have hlast := toNat_ofNat_of_lt (n := v % 64 + 128) (by omega)
  obtain ⟨low, high, hlead, hfits⟩ := Continuation.exists_three hlow hhigh hvalid
  have hbits : (leadBits (v / 4096 % 16 + 224) * 0x40 + (v / 64 % 64 + 128) % 0x40) * 0x40 +
      (v % 64 + 128) % 0x40 = v := by
    rw [leadBits, if_neg (by omega), if_pos (by omega)]
    omega
  rw [decodeFrom_lead (by rw [hfirst]; exact hlead), decodeFrom_next (by omega) (by omega),
    decodeFrom_last (by omega) (by omega), hfirst, hsecond, hlast, hbits]

theorem decodeFrom_four (hlow : 0x10000 ≤ v) (hhigh : v < 0x110000) :
    decodeFrom .between index (.ofNat (v / 262144 % 8 + 240) :: .ofNat (v / 4096 % 64 + 128) ::
        .ofNat (v / 64 % 64 + 128) :: .ofNat (v % 64 + 128) :: rest) out =
      decodeFrom .between (index + 4) rest (Char.ofNat v :: out) := by
  have hfirst := toNat_ofNat_of_lt (n := v / 262144 % 8 + 240) (by omega)
  have hsecond := toNat_ofNat_of_lt (n := v / 4096 % 64 + 128) (by omega)
  have hthird := toNat_ofNat_of_lt (n := v / 64 % 64 + 128) (by omega)
  have hlast := toNat_ofNat_of_lt (n := v % 64 + 128) (by omega)
  obtain ⟨low, high, hlead, hfits⟩ := Continuation.exists_four hlow hhigh
  have hbits : ((leadBits (v / 262144 % 8 + 240) * 0x40 + (v / 4096 % 64 + 128) % 0x40) * 0x40 +
      (v / 64 % 64 + 128) % 0x40) * 0x40 + (v % 64 + 128) % 0x40 = v := by
    rw [leadBits, if_neg (by omega), if_neg (by omega)]
    omega
  rw [decodeFrom_lead (by rw [hfirst]; exact hlead), decodeFrom_next (by omega) (by omega),
    decodeFrom_next (by omega) (by omega), decodeFrom_last (by omega) (by omega), hfirst,
    hsecond, hthird, hlast, hbits]

end Payload

theorem decodeFrom_utf8EncodeChar :
    decodeFrom .between index (String.utf8EncodeChar c ++ rest) out =
      decodeFrom .between (index + c.utf8Size) rest (c :: out) := by
  have hvalid := c.valid
  simp only [UInt32.isValidChar, Nat.isValidChar] at hvalid
  have hofNat : Char.ofNat c.val.toNat = c := Char.ofNat_toNat c
  rw [← String.length_utf8EncodeChar]
  -- by the number of bytes
  fun_cases String.utf8EncodeChar c with
  | case1 v hone =>
    rw [List.singleton_append, decodeFrom, toNat_ofNat_of_lt (by omega), if_pos (by omega), hofNat,
      List.length_singleton]
  | case2 v hone htwo =>
    rw [List.cons_append, List.singleton_append, decodeFrom_two (by omega) (by omega), hofNat]
    rfl
  | case3 v hone htwo hthree =>
    rw [List.cons_append, List.cons_append, List.singleton_append,
      decodeFrom_three (by omega) (by omega) (by omega), hofNat]
    rfl
  | case4 v hone htwo hthree =>
    rw [List.cons_append, List.cons_append, List.cons_append, List.singleton_append,
      decodeFrom_four (by omega) (by omega), hofNat]
    rfl

theorem decodeFrom_encodeUtf8 :
    decodeFrom .between index (encodeUtf8 cs) out = .ok (out.reverse ++ cs) := by
  induction cs generalizing index out with
  | nil =>
    change decodeFrom .between index [] out = _
    rw [decodeFrom, List.append_nil]
  | cons c cs ih =>
    rw [encodeUtf8_cons, decodeFrom_utf8EncodeChar, ih, List.reverse_cons, List.append_assoc,
      List.singleton_append]

theorem decodeUtf8_encodeUtf8 (s : String) : decodeUtf8 (encodeUtf8 s.toList) = .ok s := by
  rw [decodeUtf8, decodeFrom_encodeUtf8]
  exact congrArg Except.ok String.ofList_toList

/-- The payload and continuation of the character that is being decoded. -/
def Utf8State.pending : Utf8State → Option (Nat × Continuation)
  | .between => none
  | .inside _ _ bits next => some (bits, next)

theorem readableFrom_of_decodeFrom {state : Utf8State} {bytes : List UInt8}
    (h : decodeFrom state index bytes out = .ok cs) :
    out.reverse ++ readableFrom state.pending bytes = cs := by
  -- where the decoder goes on, the reader takes the same branch and replaces nothing
  induction bytes generalizing state index out with
  | nil =>
    cases state with
    | between =>
      rw [decodeFrom, Except.ok.injEq] at h
      rw [Utf8State.pending, readableFrom, List.append_nil, h]
    | inside start seen bits next => cases h
  | cons b rest ih =>
    cases state with
    | between =>
      rw [decodeFrom] at h
      rw [Utf8State.pending, readableFrom, readLead]
      split at h
      · rename_i hb
        rw [if_pos hb, ← ih h, List.reverse_cons, List.append_assoc]
        rfl
      · rename_i hb
        rw [if_neg hb]
        split at h
        · cases h
        · exact ih h
    | inside start seen bits next =>
      rw [decodeFrom] at h
      rw [Utf8State.pending, readableFrom]
      split at h
      · rename_i hin
        rw [if_pos hin]
        dsimp only at h ⊢
        split at h
        · rw [← ih h, List.reverse_cons, List.append_assoc]
          rfl
        · exact ih h
      · cases h

@[simp] theorem readable_encodeUtf8 (cs : List Char) : readable (encodeUtf8 cs) = cs := by
  have hdecode : decodeFrom .between 0 (encodeUtf8 cs) [] = .ok cs := decodeFrom_encodeUtf8
  exact readableFrom_of_decodeFrom hdecode

end ImportAtlas.Text
