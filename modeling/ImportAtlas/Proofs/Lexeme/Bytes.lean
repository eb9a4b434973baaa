import ImportAtlas.Proofs.Lexeme.Body
import ImportAtlas.Proofs.Lexeme.Regex
import ImportAtlas.Proofs.Text.Bytes

namespace ImportAtlas.Lexeme

open Text

variable {α : Type} {cs B rest : List Char} {quote x b : Char} {inClass : Bool} {k n m depth : Nat}

theorem ne_of_isAscii {c : Char} (hx : isAscii x = false) (hc : isAscii c = true) : x ≠ c := by
  rintro rfl
  rw [hc] at hx
  contradiction

theorem coarse_eq {c : Char} (hc : isAscii c = true) : Coarse (· = c) := by
  intro d e hd he
  simp [ne_of_isAscii hd hc, ne_of_isAscii he hc]

theorem headIs_bytes {p : Char → Bool} (hp : Coarse p) : headIs p (bytes cs) = headIs p cs := by
  cases cs with
  | nil => rfl
  | cons x cs =>
    obtain ⟨b, B, hb, hbytes, -⟩ := exists_bytes_cons x cs
    rw [hbytes, headIs_cons, headIs_cons, hb.apply_eq hp]

theorem head?_bytes {c : Char} (hc : isAscii c = true) :
    (bytes cs).head? = some c ↔ cs.head? = some c := by
  cases cs with
  | nil => rfl
  | cons x cs =>
    obtain ⟨b, B, hb, hbytes, -⟩ := exists_bytes_cons x cs
    rw [hbytes, List.head?_cons, List.head?_cons, Option.some.injEq, Option.some.injEq,
      hb.eq_iff hc]

def byteCount (n : Nat) (cs : List Char) (k m : Nat) : Nat := k + byteLength (cs.take (m - n))

theorem byteCount_cons (h : n < m) :
    byteCount n (x :: cs) k m = byteCount (n + 1) cs (k + x.utf8Size) m := by
  obtain ⟨l, rfl⟩ := Nat.exists_eq_add_of_lt h
  have hleft : n + l + 1 - n = l + 1 := by omega
  have hright : n + l + 1 - (n + 1) = l := by omega
  rw [byteCount, byteCount, hleft, hright, List.take_succ_cons, byteLength_cons, Nat.add_assoc]

theorem map_byteCount_cons {o : Option Nat} (h : ∀ m, o = some m → n < m) :
    o.map (byteCount n (x :: cs) k) = o.map (byteCount (n + 1) cs (k + x.utf8Size)) :=
  Option.map_congr fun m hm => byteCount_cons (h m hm)

theorem byteCount_succ (h : isAscii x = true) : byteCount n (x :: cs) k (n + 1) = k + 1 := by
  have hone : n + 1 - n = 1 := by omega
  simp [byteCount, hone, utf8Size_eq_one_iff.2 h]

def Passing (f : Nat → List Char → α) : Prop :=
  ∀ k b rest, isAscii b = false → f k (b :: rest) = f (k + 1) rest

namespace Passing

variable {f : Nat → List Char → α}

theorem append (hf : Passing f) (hB : ∀ b ∈ B, isAscii b = false) :
    f k (B ++ rest) = f (k + B.length) rest := by
  induction B generalizing k with
  | nil => rfl
  | cons b B ih =>
    rw [List.cons_append, hf k b _ (hB b (by simp)), ih fun d hd => hB d (by simp [hd]),
      List.length_cons, Nat.add_right_comm, Nat.add_assoc]

theorem bytes_cons (hf : Passing f) (hx : isAscii x = false) :
    f k (bytes (x :: cs)) = f (k + x.utf8Size) (bytes cs) := by
  obtain ⟨b, B, hb, hbytes, hlen, hB⟩ := exists_bytes_cons x cs
  rw [hbytes, hf k b _ (hb.wide hx), hf.append hB, ← hlen]
  congr 1
  omega

theorem escape (hf : Passing f) (h : ∀ k b rest, f k ('\\' :: b :: rest) = f (k + 2) rest) :
    f k (bytes ('\\' :: x :: cs)) = f (k + 1 + x.utf8Size) (bytes cs) := by
  obtain ⟨b, B, -, hbytes, hlen, hB⟩ := exists_bytes_cons x cs
  rw [bytes_cons_of_isAscii (by decide), hbytes, h, hf.append hB, ← hlen]
  congr 1
  omega

end Passing

theorem passing_stringFrom (hq : isAscii quote = true) : Passing (stringFrom quote) := by
  intro k b rest hb
  rw [stringFrom_cons (ne_of_isAscii hb (by decide)) (ne_of_isAscii hb (by decide)),
    if_neg (ne_of_isAscii hb hq)]

theorem stringFrom_bytes (hq : isAscii quote = true) :
    stringFrom quote k (bytes cs) = (stringFrom quote n cs).map (byteCount n cs k) := by
  fun_induction stringFrom quote n cs generalizing k with
  | case1 => rfl
  | case2 n rest =>
    rw [bytes_cons_of_isAscii (by decide)]
    rfl
  | case3 => rfl
  | case4 n c rest ih =>
    have hlt (m : Nat) (hm : stringFrom quote (n + 2) rest = some m) : n + 1 < m :=
      Nat.lt_of_succ_lt (lt_of_stringFrom hm)
    rw [(passing_stringFrom hq).escape fun _ _ _ => rfl, ih,
      map_byteCount_cons fun m hm => Nat.lt_of_succ_lt (hlt m hm), map_byteCount_cons hlt]
    rfl
  | case5 n rest hline hend hesc =>
    have hescape : quote ≠ '\\' := ne_escape hend hesc
    rw [bytes_cons_of_isAscii hq, stringFrom_cons hline hescape, if_pos rfl, Option.map_some,
      byteCount_succ hq]
  | case6 n c rest hline hend hesc hc ih =>
    have hescape : c ≠ '\\' := ne_escape hend hesc
    rw [map_byteCount_cons fun m hm => Nat.lt_of_succ_lt (lt_of_stringFrom hm), ← ih]
    cases hx : isAscii c with
    | true =>
      rw [bytes_cons_of_isAscii hx, stringFrom_cons hline hescape, if_neg hc,
        utf8Size_eq_one_iff.2 hx]
    | false => exact (passing_stringFrom hq).bytes_cons hx

theorem passing_templateChunkFrom : Passing templateChunkFrom := by
  intro k b rest hb
  refine templateChunkFrom_cons (ne_of_isAscii hb (by decide)) (ne_of_isAscii hb (by decide)) ?_
  exact fun h => absurd h (ne_of_isAscii hb (by decide))

theorem templateChunkFrom_bytes : templateChunkFrom k (bytes cs) =
    (templateChunkFrom n cs).map (Prod.map id (byteCount n cs k)) := by
  have shift {o : Option (ChunkEnd × Nat)} {x : Char} {cs : List Char} {n k : Nat}
      (h : ∀ e m, o = some (e, m) → n < m) : o.map (Prod.map id (byteCount n (x :: cs) k)) =
        o.map (Prod.map id (byteCount (n + 1) cs (k + x.utf8Size))) :=
    Option.map_congr fun (e, m) hm => congrArg (Prod.mk e) (byteCount_cons (h e m hm))
  fun_induction templateChunkFrom n cs generalizing k with
  | case1 => rfl
  | case2 => rfl
  | case3 n c rest ih =>
    have hlt (e : ChunkEnd) (m : Nat) (hm : templateChunkFrom (n + 2) rest = some (e, m)) :
        n + 1 < m := Nat.lt_of_succ_lt (lt_of_templateChunkFrom hm)
    rw [passing_templateChunkFrom.escape fun _ _ _ => rfl, ih,
      shift fun e m hm => Nat.lt_of_succ_lt (hlt e m hm), shift hlt]
    rfl
  | case4 n rest =>
    rw [bytes_cons_of_isAscii (by decide), templateChunkFrom, Option.map_some, Prod.map,
      byteCount_succ (by decide)]
    rfl
  | case5 n rest =>
    rw [bytes_cons_of_isAscii (by decide), bytes_cons_of_isAscii (by decide), templateChunkFrom,
      Option.map_some, Prod.map, byteCount_cons (by omega), byteCount_succ (by decide)]
    rfl
  | case6 n c rest hend hesc hclose hopen ih =>
    have hescape : c ≠ '\\' := ne_escape hend hesc
    rw [shift fun e m hm => Nat.lt_of_succ_lt (lt_of_templateChunkFrom hm), ← ih]
    cases hx : isAscii c with
    | true =>
      rw [bytes_cons_of_isAscii hx, templateChunkFrom_cons hclose hescape fun h => ?_,
        utf8Size_eq_one_iff.2 hx]
      rw [headIs_bytes (coarse_eq (by decide))]
      cases rest with
      | nil => rfl
      | cons d rest => exact decide_eq_false fun hd => hopen rest h (hd ▸ rfl)
    | false => exact passing_templateChunkFrom.bytes_cons hx

theorem passing_regexBodyFrom : Passing (regexBodyFrom inClass) := by
  intro k b rest hb
  have hne {c : Char} (hc : isAscii c = true) : b ≠ c := ne_of_isAscii hb hc
  rw [regexBodyFrom_cons, if_neg]
  · simp [hne (c := '/') (by decide)]
  · simp [hne (c := '[') (by decide), hne (c := ']') (by decide), hne (c := '\\') (by decide),
      hne (c := '\n') (by decide)]

theorem regexBodyFrom_bytes : regexBodyFrom inClass k (bytes cs) =
    (regexBodyFrom inClass n cs).map (byteCount n cs k) := by
  fun_induction regexBodyFrom inClass n cs generalizing k with
  | case1 => rfl
  | case2 n rest =>
    rw [bytes_cons_of_isAscii (by decide)]
    rfl
  | case3 => rfl
  | case4 inClass n c rest ih =>
    have hlt (m : Nat) (hm : regexBodyFrom inClass (n + 2) rest = some m) : n + 1 < m :=
      Nat.lt_of_succ_lt (lt_of_regexBodyFrom hm)
    rw [passing_regexBodyFrom.escape fun _ _ _ => rfl, ih,
      map_byteCount_cons fun m hm => Nat.lt_of_succ_lt (hlt m hm), map_byteCount_cons hlt]
    rfl
  | case5 inClass n rest ih =>
    rw [map_byteCount_cons fun m hm => Nat.lt_of_succ_lt (lt_of_regexBodyFrom hm), ← ih,
      bytes_cons_of_isAscii (by decide)]
    rfl
  | case6 inClass n rest ih =>
    rw [map_byteCount_cons fun m hm => Nat.lt_of_succ_lt (lt_of_regexBodyFrom hm), ← ih,
      bytes_cons_of_isAscii (by decide)]
    rfl
  | case7 inClass n c rest hn hend hesc hopen hclose hc =>
    simp only [Bool.and_eq_true, decide_eq_true_eq, Bool.not_eq_true'] at hc
    obtain ⟨rfl, rfl⟩ := hc
    rw [bytes_cons_of_isAscii (by decide), regexBodyFrom_cons (by decide), Option.map_some,
      byteCount_succ (by decide)]
    rfl
  | case8 inClass n c rest hn hend hesc hopen hclose hc ih =>
    have hescape : c ≠ '\\' := ne_escape hend hesc
    rw [map_byteCount_cons fun m hm => Nat.lt_of_succ_lt (lt_of_regexBodyFrom hm), ← ih]
    cases hx : isAscii c with
    | true =>
      rw [bytes_cons_of_isAscii hx, regexBodyFrom_cons, if_neg hc, utf8Size_eq_one_iff.2 hx]
      simp only [List.mem_cons, List.not_mem_nil, or_false, not_or]
      exact ⟨hopen, hclose, hescape, hn⟩
    | false => exact passing_regexBodyFrom.bytes_cons hx

theorem drop_take_bytes (n : Nat) :
    (bytes cs).drop (byteLength (cs.take n)) = bytes (cs.drop n) := by
  have hsplit : bytes cs = bytes (cs.take n) ++ bytes (cs.drop n) := by
    rw [← bytes_append, List.take_append_drop]
  rw [hsplit, ← length_bytes, List.drop_left]

theorem isWordPart_of_not_isAscii (h : isAscii x = false) : isWordPart x = true := by
  simp [isWordPart, isWordStart, h]

theorem regex?_of_ne (hx : x ≠ '/') : regex? (x :: rest) = none := by
  unfold regex?
  split
  · rename_i h
    cases h
    contradiction
  · rfl

theorem regex?_bytes : regex? (bytes cs) = (regex? cs).map fun n => byteLength (cs.take n) := by
  cases cs with
  | nil => rfl
  | cons x rest =>
    by_cases hx : x = '/'
    · subst hx
      rw [bytes_cons_of_isAscii (by decide), regex?, regexBodyFrom_bytes (n := 1), regex?,
        Option.map_map, Option.map_map]
      refine Option.map_congr fun m hm => ?_
      have hlt := lt_of_regexBodyFrom hm
      have hcount : byteCount 1 rest 1 m - 1 = byteLength (rest.take (m - 1)) := by
        rw [byteCount]
        omega
      have hlength (j : Nat) : m + j = (m - 1 + j) + 1 := by omega
      simp only [Function.comp_apply]
      rw [hcount, drop_take_bytes, takeWhile_bytes fun _ => isWordPart_of_not_isAscii, length_bytes,
        hlength, List.take_succ_cons, byteLength_cons, List.take_add, byteLength_append,
        ← List.prefix_iff_eq_take.1 (List.takeWhile_prefix isWordPart), byteCount]
      exact Nat.add_assoc _ _ _
    · obtain ⟨b, B, hb, hbytes, -⟩ := exists_bytes_cons x rest
      have hb' : b ≠ '/' := fun h => hx ((hb.eq_iff (by decide)).1 h)
      rw [hbytes, regex?_of_ne hb', regex?_of_ne hx]
      rfl

theorem dropWhile_bytes {p : Char → Bool} (hp : ∀ c, isAscii c = false → p c = false) :
    (bytes cs).dropWhile p = bytes (cs.dropWhile p) := by
  induction cs with
  | nil => rfl
  | cons x cs ih =>
    obtain ⟨b, B, hb, hbytes, -⟩ := exists_bytes_cons x cs
    cases hx : isAscii x with
    | true =>
      rw [bytes_cons_of_isAscii hx, List.dropWhile_cons, List.dropWhile_cons]
      split
      · exact ih
      · exact (bytes_cons_of_isAscii hx).symm
    | false =>
      rw [hbytes, List.dropWhile_cons, List.dropWhile_cons, hp b (hb.wide hx), hp x hx,
        if_neg (by simp), if_neg (by simp), hbytes]

theorem isAsciiBlank_of_not_isAscii (h : isAscii x = false) : isAsciiBlank x = false := by
  by_contra hx
  rw [isAscii_of_isAsciiBlank (by simpa using hx)] at h
  contradiction

theorem bodyFollowsFrom_bytes {within : Option Char} (hw : ∀ q ∈ within, isAscii q = true) :
    bodyFollowsFrom depth within (bytes cs) = bodyFollowsFrom depth within cs := by
  -- bytes that are not ASCII are passed over within strings and outside of them
  have passing {quote : Char} (hq : isAscii quote = true) (depth : Nat) :
      Passing fun _ => bodyFollowsFrom depth (some quote) := by
    intro _ b rest hb
    dsimp only
    rw [bodyFollowsFrom_string_cons (ne_of_isAscii hb (by decide)), if_neg (ne_of_isAscii hb hq)]
  have passing' (depth : Nat) : Passing fun _ => bodyFollowsFrom depth none := by
    intro _ b rest hb
    refine bodyFollowsFrom_char ?_
    have hne {c : Char} (hc : isAscii c = true) : b ≠ c := ne_of_isAscii hb hc
    simp [isNesting, isQuote, hne (c := '(') (by decide), hne (c := ')') (by decide),
      hne (c := '\'') (by decide), hne (c := '"') (by decide), hne (c := '\x60') (by decide)]
  fun_induction bodyFollowsFrom depth within cs with
  | case1 => rfl
  | case2 => rfl
  | case3 depth quote c rest ih =>
    rw [← ih hw]
    exact (passing (hw quote rfl) depth).escape (k := 0) fun _ _ _ => rfl
  | case4 depth quote c rest hend hesc ih =>
    have hquote : isAscii quote = true := hw quote rfl
    cases hx : isAscii c with
    | true =>
      rw [bytes_cons_of_isAscii hx, bodyFollowsFrom_string_cons (ne_escape hend hesc), ih]
      intro q hq
      split at hq
      · contradiction
      · cases hq
        exact hquote
    | false =>
      rw [if_neg (ne_of_isAscii hx hquote)] at ih ⊢
      rw [← ih hw]
      exact (passing hquote depth).bytes_cons (k := 0) hx
  | case5 depth rest ih =>
    rw [bytes_cons_of_isAscii (by decide), bodyFollowsFrom, if_pos rfl, ih hw]
  | case6 depth rest hle hne =>
    rw [bytes_cons_of_isAscii (by decide), bodyFollowsFrom, if_neg hne, if_pos rfl, if_pos hle,
      dropWhile_bytes fun _ => isAsciiBlank_of_not_isAscii]
    exact decide_eq_decide.2 (head?_bytes (by decide))
  | case7 depth rest hle hne ih =>
    rw [bytes_cons_of_isAscii (by decide), bodyFollowsFrom, if_neg hne, if_pos rfl, if_neg hle,
      ih hw]
  | case8 depth c rest hopen hclose hquote ih =>
    have hc : isAscii c = true := by
      simp only [isQuote, Bool.or_eq_true, decide_eq_true_eq] at hquote
      rcases hquote with (rfl | rfl) | rfl <;> decide
    rw [bytes_cons_of_isAscii hc, bodyFollowsFrom, if_neg hopen, if_neg hclose, if_pos hquote,
      ih fun q hq => Option.some.inj hq ▸ hc]
  | case9 depth c rest hopen hclose hquote ih =>
    cases hx : isAscii c with
    | true =>
      rw [bytes_cons_of_isAscii hx, bodyFollowsFrom, if_neg hopen, if_neg hclose, if_neg hquote,
        ih hw]
    | false =>
      rw [← ih hw]
      exact (passing' depth).bytes_cons (k := 0) hx

end ImportAtlas.Lexeme
