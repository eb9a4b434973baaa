import ImportAtlas.Proofs.Reference.Literal

namespace ImportAtlas.Lexeme

open Text

variable {A B k : List Char} {c quote : Char} {body : List Char} {depth : Nat}

theorem head?_dropWhile_append {p : Char → Bool} (h : (k.dropWhile p).head? = some c) :
    ((k ++ A).dropWhile p).head? = some c := by
  rw [List.dropWhile_append, if_neg]
  · rwa [List.head?_append, Option.or_of_isSome (by rw [h]; rfl)]
  · rw [List.isEmpty_iff]
    rintro hnil
    rw [hnil] at h
    contradiction

theorem bodyFollowsFrom_string_cons (hc : c ≠ '\\') :
    bodyFollowsFrom depth (some quote) (c :: k) =
      bodyFollowsFrom depth (if c = quote then none else some quote) k := by
  rw [bodyFollowsFrom]
  · exact fun h _ => hc h
  · exact fun _ _ h _ => hc h

theorem bodyFollowsFrom_append {within : Option Char} (h : bodyFollowsFrom depth within k = true) :
    bodyFollowsFrom depth within (k ++ A) = true := by
  fun_induction bodyFollowsFrom depth within k with
  | case1 => contradiction
  | case2 => contradiction
  | case3 depth quote c rest ih =>
    rw [List.cons_append, List.cons_append, bodyFollowsFrom, ih h]
  | case4 depth quote c rest hend hesc ih =>
    rw [List.cons_append, bodyFollowsFrom_string_cons (ne_escape hend hesc)]
    exact ih h
  | case5 depth rest ih =>
    rw [List.cons_append, bodyFollowsFrom, if_pos rfl, ih h]
  | case6 depth rest hle hne =>
    rw [List.cons_append, bodyFollowsFrom, if_neg hne, if_pos rfl, if_pos hle]
    rw [decide_eq_true_eq] at h ⊢
    exact head?_dropWhile_append h
  | case7 depth rest hle hne ih =>
    rw [List.cons_append, bodyFollowsFrom, if_neg hne, if_pos rfl, if_neg hle, ih h]
  | case8 depth c rest hopen hclose hquote ih =>
    rw [List.cons_append, bodyFollowsFrom, if_neg hopen, if_neg hclose, if_pos hquote, ih h]
  | case9 depth c rest hopen hclose hquote ih =>
    rw [List.cons_append, bodyFollowsFrom, if_neg hopen, if_neg hclose, if_neg hquote, ih h]

def isNesting (c : Char) : Bool := c = '(' || c = ')' || isQuote c || c = '\x60'

theorem bodyFollowsFrom_char (hc : isNesting c = false) :
    bodyFollowsFrom depth none (c :: k) = bodyFollowsFrom depth none k := by
  simp only [isNesting, Bool.or_eq_false_iff, decide_eq_false_iff_not] at hc
  obtain ⟨⟨⟨hopen, hclose⟩, hquote⟩, htick⟩ := hc
  rw [bodyFollowsFrom, if_neg hopen, if_neg hclose, if_neg (by simp [hquote, htick])]

def IsOpen (within : Option Char) : Prop := ∀ quote ∈ within, isNesting quote = true

theorem isOpen_none : IsOpen none := by simp [IsOpen]

def Quiet (A : List Char) : Prop := ∀ c ∈ A, isNesting c = false ∧ c ≠ '\\'

instance : Decidable (Quiet A) := List.decidableBAll _ A

theorem bodyFollowsFrom_quiet {within : Option Char}
    (hA : Quiet A) (hwithin : IsOpen within) :
    bodyFollowsFrom depth within (A ++ k) = bodyFollowsFrom depth within k := by
  induction A with
  | nil => rfl
  | cons c A ih =>
    obtain ⟨hc, hescape⟩ := hA c List.mem_cons_self
    rw [List.cons_append, ← ih fun d hd => hA d (List.mem_cons_of_mem c hd)]
    cases within with
    | none => exact bodyFollowsFrom_char hc
    | some quote =>
      have hne : c ≠ quote := by
        rintro rfl
        rw [hwithin c rfl] at hc
        contradiction
      rw [bodyFollowsFrom_string_cons hescape, if_neg hne]

theorem bodyFollowsFrom_cons_mono {k' : List Char} {within : Option Char}
    (hesc : within = none ∨ c ≠ '\\') (hwithin : IsOpen within)
    (hbrace : (k.dropWhile isAsciiBlank).head? = some '\x7b' →
      (k'.dropWhile isAsciiBlank).head? = some '\x7b')
    (hnext : ∀ depth within, IsOpen within → bodyFollowsFrom depth within k = true →
      bodyFollowsFrom depth within k' = true)
    (h : bodyFollowsFrom depth within (c :: k) = true) :
    bodyFollowsFrom depth within (c :: k') = true := by
  cases within with
  | some quote =>
    have hc := hesc.resolve_left (by simp)
    rw [bodyFollowsFrom_string_cons hc] at h ⊢
    refine hnext _ _ ?_ h
    split
    · exact isOpen_none
    · exact hwithin
  | none =>
    by_cases hc : isNesting c = true
    · rw [bodyFollowsFrom] at h ⊢
      split
      · rename_i hopen
        rw [if_pos hopen] at h
        exact hnext _ _ isOpen_none h
      · rename_i hopen
        rw [if_neg hopen] at h
        split
        · rename_i hclose
          rw [if_pos hclose] at h
          split
          · rename_i hdepth
            rw [if_pos hdepth, decide_eq_true_eq] at h
            exact decide_eq_true (hbrace h)
          · rename_i hdepth
            rw [if_neg hdepth] at h
            exact hnext _ _ isOpen_none h
        · rename_i hclose
          have hquote : (isQuote c || c = '\x60') = true := by simp_all [isNesting]
          rw [if_neg hclose, if_pos hquote] at h
          rw [if_pos hquote]
          exact hnext _ _ (fun q hq => Option.some.inj hq ▸ hc) h
    · rw [Bool.not_eq_true] at hc
      rw [bodyFollowsFrom_char hc] at h ⊢
      exact hnext _ _ isOpen_none h

/-- The text of an argument list: names, commas and whatever else nests nothing,
and strings. -/
inductive Arguments : List Char → Prop
  | nil : Arguments []
  | char {c : Char} {A : List Char} : isNesting c = false → Arguments A → Arguments (c :: A)
  | string {quote : Char} {body A : List Char} : isQuote quote = true → StringBody quote body →
      Arguments A → Arguments (quoted quote body ++ A)

theorem bodyFollowsFrom_body (hb : StringBody quote body) (hq : quote ≠ '\\') :
    bodyFollowsFrom depth (some quote) (body ++ quote :: k) = bodyFollowsFrom depth none k := by
  induction hb with
  | nil => rw [List.nil_append, bodyFollowsFrom_string_cons hq, if_pos rfl]
  | char hc _ hesc _ ih =>
    rw [List.cons_append, bodyFollowsFrom_string_cons hesc, if_neg hc, ih]
  | escape _ ih => rw [List.cons_append, List.cons_append, bodyFollowsFrom, ih]

theorem Arguments.bodyFollowsFrom (hA : Arguments A) :
    bodyFollowsFrom depth none (A ++ k) = bodyFollowsFrom depth none k := by
  induction hA with
  | nil => rfl
  | char hc _ ih => rw [List.cons_append, bodyFollowsFrom_char hc, ih]
  | @string quote body A hq hb _ ih =>
    have hne {c : Char} (hc : isQuote c = false) : quote ≠ c := by
      rintro rfl
      rw [hq] at hc
      contradiction
    rw [List.append_assoc, quoted_append, Lexeme.bodyFollowsFrom, if_neg (hne (by decide)),
      if_neg (hne (by decide)), if_pos (by simp [hq]), bodyFollowsFrom_body hb (hne (by decide)),
      ih]

theorem Arguments.isDefinition_eq (hA : Arguments A) :
    isDefinition ('(' :: (A ++ ')' :: k)) =
      decide ((k.dropWhile isAsciiBlank).head? = some '\x7b') := by
  rw [isDefinition, Lexeme.bodyFollowsFrom, if_pos rfl, hA.bodyFollowsFrom,
    Lexeme.bodyFollowsFrom, if_neg (by decide), if_pos rfl, if_pos (by omega)]

end ImportAtlas.Lexeme
