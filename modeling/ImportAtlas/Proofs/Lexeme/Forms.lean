import Mathlib.Data.List.TakeWhile
import ImportAtlas.Proofs.Text.Passage
import ImportAtlas.Reference.Progress

namespace ImportAtlas

namespace Lexeme

open Text

variable {A k : List Char} {c : Char} {p : Char → Bool}

def headIs (p : Char → Bool) (k : List Char) : Bool := (k.head?.map p).getD false

@[simp] theorem headIs_nil : headIs p [] = false := rfl

@[simp] theorem headIs_cons : headIs p (c :: k) = p c := rfl

theorem head?_eq_some_iff : k.head? = some c ↔ headIs (· = c) k = true := by
  cases k <;> simp

theorem headIs_append_of_ne_nil (h : A ≠ []) : headIs p (A ++ k) = headIs p A := by
  cases A with
  | nil => contradiction
  | cons => rfl

theorem headIs_append_congr {k' : List Char} (h : headIs p k = headIs p k') :
    headIs p (A ++ k) = headIs p (A ++ k') := by
  cases A with
  | nil => exact h
  | cons => rfl

theorem headIs_reverse_append (hk : k ≠ []) :
    headIs p (A ++ k).reverse = headIs p k.reverse := by
  rw [List.reverse_append, headIs_append_of_ne_nil (by simpa using hk)]

theorem headIs_reverse_of_forall (hk : k ≠ []) (h : ∀ c ∈ k, p c = true) :
    headIs p k.reverse = true := by
  obtain ⟨c, k', hr⟩ := List.exists_cons_of_ne_nil (List.reverse_ne_nil_iff.2 hk)
  rw [hr, headIs_cons]
  exact h c (List.mem_reverse.1 (hr ▸ List.mem_cons_self))

theorem headIs_dropWhile : headIs p (k.dropWhile p) = false := by
  induction k with
  | nil => rfl
  | cons c k ih =>
    rw [List.dropWhile_cons]
    split
    · exact ih
    · simp_all

theorem takeWhile_append_of_headIs (hA : ∀ d ∈ A, p d = true) (hk : headIs p k = false) :
    (A ++ k).takeWhile p = A := by
  rw [List.takeWhile_append_of_pos hA]
  cases k with
  | nil => simp
  | cons d k =>
    rw [headIs_cons] at hk
    simp [hk]

def continuesWord (c : Char) : Bool := isWordPart c && !isWideBlank c

/-- Words: keywords and names alike. -/
structure IsWord (w : List Char) : Prop where
  start : headIs isWordStart w = true
  continues : ∀ c ∈ w, continuesWord c = true

theorem IsWord.ne_nil {w : List Char} (h : IsWord w) : w ≠ [] := by
  rintro rfl
  cases h.start

theorem IsWord.of_all {w : List Char} (hs : headIs isWordStart w = true)
    (hw : w.all continuesWord = true) : IsWord w :=
  ⟨hs, List.all_eq_true.1 hw⟩

theorem word_append {w : List Char} (hw : IsWord w) (hk : headIs continuesWord k = false) :
    word (w ++ k) = w := by
  cases w with
  | nil => exact absurd rfl hw.ne_nil
  | cons c w =>
    rw [List.cons_append, word]
    congr 1
    exact takeWhile_append_of_headIs (fun d hd => hw.continues d (List.mem_cons_of_mem c hd)) hk

theorem not_isWideBlank_of_isBlank (h : isBlank c = false) : isWideBlank c = false := by
  rw [isBlank, Bool.or_eq_false_iff] at h
  exact h.2

theorem continuesWord_of_isWordStart (h : isWordStart c = true) (hb : isBlank c = false) :
    continuesWord c = true := by
  simp [continuesWord, isWordPart, h, not_isWideBlank_of_isBlank hb]

theorem exists_word (h : isWordStart c = true) (hb : isBlank c = false) :
    ∃ w rest, c :: k = w ++ rest ∧ word (c :: k) = w ∧ IsWord w ∧
      headIs continuesWord rest = false := by
  refine ⟨_, k.dropWhile continuesWord, ?_, rfl, ⟨h, ?_⟩, headIs_dropWhile⟩
  · exact congrArg _ List.takeWhile_append_dropWhile.symm
  · intro d hd
    rcases List.mem_cons.1 hd with rfl | hd
    · exact continuesWord_of_isWordStart h hb
    · exact List.mem_takeWhile_imp hd

theorem ne_escape (hend : c = '\\' → k = [] → False)
    (hesc : ∀ d k', c = '\\' → k = d :: k' → False) : c ≠ '\\' := by
  rintro hc
  cases k with
  | nil => exact hend hc rfl
  | cons d k => exact hesc d k hc rfl

/-- What stands between the quotes of a string. -/
inductive StringBody (quote : Char) : List Char → Prop
  | nil : StringBody quote []
  | char {c : Char} {body : List Char} : c ≠ quote → c ≠ '\n' → c ≠ '\\' →
      StringBody quote body → StringBody quote (c :: body)
  | escape {c : Char} {body : List Char} : StringBody quote body →
      StringBody quote ('\\' :: c :: body)

theorem StringBody.of_forall {quote : Char} {body : List Char}
    (h : ∀ c ∈ body, c ≠ quote ∧ c ≠ '\n' ∧ c ≠ '\\') : StringBody quote body := by
  induction body with
  | nil => exact .nil
  | cons c body ih =>
    obtain ⟨hq, hn, hb⟩ := h c List.mem_cons_self
    exact .char hq hn hb (ih fun d hd => h d (List.mem_cons_of_mem c hd))

theorem isQuote_iff : isQuote c = true ↔ c = '\'' ∨ c = '"' := by simp [isQuote]

theorem stringFrom_cons {quote : Char} {n : Nat} (hline : c ≠ '\n') (hescape : c ≠ '\\') :
    stringFrom quote n (c :: k) =
      if c = quote then some (n + 1) else stringFrom quote (n + 1) k := by
  rw [stringFrom]
  · exact hline
  · exact fun h _ => hescape h
  · exact fun _ _ h _ => hescape h

theorem templateChunkFrom_cons {n : Nat} (htick : c ≠ '\x60') (hescape : c ≠ '\\')
    (hopen : c = '$' → headIs (· = '\x7b') k = false) :
    templateChunkFrom n (c :: k) = templateChunkFrom (n + 1) k := by
  rw [templateChunkFrom]
  · exact fun h _ => hescape h
  · exact fun _ _ h _ => hescape h
  · exact htick
  · rintro _ h rfl
    have := hopen h
    contradiction

theorem stringFrom_of_body {quote : Char} {body : List Char} {n : Nat}
    (hq : isQuote quote = true) (hb : StringBody quote body) :
    stringFrom quote n (body ++ quote :: k) = some (n + body.length + 1) := by
  induction hb generalizing n with
  | nil =>
    rcases isQuote_iff.1 hq with rfl | rfl
    · simp [stringFrom]
    · simp [stringFrom]
  | char hc hn hb _ ih =>
    rw [List.cons_append, stringFrom, if_neg hc, ih]
    · simp [Nat.add_right_comm, Nat.add_assoc]
    · exact hn
    · exact fun h _ => hb h
    · exact fun _ _ h _ => hb h
  | escape _ ih =>
    rw [List.cons_append, List.cons_append, stringFrom, ih]
    simp only [List.length_cons, Option.some.injEq]
    omega

theorem exists_body_of_stringFrom {quote : Char} {cs : List Char} {n m : Nat}
    (h : stringFrom quote n cs = some m) :
    ∃ body k, cs = body ++ quote :: k ∧ StringBody quote body ∧ m = n + body.length + 1 := by
  fun_induction stringFrom quote n cs with
  | case1 => contradiction
  | case2 => contradiction
  | case3 => contradiction
  | case4 n c rest ih =>
    obtain ⟨body, k, rfl, hb, rfl⟩ := ih h
    exact ⟨'\\' :: c :: body, k, rfl, .escape hb, by simp only [List.length_cons]; omega⟩
  | case5 n rest =>
    cases h
    exact ⟨[], rest, rfl, .nil, rfl⟩
  | case6 n c rest hn hend hesc hc ih =>
    obtain ⟨body, k, rfl, hb, rfl⟩ := ih h
    refine ⟨c :: body, k, rfl, .char hc (fun heq => hn heq) (fun heq => ?_) hb, ?_⟩
    · cases body with
      | nil => exact hesc _ _ heq rfl
      | cons => exact hesc _ _ heq rfl
    · simp only [List.length_cons]
      omega

def ChunkEnd.text : ChunkEnd → List Char
  | .closed => ['\x60']
  | .substitution => ['$', '\x7b']

theorem exists_of_templateChunkFrom {cs : List Char} {n m : Nat} {e : ChunkEnd}
    (h : templateChunkFrom n cs = some (e, m)) :
    ∃ A body k, cs = A ++ k ∧ A = body ++ e.text ∧ m = n + A.length ∧
      ∀ n' k', templateChunkFrom n' (A ++ k') = some (e, n' + A.length) := by
  fun_induction templateChunkFrom n cs with
  | case1 => contradiction
  | case2 => contradiction
  | case3 n c rest ih =>
    obtain ⟨A, body, k, rfl, hA, rfl, hall⟩ := ih h
    refine ⟨'\\' :: c :: A, '\\' :: c :: body, k, rfl, by rw [hA]; rfl, ?_, fun n' k' => ?_⟩
    · simp only [List.length_cons]
      omega
    · rw [List.cons_append, List.cons_append, templateChunkFrom, hall]
      simp only [List.length_cons, Option.some.injEq, Prod.mk.injEq, true_and]
      omega
  | case4 n rest =>
    cases h
    exact ⟨_, [], rest, rfl, rfl, rfl, fun _ _ => rfl⟩
  | case5 n rest =>
    cases h
    exact ⟨_, [], rest, rfl, rfl, rfl, fun _ _ => rfl⟩
  | case6 n c rest hend hesc hclose hopen ih =>
    obtain ⟨A, body, k, rfl, hA, rfl, hall⟩ := ih h
    obtain ⟨d, A, rfl⟩ : ∃ d A', A = d :: A' := by
      apply List.exists_cons_of_ne_nil
      rintro rfl
      cases e <;> simp [ChunkEnd.text] at hA
    refine ⟨c :: d :: A, c :: body, k, rfl, by rw [hA]; rfl, ?_, fun n' k' => ?_⟩
    · simp only [List.length_cons]
      omega
    · have hk' := hall (n' + 1) k'
      rw [List.cons_append] at hk'
      rw [List.cons_append, List.cons_append, templateChunkFrom, hk']
      · simp only [List.length_cons, Option.some.injEq, Prod.mk.injEq, true_and]
        omega
      · exact fun _ heq => nomatch heq
      · exact fun _ _ hc _ => hesc _ _ hc rfl
      · exact hclose
      · rintro _ hc heq
        cases heq
        exact hopen _ hc rfl

theorem exists_of_regexBodyFrom {cs : List Char} {inClass : Bool} {n m : Nat}
    (h : regexBodyFrom inClass n cs = some m) :
    ∃ A k, cs = A ++ k ∧ A ≠ [] ∧ m = n + A.length ∧
      ∀ n' k', regexBodyFrom inClass n' (A ++ k') = some (n' + A.length) := by
  fun_induction regexBodyFrom inClass n cs with
  | case1 => contradiction
  | case2 => contradiction
  | case3 => contradiction
  | case4 inClass n c rest ih =>
    obtain ⟨A, k, rfl, -, rfl, hall⟩ := ih h
    refine ⟨'\\' :: c :: A, k, rfl, by simp, ?_, fun n' k' => ?_⟩
    · simp only [List.length_cons]
      omega
    · rw [List.cons_append, List.cons_append, regexBodyFrom, hall]
      simp only [List.length_cons, Option.some.injEq]
      omega
  | case5 inClass n rest ih =>
    obtain ⟨A, k, rfl, -, rfl, hall⟩ := ih h
    refine ⟨'[' :: A, k, rfl, by simp, ?_, fun n' k' => ?_⟩
    · simp only [List.length_cons]
      omega
    · rw [List.cons_append, regexBodyFrom, hall]
      simp only [List.length_cons, Option.some.injEq]
      omega
  | case6 inClass n rest ih =>
    obtain ⟨A, k, rfl, -, rfl, hall⟩ := ih h
    refine ⟨']' :: A, k, rfl, by simp, ?_, fun n' k' => ?_⟩
    · simp only [List.length_cons]
      omega
    · rw [List.cons_append, regexBodyFrom, hall]
      simp only [List.length_cons, Option.some.injEq]
      omega
  | case7 inClass n c rest hn hend hesc hopen hclose hc =>
    cases h
    refine ⟨[c], rest, rfl, by simp, rfl, fun n' k' => ?_⟩
    simp only [Bool.and_eq_true, decide_eq_true_eq] at hc
    rw [List.singleton_append, hc.1, regexBodyFrom]
    · simp [hc.2]
    all_goals simp
  | case8 inClass n c rest hn hend hesc hopen hclose hc ih =>
    obtain ⟨A, k, rfl, hA, rfl, hall⟩ := ih h
    refine ⟨c :: A, k, rfl, by simp, ?_, fun n' k' => ?_⟩
    · simp only [List.length_cons]
      omega
    · -- a character follows in any case, so the definition takes the same branch
      obtain ⟨d, A, rfl⟩ := List.exists_cons_of_ne_nil hA
      have hk' := hall (n' + 1) k'
      rw [List.cons_append] at hk'
      rw [List.cons_append, List.cons_append, regexBodyFrom, if_neg hc, hk']
      · simp only [List.length_cons, Option.some.injEq]
        omega
      · exact hn
      · exact fun _ heq => nomatch heq
      · exact fun _ _ hc _ => hesc _ _ hc rfl
      · exact hopen
      · exact hclose

end Lexeme

end ImportAtlas
