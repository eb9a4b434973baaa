import ImportAtlas.Proofs.Reference.Continuation

namespace ImportAtlas

open Text Lexeme Outcome

namespace LastToken

variable {t : LastToken} {before : List Char}

def awaitingMarks : List Char := ['=', '(', '[', '!', '&', '|', '?']

def awaitingWords : List String := ["return", "extends", "new", "await", "typeof"]

/-- Whether an expression has to follow the token. -/
def awaitsExpression : LastToken → Bool
  | .punctuation c => awaitingMarks.contains c
  | t@(.word _) => t.isWordAmong awaitingWords
  | _ => false

def admitsCall : LastToken → Bool
  | .punctuation c => c != '.' && !isAsciiBlank c && !joinsNext c
  | t@(.word w) => w != importName && !t.isWordAmong ["function"]
  | _ => false

theorem admitsCall_of_awaitsExpression (h : t.awaitsExpression = true) : t.admitsCall = true := by
  cases t with
  | none => contradiction
  | value => contradiction
  | controlHead => contradiction
  | punctuation c =>
    have hmarks : awaitingMarks.all (fun c => (punctuation c).admitsCall) = true := by decide
    exact List.all_eq_true.1 hmarks c (List.contains_iff_mem.1 h)
  | word w =>
    have hwords : ∀ u ∈ awaitingWords, (word u.toList).admitsCall = true := by decide
    obtain ⟨u, hu, hw⟩ := List.any_eq_true.1 h
    rw [decide_eq_true_eq] at hw
    exact hw ▸ hwords u hu

theorem mark_or_word_of_admitsCall (h : t.admitsCall = true) :
    (∃ c, t = .punctuation c ∧ c ≠ '.' ∧ isAsciiBlank c = false ∧ joinsNext c = false) ∨
      ∃ w, t = .word w := by
  cases t with
  | none => contradiction
  | value => contradiction
  | controlHead => contradiction
  | punctuation c =>
    simp only [admitsCall, Bool.and_eq_true, bne_iff_ne, Bool.not_eq_true'] at h
    exact .inl ⟨c, rfl, h.1.1, h.1.2, h.2⟩
  | word w => exact .inr ⟨w, rfl⟩

theorem isWordAmong_function (h : t.admitsCall = true) :
    t.isWordAmong ["function"] = false := by
  cases t with
  | word w =>
    rw [admitsCall, Bool.and_eq_true, Bool.not_eq_true'] at h
    exact h.2
  | _ => rfl

end LastToken

namespace Lexeme

variable {A B : List Char}

theorem Trivia.isBlank_of_mem (h : Trivia A) (hslash : '/' ∉ A) : ∀ c ∈ A, isBlank c = true := by
  induction h with
  | nil => exact fun c hc => nomatch hc
  | blank hb _ ih =>
    intro c hc
    rcases List.mem_cons.1 hc with rfl | hc
    · exact hb
    · exact ih (fun h => hslash (List.mem_cons_of_mem _ h)) c hc
  | line => exact absurd List.mem_cons_self hslash
  | block => exact absurd List.mem_cons_self hslash

theorem headIs_dropWhile_append (hA : ∀ c ∈ A, isBlank c = true)
    (hB : headIs (fun c => c = '.' || isAsciiBlank c) B = false) :
    headIs (· = '.') ((A ++ B).dropWhile isAsciiBlank) = false := by
  induction A with
  | nil =>
    cases B with
    | nil => rfl
    | cons c B =>
      rw [headIs_cons, Bool.or_eq_false_iff] at hB
      rw [List.nil_append, List.dropWhile_cons_of_neg (by simp [hB.2]), headIs_cons]
      exact hB.1
  | cons c A ih =>
    have hc := hA c List.mem_cons_self
    rw [List.cons_append, List.dropWhile_cons]
    split
    · exact ih fun d hd => hA d (List.mem_cons_of_mem c hd)
    · rw [headIs_cons, decide_eq_false_iff_not]
      rintro rfl
      contradiction

end Lexeme

namespace ScanState

variable {s s' f : ScanState} {c : Cursor} {A x arg post : List Char}

/-- The text ends, white space aside, in a token that satisfies `p`.  A word is
set apart from what may come after the text. -/
structure EndsIn (p : LastToken → Bool) (s : ScanState) : Prop where
  code : s.mode = .code
  last : p s.last = true
  space : ∀ c ∈ s.cursor.rest, isBlank c = true ∨ isWhiteSpace c = true
  spaced : ∀ w, s.last = .word w → s.cursor.rest ≠ []

namespace EndsIn

theorem mono {p q : LastToken → Bool} (h : s.EndsIn p) (hpq : ∀ t, p t = true → q t = true) :
    s.EndsIn q :=
  ⟨h.code, hpq _ h.last, h.space, h.spaced⟩

theorem exists_of_after? {p : LastToken → Bool} (n : Nat) (rest : List Char)
    (h : (s.after? n).map (fun s' => (s'.mode matches .code, p s'.last, s'.cursor.rest)) =
      some (true, true, rest)) (hspace : ∀ c ∈ rest, isBlank c = true ∨ isWhiteSpace c = true)
    (hne : rest ≠ []) : ∃ s', Relation.ReflTransGen Next s s' ∧ s'.EndsIn p := by
  obtain ⟨s', hs', hview⟩ := Option.map_eq_some_iff.1 h
  simp only [Prod.mk.injEq] at hview
  obtain ⟨hm, hlast, rfl⟩ := hview
  refine ⟨s', reaches_of_after? hs', ?_, hlast, hspace, fun _ _ => hne⟩
  cases hmode : s'.mode with
  | code => rfl
  | template => simp [hmode] at hm

theorem eq_of_isWhiteSpace {c : Char} (hs : isWhiteSpace c = true) (hb : isBlank c = false) :
    c = '\x0B' := by
  have hne {d : Char} (hd : isBlank d = true) : c.toNat ≠ d.toNat := by
    intro h
    rw [Char.toNat_inj.1 h, hd] at hb
    contradiction
  have hspace : c.toNat ≠ 0x20 := hne (d := ' ') (by decide)
  have htab : c.toNat ≠ 0x09 := hne (d := '\t') (by decide)
  have hline : c.toNat ≠ 0x0A := hne (d := '\n') (by decide)
  have hfeed : c.toNat ≠ 0x0C := hne (d := '\x0C') (by decide)
  have hreturn : c.toNat ≠ 0x0D := hne (d := '\r') (by decide)
  have hascii : c.toNat < 0x80 := by
    by_contra hge
    simp [isBlank, isWideBlank, isAscii, hge, hs] at hb
  refine Char.toNat_inj.1 (?_ : c.toNat = 0x0B)
  simp only [isWhiteSpace, Bool.or_eq_true, Bool.and_eq_true, decide_eq_true_eq] at hs
  omega

theorem next (h : s.EndsIn LastToken.admitsCall) (hs : Next s s') :
    s'.EndsIn LastToken.admitsCall := by
  obtain ⟨t, a, rest, ht, hr, hs'⟩ := hs.exists_token h.code
  have hstart := Cursor.startsTrivia_of_skipTrivia ht
  obtain ⟨T, hp⟩ := Cursor.Passes.of_reaches (.of_skipTrivia ht)
  have hmem (c : Char) (hc : c ∈ t.rest) : c ∈ s.cursor.rest :=
    hp.rest_eq ▸ List.mem_append_right T hc
  have hblank : isBlank a = false := isBlank_of_startsTrivia (hr ▸ hstart)
  have hwhite := (h.space a (hmem a (hr ▸ List.mem_cons_self))).resolve_left (by simp [hblank])
  obtain rfl := eq_of_isWhiteSpace hwhite hblank
  rw [token_of_step (.mark (by decide))] at hs'
  cases hs'
  refine ⟨h.code, (by decide : LastToken.admitsCall (.punctuation '\x0B') = true),
    fun c hc => h.space c (hmem c ?_), fun w hw => nomatch hw⟩
  exact List.mem_of_mem_drop (i := 1) (Cursor.rest_advance 1 t ▸ hc)

theorem reaches (h : s.EndsIn LastToken.admitsCall) (hs : Relation.ReflTransGen Next s s') :
    s'.EndsIn LastToken.admitsCall := by
  induction hs with
  | refl => exact h
  | tail _ hs ih => exact ih.next hs

variable {p : LastToken → Bool}

theorem trivia (h : f.EndsIn p) (hfinal : f.step = .ok none) : Trivia f.cursor.rest := by
  obtain ⟨-, -, hT⟩ := of_end hfinal
  generalize hrest : f.cursor.rest = rest at hT
  cases hT with
  | closed hT => exact hT
  | @ended T text =>
    have hslash := h.space '/' (hrest ▸ by simp)
    exact absurd hslash (by decide)

theorem isBlank (h : f.EndsIn p) (hfinal : f.step = .ok none) :
    ∀ c ∈ f.cursor.rest, isBlank c = true :=
  (h.trivia hfinal).isBlank_of_mem fun hslash => absurd (h.space '/' hslash) (by decide)

theorem headIs_point (h : f.EndsIn LastToken.admitsCall) (hfinal : f.step = .ok none)
    (hprecedes : f.last.Precedes f.cursor.before) :
    headIs (· = '.') ((f.cursor.rest.reverse ++ f.cursor.before).dropWhile isAsciiBlank) =
      false := by
  refine headIs_dropWhile_append (fun c hc => h.isBlank hfinal c (List.mem_reverse.1 hc)) ?_
  rcases LastToken.mark_or_word_of_admitsCall h.last with
    ⟨c, hlast, hpoint, hblank, -⟩ | ⟨w, hlast⟩
  · rw [hlast] at hprecedes
    obtain ⟨B, hB⟩ := exists_cons_of_headIs hprecedes
    simp [hB, hpoint, hblank]
  · rw [hlast] at hprecedes
    obtain ⟨hw, B, hB⟩ := hprecedes
    have hend : headIs continuesWord w.reverse = true :=
      headIs_reverse_of_forall hw.ne_nil hw.continues
    rw [← hB, headIs_append_of_ne_nil (by simpa using hw.ne_nil)]
    cases hr : w.reverse with
    | nil => rfl
    | cons c k =>
      rw [hr, headIs_cons] at hend
      rw [headIs_cons, Bool.or_eq_false_iff, decide_eq_false_iff_not]
      constructor
      · rintro rfl
        contradiction
      · by_contra hblank
        rw [continuesWord_of_isBlank (by simp [Text.isBlank, hblank])] at hend
        contradiction

theorem apart (h : f.EndsIn LastToken.admitsCall) (hfinal : f.step = .ok none)
    (hprecedes : f.last.Precedes f.cursor.before) (hp : s.cursor.Passes A f.cursor) :
    Apart s.cursor.rest x := by
  by_cases hnil : s.cursor.rest = []
  · exact .inl (by rw [hnil]; rfl)
  · refine .inl ?_
    have hsame : headIs joinsNext s.cursor.rest.reverse =
        headIs joinsNext (f.cursor.rest.reverse ++ f.cursor.before) := by
      rw [← headIs_append_of_ne_nil (k := s.cursor.before) (by simpa using hnil), hp.rest_eq,
        List.reverse_append, List.append_assoc, ← hp.before_eq]
    rw [hsame]
    by_cases hr : f.cursor.rest = []
    · rw [hr, List.reverse_nil, List.nil_append]
      rcases LastToken.mark_or_word_of_admitsCall h.last with ⟨c, hlast, -, -, hjoins⟩ | ⟨w, hlast⟩
      · rw [hlast] at hprecedes
        obtain ⟨B, hB⟩ := exists_cons_of_headIs hprecedes
        rw [hB, headIs_cons, hjoins]
      · exact absurd hr (h.spaced w hlast)
    · rw [headIs_append_of_ne_nil (by simpa using hr)]
      cases hrev : f.cursor.rest.reverse with
      | nil => rfl
      | cons c k =>
        have hc := h.isBlank hfinal c (List.mem_reverse.1 (hrev ▸ List.mem_cons_self))
        have hslash : c ≠ '/' := by
          rintro rfl
          contradiction
        rw [headIs_cons, joinsNext, continuesWord_of_isBlank hc]
        simp [hslash]

end EndsIn

theorem isWord_requireName : IsWord requireName := .of_all (by decide) (by decide)

def call (arg post : List Char) : List Char := requireName ++ '(' :: (arg ++ ')' :: post)

theorem toList_call (arg post : String) :
    ("require(" ++ arg ++ ")" ++ post).toList = call arg.toList post.toList := by
  have hopen : "require(".toList = requireName ++ ['('] := by decide
  have hclose : ")".toList = [')'] := by decide
  rw [String.toList_append, String.toList_append, String.toList_append, hopen, hclose, call]
  simp only [List.append_assoc, List.cons_append, List.nil_append]

theorem run_of_call (hm : s.mode = .code) (hr : s.cursor.rest = call arg post)
    (hpoint : s.cursor.followsPoint = false)
    (hfunction : s.last.isWordAmong ["function"] = false) (harg : Arguments arg)
    (hbody : (post.dropWhile isAsciiBlank).head? ≠ some '\x7b') :
    s.run = .error ⟨s.cursor.offset, .commonJsCall⟩ := by
  have hp : s.cursor.Passes requireName (s.cursor.advance requireName.length) := .of_rest hr
  have hrest : (s.cursor.advance requireName.length).rest = '(' :: (arg ++ ')' :: post) := by
    rw [Cursor.rest_advance, hr, call, List.drop_left]
  generalize s.cursor.advance requireName.length = d at hp hrest
  have hskip : d.skipTrivia = .ok d := Cursor.skipTrivia_self (by rw [hrest]; rfl)
  have hdefinition : isDefinition d.rest = false := by
    rw [hrest, harg.isDefinition_eq, decide_eq_false hbody]
  have hrequire : (s.moveTo d (.word requireName)).requireWord s.cursor s.last =
      .error ⟨s.cursor.offset, .commonJsCall⟩ := by
    rw [requireWord]
    change (d.skipTrivia >>= _) = _
    rw [hskip]
    refine if_pos ?_
    rw [hdefinition, hfunction, hrest]
    rfl
  refine run_of_error (step_of_token_error hm hr ?_ ?_)
  · rw [hp.rest_eq, isWord_requireName.startsTrivia]
  · rw [token_of_word isWord_requireName (by decide),
      wordToken_of_word isWord_requireName hp (by rw [hrest]; rfl), hpoint, if_neg (by simp),
      if_neg (by decide), if_neg (by decide), if_pos rfl, hrequire]

theorem run_extend_call (hm : f.mode = .code) (hT : Trivia f.cursor.rest)
    (hpoint : headIs (· = '.')
      ((f.cursor.rest.reverse ++ f.cursor.before).dropWhile isAsciiBlank) = false)
    (hfunction : f.last.isWordAmong ["function"] = false) (harg : Arguments arg)
    (hbody : (post.dropWhile isAsciiBlank).head? ≠ some '\x7b') :
    (f.extend (call arg post)).run = .error ⟨byteLength f.cursor.text, .commonJsCall⟩ := by
  have hm' : (f.extend (call arg post)).mode = .code := by rw [extend, hm]; rfl
  have hp : (f.extend (call arg post)).cursor.Passes f.cursor.rest
      ((f.extend (call arg post)).cursor.advance f.cursor.rest.length) := .of_rest rfl
  have hr : ((f.extend (call arg post)).cursor.advance f.cursor.rest.length).rest =
      call arg post := by
    rw [Cursor.rest_advance]
    exact List.drop_left
  generalize (f.extend (call arg post)).cursor.advance f.cursor.rest.length = r at hp hr
  have hbefore : r.before = f.cursor.rest.reverse ++ f.cursor.before := hp.before_eq
  have hoffset : r.offset = byteLength f.cursor.text := by
    rw [Cursor.offset, hbefore, Cursor.text]
    simp only [byteLength_append, byteLength_reverse]
    exact Nat.add_comm _ _
  have hstart : startsTrivia r.rest = false := by rw [hr, call, isWord_requireName.startsTrivia]
  rw [run_trivia hm' hp (.closed hT hstart), ← hoffset]
  refine run_of_call hm' hr ?_ hfunction harg hbody
  rw [Cursor.followsPoint_eq, hbefore, hpoint, Bool.false_and]

theorem EndsIn.admits (h : f.EndsIn LastToken.admitsCall) (hfinal : f.step = .ok none) :
    f.Admits (call arg post) where
  value _ hvalue := by
    have hadmits := h.last
    rw [hvalue] at hadmits
    contradiction
  ahead := by
    refine ⟨_, _, rfl, h.trivia hfinal, isWord_requireName.startsTrivia, by rfl, fun himport => ?_⟩
    have hadmits := h.last
    rw [himport] at hadmits
    exact absurd hadmits (by decide)

end ScanState

/-- What comes after a text that ends where an expression is awaited: a call is
refused at its place, unless a brace follows its arguments, or a slash before it
is taken for the beginning of a regular expression that the call closes. -/
theorem refused_of_awaitsExpression {pre arg post : String} {references : List Reference}
    {s : ScanState} (hpre : scan pre = .ok references)
    (hs : Relation.ReflTransGen ScanState.Next (.initial pre.toList) s)
    (hends : s.EndsIn LastToken.awaitsExpression) (harg : Arguments arg.toList)
    (hbody : (post.toList.dropWhile isAsciiBlank).head? ≠ some '\x7b')
    (hslash : ∀ s', Relation.ReflTransGen ScanState.Next (.initial pre.toList) s' →
      s'.KeepsSlash ("require(" ++ arg ++ ")" ++ post).toList) :
    scan (pre ++ ("require(" ++ arg ++ ")" ++ post)) =
      .error ⟨byteLength pre.toList, .commonJsCall⟩ := by
  have hcall := ScanState.toList_call arg post
  rw [hcall] at hslash
  obtain ⟨f, hf, hfinal, -⟩ := ScanState.exists_end hpre
  have hends := (hends.mono fun _ => LastToken.admitsCall_of_awaitsExpression).reaches
    (ScanState.reaches_end hf hfinal hs)
  have hne : ScanState.initial pre.toList ≠ f := by
    rintro rfl
    have hlast : LastToken.none.admitsCall = true := hends.last
    contradiction
  have hrest : (ScanState.initial pre.toList).cursor.rest ≠ [] := by
    obtain ⟨s₁, hs₁, -⟩ := (Relation.ReflTransGen.cases_head hf).resolve_left hne
    exact List.length_pos_iff.1 (Nat.zero_lt_of_lt (ScanState.length_lt_of_step hs₁))
  obtain ⟨g, -, hg⟩ := (Relation.ReflTransGen.cases_tail hf).resolve_left (Ne.symm hne)
  have hprecedes := hg.precedes hends.code
  have hreach := ScanState.reaches_of_reaches hf
  have htext : f.cursor.text = pre.toList :=
    ((ScanState.reaches_initial pre.toList).trans hreach).text_eq
  obtain ⟨A, hp⟩ := Cursor.Passes.of_reaches hreach
  have hextensible : ScanState.Extensible (ScanState.call arg.toList post.toList) f
      (.initial pre.toList) :=
    ⟨hf, hfinal, hends.admits hfinal, hends.apart hfinal hprecedes hp, hslash⟩
  rw [scan, String.toList_append, hcall, ScanState.initial_extend (.inl hrest) rfl,
    ScanState.run_of_reaches hextensible.reaches_extend, ← htext]
  exact ScanState.run_extend_call hends.code (hends.trivia hfinal)
    (hends.headIs_point hfinal hprecedes) (LastToken.isWordAmong_function hends.last) harg hbody

def heritage : String := "class A extends "

theorem refused_heritage : scan heritage = .ok [] ∧
    (∃ s, Relation.ReflTransGen ScanState.Next (.initial heritage.toList) s ∧
      s.EndsIn LastToken.awaitsExpression) ∧
    Arguments "'b'".toList ∧ (".C".toList.dropWhile isAsciiBlank).head? ≠ some '\x7b' ∧
    (∀ s, Relation.ReflTransGen ScanState.Next (.initial heritage.toList) s →
      s.KeepsSlash ("require(" ++ "'b'" ++ ")" ++ ".C").toList) ∧
    scan (heritage ++ ("require(" ++ "'b'" ++ ")" ++ ".C")) = .error ⟨16, .commonJsCall⟩ := by
  have hscan : scan heritage = .ok [] := Outcome.eq_ok_of_toOption (by decide +kernel)
  obtain ⟨s, hs, hends⟩ : ∃ s,
      Relation.ReflTransGen ScanState.Next (.initial heritage.toList) s ∧
        s.EndsIn LastToken.awaitsExpression :=
    ScanState.EndsIn.exists_of_after? 3 [' '] (by decide +kernel)
      (List.forall_mem_singleton.2 (.inl rfl)) (List.cons_ne_nil _ _)
  have harg : Arguments "'b'".toList := by
    have htext : "'b'".toList = quoted '\'' ['b'] ++ [] := by decide
    rw [htext]
    exact .string (by decide) (.of_forall (List.forall_mem_singleton.2 (by decide))) .nil
  have hbody : (".C".toList.dropWhile isAsciiBlank).head? ≠ some '\x7b' := by decide
  have hnone : '/' ∉ (ScanState.initial heritage.toList).cursor.rest := by decide +kernel
  have hlength : byteLength heritage.toList = 16 := by decide +kernel
  refine ⟨hscan, ⟨s, hs, hends⟩, harg, hbody, fun _ => ScanState.keepsSlash_of_not_mem hnone, ?_⟩
  rw [← hlength]
  exact refused_of_awaitsExpression hscan hs hends harg hbody fun _ =>
    ScanState.keepsSlash_of_not_mem hnone

end ImportAtlas
