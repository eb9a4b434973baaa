import ImportAtlas.Proofs.Reference.Refusal
import ImportAtlas.Proofs.Reference.Slash

namespace ImportAtlas

open Text Lexeme Outcome

variable {w T H k B body : List Char} {quote : Char} {t : LastToken}

/-- The text ends in a single point, ASCII white space aside. -/
def EndsInPoint (T : List Char) : Prop :=
  headIs (· = '.') (T.reverse.dropWhile isAsciiBlank) = true ∧
    headIs (· = '.') (T.reverse.dropWhile isAsciiBlank).tail = false

/-- Where these trivia stand after a point, the scanner sees a point before them: that
one, if they are ASCII white space, or else the end of a line comment. -/
def ShowsPoint (T : List Char) : Prop := (∀ c ∈ T, isAsciiBlank c = true) ∨ EndsInPoint T

namespace Lexeme

theorem IsWord.headIs_reverse (hw : IsWord w) : headIs (· = '.') (w.reverse ++ B) = false := by
  rw [headIs_append_of_ne_nil (by simpa using hw.ne_nil)]
  have hend := headIs_reverse_of_forall hw.ne_nil hw.continues
  cases hr : w.reverse with
  | nil => rfl
  | cons c k =>
    rw [hr, headIs_cons] at hend
    exact decide_eq_false (ScanState.ne_of_eq_true hend (by decide))

theorem Trivia.headIs_point (hT : Trivia T) : headIs (· = '.') T = false := by
  cases hT with
  | nil => rfl
  | blank hblank => exact decide_eq_false (ScanState.ne_of_eq_true hblank (by decide))
  | line => rfl
  | block => rfl

theorem exists_reverse_of_dropWhile {x : Char} {K : List Char}
    (h : T.reverse.dropWhile isAsciiBlank = x :: K) : ∃ U, T = K.reverse ++ x :: U := by
  refine ⟨(T.reverse.takeWhile isAsciiBlank).reverse, ?_⟩
  have hsplit := List.takeWhile_append_dropWhile (p := isAsciiBlank) (l := T.reverse)
  rw [h] at hsplit
  have hreverse := congrArg List.reverse hsplit
  simpa using hreverse.symm

end Lexeme

namespace Text.Cursor

variable {c : Cursor}

theorem followsPoint_private (hc : c.before = '#' :: k) : c.followsPoint = false := by
  rw [followsPoint_eq, hc, List.dropWhile_cons_of_neg (by decide)]
  rfl

theorem followsPoint_trivia (hw : IsWord w) (hT : Trivia T)
    (hc : c.before = T.reverse ++ '.' :: (w.reverse ++ B)) :
    c.followsPoint = true ↔ ShowsPoint T := by
  rw [followsPoint_eq, hc, Bool.and_eq_true, Bool.not_eq_true']
  by_cases hblank : ∀ c ∈ T, isAsciiBlank c = true
  · have hpoint : (T.reverse ++ '.' :: (w.reverse ++ B)).dropWhile isAsciiBlank =
        '.' :: (w.reverse ++ B) := by
      rw [List.dropWhile_append_of_pos (by simpa using hblank),
        List.dropWhile_cons_of_neg (by decide)]
    rw [hpoint]
    exact iff_of_true ⟨rfl, hw.headIs_reverse⟩ (.inl hblank)
  · have hne : T.reverse.dropWhile isAsciiBlank ≠ [] := by
      simpa [List.dropWhile_eq_nil_iff] using hblank
    have hshows : ShowsPoint T ↔ EndsInPoint T := or_iff_right hblank
    rw [hshows, EndsInPoint, List.dropWhile_append, if_neg (by simpa using hne)]
    obtain ⟨x, K, hK⟩ := List.exists_cons_of_ne_nil hne
    rw [hK, List.cons_append, List.tail_cons, List.tail_cons, headIs_cons, headIs_cons]
    refine and_congr_right fun hx => ?_
    cases K with
    | nil =>
      -- a single point would begin the trivia
      obtain ⟨U, rfl⟩ := exists_reverse_of_dropWhile hK
      have hno : decide (x = '.') = false := hT.headIs_point
      exact absurd hx (by simp [hno])
    | cons y K => exact Iff.rfl

end Text.Cursor

namespace ScanState

variable {s : ScanState} {c d e : Cursor}

theorem wordStep_receiver (hr : s.cursor.rest = '.' :: k) : WordStep s w c t s := by
  refine .of_followsPoint fun hpoint => ?_
  have hskip : s.cursor.skipTrivia = .ok s.cursor := Cursor.skipTrivia_self (by rw [hr]; rfl)
  by_cases himport : w = importName
  · exact .importing hpoint himport hskip (.plain (by rw [hr]; rfl))
  by_cases hexport : w = exportName
  · exact hexport ▸ wordStep_export (T := []) hr .nil rfl rfl
  by_cases hrequire : w = requireName
  · exact hrequire ▸ wordStep_require (T := []) hr .nil rfl rfl
  exact .plain fun _ => ⟨himport, hexport, hrequire⟩

theorem exists_run_receiver (hm : s.mode = .code) (hw : IsWord w) (hT : Trivia T)
    (hH : H = [] ∨ H = ['#']) (hp : s.cursor.Passes (w ++ (['.'] ++ (T ++ H))) d) :
    ∃ x ∈ ['.', '#'], s.run = (s.moveTo d (.punctuation x)).run := by
  obtain ⟨a, ha, hp⟩ := hp.split
  obtain ⟨b, hb, hp⟩ := hp.split
  obtain ⟨c, hc, hp⟩ := hp.split
  have hpoint : s.run = (s.moveTo c (.punctuation '.')).run := by
    rw [run_word hm hw ha (by rw [hb.rest_eq]; rfl) (wordStep_receiver hb.rest_eq),
      run_mark (s := s.moveTo a _) hm (by decide) (by decide) hb]
    exact run_past_trivia (s := s.moveTo b _) hm hc hT
  rcases hH with rfl | rfl
  · rw [hp.unique (.refl c)]
    exact ⟨'.', by decide, hpoint⟩
  · refine ⟨'#', by decide, hpoint.trans ?_⟩
    exact run_mark (s := s.moveTo c _) hm (by decide) (by decide) hp

def argument (quote : Char) (body : List Char) : List Char :=
  '(' :: (quoted quote body ++ [')']) ++ [';', '\n']

theorem crossing_argument (hq : isQuote quote = true) (hb : StringBody quote body)
    (ht : t.isWordAmong LastToken.controlWords = false) :
    Crossing k t (argument quote body) (.punctuation ';') := by
  have hgroup := Crossing.group (k := [';', '\n'] ++ k) (t := t) (.string hq hb)
  rw [ht] at hgroup
  exact hgroup.append (.semicolon (by decide))

theorem reads_argument (hq : isQuote quote = true) (hb : StringBody quote body)
    (hp : c.Passes (quoted quote body) d) (hd : d.rest = ')' :: k) :
    ∃ l : Literal, c.Reads l .dynamic ∧ l.closing = d ∧
      l.toReference .dynamic = ⟨String.ofList body, c.offset, d.offset, .dynamic⟩ := by
  have hopens : c.Opens quote body := ⟨hq, hb, _, hp.rest_eq⟩
  have hclosing : (⟨c, body.length + 2⟩ : Literal).closing = d := by
    rw [hp.eq_advance, length_quoted]
    rfl
  have hplain := Cursor.plainLiteral_eq_ok.2 (.string hopens.startsQuote hopens.literal)
  refine ⟨_, .dynamic (v := d) hplain ?_ ?_, hclosing, ?_⟩
  · rw [hclosing]
    exact Cursor.skipTrivia_self (by rw [hd]; rfl)
  · rw [Cursor.endsArgument_eq, hd]
    rfl
  · rw [Literal.toReference, hclosing, hopens.quoted.body_eq]

theorem run_importCall (hm : s.mode = .code) (hpoint : s.cursor.followsPoint = false)
    (hq : isQuote quote = true) (hb : StringBody quote body)
    (hc : s.cursor.Passes (importName ++ ['(']) c) (hd : c.Passes (quoted quote body) d)
    (he : d.Passes ([')'] ++ [';', '\n']) e) :
    s.run = { s.moveTo e (.punctuation ';') with
      found := ⟨String.ofList body, c.offset, d.offset, .dynamic⟩ :: s.found }.run := by
  obtain ⟨u, hclose, hsemicolon⟩ := he.split
  obtain ⟨l, hreads, hl, hreference⟩ := reads_argument hq hb hd hclose.rest_eq
  have hopening := hreads.opening_eq
  obtain ⟨x, rest, hx, hs, htoken⟩ := token_of_introduction
    (.dynamic (T := []) (U := []) .nil .nil) (hopening ▸ hc) hpoint (hopening ▸ hreads)
  have hparen : l.closing.Passes [')'] u := hl ▸ hclose
  calc s.run = ((s.entering .dynamic).record .dynamic l).run := run_of_token hm hx (hx ▸ hs) htoken
    _ = { (s.moveTo u (.punctuation ')')) with found := l.toReference .dynamic :: s.found }.run :=
      run_closeParenthesis (s := (s.entering .dynamic).record .dynamic l) hm rfl hparen
    _ = _ := by
      rw [hreference]
      exact (Crossing.semicolon (by decide)).run_eq (s := { s.moveTo u _ with found := _ }) hm rfl
        hsemicolon rfl

structure ComesTo (A : List Char) (s : ScanState) : Prop where
  before : s.cursor.before = A.reverse
  code : s.mode = .code
  last : ∃ x ∈ ['.', '#'], s.last = .punctuation x
  heads : s.heads = []
  substitutions : s.substitutions = []
  found : s.found = []

theorem exists_comesTo {a : String} (hw : IsWord w) (hT : Trivia T)
    (hH : H = [] ∨ H = ['#']) (ha : a.toList = w ++ (['.'] ++ (T ++ H)) ++ k) :
    ∃ s, ComesTo (w ++ (['.'] ++ (T ++ H))) s ∧ s.cursor.rest = k ∧
      (s.cursor.followsPoint = true ↔ H = [] ∧ ShowsPoint T) ∧ scan a = s.run := by
  have hbegin : headIs (fun c => c != '#' && c != byteOrderMark) w = true := by
    obtain ⟨c, w', rfl⟩ := List.exists_cons_of_ne_nil hw.ne_nil
    have hc := hw.continues c List.mem_cons_self
    rw [headIs_cons, Bool.and_eq_true, bne_iff_ne, bne_iff_ne]
    exact ⟨ne_of_eq_true hc (by decide), ne_of_eq_true hc (by decide)⟩
  have hcursor : (initial a.toList).cursor = .ofText a.toList := by
    rw [ha, List.append_assoc]
    exact cursor_initial_of_headIs hbegin
  obtain ⟨d, hp, hd⟩ := Cursor.exists_passes (c := .ofText a.toList) ha
  obtain ⟨x, hx, hrun⟩ := exists_run_receiver (s := initial a.toList) rfl hw hT hH (hcursor ▸ hp)
  have hbefore : d.before = (w ++ (['.'] ++ (T ++ H))).reverse :=
    hp.before_eq.trans (List.append_nil _)
  have hreverse : d.before = H.reverse ++ (T.reverse ++ '.' :: (w.reverse ++ [])) := by
    simp [hbefore]
  refine ⟨(initial a.toList).moveTo d _, ⟨hbefore, rfl, ⟨x, hx, rfl⟩, rfl, rfl, rfl⟩, hd, ?_,
    hrun⟩
  rcases hH with rfl | rfl
  · refine (Cursor.followsPoint_trivia hw hT hreverse).trans ?_
    exact (and_iff_right rfl).symm
  · refine iff_of_false ?_ (by simp)
    exact ne_true_of_eq_false (Cursor.followsPoint_private hreverse)

namespace ComesTo

variable {A : List Char} {text : String} {found : List Reference}

theorem pointFree_argument : Cursor.PointFree (A ++ argument quote body).reverse := by
  have hreverse : (A ++ argument quote body).reverse =
      '\n' :: ';' :: (A ++ '(' :: (quoted quote body ++ [')'])).reverse := by
    simp [argument]
  rw [hreverse]
  exact ⟨rfl, rfl⟩

theorem run_rest (h : s.ComesTo A) (hp : s.cursor.Passes (B ++ argument quote body) d)
    (hd : d.rest = text.toList) (htext : ¬ BeginsHashbang text) (hfound : scan text = .ok found)
    (F : List Reference) :
    { s.moveTo d (.punctuation ';') with found := F }.run = .ok (F.reverse ++
      found.map (Reference.shift (byteLength (A ++ (B ++ argument quote body))))) := by
  have hafter : d = (Cursor.ofText text.toList).after (A ++ B ++ argument quote body).reverse := by
    refine Cursor.eq_of_before_of_rest ?_ hd
    rw [hp.before_eq, h.before, ← List.reverse_append, ← List.append_assoc]
    rfl
  have hheads : true ∉ s.heads := by
    rw [h.heads]
    exact List.not_mem_nil
  rw [← List.append_assoc, ← byteLength_reverse]
  exact run_of_scan (s := { s.moveTo d _ with found := F }) pointFree_argument htext hafter h.code
    rfl hheads h.substitutions hfound

theorem run_plain (h : s.ComesTo A) (hw : w ∈ [importName, exportName, requireName])
    (hplain : w = exportName ∨ s.cursor.followsPoint = true)
    (hq : isQuote quote = true) (hb : StringBody quote body)
    (hr : s.cursor.rest = w ++ argument quote body ++ text.toList)
    (htext : ¬ BeginsHashbang text) (hfound : scan text = .ok found) :
    s.run = .ok (found.map (Reference.shift (byteLength (A ++ (w ++ argument quote body))))) := by
  have hword : IsWord w ∧ (LastToken.word w).isWordAmong LastToken.controlWords = false := by
    simp only [List.mem_cons, List.not_mem_nil, or_false] at hw
    rcases hw with rfl | rfl | rfl
    · exact ⟨isWord_importName, by decide⟩
    · exact ⟨isWord_exportName, by decide⟩
    · exact ⟨isWord_requireName, by decide⟩
  obtain ⟨d, hp, hd⟩ := Cursor.exists_passes hr
  obtain ⟨e, he, hargument⟩ := hp.split
  have hrest : e.rest = '(' :: (quoted quote body ++ [')'] ++ [';', '\n'] ++ d.rest) :=
    hargument.rest_eq
  have hstep : WordStep (s.moveTo e (.word w)) w s.cursor s.last (s.moveTo e (.word w)) := by
    rcases hplain with rfl | hpoint
    · exact wordStep_export (T := []) hrest .nil rfl rfl
    · exact .plain fun hno => absurd (hpoint.symm.trans hno) (by decide)
  rw [run_word h.code hword.1 he (by rw [hrest]; rfl) hstep,
    (crossing_argument hq hb hword.2).run_eq (s := s.moveTo e _) h.code rfl hargument rfl]
  refine (h.run_rest hp hd htext hfound s.found).trans ?_
  rw [h.found]
  rfl

theorem run_import (h : s.ComesTo A) (hpoint : s.cursor.followsPoint = false)
    (hq : isQuote quote = true) (hb : StringBody quote body)
    (hr : s.cursor.rest = importName ++ argument quote body ++ text.toList)
    (htext : ¬ BeginsHashbang text) (hfound : scan text = .ok found) :
    s.run = .ok (⟨String.ofList body, byteLength (A ++ (importName ++ ['('])),
        byteLength (A ++ (importName ++ ['('] ++ quoted quote body)), .dynamic⟩ ::
      found.map (Reference.shift (byteLength (A ++ (importName ++ argument quote body))))) := by
  obtain ⟨e, hp, he⟩ := Cursor.exists_passes hr
  have hcall : importName ++ argument quote body =
      importName ++ ['('] ++ quoted quote body ++ ([')'] ++ [';', '\n']) := by
    simp [argument]
  obtain ⟨d, hd, hclose⟩ := (hcall ▸ hp).split
  obtain ⟨c, hc, hliteral⟩ := hd.split
  have hoffset {B : List Char} {u : Cursor} (hu : s.cursor.Passes B u) :
      u.offset = byteLength (A ++ B) := by
    rw [hu.offset_eq, Cursor.offset, h.before, byteLength_reverse, byteLength_append]
  rw [run_importCall h.code hpoint hq hb hc hliteral hclose, hoffset hc, hoffset hd, h.found]
  exact h.run_rest hp he htext hfound _

theorem run_require (h : s.ComesTo A) (hpoint : s.cursor.followsPoint = false)
    (hq : isQuote quote = true) (hb : StringBody quote body)
    (hr : s.cursor.rest = requireName ++ argument quote body ++ text.toList) :
    s.run = .error ⟨byteLength A, .commonJsCall⟩ := by
  have hoffset : s.cursor.offset = byteLength A := by
    rw [Cursor.offset, h.before, byteLength_reverse]
  have hlast : s.last.isWordAmong ["function"] = false := by
    obtain ⟨x, -, hx⟩ := h.last
    rw [hx]
    rfl
  have hcall : s.cursor.rest = call (quoted quote body ++ []) (';' :: '\n' :: text.toList) := by
    rw [hr]
    simp [argument, call]
  rw [run_of_call h.code hcall hpoint hlast (.string hq hb .nil) (by simp [isAsciiBlank]), hoffset]

end ComesTo

end ScanState

/-- A call of the member `m`, whose name may be a private one. -/
def memberCall (r t h m s : String) : String := r ++ "." ++ t ++ h ++ m ++ "(" ++ s ++ ");\n"

section

variable {r t h m s text : String} {found : List Reference}

open ScanState

theorem toList_memberCall (hs : s.toList = quoted quote body) :
    (memberCall r t h m s).toList = r.toList ++ (['.'] ++ (t.toList ++ h.toList)) ++
      (m.toList ++ argument quote body) := by
  simp [memberCall, argument, hs]

/-- What a call of a member is taken for.  It is passed over where the scanner sees its
point; where it does not, only a member `export` is.  The call of a member `import` is then
a reference, and that of a member `require` is refused. -/
theorem scan_member (hr : IsWord r.toList) (ht : Trivia t.toList) (hh : h ∈ ["", "#"])
    (hm : m ∈ ["import", "export", "require"]) (hq : isQuote quote = true)
    (hb : StringBody quote body) (hs : s.toList = quoted quote body)
    (htext : ¬ BeginsHashbang text) (hfound : scan text = .ok found) :
    (m = "export" ∨ h = "" ∧ ShowsPoint t.toList →
      scan (memberCall r t h m s ++ text) =
        .ok (found.map (Reference.shift (byteLength (memberCall r t h m s).toList)))) ∧
    (¬ (h = "" ∧ ShowsPoint t.toList) →
      (m = "import" → scan (memberCall r t h m s ++ text) =
        .ok (⟨String.ofList body, byteLength (r ++ "." ++ t ++ h ++ "import(").toList,
            byteLength (r ++ "." ++ t ++ h ++ "import(" ++ s).toList, .dynamic⟩ ::
          found.map (Reference.shift (byteLength (memberCall r t h m s).toList)))) ∧
      (m = "require" → scan (memberCall r t h m s ++ text) =
        .error ⟨byteLength (r ++ "." ++ t ++ h).toList, .commonJsCall⟩)) := by
  have hH : h.toList = [] ∨ h.toList = ['#'] := by
    rcases List.mem_pair.1 hh with rfl | rfl
    · exact .inl rfl
    · exact .inr rfl
  have hname : m.toList ∈ [importName, exportName, requireName] := by
    simp only [List.mem_cons, List.not_mem_nil, or_false] at hm ⊢
    rcases hm with rfl | rfl | rfl
    · exact .inl rfl
    · exact .inr (.inl rfl)
    · exact .inr (.inr rfl)
  obtain ⟨z, hz, hrest, hpoint, hrun⟩ := exists_comesTo (a := memberCall r t h m s ++ text)
    (k := m.toList ++ argument quote body ++ text.toList) hr ht hH
    (by rw [String.toList_append, toList_memberCall hs, List.append_assoc])
  have hsees : z.cursor.followsPoint = true ↔ h = "" ∧ ShowsPoint t.toList :=
    hpoint.trans (and_congr_left' String.toList_eq_nil_iff)
  have hhides (h' : ¬ (h = "" ∧ ShowsPoint t.toList)) : z.cursor.followsPoint = false := by
    rwa [← Bool.not_eq_true, hsees]
  rw [hrun, toList_memberCall hs]
  refine ⟨fun hplain => ?_, fun hhidden => ⟨?_, ?_⟩⟩
  · refine hz.run_plain hname (hplain.imp ?_ hsees.2) hq hb hrest htext hfound
    rintro rfl
    rfl
  · rintro rfl
    rw [hz.run_import (hhides hhidden) hq hb hrest htext hfound]
    simp [importName, hs]
  · rintro rfl
    rw [hz.run_require (hhides hhidden) hq hb hrest]
    simp

theorem scan_member_remark : IsWord "a".toList ∧ Trivia "/*b*/".toList ∧ "" ∈ ["", "#"] ∧
    "import" ∈ ["import", "export", "require"] ∧ isQuote '\'' = true ∧ StringBody '\'' ['x'] ∧
    "'x'".toList = quoted '\'' ['x'] ∧ ¬ BeginsHashbang "import './c'" ∧
    scan "import './c'" = .ok [⟨"./c", 7, 12, .declaration⟩] ∧
    ¬ ("" = "" ∧ ShowsPoint "/*b*/".toList) ∧
    scan (memberCall "a" "/*b*/" "" "import" "'x'" ++ "import './c'") =
      .ok [⟨"x", 14, 17, .dynamic⟩, ⟨"./c", 27, 32, .declaration⟩] := by
  have hword : IsWord "a".toList := .of_all (by decide) (by decide)
  have hremark : ¬ ['*', '/'] <:+: ['b'] := by decide
  have htrivia : Trivia "/*b*/".toList := .block hremark .nil
  have hnone : "" ∈ ["", "#"] := by decide
  have himport : "import" ∈ ["import", "export", "require"] := by decide
  have hbody : StringBody '\'' ['x'] := .char (by decide) (by decide) (by decide) .nil
  have hquoted : "'x'".toList = quoted '\'' ['x'] := by decide
  have hhashbang : ¬ BeginsHashbang "import './c'" := by
    unfold BeginsHashbang
    decide +kernel
  have hscan : scan "import './c'" = .ok [⟨"./c", 7, 12, .declaration⟩] :=
    eq_ok_of_toOption (by decide +kernel)
  have hhidden : ¬ ("" = "" ∧ ShowsPoint "/*b*/".toList) := by
    rintro ⟨-, hblank | ⟨hpoint, -⟩⟩
    · exact absurd (hblank '/' (by decide)) (by decide)
    · exact absurd hpoint (by decide)
  refine ⟨hword, htrivia, hnone, himport, rfl, hbody, hquoted, hhashbang, hscan, hhidden, ?_⟩
  rw [((scan_member hword htrivia hnone himport rfl hbody hquoted hhashbang hscan).2 hhidden).1 rfl]
  rfl

end

end ImportAtlas
