import ImportAtlas.Proofs.Reference.Abreast
import ImportAtlas.Proofs.Reference.Gap

namespace ImportAtlas

open Text Lexeme Outcome

namespace Text.GapCursor

variable {g : GapCursor} {x y : Char}

theorem skipTrivia_gaps (hx : IsFiller x) :
    ((g.advance (Gapped.gaps g.rest).length).fill x).skipTrivia = (g.fill x).skipTrivia := by
  have hrest : (g.fill x).rest =
      (Gapped.gaps g.rest).fill x ++ (Gapped.afterGaps g.rest).fill x := by
    rw [rest_fill, ← Gapped.fill_append, Gapped.gaps, Gapped.afterGaps,
      List.takeWhile_append_dropWhile]
  have hp := Cursor.Passes.of_rest hrest
  rw [Gapped.length_fill, ← fill_advance] at hp
  exact (Cursor.skipTrivia_past hp hx.trivia_gaps).symm

theorem followsPoint_fill (hx : IsInert x) (hy : IsInert y) :
    (g.fill x).followsPoint = (g.fill y).followsPoint := by
  rw [Cursor.followsPoint_eq, Cursor.followsPoint_eq, before_fill, before_fill,
    Gapped.dropWhile_fill hx.notBlank, Gapped.dropWhile_fill hy.notBlank, ← Gapped.fill_tail,
    ← Gapped.fill_tail, hx.headIs_fill hy (by decide), hx.headIs_fill hy (by decide)]

end Text.GapCursor

/-- The gaps separate the token that begins here, `last` being the token before it: with
them no number and no flags go on, and neither the look behind a name nor the search for
a body sees through them.  Where a letter fills a gap, nothing is seen through it. -/
structure SeparatesAt (last : LastToken) (g : GapCursor) : Prop where
  number : headIs Char.isDigit (g.rest.fill ' ') = true →
    headIs (fun c => isWordPart c || c = '.')
      (Gapped.fill ' ' (.afterGaps (g.rest.drop (number (g.rest.fill ' ')).length))) = false
  flags : ∀ n, last.allowsRegex = true → regex? (g.rest.fill ' ') = some n →
    headIs isWordPart (Gapped.fill ' ' (.afterGaps (g.rest.drop n))) = false
  name : (g.fill ' ').wordHere ∈ [importName, exportName, requireName] →
    (g.fill 'x').followsPoint = (g.fill ' ').followsPoint
  body : (g.fill ' ').wordHere = requireName → ∀ h : GapCursor, h.text = g.text →
    ((g.fill ' ').advance requireName.length).skipTrivia = .ok (h.fill ' ') →
    headIs (· = '(') (h.rest.fill ' ') = true →
    isDefinition (h.rest.fill 'x') = isDefinition (h.rest.fill ' ')

namespace ScanState

def Separated (T : Gapped) (s : ScanState) : Prop :=
  ∀ s₁ g, Relation.ReflTransGen Next s s₁ → s₁.mode = .code → g.text = T →
    s₁.cursor.skipTrivia = .ok (g.fill ' ') → SeparatesAt s₁.last g

end ScanState

/-- The gaps of the text separate its tokens as they are scanned with spaces in the
gaps. -/
def Separable (T : Gapped) : Prop := (ScanState.initial (T.fill ' ')).Separated T

namespace Reference

/-- One of the gaps stands in the literal. -/
def SpansGap (T : Gapped) (r : Reference) : Prop :=
  ∃ P S : Gapped, T = P ++ none :: S ∧ r.start ≤ byteLength (P.fill ' ') ∧
    byteLength (P.fill ' ') < r.stop

def Respaced (T : Gapped) (u : Char) (r r' : Reference) : Prop :=
  ∃ (kind : ReferenceKind) (l l' : Literal), l.Fills T ' ' u l' ∧ r = l.toReference kind ∧
    r' = l'.toReference kind

namespace Respaced

variable {T : Gapped} {u : Char} {r r' : Reference}

theorem kind_eq (h : r.Respaced T u r') : r'.kind = r.kind := by
  obtain ⟨_, _, _, -, rfl, rfl⟩ := h
  rfl

theorem specifier_eq (h : r.Respaced T u r') (hr : ¬ r.SpansGap T) :
    r'.specifier = r.specifier := by
  obtain ⟨kind, l, l', ⟨⟨g, rfl, hg, hg'⟩, hlength⟩, rfl, rfl⟩ := h
  have hcharacters : l.characters = Gapped.fill ' ' (g.rest.take l.length) := by
    rw [Literal.characters, hg, GapCursor.rest_fill, Gapped.fill_take]
  have hcharacters' : l'.characters = Gapped.fill u (g.rest.take l.length) := by
    rw [Literal.characters, hg', hlength, GapCursor.rest_fill, Gapped.fill_take]
  suffices none ∉ g.rest.take l.length by
    change String.ofList l'.body = String.ofList l.body
    rw [Literal.body, Literal.body, hcharacters, hcharacters', Gapped.fill_eq_of_not_mem this]
  intro hgap
  obtain ⟨K, M, hKM⟩ := List.append_of_mem hgap
  have hstart : (l.toReference kind).start = byteLength (g.before.fill ' ') := by
    rw [Literal.toReference, hg, Cursor.offset, GapCursor.before_fill]
  have hstop : (l.toReference kind).stop = byteLength (g.before.fill ' ') +
      byteLength (Gapped.fill ' ' (K ++ none :: M)) := by
    rw [← hKM, ← hcharacters]
    exact (Cursor.offset_advance _ _).trans (congrArg (· + _) hstart)
  refine hr ⟨g.before.reverse ++ K, M ++ g.rest.drop l.length, ?_, ?_, ?_⟩
  · rw [GapCursor.text, List.append_assoc, ← List.cons_append, ← List.append_assoc K, ← hKM,
      List.take_append_drop]
  · rw [hstart, Gapped.fill_append, Gapped.fill_reverse, byteLength_append, byteLength_reverse]
    exact Nat.le_add_right _ _
  · rw [hstop, Gapped.fill_append, Gapped.fill_reverse, byteLength_append, byteLength_reverse,
      Gapped.fill_append, byteLength_append, Gapped.fill_none, byteLength_cons]
    have := Char.utf8Size_pos ' '
    omega

end Respaced

end Reference

section

variable {T : Gapped} {u : Char} {g : GapCursor} {last : LastToken} (hu : isWideBlank u = true)

include hu

theorem skipTrivia_over (hg : g.text = T) (n : Nat) :
    ObstructedAlike (Fills T ' ' u) ((g.fill ' ').advance n).skipTrivia
      ((g.fill u).advance (n + (Gapped.gaps (g.rest.drop n)).length)).skipTrivia := by
  have hgaps := GapCursor.skipTrivia_gaps (g := g.advance n) .space
  rw [← Cursor.advance_advance, ← GapCursor.fill_advance, ← GapCursor.fill_advance, ← hgaps,
    ← GapCursor.fill_advance]
  refine Fills.skipTrivia .space (.of_isWideBlank hu) ⟨_, ?_, rfl, rfl⟩
  rw [GapCursor.text_advance, GapCursor.text_advance, hg]

theorem tokens_fillings (hsep : SeparatesAt last g) (hg : g.text = T)
    (hs : startsTrivia (g.fill ' ').rest = false) :
    (fillings T .space (.of_isWideBlank hu)).Tokens last (g.fill ' ') (g.fill u) where
  number := fun hdigit => by
    obtain ⟨z, k, hr, -⟩ := exists_of_startsTrivia .space
      (fun hnil => by simp [hnil] at hdigit) hs
    have hend := hsep.number hdigit
    have hlength : (number (g.fill u).rest).length = (number (g.fill ' ').rest).length +
        (Gapped.gaps (g.rest.drop (number (g.fill ' ').rest).length)).length := by
      rw [GapCursor.rest_fill, GapCursor.rest_fill]
      rw [hr] at hend ⊢
      exact length_number_fill hu hend
    rw [hlength]
    exact .agree (skipTrivia_over hu hg _)
  regex := fun hlast hslash => by
    obtain ⟨z, k, hr, -⟩ := exists_of_startsTrivia .space
      (fun hnil => by simp [hnil] at hslash) hs
    obtain rfl : z = '/' := by
      rw [GapCursor.rest_fill, hr] at hslash
      exact of_decide_eq_true hslash
    rw [GapCursor.rest_fill, GapCursor.rest_fill]
    cases hn : regex? (g.rest.fill ' ') with
    | none =>
      rw [hr] at hn ⊢
      rw [regex?_fill_none .space (.of_isWideBlank hu) hn]
      exact .none
    | some n =>
      have hend := hsep.flags n hlast hn
      have hn' : regex? (g.rest.fill u) = some (n + (Gapped.gaps (g.rest.drop n)).length) := by
        rw [hr] at hn hend ⊢
        exact regex?_fill hu hn hend
      rw [hn']
      exact .some (.agree (skipTrivia_over hu hg n))
  name := fun hname =>
    (GapCursor.followsPoint_fill (.of_isWideBlank hu) .letter).trans (hsep.name hname)
  body := by
    rintro hrequire _ _ ⟨i, hi, rfl, rfl⟩ hskip hparen
    exact (isDefinition_fill (.of_isWideBlank hu) .letter).trans
      (hsep.body hrequire i (hi.trans hg.symm) hskip hparen)

theorem respaced_initial (hT : none ∉ T.head?) :
    (fillings T .space (.of_isWideBlank hu)).States (.initial (T.fill ' '))
      (.initial (T.fill u)) := by
  have hstart : Fills T ' ' u (.ofText (T.fill ' ')) (.ofText (T.fill u)) :=
    ⟨⟨[], T⟩, rfl, rfl, rfl⟩
  have hmark := hstart.skipMark (Gapped.head?_fill hT)
  have hcursor := hmark.skipHashbang .space (.of_isWideBlank hu)
  exact ⟨.code, fun _ => (fillings T _ _).skipTrivia hcursor, fun _ => hcursor, rfl, rfl, rfl,
    .nil, .nil⟩

theorem run_respaced (hT : none ∉ T.head?) (hsep : Separable T) :
    ObstructedAlike (List.Forall₂ (Reference.Respaced T u)) (ScanState.initial (T.fill ' ')).run
      (ScanState.initial (T.fill u)).run := by
  refine ((respaced_initial hu hT).run ?_).toAgree fun _ => id
  rintro s _ _ hreach hm hskip ⟨g, hg, rfl, rfl⟩
  exact tokens_fillings hu (hsep s g hreach hm hg hskip) hg
    (Cursor.startsTrivia_of_skipTrivia hskip)

end

theorem separable_of_forall {T : Gapped}
    (hT : ∀ c, some c ∈ T → c.isDigit = false ∧ c ∉ ['/', '.'])
    (hrequire : ¬ requireName <:+: T.fill ' ') : Separable T := by
  intro s g _ _ hg _
  have hmem {c x : Char} (hc : c ∈ g.text.fill x) (hx : c ≠ x) :
      c.isDigit = false ∧ c ∉ ['/', '.'] := hT c (hg ▸ Gapped.mem_of_mem_fill hc hx)
  have hhead {c x : Char} {rest : List Char} (hr : g.rest.fill x = c :: rest) :
      c ∈ g.text.fill x := by
    rw [GapCursor.text, Gapped.fill_append, hr]
    exact List.mem_append_right _ List.mem_cons_self
  have hpoint {x : Char} (hx : '.' ≠ x) : (g.fill x).followsPoint = false := by
    refine Cursor.followsPoint_of_not_mem fun hdot => (hmem (x := x) ?_ hx).2 (by decide)
    rw [GapCursor.text, Gapped.fill_append, Gapped.fill_reverse]
    exact List.mem_append_left _ (List.mem_reverse.2 hdot)
  refine ⟨fun hdigit => ?_, fun n _ hn => ?_, fun _ => ?_, fun hname => ?_⟩
  · cases hr : g.rest.fill ' ' with
    | nil => simp [hr] at hdigit
    | cons c rest =>
      rw [hr, headIs_cons] at hdigit
      have hc := hmem (hhead hr) (by rintro rfl; contradiction)
      exact absurd hdigit (by simp [hc.1])
  · unfold regex? at hn
    split at hn
    · rename_i hr
      exact absurd (hmem (hhead hr) (by decide)).2 (by decide)
    · contradiction
  · rw [hpoint (by decide), hpoint (by decide)]
  · obtain ⟨k, hk, -⟩ := (Cursor.wordHere_eq_iff ScanState.isWord_requireName).1 hname
    refine absurd ?_ hrequire
    rw [← hg, GapCursor.text, Gapped.fill_append, ← GapCursor.rest_fill, hk]
    exact ⟨_, k, List.append_assoc _ _ _⟩

/-- Between tokens that the gaps separate a blank beyond ASCII does what a space does.
Both texts are refused for the same reason, or they have the same references in order:
of the same kinds, and with the same specifiers too, but where a literal spans a gap. -/
theorem scan_respaced {tokens : List (List Char)} {u : Char} (hu : isWideBlank u = true)
    (htokens : [] ∉ tokens) (hsep : Separable (.join tokens)) :
    ObstructedAlike
      (List.Forall₂ fun r r' => r'.kind = r.kind ∧
        (¬ r.SpansGap (.join tokens) → r'.specifier = r.specifier))
      (scan (String.ofList ([' '].intercalate tokens)))
      (scan (String.ofList ([u].intercalate tokens))) := by
  rw [scan, scan, String.toList_ofList, String.toList_ofList, ← Gapped.fill_join,
    ← Gapped.fill_join]
  have hhead : none ∉ (Gapped.join tokens).head? := by
    cases tokens with
    | nil => simp [Gapped.join]
    | cons w tokens =>
      have hw : w ≠ [] := fun h => htokens (h ▸ List.mem_cons_self)
      obtain ⟨c, k, hk⟩ := Gapped.exists_join_eq_cons tokens hw
      simp [hk]
  exact (run_respaced hu hhead hsep).mono fun _ _ h =>
    h.imp fun _ _ hr => ⟨hr.kind_eq, hr.specifier_eq⟩

def importTokens : List (List Char) :=
  ["import", "\x7b", "a", "\x7d", "from", "'x'", ";", "import", "(", "\x60y z\x60", ")"].map
    String.toList

theorem scan_respaced_imports : isWideBlank '\u2003' = true ∧ [] ∉ importTokens ∧
    Separable (.join importTokens) ∧
    ObstructedAlike
      (List.Forall₂ fun r r' => r'.kind = r.kind ∧
        (¬ r.SpansGap (.join importTokens) → r'.specifier = r.specifier))
      (scan (String.ofList ([' '].intercalate importTokens)))
      (scan (String.ofList (['\u2003'].intercalate importTokens))) := by
  have hblank : isWideBlank '\u2003' = true := by decide +kernel
  have htokens : [] ∉ importTokens := by decide +kernel
  have hplain : (Gapped.join importTokens).all fun o =>
      o.all fun c => !c.isDigit && decide (c ∉ ['/', '.']) := by decide +kernel
  have hrequire : ¬ requireName <:+: (Gapped.join importTokens).fill ' ' := by decide +kernel
  have hsep : Separable (.join importTokens) := by
    refine separable_of_forall (fun c hc => ?_) hrequire
    simpa using List.all_eq_true.1 hplain _ hc
  exact ⟨hblank, htokens, hsep, scan_respaced hblank htokens hsep⟩

def numberedTokens : List (List Char) := ["1", "import", "'x'"].map String.toList

/-- A number takes along the blank beyond ASCII and the word after it. -/
theorem scan_respaced_number :
    scan (String.ofList ([' '].intercalate numberedTokens)) =
      .ok [⟨"x", 9, 12, .declaration⟩] ∧
    scan (String.ofList (['\u2003'].intercalate numberedTokens)) = .ok [] :=
  ⟨eq_ok_of_toOption (by decide +kernel), eq_ok_of_toOption (by decide +kernel)⟩

end ImportAtlas
