import ImportAtlas.Proofs.Declaration.Scan
import ImportAtlas.Proofs.Reference.Spans

namespace ImportAtlas

open Text Lexeme

namespace Lexeme

variable {A k : List Char} {c : Char}

theorem ne_slash_of_isBlank (h : isBlank c = true) : c ≠ '/' := by
  rintro rfl
  exact absurd h (by decide)

theorem Trivia.tail (h : Trivia (c :: A)) (hc : isBlank c = true) : Trivia A := by
  cases h with
  | blank _ hA => exact hA
  | line => exact absurd rfl (ne_slash_of_isBlank hc)
  | block => exact absurd rfl (ne_slash_of_isBlank hc)

theorem TriviaBefore.tail (h : TriviaBefore k (c :: A)) (hc : isBlank c = true) :
    TriviaBefore k A := by
  generalize heq : c :: A = B at h
  cases h with
  | closed hB hk =>
    subst heq
    exact .closed (hB.tail hc) hk
  | @ended B text hk hB ht =>
    cases B with
    | nil =>
      cases heq
      exact absurd rfl (ne_slash_of_isBlank hc)
    | cons d B =>
      cases heq
      exact .ended hk (hB.tail hc) ht

theorem Trivia.headIs_hash (h : Trivia A) (hk : headIs (· = '#') k = false) :
    headIs (· = '#') (A ++ k) = false := by
  cases h with
  | nil => exact hk
  | blank hc =>
    rw [List.cons_append, headIs_cons, decide_eq_false_iff_not]
    rintro rfl
    exact absurd hc (by decide)
  | line => rfl
  | block => rfl

theorem TriviaBefore.headIs_hash (h : TriviaBefore k A) (hk : headIs (· = '#') k = false) :
    headIs (· = '#') (A ++ k) = false := by
  cases h with
  | closed hA => exact hA.headIs_hash hk
  | @ended B text hnil hB =>
    subst hnil
    rw [List.append_nil]
    exact hB.headIs_hash rfl

end Lexeme

namespace ScanState

variable {cs T : List Char} {t : Cursor}

def atStart (cs : List Char) : ScanState := { initial cs with cursor := .ofText cs }

theorem take_ne_hashbang {k : List Char} (h : headIs (· = '#') k = false) :
    k.take 2 ≠ "#!".toList := by
  intro heq
  cases k with
  | nil => cases heq
  | cons c k =>
    rw [headIs_cons, decide_eq_false_iff_not] at h
    exact h (List.cons.inj heq).1

theorem run_initial (hp : (Cursor.ofText cs).Passes T t) (hT : TriviaBefore t.rest T)
    (hhash : headIs (· = '#') t.rest = false) : (initial cs).run = (atStart cs).run := by
  rw [run_trivia (s := atStart cs) rfl hp hT]
  suffices ∃ T', (initial cs).cursor.Passes T' t ∧ TriviaBefore t.rest T' by
    obtain ⟨T', hp', hT'⟩ := this
    exact run_trivia rfl hp' hT'
  have hcs : cs = T ++ t.rest := hp.rest_eq
  have hnone : ∀ {c : Cursor} {A : List Char}, c.Passes A t → TriviaBefore t.rest A →
      c.rest.take 2 ≠ "#!".toList := by
    intro c A hp hA
    rw [hp.rest_eq]
    exact take_ne_hashbang (hA.headIs_hash hhash)
  dsimp only [initial]
  by_cases hmark : (Cursor.ofText cs).rest.head? = some byteOrderMark
  · rw [if_pos hmark]
    cases T with
    | nil =>
      have hstart := hT.startsTrivia
      change cs.head? = some byteOrderMark at hmark
      rw [hcs, List.nil_append] at hmark
      obtain ⟨k, hk⟩ := List.head?_eq_some_iff.1 hmark
      rw [hk, startsTrivia_of_isBlank (by decide)] at hstart
      contradiction
    | cons c T =>
      obtain rfl : c = byteOrderMark := by
        change cs.head? = some byteOrderMark at hmark
        rw [hcs] at hmark
        exact Option.some.inj hmark
      have hT := hT.tail (by decide)
      obtain ⟨d, hd, hp⟩ := Cursor.Passes.split (A := [byteOrderMark]) hp
      obtain rfl : d = (Cursor.ofText cs).advance 1 := hd.eq_advance
      exact ⟨T, by rw [if_neg (hnone hp hT)]; exact hp, hT⟩
  · rw [if_neg hmark, if_neg (hnone hp hT)]
    exact ⟨T, hp, hT⟩

end ScanState

namespace Declaration

open Token Spaced ScanState

variable {s : ScanState} {last : List Char}

theorem exists_ending {ending k : List Char}
    (hending : ending = [] ∨ ∃ T, Trivia T ∧ ending = T ++ [';']) (hs : s.Plain)
    (hr : s.cursor.rest = ending ++ k) :
    ∃ s' : ScanState, s'.Plain ∧ s.cursor.Passes ending s'.cursor ∧
      ∀ L, Runs s' L → Runs s (L.prepend ending) := by
  rcases hending with rfl | ⟨T, hT, rfl⟩
  · refine ⟨s, hs, .refl _, fun L hL => ?_⟩
    rwa [Layout.prepend_nil]
  · obtain ⟨t, ht, hp⟩ := (Cursor.Passes.of_rest hr).split
    have htr : t.rest = ';' :: _ := hp.rest_eq
    have hstart : startsTrivia t.rest = false := by
      rw [htr]
      rfl
    have hs' : ({ s with cursor := t } : ScanState).Plain := ⟨hs.code, hs.closed⟩
    obtain ⟨s', htoken, hf, hcursor, hplain⟩ := hs'.token_mark (x := ';') (c := t) (by decide)
    have hp' : t.Passes [';'] s'.cursor := hcursor ▸ .of_rest htr
    refine ⟨s', hplain, ht.trans hp', fun L hL => ?_⟩
    rw [← Layout.prepend_prepend]
    exact .of_trivia hs.code ht (.closed hT hstart)
      (.token hs'.code htr hstart htoken hf hp' hL)

theorem runs_of_source (hlast : TriviaBefore [] last) (ds : List Declaration) (hs : s.Plain)
    (hr : s.cursor.rest = source last ds) : Runs s (seen last s.cursor.before.reverse ds) := by
  induction ds generalizing s with
  | nil =>
    have hr : s.cursor.rest = last ++ [] := by simpa [source] using hr
    have hp := Cursor.Passes.of_rest hr
    have hnil : (s.cursor.advance last.length).rest = [] := by simp [hr]
    have hrun := Runs.of_trivia hs.code hp (hnil ▸ hlast) (.done hs.code hnil hs.closed)
    simpa [Layout.prepend, seen] using hrun
  | cons d ds ih =>
    have hr : s.cursor.rest =
        d.head ++ (quoted d.quote d.body ++ (d.ending ++ source last ds)) := by
      simpa [source, Declaration.text] using hr
    have hp := Cursor.Passes.of_rest hr
    have he : (s.cursor.advance d.head.length).rest =
        quoted d.quote d.body ++ (d.ending ++ source last ds) := by simp [hr]
    have hopens : Cursor.Opens _ d.quote d.body := ⟨d.quotes, d.string, _, he⟩
    obtain ⟨s', hs'⟩ := leads_of_form d.form d.spaced d.trivia hopens hs hp
    refine hs'.runs _ ?_
    have hr' : s'.cursor.rest = d.ending ++ source last ds := by
      have hsplit := hs'.passes.rest_eq
      have hhead : s.cursor.rest =
          (d.head ++ quoted d.quote d.body) ++ (d.ending ++ source last ds) := by simp [hr]
      exact List.append_cancel_left (hsplit.symm.trans hhead)
    obtain ⟨s'', hplain, hp', hruns⟩ := exists_ending d.ended hs'.plain hr'
    have hbefore : s.cursor.before.reverse ++ d.text = s''.cursor.before.reverse := by
      rw [before_of_passes (hs'.passes.trans hp'), Declaration.text, Declaration.head]
      simp
    rw [hbefore]
    refine hruns _ (ih hplain ?_)
    exact List.append_cancel_left (hp'.rest_eq.symm.trans hr')

theorem IsForm.exists_keyword {kind : ReferenceKind} {ts : List Token} (h : IsForm kind ts) :
    ∃ t ts', ts = t :: ts' ∧ t.Valid ∧ headIs (· = '#') t.text = false ∧
      opening t ts'.head? = some kind := by
  cases h with
  | bare => exact ⟨_, _, rfl, valid_importToken, by decide, rfl⟩
  | clause hclause =>
    obtain ⟨t, ts', rfl, -, hopen⟩ := exists_cons_of_clause hclause
    exact ⟨_, _, rfl, valid_importToken, by decide, hopen⟩
  | all => exact ⟨_, _, rfl, valid_exportToken, by decide, rfl⟩
  | star => exact ⟨_, _, rfl, valid_exportToken, by decide, rfl⟩
  | bindings => exact ⟨_, _, rfl, valid_exportToken, by decide, rfl⟩

theorem exists_first (hlast : TriviaBefore [] last) (ds : List Declaration) :
    ∃ T t, (Cursor.ofText (source last ds)).Passes T t ∧ TriviaBefore t.rest T ∧
      headIs (· = '#') t.rest = false := by
  cases ds with
  | nil =>
    have hr : (Cursor.ofText (source last [])).rest = last ++ [] := by simp [source, Cursor.ofText]
    have hnil : ((Cursor.ofText (source last [])).advance last.length).rest = [] := by simp [hr]
    exact ⟨last, _, .of_rest hr, hnil ▸ hlast, by rw [hnil]; rfl⟩
  | cons d ds =>
    obtain ⟨_, ts, htokens, hv, hhash, -⟩ := d.form.exists_keyword
    obtain ⟨sp, ss, hd, rfl, -⟩ := List.map_eq_cons_iff.1 htokens
    have hspaced := d.spaced
    rw [hd] at hspaced
    have hr : (Cursor.ofText (source last (d :: ds))).rest = (Spaced.texts (sp :: ss) ++ d.gap) ++
        (quoted d.quote d.body ++ (d.ending ++ source last ds)) := by
      simp [source, Cursor.ofText, Declaration.text, Declaration.head, hd]
    have hp := Cursor.Passes.of_rest hr
    have hopens : Cursor.Opens _ d.quote d.body :=
      ⟨d.quotes, d.string, _, List.append_cancel_left (hp.rest_eq.symm.trans hr)⟩
    obtain ⟨t, v, -, ht, hv', hI, -⟩ := exists_next hspaced hv d.trivia hp hopens.startsQuote
    refine ⟨_, t, ht, .closed hspaced.1 (hv'.rest_eq ▸ hI.startsTrivia), ?_⟩
    rw [headIs_of_item hv' hI, hhash]

theorem scan_source_eq (hlast : TriviaBefore [] last) (ds : List Declaration) :
    scan (String.ofList (source last ds)) = .ok ((seen last [] ds).references 0) := by
  obtain ⟨T, t, hp, hT, hhash⟩ := exists_first hlast ds
  have hplain : (atStart (source last ds)).Plain := ⟨rfl, rfl⟩
  have hruns := runs_of_source hlast ds hplain rfl
  rw [scan, String.toList_ofList, run_initial hp hT hhash, hruns.run_eq]
  rfl

theorem length_references_layout (offset : Nat) (ds : List Declaration) :
    ((layout last ds).references offset).length = ds.length := by
  induction ds generalizing offset with
  | nil => rfl
  | cons d ds ih => simp [layout, Layout.references, ih]

theorem length_references_seen (before : List Char) (offset : Nat) (ds : List Declaration) :
    ((seen last before ds).references offset).length ≤ ds.length := by
  induction ds generalizing before offset with
  | nil => exact Nat.le_refl 0
  | cons d ds ih =>
    rw [seen]
    cases sighted before d.tokens with
    | none =>
      simp only [Layout.literal, Layout.references_prepend, List.length_cons]
      exact Nat.le_succ_of_le (ih _ _)
    | some kind =>
      simp only [Layout.literal, Layout.references, Layout.references_prepend, List.length_cons]
      exact Nat.succ_le_succ (ih _ _)

theorem references_seen_iff (before : List Char) (offset : Nat) (ds : List Declaration) :
    (seen last before ds).references offset = (layout last ds).references offset ↔
      AllSighted before ds := by
  induction ds generalizing before offset with
  | nil => exact ⟨fun _ => .intro, fun _ => rfl⟩
  | cons d ds ih =>
    rw [seen, layout, AllSighted]
    cases sighted before d.tokens with
    | none =>
      constructor
      · intro h
        have hlen := congrArg List.length h
        have hle := @length_references_seen last (before ++ d.text)
          (offset + Text.byteLength (d.head ++ quoted d.quote d.body) + Text.byteLength d.ending) ds
        simp only [Layout.literal, Layout.references_prepend, Layout.references, List.length_cons,
          length_references_layout] at hlen
        omega
      · rintro ⟨h, -⟩
        cases h
    | some kind =>
      simp only [Layout.literal, Layout.references, Layout.references_prepend, List.cons.injEq,
        Option.some.injEq]
      constructor
      · rintro ⟨hkind, hrest⟩
        have hkind : kind = d.kind := congrArg Reference.kind hkind
        subst hkind
        exact ⟨rfl, (ih _ _).1 hrest⟩
      · rintro ⟨rfl, hrest⟩
        exact ⟨rfl, (ih _ _).2 hrest⟩

theorem text_layout (ds : List Declaration) : (layout last ds).text = source last ds := by
  induction ds with
  | nil => simp [layout, source, Layout.text]
  | cons d ds ih =>
    rw [layout, Layout.text, Layout.text_prepend, ih]
    simp [source, Declaration.text]

theorem sighted_of_form {kind : ReferenceKind} {before : List Char} {sp : Spaced}
    {ss : List Spaced} (hform : IsForm kind ((sp :: ss).map Spaced.token))
    (h : endsInPoint (before ++ sp.trivia) = false) : sighted before (sp :: ss) = some kind := by
  obtain ⟨_, ts, htokens, -, -, hopen⟩ := hform.exists_keyword
  obtain ⟨rfl, rfl⟩ := List.cons.inj htokens
  rw [List.head?_map] at hopen
  rw [sighted, hopen]
  dsimp only
  rw [h, if_neg (by simp)]

theorem sighted_of_clear {before : List Char} {d : Declaration}
    (h : endsInPoint (before ++ d.lead) = false) : sighted before d.tokens = some d.kind := by
  obtain ⟨_, ts, htokens, -⟩ := d.form.exists_keyword
  obtain ⟨sp, ss, hd, -⟩ := List.map_eq_cons_iff.1 htokens
  have hform := d.form
  rw [lead, hd] at h
  rw [hd] at hform ⊢
  exact sighted_of_form hform h

theorem allSighted_of_allClear {before : List Char} {ds : List Declaration}
    (h : AllClear before ds) : AllSighted before ds := by
  induction ds generalizing before with
  | nil => exact .intro
  | cons d ds ih => exact ⟨sighted_of_clear h.1, ih h.2⟩

/-- A scan of declarations always succeeds.  It finds one reference for each,
with the span of its literal, just if every declaration is seen; those whose
keyword follows no point are.  A point at the end of a comment counts too. -/
theorem scan_source (hlast : TriviaBefore [] last) (ds : List Declaration) :
    (layout last ds).text = source last ds ∧
      scan (String.ofList (source last ds)) = .ok ((seen last [] ds).references 0) ∧
      (scan (String.ofList (source last ds)) = .ok ((layout last ds).references 0) ↔
        AllSighted [] ds) ∧
      (AllClear [] ds → AllSighted [] ds) := by
  refine ⟨text_layout ds, scan_source_eq hlast ds, ?_, allSighted_of_allClear⟩
  rw [scan_source_eq hlast ds, Except.ok.injEq, references_seen_iff]

def afterRemark : Declaration where
  kind := .declaration
  tokens := [⟨'/' :: '/' :: " Done.".toList ++ ['\n'], importToken⟩]
  form := .bare
  spaced := ⟨.line (by decide) .nil, by simp [texts], .intro⟩
  gap := [' ']
  trivia := .blank (by decide) .nil
  quote := '\''
  quotes := by decide
  body := ['x']
  string := .of_forall (by simp)
  ending := []
  ended := .inl rfl

theorem scan_afterRemark : TriviaBefore [] [] ∧ scan "// Done.\nimport 'x'" = .ok [] ∧
    (layout [] [afterRemark]).references 0 = [⟨"x", 16, 19, .declaration⟩] ∧
    ¬ AllSighted [] [afterRemark] := by
  have hlast : TriviaBefore [] [] := .closed .nil rfl
  obtain ⟨-, hscan, hiff, -⟩ := scan_source hlast [afterRemark]
  have htext : String.ofList (source [] [afterRemark]) = "// Done.\nimport 'x'" := by decide
  have hseen : (seen [] [] [afterRemark]).references 0 = [] := by decide
  have hcalled : (layout [] [afterRemark]).references 0 = [⟨"x", 16, 19, .declaration⟩] := by
    decide
  rw [htext, hseen] at hscan
  refine ⟨hlast, hscan, hcalled, fun hall => ?_⟩
  have := hiff.2 hall
  rw [htext, hscan, hcalled] at this
  cases this

end Declaration

end ImportAtlas
