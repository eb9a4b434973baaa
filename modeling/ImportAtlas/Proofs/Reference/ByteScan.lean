import ImportAtlas.Proofs.Reference.ByteToken
import ImportAtlas.Proofs.Reference.Rescan
import ImportAtlas.Proofs.Reference.Spans
import ImportAtlas.Proofs.Reference.Steps

/-! The scanner by positions finds what the scanner by characters finds.  It moves on
with every turn of a loop, every position it cuts the text at is between characters,
and what it fails with arises at such a position. -/

namespace ImportAtlas

open Text Lexeme Outcome

namespace ByteScan

variable {text k : List Char} {s s' : ScanState} {σ σ' : State} {r : Checked State}
  {opening : Cursor} {x b : Char}

/-- How a reading of code ends that begins in the state `s`: it fails as the run from
`s` does; it has come to the end of the text, and the run gives what it has found; or
it has come to the end of the substitution, and the run goes on in the template. -/
inductive CodeEnds (text : List Char) (s : ScanState) : Checked State → Prop
  | failed {e : ScanFailure} : s.run = .error e → IsBoundary text e.offset →
      CodeEnds text s (.error (.failure e))
  | finished {σ : State} : s.substitutions = [] → s.run = .ok σ.found → CodeEnds text s (.ok σ)
  | closed {s' : ScanState} {σ : State} {t : Substitution} : s.run = s'.run →
      s.substitutions = t :: s'.substitutions → s'.mode = .template t.opening →
      s'.depth = t.depth → Tracks text s' σ → s'.cursor.rest.length < s.cursor.rest.length →
      CodeEnds text s (.ok σ)

/-- How a reading of a template ends that begins in the state `s`: it fails as the run
from `s` does, or the template is closed and the run goes on in the code around it. -/
inductive TemplateEnds (text : List Char) (s : ScanState) : Checked State → Prop
  | failed {e : ScanFailure} : s.run = .error e → IsBoundary text e.offset →
      TemplateEnds text s (.error (.failure e))
  | closed {s' : ScanState} {σ : State} : s.run = s'.run →
      s'.substitutions = s.substitutions → s'.mode = .code → s'.depth = s.depth →
      Tracks text s' { σ with last := .value } →
      s'.cursor.rest.length < s.cursor.rest.length → TemplateEnds text s (.ok σ)

theorem CodeEnds.of_run (h : CodeEnds text s' r) (hrun : s.run = s'.run)
    (hs : s'.substitutions = s.substitutions)
    (hle : s'.cursor.rest.length ≤ s.cursor.rest.length) : CodeEnds text s r := by
  cases h with
  | failed he hb => exact .failed (hrun.trans he) hb
  | finished hnone hfound => exact .finished (hs ▸ hnone) (hrun.trans hfound)
  | closed hend ht hm hd htracks hlt =>
    exact .closed (hrun.trans hend) (hs ▸ ht) hm hd htracks (Nat.lt_of_lt_of_le hlt hle)

theorem TemplateEnds.of_run (h : TemplateEnds text s' r) (hrun : s.run = s'.run)
    (hs : s'.substitutions = s.substitutions) (hd : s'.depth = s.depth)
    (hle : s'.cursor.rest.length ≤ s.cursor.rest.length) : TemplateEnds text s r := by
  cases h with
  | failed he hb => exact .failed (hrun.trans he) hb
  | closed hend ht hm hdepth htracks hlt =>
    exact .closed (hrun.trans hend) (ht.trans hs) hm (hdepth.trans hd) htracks
      (Nat.lt_of_lt_of_le hlt hle)

theorem scanCode_eq (inTemplate : Bool) (depth : Nat) (σ : State) :
    scanCode text inTemplate depth σ = match byte? text σ.pos with
      | none => if inTemplate then Checked.fail σ.pos .unterminatedTemplate else .ok σ
      | some b => triviaItem text σ.pos >>= fun item => match item with
        | some next =>
          if σ.pos < next then scanCode text inTemplate depth { σ with pos := next }
          else Checked.fault .stalled
        | none =>
          if b = '\x60' then scanTemplate text σ.pos { σ with pos := σ.pos + 1 } >>= fun σ' =>
            if σ.pos < σ'.pos then scanCode text inTemplate depth { σ' with last := .value }
            else Checked.fault .stalled
          else if b = '\x7d' && inTemplate && depth = 0 then .ok { σ with pos := σ.pos + 1 }
          else token text b depth σ >>= fun p =>
            if σ.pos < p.2.pos then scanCode text inTemplate p.1 p.2
            else Checked.fault .stalled := by
  rw [scanCode]
  split
  · rename_i hb
    rw [hb]
  · rename_i hb
    rw [hb]
    dsimp only
    split
    · rename_i ht
      rw [ht]
      rfl
    · rename_i ht
      rw [ht]
      rfl
    · rename_i ht
      rw [ht, ok_bind]
      dsimp only
      split
      · split <;> rename_i hσ <;> rw [hσ] <;> rfl
      · split
        · rfl
        · split <;> rename_i hσ <;> rw [hσ] <;> rfl

theorem scanTemplate_eq (start : Nat) (σ : State) :
    scanTemplate text start σ = match templateChunk? ((bytes text).drop σ.pos) with
      | none => Checked.fail start .unterminatedTemplate
      | some (.closed, n) => .ok { σ with pos := σ.pos + n }
      | some (.substitution, n) =>
        scanCode text true 0 { σ with pos := σ.pos + n, last := .punctuation '\x7b' } >>= fun σ' =>
          if σ.pos < σ'.pos then scanTemplate text start σ' else Checked.fault .stalled := by
  rw [scanTemplate]
  split <;> rename_i hc <;> rw [hc]
  dsimp only
  split <;> rename_i hσ <;> rw [hσ] <;> rfl

def CodeAlike (text : List Char) (n : Nat) : Prop :=
  ∀ s σ, s.cursor.rest.length = n → s.mode = .code → Tracks text s σ →
    CodeEnds text s (scanCode text (!s.substitutions.isEmpty) s.depth σ)

def TemplateAlike (text : List Char) (n : Nat) : Prop :=
  ∀ s σ opening, s.cursor.rest.length = n → s.mode = .template opening → opening.text = text →
    Tracks text s σ → TemplateEnds text s (scanTemplate text opening.offset σ)

theorem Tracks.lt_pos (h : Tracks text s σ) (h' : Tracks text s' σ')
    (hlt : s'.cursor.rest.length < s.cursor.rest.length) : s.cursor.offset < σ'.pos := by
  rw [h'.pos_eq]
  exact Cursor.offset_lt_of_length_lt (h.text_eq.trans h'.text_eq.symm) hlt

theorem codeEnds_nil (hm : s.mode = .code) (h : Tracks text s σ) (hr : s.cursor.rest = []) :
    CodeEnds text s (if !s.substitutions.isEmpty then
      Checked.fail s.cursor.offset .unterminatedTemplate else .ok σ) := by
  have hskip : s.cursor.skipTrivia = .ok s.cursor := Cursor.skipTrivia_self (by rw [hr]; rfl)
  have hstep : s.step = if s.substitutions.isEmpty then .ok none
      else s.cursor.fail .unterminatedTemplate := by
    rw [ScanState.step_code hm, hskip, ok_bind, hr]
    rfl
  cases hs : s.substitutions with
  | nil =>
    rw [hs] at hstep
    exact .finished hs ((ScanState.run_of_end hstep).trans (h.found ▸ rfl))
  | cons t outer =>
    rw [hs] at hstep
    exact .failed (ScanState.run_of_error hstep) (isBoundary_offset h.text_eq)

theorem codeEnds_token (ih : ∀ m < s.cursor.rest.length, CodeAlike text m) (hm : s.mode = .code)
    (h : Tracks text s σ) (hr : s.cursor.rest = x :: k)
    (ht : startsTrivia s.cursor.rest = false)
    (htoken : ReadAlike text (Resumes text s) (s.token x s.cursor) (token text b s.depth σ)) :
    CodeEnds text s (token text b s.depth σ >>= fun p =>
      if s.cursor.offset < p.2.pos then scanCode text (!s.substitutions.isEmpty) p.1 p.2
      else Checked.fault .stalled) := by
  have hstep := ScanState.step_of_skipTrivia hm (Cursor.skipTrivia_self ht) hr
  generalize hs' : s.token x s.cursor = r at htoken
  rw [hs'] at hstep
  generalize token text b s.depth σ = r' at htoken ⊢
  cases htoken with
  | error he =>
    obtain ⟨rfl, hboundary⟩ := he
    exact .failed (ScanState.run_of_error hstep) hboundary
  | @ok s' p hresumes =>
    obtain ⟨u, hreach, hskip, htracks⟩ := hresumes.resumed
    have hlt : u.rest.length < s.cursor.rest.length :=
      Nat.lt_of_le_of_lt hreach.length_le (ScanState.length_lt_of_token (by simp [hr]) hs')
    have hcode : s'.mode = .code := hresumes.mode_eq.trans hm
    have hrun : s.run = { s' with cursor := u }.run :=
      (ScanState.run_of_step hstep).trans (ScanState.run_of_skipTrivia hcode hskip)
    have hends := ih _ hlt { s' with cursor := u } p.2 rfl hcode htracks
    rw [ok_bind, if_pos (h.lt_pos htracks hlt), hresumes.depth_eq, ← hresumes.substitutions_eq]
    exact hends.of_run hrun hresumes.substitutions_eq (Nat.le_of_lt hlt)

theorem codeEnds_template (ih : ∀ m < s.cursor.rest.length, CodeAlike text m)
    (iht : ∀ m < s.cursor.rest.length, TemplateAlike text m) (hm : s.mode = .code)
    (h : Tracks text s σ) (hr : s.cursor.rest = '\x60' :: k) :
    CodeEnds text s (scanTemplate text s.cursor.offset { σ with pos := s.cursor.offset + 1 } >>=
      fun σ' => if s.cursor.offset < σ'.pos then
        scanCode text (!s.substitutions.isEmpty) s.depth { σ' with last := .value }
      else Checked.fault .stalled) := by
  have hstep : ScanState.Next s
      { s with cursor := s.cursor.advance 1, mode := .template s.cursor } :=
    ScanState.step_of_token hm hr (by rw [hr]; rfl) rfl
  have hlt := ScanState.length_lt_of_step hstep
  have hopen : Tracks text { s with cursor := s.cursor.advance 1, mode := .template s.cursor }
      { σ with pos := s.cursor.offset + 1 } :=
    ⟨places_next h.text_eq hr (by decide), h.last, h.heads, h.found⟩
  have hends := iht _ hlt _ _ s.cursor rfl rfl h.text_eq hopen
  generalize scanTemplate text s.cursor.offset { σ with pos := s.cursor.offset + 1 } = r at hends ⊢
  have hrun := ScanState.run_of_step hstep
  cases hends with
  | failed he hboundary => exact .failed (hrun.trans he) hboundary
  | @closed s' σ' hclosed hs hcode hdepth htracks hlt' =>
    have hless := Nat.lt_trans hlt' hlt
    have hrest := ih _ hless s' _ rfl hcode htracks
    rw [hs, hdepth] at hrest
    rw [ok_bind, if_pos (h.lt_pos htracks hless)]
    exact hrest.of_run (hrun.trans hclosed) hs (Nat.le_of_lt hless)

theorem codeEnds_close (hm : s.mode = .code) (h : Tracks text s σ)
    (hr : s.cursor.rest = '\x7d' :: k) (hs : s.substitutions ≠ []) (hd : s.depth = 0) :
    CodeEnds text s (.ok { σ with pos := s.cursor.offset + 1 }) := by
  obtain ⟨t, outer, hs⟩ := List.exists_cons_of_ne_nil hs
  have hclose : s.closeBrace s.cursor = { s with
      cursor := s.cursor.advance 1, mode := .template t.opening, depth := t.depth,
      substitutions := outer } := by
    simp only [ScanState.closeBrace, hd, hs]
  have hstep : s.step = .ok (some (s.closeBrace s.cursor)) :=
    ScanState.step_of_token hm hr (by rw [hr]; rfl) rfl
  rw [hclose] at hstep
  exact .closed (ScanState.run_of_step hstep) hs rfl rfl
    ⟨places_next h.text_eq hr (by decide), h.last, h.heads, h.found⟩
    (ScanState.length_lt_of_step hstep)

theorem codeAlike {n : Nat} (ih : ∀ m < n, CodeAlike text m) (iht : ∀ m < n, TemplateAlike text m) :
    CodeAlike text n := by
  intro s σ hn hm h
  subst hn
  rw [scanCode_eq, h.pos_eq]
  cases hr : s.cursor.rest with
  | nil =>
    rw [Cursor.byte?_of_nil h.text_eq hr]
    exact codeEnds_nil hm h hr
  | cons x k =>
    obtain ⟨b, hbyte, hb⟩ := Cursor.byte?_of_cons h.text_eq hr
    have hitem := triviaItem_offset h.text_eq
    rw [hbyte]
    dsimp only
    generalize triviaItem text s.cursor.offset = item at hitem
    cases hitem with
    | unclosed hskip =>
      have hstep : s.step = s.cursor.fail .unterminatedComment := by
        rw [ScanState.step_code hm, hskip]
        rfl
      exact .failed (ScanState.run_of_error hstep) (isBoundary_offset h.text_eq)
    | @some d hd hskip hlt =>
      have htracks : Tracks text { s with cursor := d } { σ with pos := d.offset } :=
        ⟨⟨hd, rfl⟩, h.last, h.heads, h.found⟩
      have hends := ih _ hlt { s with cursor := d } _ rfl hm htracks
      rw [ok_bind]
      dsimp only
      rw [if_pos (Cursor.offset_lt_of_length_lt (h.text_eq.trans hd.symm) hlt)]
      exact hends.of_run (ScanState.run_of_skipTrivia hm hskip) rfl (Nat.le_of_lt hlt)
    | none ht =>
      -- a template and the end of a substitution leave this loop, any other token stays in it
      rw [ok_bind]
      simp only [hb.eq_iff (c := '\x60') (by decide), hb.eq_iff (c := '\x7d') (by decide)]
      split
      · rename_i hx
        subst hx
        exact codeEnds_template ih iht hm h hr
      split <;> rename_i htick hclose
      · simp only [Bool.and_eq_true, decide_eq_true_eq, Bool.not_eq_true'] at hclose
        obtain ⟨⟨rfl, hs⟩, hd⟩ := hclose
        exact codeEnds_close hm h hr (fun hnil => by simp [hnil] at hs) hd
      · refine codeEnds_token ih hm h hr ht (token_alike h hr hb ht htick fun hx => ?_)
        by_contra hboth
        rw [not_or, not_not] at hboth
        exact hclose (by simp [hx, hboth.1, hboth.2])

theorem templateEnds_substitution {m : Nat} (ih : ∀ m < s.cursor.rest.length, CodeAlike text m)
    (iht : ∀ m < s.cursor.rest.length, TemplateAlike text m) (hm : s.mode = .template opening)
    (hopening : opening.text = text) (h : Tracks text s σ)
    (hc : templateChunk? s.cursor.rest = some (.substitution, m))
    (hinside : Tracks text (s.afterText opening m .substitution) σ') :
    TemplateEnds text s (scanCode text true 0 σ' >>= fun σ' =>
      if s.cursor.offset < σ'.pos then scanTemplate text opening.offset σ'
      else Checked.fault .stalled) := by
  have hstep := ScanState.next_of_text hm hc
  have hrun := ScanState.run_of_step hstep
  have hlt := ScanState.length_lt_of_step hstep
  have hends : CodeEnds text (s.afterText opening m .substitution) (scanCode text true 0 σ') :=
    ih _ hlt _ _ rfl rfl hinside
  generalize scanCode text true 0 σ' = r at hends ⊢
  cases hends with
  | failed he hboundary => exact .failed (hrun.trans he) hboundary
  | finished hnone => cases hnone
  | @closed s' σ' t hclosed ht hm' hdepth htracks hlt' =>
    obtain ⟨rfl, hs⟩ := List.cons.inj ht
    have hless := Nat.lt_trans hlt' hlt
    have hrest := iht _ hless s' σ' opening rfl hm' hopening htracks
    rw [ok_bind, if_pos (h.lt_pos htracks hless)]
    exact hrest.of_run (hrun.trans hclosed) hs.symm hdepth (Nat.le_of_lt hless)

theorem templateAlike {n : Nat} (ih : ∀ m < n, CodeAlike text m)
    (iht : ∀ m < n, TemplateAlike text m) : TemplateAlike text n := by
  intro s σ opening hn hm hopening h
  subst hn
  have hchunk : templateChunk? ((bytes text).drop s.cursor.offset) =
      (templateChunk? s.cursor.rest).map (Prod.map id (byteCount 0 s.cursor.rest 0)) := by
    rw [Cursor.drop_bytes h.text_eq]
    exact templateChunkFrom_bytes
  have hplace (n : Nat) : Places text (s.cursor.advance n)
      (s.cursor.offset + byteCount 0 s.cursor.rest 0 n) := by
    have hoffset := Cursor.offset_advance n s.cursor
    rw [byteCount, Nat.sub_zero, Nat.zero_add, ← hoffset]
    exact .of_reaches h.text_eq (.advance _ n)
  rw [scanTemplate_eq, h.pos_eq, hchunk]
  cases hc : templateChunk? s.cursor.rest with
  | none =>
    have hstep : s.step = opening.fail .unterminatedTemplate := by
      rw [ScanState.step_template hm, ScanState.templateText, hc]
      rfl
    exact .failed (ScanState.run_of_error hstep) (isBoundary_offset hopening)
  | some chunk =>
    obtain ⟨e, m⟩ := chunk
    have hstep := ScanState.next_of_text hm hc
    cases e with
    | closed =>
      exact .closed (ScanState.run_of_step hstep) rfl rfl rfl
        ⟨hplace m, .value, h.heads, h.found⟩ (ScanState.length_lt_of_step hstep)
    | substitution =>
      exact templateEnds_substitution ih iht hm hopening h hc ⟨hplace m, .punctuation, h.heads,
        h.found⟩

theorem alike (text : List Char) (n : Nat) : CodeAlike text n ∧ TemplateAlike text n := by
  -- what comes after a template or a substitution is shorter still, so the two readers
  -- may call each other in any order
  induction n using Nat.strong_induction_on with
  | h n ih => exact ⟨codeAlike (fun m hm => (ih m hm).1) fun m hm => (ih m hm).2,
      templateAlike (fun m hm => (ih m hm).1) fun m hm => (ih m hm).2⟩

theorem take_two_bytes {cs : List Char} {c d : Char} (hc : isAscii c = true)
    (hd : isAscii d = true) : (bytes cs).take 2 = [c, d] ↔ cs.take 2 = [c, d] := by
  have hsplit (l : List Char) : l.take 2 = [c, d] ↔ l.head? = some c ∧ l.tail.head? = some d := by
    match l with
    | [] => simp
    | [a] => simp
    | a :: b :: l => simp
  rw [hsplit, hsplit, head?_bytes hc]
  refine and_congr_right fun hhead => ?_
  obtain ⟨k, rfl⟩ := List.head?_eq_some_iff.1 hhead
  rw [bytes_cons_of_isAscii hc, List.tail_cons, List.tail_cons, head?_bytes hd]

theorem places_skipMark (text : List Char) : Places text (Cursor.ofText text).skipMark
    (if text.head? = some byteOrderMark then byteOrderMark.utf8Size else 0) := by
  unfold Cursor.skipMark
  split <;> rename_i hhead
  · have hmark : text.head? = some byteOrderMark := hhead
    obtain ⟨k, hk⟩ := List.head?_eq_some_iff.1 hmark
    have hoffset := Cursor.offset_next (c := Cursor.ofText text) hk
    refine ⟨Cursor.text_advance 1 _, ?_⟩
    rw [if_pos hmark, hoffset]
    exact (Nat.zero_add _).symm
  · exact ⟨rfl, if_neg hhead⟩

theorem beginning_eq (text : List Char) :
    beginning text = .ok (ScanState.initial text).cursor.offset := by
  obtain ⟨htext, hpos⟩ := places_skipMark text
  have hcursor : (ScanState.initial text).cursor = (Cursor.ofText text).skipMark.skipHashbang := rfl
  rw [beginning, hpos, Cursor.bytesFrom?_offset htext, Checked.expect, ok_bind, hcursor,
    Cursor.skipHashbang]
  have hmark : (bytes (Cursor.ofText text).skipMark.rest).take 2 = "#!".toList ↔
      (Cursor.ofText text).skipMark.rest.take 2 = "#!".toList :=
    take_two_bytes (by decide) (by decide)
  simp only [hmark]
  split
  · rw [lineEnd_offset htext]
    rfl
  · rfl

/-- In no text does the scanner by positions meet a fault: no position is out of range
or inside a character where the text is cut, no depth is counted below zero, and every
turn of a loop moves on.  It finds what the scanner by characters finds, and what it
fails with lies in the text, between two characters. -/
theorem scan_faultless (text : String) :
    (∀ f, scan text.toList ≠ .error (.fault f)) ∧
      scan text.toList = (ImportAtlas.scan text).mapError .failure ∧
      ∀ e, scan text.toList = .error (.failure e) →
        e.offset ≤ byteLength text.toList ∧ IsBoundary text.toList e.offset := by
  have htext : (ScanState.initial text.toList).cursor.text = text.toList :=
    (ScanState.reaches_initial text.toList).text_eq
  have hbegins : Tracks text.toList (.initial text.toList)
      ⟨(ScanState.initial text.toList).cursor.offset, .none, [], []⟩ :=
    ⟨⟨htext, rfl⟩, .none, rfl, rfl⟩
  have hends : CodeEnds text.toList (.initial text.toList) (scanCode text.toList false 0 _) :=
    (alike text.toList _).1 _ _ rfl rfl hbegins
  have hscan : scan text.toList = scanCode text.toList false 0
      ⟨(ScanState.initial text.toList).cursor.offset, .none, [], []⟩ >>= fun σ => .ok σ.found := by
    rw [scan, beginning_eq]
    rfl
  rw [hscan, ImportAtlas.scan]
  generalize scanCode text.toList false 0 _ = r at hends ⊢
  cases hends with
  | failed he hboundary =>
    rw [he]
    refine ⟨fun f hf => ?_, rfl, fun e he => ?_⟩
    · cases hf
    · cases he
      exact ⟨hboundary.le, hboundary⟩
  | finished hnone hfound =>
    rw [hfound]
    refine ⟨fun f hf => ?_, rfl, fun e he => ?_⟩
    · cases hf
    · cases he
  | closed _ ht => cases ht

end ByteScan

end ImportAtlas
