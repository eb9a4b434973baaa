import ImportAtlas.Proofs.Reference.Run

namespace ImportAtlas

open Text Outcome

/-- The reference spans a literal of the text. -/
structure Reference.Spans (r : Reference) (cs : List Char) : Prop where
  literal : ∃ before quote body after, cs = before ++ (quoted quote body ++ after) ∧
    r.start = byteLength before ∧ r.stop = byteLength (before ++ quoted quote body) ∧
    r.specifier = String.ofList body ∧ r.kind.Allows quote

namespace Reference.Spans

variable {r : Reference} {cs : List Char}

theorem start_add_two_le (h : r.Spans cs) : r.start + 2 ≤ r.stop := by
  obtain ⟨before, quote, body, after, -, hstart, hstop, -⟩ := h.literal
  rw [hstart, hstop, byteLength_append]
  exact Nat.add_le_add_left (Layout.lt_byteLength_quoted quote body) _

theorem stop_le (h : r.Spans cs) : r.stop ≤ byteLength cs := by
  obtain ⟨before, quote, body, after, hcs, -, hstop, -⟩ := h.literal
  rw [hcs, hstop]
  simp only [byteLength_append]
  omega

theorem cut_start (h : r.Spans cs) : (cut? r.start cs).isSome = true := by
  obtain ⟨before, quote, body, after, hcs, hstart, -⟩ := h.literal
  rw [hcs, hstart, cut?_append]
  rfl

theorem cut_stop (h : r.Spans cs) : (cut? r.stop cs).isSome = true := by
  obtain ⟨before, quote, body, after, hcs, -, hstop, -⟩ := h.literal
  rw [hcs, hstop, ← List.append_assoc, cut?_append]
  rfl

end Reference.Spans

namespace Layout

variable {L : Layout} {A : List Char}

def WellQuoted : Layout → Prop
  | tail _ => True
  | slot _ quote _ kind rest => kind.Allows quote ∧ rest.WellQuoted

theorem WellQuoted.prepend (h : L.WellQuoted) : (L.prepend A).WellQuoted := by
  cases L with
  | tail => exact h
  | slot => exact h

theorem WellQuoted.spans (h : L.WellQuoted) (before : List Char) :
    ∀ r ∈ L.references (byteLength before), r.Spans (before ++ L.text) := by
  induction L generalizing before with
  | tail => simp [references]
  | slot gap quote body kind rest ih =>
    intro r hr
    have hsplit : before ++ (slot gap quote body kind rest).text =
        (before ++ gap) ++ (quoted quote body ++ rest.text) := by simp [text]
    rcases List.mem_cons.1 hr with rfl | hr
    · refine ⟨_, quote, body, rest.text, hsplit, ?_, ?_, rfl, h.1⟩
      · simp [reference]
      · simp [reference, Nat.add_assoc]
    · have hstop : (reference (byteLength before) gap quote body kind).stop =
          byteLength (before ++ gap ++ quoted quote body) := by
        simp [reference, Nat.add_assoc]
      rw [hstop] at hr
      have := ih h.2 _ r hr
      rwa [List.append_assoc, ← hsplit] at this

end Layout

namespace ScanState

theorem Runs.wellQuoted {s : ScanState} {L : Layout} (h : Runs s L) : L.WellQuoted := by
  induction h with
  | done => exact .intro
  | trivia _ _ _ _ _ ih => exact ih.prepend
  | token _ _ _ _ _ _ _ ih => exact ih.prepend
  | record _ _ _ _ _ _ hq _ ih => exact ⟨hq, ih⟩
  | templateText _ _ _ _ ih => exact ih.prepend

theorem reaches_ite (p : Prop) [Decidable p] (c : Cursor) (n : Nat) :
    c.Reaches (if p then c.advance n else c) := by
  split
  · exact .advance c n
  · exact .refl c

theorem reaches_initial (cs : List Char) :
    (Cursor.ofText cs).Reaches (initial cs).cursor :=
  (reaches_ite _ _ 1).trans (reaches_ite _ _ _)

end ScanState

theorem exists_layout {text : String} {references : List Reference}
    (h : scan text = .ok references) :
    ∃ L : Layout, L.WellQuoted ∧ L.text = text.toList ∧ references = L.references 0 := by
  obtain ⟨L, hL, hrefs⟩ := ScanState.exists_runs h
  obtain ⟨P, hP⟩ := Cursor.Passes.of_reaches (ScanState.reaches_initial text.toList)
  refine ⟨L.prepend P, hL.wellQuoted.prepend, ?_, ?_⟩
  · rw [Layout.text_prepend, hL.text_eq]
    exact hP.rest_eq.symm
  · rw [hrefs, Layout.references_prepend, hP.offset_eq]
    rfl

theorem pairwise_of_scan {text : String} {references : List Reference}
    (h : scan text = .ok references) : references.Pairwise fun r s => r.stop ≤ s.start := by
  obtain ⟨L, -, -, rfl⟩ := exists_layout h
  exact Layout.pairwise_references 0

theorem spans_of_scan {text : String} {references : List Reference}
    (h : scan text = .ok references) : ∀ r ∈ references, r.Spans text.toList := by
  obtain ⟨L, hq, htext, rfl⟩ := exists_layout h
  rw [← htext]
  exact hq.spans []

theorem exists_splice {text : String} {references : List Reference}
    (h : scan text = .ok references) {idFor : Reference → Option String}
    (hid : ∀ r ∈ references, (idFor r).isSome = true) :
    ∃ out, splice text references idFor = .ok out := by
  obtain ⟨L, -, htext, rfl⟩ := exists_layout h
  refine ⟨_, Layout.splice_references (f := fun r => (idFor r).getD "") htext fun r hr => ?_⟩
  obtain ⟨id, hid⟩ := Option.isSome_iff_exists.1 (hid r hr)
  rw [hid]
  rfl

end ImportAtlas
