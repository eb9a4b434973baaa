import ImportAtlas.ModuleId
import ImportAtlas.Proofs.Lexeme.Regex
import ImportAtlas.Proofs.Reference.Spans

namespace ImportAtlas

open Text Lexeme

namespace Lexeme

variable {p : Char → Bool} {w k k' : List Char} {n : Nat}

def Agree (k k' : List Char) : Prop := k.take 6 = k'.take 6

theorem headIs_take : headIs p (k.take (n + 1)) = headIs p k := by
  cases k <;> rfl

theorem startsTrivia_take : startsTrivia (k.take (n + 2)) = startsTrivia k := by
  cases k with
  | nil => rfl
  | cons c k => rw [List.take_succ_cons, startsTrivia_cons, startsTrivia_cons, headIs_take]

namespace Agree

theorem refl (k : List Char) : Agree k k := rfl

theorem of_append {A r r' : List Char} (hA : 6 ≤ A.length) : Agree (A ++ r) (A ++ r') := by
  rw [Agree, List.take_append_of_le_length hA, List.take_append_of_le_length hA]

theorem append (h : Agree k k') (A : List Char) : Agree (A ++ k) (A ++ k') := by
  have hle : 6 - A.length ≤ 6 := Nat.sub_le _ _
  have htake := congrArg (List.take (6 - A.length)) h
  rw [List.take_take, List.take_take, Nat.min_eq_left hle] at htake
  rw [Agree, List.take_append, List.take_append, htake]

theorem headIs_eq (h : Agree k k') : headIs p k' = headIs p k := by
  rw [← headIs_take (n := 5), ← h, headIs_take]

theorem startsTrivia_eq (h : Agree k k') : startsTrivia k' = startsTrivia k := by
  rw [← startsTrivia_take (n := 4), ← h, startsTrivia_take]

theorem exists_append {r : List Char} (h : Agree (w ++ r) k') (hw : w.length < 6) :
    ∃ r', k' = w ++ r' ∧ headIs p r' = headIs p r := by
  obtain ⟨m, hm⟩ : ∃ m, 6 - w.length = m + 1 := ⟨5 - w.length, by omega⟩
  have hk' : k'.take 6 = w ++ r.take (m + 1) := by
    rw [← h, List.take_append, List.take_of_length_le (by omega), hm]
  refine ⟨k'.drop w.length, ?_, ?_⟩
  · have := congrArg (List.take w.length) hk'
    rw [List.take_take, Nat.min_eq_left (by omega), List.take_left] at this
    rw [← List.take_append_drop w.length k', List.drop_append]
    simp [this]
  · have := congrArg (List.drop w.length) hk'
    rw [List.drop_take, List.drop_left, hm] at this
    rw [← headIs_take (n := m), this, headIs_take]

end Agree

end Lexeme

namespace Text.Cursor

variable {c c' : Cursor} {w : List Char}

theorem wordHere_eq_of_agree (h : Agree c.rest c'.rest) (hw : IsWord w) (hlen : w.length < 6)
    (hc : c.wordHere = w) : c'.wordHere = w := by
  obtain ⟨k, hr, hk⟩ := (wordHere_eq_iff hw).1 hc
  rw [hr] at h
  obtain ⟨k', hr', hk'⟩ := h.exists_append (p := continuesWord) hlen
  exact (wordHere_eq_iff hw).2 ⟨k', hr', hk'.trans hk⟩

end Text.Cursor

namespace ModuleId

variable {id : List Char}

theorem ne_of_isSafe {c d : Char} (h : isSafe c = true) (hd : isSafe d = false) : c ≠ d := by
  rintro rfl
  rw [h] at hd
  contradiction

theorem neutral_of_isSafe (h : ∀ c ∈ id, isSafe c = true) : Neutral id := by
  intro c hc
  have hc := h c hc
  simp only [List.mem_cons, List.not_mem_nil, or_false, not_or]
  exact ⟨ne_of_isSafe hc (by decide), ne_of_isSafe hc (by decide), ne_of_isSafe hc (by decide),
    ne_of_isSafe hc (by decide)⟩

theorem stringBody_of_isSafe (h : ∀ c ∈ id, isSafe c = true) : StringBody '"' id :=
  .of_forall fun c hc => ⟨ne_of_isSafe (h c hc) (by decide), ne_of_isSafe (h c hc) (by decide),
    ne_of_isSafe (h c hc) (by decide)⟩

end ModuleId

theorem ReferenceKind.Allows.neutral {kind : ReferenceKind} {quote : Char}
    (h : kind.Allows quote) : quote ∉ ['[', ']', '\\', '\n'] := by
  rcases h with h | ⟨rfl, -⟩
  · rcases isQuote_iff.1 h with rfl | rfl <;> decide
  · decide

namespace Lexeme.Neutral

variable {quote : Char} {body : List Char}

theorem closing (h : Neutral body) (hq : quote ∉ ['[', ']', '\\', '\n']) :
    Neutral (body ++ [quote]) := by
  intro c hc
  rcases List.mem_append.1 hc with hc | hc
  · exact h c hc
  · rw [List.mem_singleton.1 hc]
    exact hq

theorem quoted (h : Neutral body) (hq : quote ∉ ['[', ']', '\\', '\n']) :
    Neutral (quoted quote body) := by
  intro c hc
  rcases List.mem_cons.1 hc with rfl | hc
  · exact hq
  · exact h.closing hq c hc

end Lexeme.Neutral

namespace Layout

variable {A : List Char} {p : Char → Bool} {L L' : Layout}

def Wide : Layout → Prop
  | tail _ => True
  | slot gap _ _ _ rest => 6 ≤ gap.length ∧ rest.Wide

theorem Wide.prepend (h : L.Wide) : (L.prepend A).Wide := by
  cases L with
  | tail => exact h
  | slot => exact ⟨by rw [List.length_append]; exact Nat.le_add_left_of_le h.1, h.2⟩

inductive Refills : Layout → Layout → Prop
  | tail {text : List Char} : Refills (.tail text) (.tail text)
  | slot {gap body id : List Char} {quote : Char} {kind : ReferenceKind} {L L' : Layout} :
      kind.Allows quote → Neutral body → (∀ c ∈ id, ModuleId.isSafe c = true) → Refills L L' →
      Refills (.slot gap quote body kind L) (.slot gap '"' id kind L')

namespace Refills

theorem exists_prepend (h : Refills (L.prepend A) L') :
    ∃ L₁, L' = L₁.prepend A ∧ Refills L L₁ := by
  cases L with
  | tail =>
    cases h with
    | tail => exact ⟨_, rfl, .tail⟩
  | slot =>
    cases h with
    | slot hq hbody hid h => exact ⟨.slot _ _ _ _ _, rfl, .slot hq hbody hid h⟩

theorem agree (h : Refills L L') (hw : L.Wide) : Agree L.text L'.text := by
  cases h with
  | tail => exact .refl _
  | slot => exact .of_append hw.1

theorem keepsOpen (h : Refills L L') : KeepsOpen L.text L'.text := by
  induction h with
  | tail => exact .refl _
  | @slot gap body id quote kind L L' hq hbody hid _ ih =>
    have hid' := ModuleId.neutral_of_isSafe hid
    have hslash : '/' ∉ id := fun h => ModuleId.ne_of_isSafe (hid _ h) (by decide) rfl
    have hquote : '"' ∉ ['[', ']', '\\', '\n'] := by decide
    have htail := ih.neutral (hbody.closing hq.neutral) (hid'.closing hquote) (by simp [hslash])
    have hall := ih.neutral (hbody.quoted hq.neutral) (hid'.quoted hquote)
      (by simp [quoted, hslash])
    exact .append hall htail gap

end Refills

theorem refills_fill {f : Reference → String} {offset : Nat} (hq : L.WellQuoted)
    (hbody : ∀ r ∈ L.references offset, Neutral r.specifier.toList)
    (hid : ∀ r ∈ L.references offset, ∀ c ∈ (f r).toList, ModuleId.isSafe c = true) :
    Refills L (L.fill f offset) := by
  induction L generalizing offset with
  | tail => exact .tail
  | slot gap quote body kind rest ih =>
    have hbody' := hbody _ List.mem_cons_self
    rw [reference, String.toList_ofList] at hbody'
    exact .slot hq.1 hbody' (hid _ List.mem_cons_self)
      (ih hq.2 (fun r hr => hbody r (List.mem_cons_of_mem _ hr))
        fun r hr => hid r (List.mem_cons_of_mem _ hr))

end Layout

end ImportAtlas
