import ImportAtlas.Proofs.Reference.Literal
import ImportAtlas.Splice

namespace ImportAtlas

open Text Outcome

/-- A text as what precedes each literal of a reference, the literal with the
kind of its reference, and what follows the last. -/
inductive Layout where
  | tail (text : List Char)
  | slot (gap : List Char) (quote : Char) (body : List Char) (kind : ReferenceKind) (rest : Layout)

namespace Layout

def text : Layout → List Char
  | tail text => text
  | slot gap quote body _ rest => gap ++ (quoted quote body ++ rest.text)

def reference (offset : Nat) (gap : List Char) (quote : Char) (body : List Char)
    (kind : ReferenceKind) : Reference where
  specifier := String.ofList body
  start := offset + byteLength gap
  stop := offset + byteLength gap + byteLength (quoted quote body)
  kind := kind

/-- The references, `offset` being where the text begins. -/
def references (offset : Nat) : Layout → List Reference
  | tail _ => []
  | slot gap quote body kind rest =>
    reference offset gap quote body kind ::
      rest.references (reference offset gap quote body kind).stop

/-- The specifiers and kinds, wherever the literals stand. -/
def names : Layout → List (String × ReferenceKind)
  | tail _ => []
  | slot _ _ body kind rest => (String.ofList body, kind) :: rest.names

def prepend (A : List Char) : Layout → Layout
  | tail text => tail (A ++ text)
  | slot gap quote body kind rest => slot (A ++ gap) quote body kind rest

def fill (idFor : Reference → String) (offset : Nat) : Layout → Layout
  | tail text => tail text
  | slot gap quote body kind rest =>
    slot gap '"' (idFor (reference offset gap quote body kind)).toList kind
      (rest.fill idFor (reference offset gap quote body kind).stop)

variable {A B : List Char} {L : Layout}

@[simp] theorem text_prepend : (L.prepend A).text = A ++ L.text := by
  cases L <;> simp [prepend, text]

@[simp] theorem prepend_prepend : (L.prepend B).prepend A = L.prepend (A ++ B) := by
  cases L <;> simp [prepend]

@[simp] theorem prepend_nil : L.prepend [] = L := by
  cases L <;> rfl

@[simp] theorem references_prepend (offset : Nat) :
    (L.prepend A).references offset = L.references (offset + byteLength A) := by
  cases L <;> simp [prepend, references, reference, Nat.add_assoc]

@[simp] theorem names_prepend : (L.prepend A).names = L.names := by
  cases L <;> rfl

theorem map_references (offset : Nat) :
    (L.references offset).map (fun r => (r.specifier, r.kind)) = L.names := by
  induction L generalizing offset with
  | tail => rfl
  | slot gap quote body kind rest ih => simp [references, names, reference, ih]

theorem lt_byteLength_quoted (quote : Char) (body : List Char) :
    2 ≤ byteLength (quoted quote body) := by
  have := quote.utf8Size_pos
  simp only [quoted, List.cons_append, byteLength_cons, byteLength_append, byteLength_nil]
  omega

theorem le_start_of_mem {offset : Nat} : ∀ r ∈ L.references offset, offset ≤ r.start := by
  induction L generalizing offset with
  | tail => simp [references]
  | slot gap quote body kind rest ih =>
    intro r hr
    rcases List.mem_cons.1 hr with rfl | hr
    · exact Nat.le_add_right _ _
    · have := ih r hr
      simp only [reference] at this
      omega

theorem pairwise_references (offset : Nat) :
    (L.references offset).Pairwise fun r s => r.stop ≤ s.start := by
  induction L generalizing offset with
  | tail => exact .nil
  | slot gap quote body kind rest ih => exact .cons le_start_of_mem (ih _)

theorem start_le_stop_of_mem {offset : Nat} :
    ∀ r ∈ L.references offset, r.start ≤ r.stop := by
  induction L generalizing offset with
  | tail => simp [references]
  | slot gap quote body kind rest ih =>
    intro r hr
    rcases List.mem_cons.1 hr with rfl | hr
    · exact Nat.le_add_right _ _
    · exact ih r hr

theorem mergeSort_references (offset : Nat) :
    (L.references offset).mergeSort Reference.spanLe = L.references offset := by
  apply List.mergeSort_of_pairwise
  have hle := @start_le_stop_of_mem L offset
  have hlt := @pairwise_references L offset
  refine List.Pairwise.imp_of_mem ?_ hlt
  intro r s hr hs h
  have := hle r hr
  have := hle s hs
  simp only [Reference.spanLe, Bool.or_eq_true, Bool.and_eq_true, decide_eq_true_eq]
  omega

theorem spliceFrom_references {idFor : Reference → Option String} {f : Reference → String}
    {length offset : Nat} (hid : ∀ r ∈ L.references offset, idFor r = some (f r))
    (hlen : offset + byteLength L.text ≤ length) :
    spliceFrom idFor length offset L.text (L.references offset) = .ok (L.fill f offset).text := by
  induction L generalizing offset with
  | tail => rfl
  | slot gap quote body kind rest ih =>
    have hpos := lt_byteLength_quoted quote body
    simp only [text, byteLength_append] at hlen
    have hgap : (reference offset gap quote body kind).start - offset = byteLength gap := by
      simp [reference]
    have hquoted : (reference offset gap quote body kind).stop -
        (reference offset gap quote body kind).start = byteLength (quoted quote body) := by
      simp [reference]
    rw [references, text, spliceFrom, if_neg (by simp [reference]),
      if_neg (by simp [reference]; omega), hgap, cut?_append]
    dsimp only
    rw [hquoted, cut?_append]
    dsimp only
    rw [hid _ List.mem_cons_self]
    dsimp only
    rw [ih (fun r hr => hid r (List.mem_cons_of_mem _ hr)) (by simp only [reference]; omega)]
    simp [bind, Except.bind, pure, Except.pure, fill, text, quoteId, quoted]

theorem splice_references {text : String} {idFor : Reference → Option String}
    {f : Reference → String} (htext : L.text = text.toList)
    (hid : ∀ r ∈ L.references 0, idFor r = some (f r)) :
    splice text (L.references 0) idFor = .ok (String.ofList (L.fill f 0).text) := by
  rw [splice, ← htext, mergeSort_references, spliceFrom_references hid (by omega)]
  rfl

end Layout

end ImportAtlas
