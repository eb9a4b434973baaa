import ImportAtlas.Proofs.Text.Passage

namespace ImportAtlas.Text

/-- The text with a carriage return before each line feed. -/
def withReturns (cs : List Char) : List Char :=
  cs.flatMap fun c => if c = '\n' then ['\r', '\n'] else [c]

variable {A B k cs : List Char} {c : Char} {n : Nat} {p : Char → Bool}

@[simp] theorem withReturns_nil : withReturns [] = [] := rfl

@[simp] theorem withReturns_append : withReturns (A ++ B) = withReturns A ++ withReturns B :=
  List.flatMap_append

@[simp] theorem withReturns_feed : withReturns ('\n' :: k) = '\r' :: '\n' :: withReturns k := rfl

theorem withReturns_cons (hc : c ≠ '\n') : withReturns (c :: k) = c :: withReturns k := by
  rw [withReturns, List.flatMap_cons, if_neg hc]
  rfl

theorem withReturns_of_not_mem (h : '\n' ∉ A) : withReturns A = A := by
  induction A with
  | nil => rfl
  | cons c A ih =>
    rw [List.mem_cons, not_or] at h
    rw [withReturns_cons (Ne.symm h.1), ih h.2]

theorem withReturns_append_of_not_mem (h : '\n' ∉ A) : withReturns (A ++ k) = A ++ withReturns k := by
  rw [withReturns_append, withReturns_of_not_mem h]

theorem take_withReturns (h : '\n' ∉ cs.take n) : (withReturns cs).take n = cs.take n := by
  induction n generalizing cs with
  | zero => rfl
  | succ n ih =>
    cases cs with
    | nil => rfl
    | cons c cs =>
      rw [List.take_succ_cons, List.mem_cons, not_or] at h
      rw [withReturns_cons (Ne.symm h.1), List.take_succ_cons, List.take_succ_cons, ih h.2]

theorem length_withReturns_take (hn : n = A.length + B.length) :
    (withReturns ((A ++ (B ++ k)).take n)).length =
      (withReturns A).length + (withReturns B).length := by
  rw [← List.append_assoc, hn, ← List.length_append, List.take_left, withReturns_append,
    List.length_append]

theorem takeWhile_withReturns (hp : p '\r' = p '\n') :
    (withReturns cs).takeWhile p = withReturns (cs.takeWhile p) := by
  induction cs with
  | nil => rfl
  | cons c cs ih =>
    by_cases hc : c = '\n'
    · subst hc
      rw [withReturns_feed, List.takeWhile_cons, List.takeWhile_cons, List.takeWhile_cons, hp, ih]
      split <;> rfl
    · rw [withReturns_cons hc, List.takeWhile_cons, List.takeWhile_cons, ih]
      split
      · rw [withReturns_cons hc]
      · rfl

theorem dropWhile_withReturns (hp : p '\r' = p '\n') :
    (withReturns cs).dropWhile p = withReturns (cs.dropWhile p) := by
  refine List.append_cancel_left (?_ : (withReturns cs).takeWhile p ++ _ = _)
  rw [List.takeWhile_append_dropWhile, takeWhile_withReturns hp, ← withReturns_append,
    List.takeWhile_append_dropWhile]

section Reverse

theorem reverse_withReturns_feed : (withReturns ('\n' :: B).reverse).reverse =
    '\n' :: '\r' :: (withReturns B.reverse).reverse := by
  simp

theorem reverse_withReturns_cons (hc : c ≠ '\n') : (withReturns (c :: B).reverse).reverse =
    c :: (withReturns B.reverse).reverse := by
  simp [withReturns_cons hc]

theorem dropWhile_reverse_withReturns (hp : p '\r' = p '\n') :
    (withReturns B.reverse).reverse.dropWhile p = (withReturns (B.dropWhile p).reverse).reverse := by
  induction B with
  | nil => rfl
  | cons c B ih =>
    by_cases hc : c = '\n'
    · subst hc
      rw [reverse_withReturns_feed, List.dropWhile_cons, List.dropWhile_cons, List.dropWhile_cons,
        hp, ih]
      split
      · rfl
      · rw [reverse_withReturns_feed]
    · rw [reverse_withReturns_cons hc, List.dropWhile_cons, List.dropWhile_cons, ih]
      split
      · rfl
      · rw [reverse_withReturns_cons hc]

end Reverse

namespace Cursor

/-- The same place in the text with returns. -/
def withReturns (c : Cursor) : Cursor :=
  ⟨(Text.withReturns c.before.reverse).reverse, Text.withReturns c.rest⟩

variable {c d : Cursor}

@[simp] theorem rest_withReturns : c.withReturns.rest = Text.withReturns c.rest := rfl

theorem Passes.withReturns (h : c.Passes A d) :
    c.withReturns.Passes (Text.withReturns A) d.withReturns where
  rest_eq := by
    change Text.withReturns c.rest = _ ++ Text.withReturns d.rest
    rw [h.rest_eq, withReturns_append]
  before_eq := by
    change (Text.withReturns d.before.reverse).reverse =
      _ ++ (Text.withReturns c.before.reverse).reverse
    rw [h.before_eq, List.reverse_append, List.reverse_reverse, withReturns_append,
      List.reverse_append]

theorem advance_withReturns {n : Nat} (h : '\n' ∉ c.rest.take n) :
    c.withReturns.advance n = (c.advance n).withReturns := by
  have hp := (Passes.of_take c n).withReturns
  rw [withReturns_of_not_mem h, ← take_withReturns h] at hp
  exact (Passes.of_take c.withReturns n).unique hp

theorem withReturns_advance (c : Cursor) (n : Nat) :
    (c.advance n).withReturns = c.withReturns.advance (Text.withReturns (c.rest.take n)).length :=
  (Passes.of_take c n).withReturns.eq_advance

end Cursor

end ImportAtlas.Text
