import ImportAtlas.Proofs.Reference.Correspondence

namespace ImportAtlas

open Text Lexeme Outcome

def ScanFailure.shift (n : Nat) (e : ScanFailure) : ScanFailure := { e with offset := e.offset + n }

def Reference.shift (n : Nat) (r : Reference) : Reference :=
  { r with start := r.start + n, stop := r.stop + n }

abbrev EndAlike (B : List Char) {α β : Type} (R : α → β → Prop) :
    Except ScanFailure α → Except ScanFailure β → Prop :=
  Agree (fun e e' => e' = e.shift (byteLength B)) R

namespace Text.Cursor

/-- The same place in the text after `B`, the character nearest to it first. -/
def after (B : List Char) (c : Cursor) : Cursor := ⟨c.before ++ B, c.rest⟩

variable {B : List Char} {c : Cursor}

@[simp] theorem rest_after : (c.after B).rest = c.rest := rfl

theorem offset_after : (c.after B).offset = c.offset + byteLength B := byteLength_append _ _

@[simp] theorem advance_after (n : Nat) : (c.after B).advance n = (c.advance n).after B := by
  fun_induction advance n c with
  | case1 => rfl
  | case2 => rfl
  | case3 _ _ _ _ ih => exact ih

end Text.Cursor

/-- The same literal in the text after `B`. -/
def Literal.after (B : List Char) (l : Literal) : Literal := ⟨l.opening.after B, l.length⟩

namespace Literal

variable {B : List Char} {l : Literal}

theorem closing_after : (l.after B).closing = l.closing.after B := Cursor.advance_after _

theorem toReference_after (kind : ReferenceKind) :
    (l.after B).toReference kind = (l.toReference kind).shift (byteLength B) := by
  rw [toReference, closing_after, Cursor.offset_after, after, Cursor.offset_after]
  rfl

end Literal

namespace Text.Cursor

variable {α β : Type} {R : α → β → Prop} {B : List Char} {c : Cursor}

theorem fail_after (o : ScanObstruction) : EndAlike B R (c.fail o) ((c.after B).fail o) := by
  refine .error ?_
  rw [offset_after]
  rfl

theorem skipTrivia_after : EndAlike B (fun d d' => d' = d.after B) c.skipTrivia
    (c.after B).skipTrivia := by
  unfold skipTrivia
  rw [rest_after]
  split
  · exact .ok (advance_after _)
  · rw [advance_after]
    exact fail_after _

theorem literal_after : EndAlike B (fun l l' => l' = l.after B) c.literal (c.after B).literal := by
  unfold literal
  rw [rest_after]
  split
  · exact .ok rfl
  · exact fail_after _

end Text.Cursor

def relocation (B : List Char) : Correspondence where
  place c c' := c' = c.after B
  literal l l' := l' = l.after B
  failure e e' := e' = e.shift (byteLength B)
  broken _ := False
  fail := by
    rintro c _ o rfl
    rw [Cursor.offset_after]
    rfl
  head? := by
    rintro c _ rfl -
    rfl
  wordHere := by
    rintro c _ rfl -
    rfl
  advance_one := by
    rintro c _ rfl -
    exact Cursor.advance_after 1
  advance_word := by
    rintro c _ rfl -
    exact Cursor.advance_after _
  skipTrivia := by
    rintro c _ rfl
    exact .agree Cursor.skipTrivia_after
  string := by
    rintro c _ rfl -
    exact .agree Cursor.literal_after
  closing := by
    rintro l _ rfl
    exact Literal.closing_after
  chunk := by
    rintro c _ rfl
    rw [Cursor.rest_after]
    cases templateChunk? c.rest with
    | none => exact .none
    | some e => exact .some ⟨rfl, Cursor.advance_after _⟩
  template := by
    rintro c _ k k' rfl hr hr'
    obtain rfl : k = k' := List.tail_eq_of_cons_eq (hr.symm.trans hr')
    cases templateChunk? k with
    | none => exact .none
    | some e => exact .some ⟨rfl, fun _ => rfl⟩

theorem endAlike_of_ends {α β : Type} {R : α → β → Prop} {B : List Char}
    {x : Except ScanFailure α} {y : Except ScanFailure β} (h : (relocation B).Ends R x y) :
    EndAlike B R x y :=
  h.toAgree fun _ => id

namespace Text.Cursor

variable {B : List Char} {c : Cursor}

structure PointFree (B : List Char) : Prop where
  last : headIs (· = '.') B = false
  beforeBlanks : headIs (· = '.') (B.dropWhile isAsciiBlank) = false

theorem followsPoint_after (hB : PointFree B) : (c.after B).followsPoint = c.followsPoint := by
  rw [followsPoint_eq, followsPoint_eq]
  change (headIs _ ((c.before ++ B).dropWhile _) && !headIs _ ((c.before ++ B).dropWhile _).tail) =
    _
  rw [List.dropWhile_append]
  cases hb : c.before.dropWhile isAsciiBlank with
  | nil => simp [hB.beforeBlanks]
  | cons x k =>
    cases k with
    | nil => simp [hB.last]
    | cons y k => simp

end Text.Cursor

namespace ScanMode

def after (B : List Char) : ScanMode → ScanMode
  | .code => .code
  | .template opening => .template (opening.after B)

end ScanMode

structure LastToken.Alike (t t' : LastToken) : Prop where
  allowsRegex_eq : t'.allowsRegex = t.allowsRegex
  isWordAmong_eq (words : List String) : t'.isWordAmong words = t.isWordAmong words

namespace LastToken.Alike

theorem refl (t : LastToken) : t.Alike t := ⟨rfl, fun _ => rfl⟩

theorem beginning {c : Char} (hc : (c != ')' && c != ']') = true) :
    LastToken.none.Alike (.punctuation c) :=
  ⟨hc, fun _ => rfl⟩

end LastToken.Alike

inductive DepthsAlike (B : List Char) : Nat → List Substitution → Nat → List Substitution → Prop
  | outside {d d' : Nat} : DepthsAlike B d [] d' []
  | within {d e e' : Nat} {opening : Cursor} {outer outer' : List Substitution} :
      DepthsAlike B e outer e' outer' →
      DepthsAlike B d (⟨opening, e⟩ :: outer) d (⟨opening.after B, e'⟩ :: outer')

theorem DepthsAlike.openBrace {B : List Char} {d d' : Nat} {outer outer' : List Substitution}
    (h : DepthsAlike B d outer d' outer') : DepthsAlike B (d + 1) outer (d' + 1) outer' := by
  cases h with
  | outside => exact .outside
  | within h => exact .within h

theorem DepthsAlike.isEmpty_eq {B : List Char} {d d' : Nat} {outer outer' : List Substitution}
    (h : DepthsAlike B d outer d' outer') : outer'.isEmpty = outer.isEmpty := by
  cases h with
  | outside => rfl
  | within => rfl

namespace ScanState

structure Follows (B : List Char) (F : List Reference) (s s' : ScanState) : Prop where
  cursor : s'.cursor = s.cursor.after B
  mode : s'.mode = s.mode.after B
  last : s.last.Alike s'.last
  heads : ∃ outer, s'.heads = s.heads ++ outer ∧ true ∉ outer
  depths : DepthsAlike B s.depth s.substitutions s'.depth s'.substitutions
  found : s'.found = s.found.map (Reference.shift (byteLength B)) ++ F

namespace Follows

variable {B : List Char} {F : List Reference} {s s' : ScanState} {c start : Cursor} {x : Char}

theorem moveTo (h : Follows B F s s') (c : Cursor) (t : LastToken) :
    Follows B F (s.moveTo c t) (s'.moveTo (c.after B) t) :=
  { h with cursor := rfl, last := .refl _ }

theorem moveOver (h : Follows B F s s') (n : Nat) (t : LastToken) :
    Follows B F (s.moveTo (c.advance n) t) (s'.moveTo ((c.after B).advance n) t) :=
  Cursor.advance_after (B := B) (c := c) n ▸ h.moveTo _ t

theorem record (h : Follows B F s s') (kind : ReferenceKind) (l : Literal) :
    Follows B F (s.record kind l) (s'.record kind (l.after B)) where
  cursor := Literal.closing_after
  mode := h.mode
  last := .refl _
  heads := h.heads
  depths := h.depths
  found := by
    rw [ScanState.record, ScanState.record, h.found, Literal.toReference_after]
    rfl

theorem pushHead (h : Follows B F s s') (head : Bool) :
    Follows B F { s with heads := head :: s.heads } { s' with heads := head :: s'.heads } where
  cursor := h.cursor
  mode := h.mode
  last := h.last
  heads := by
    obtain ⟨outer, heq, hopen⟩ := h.heads
    exact ⟨outer, congrArg (head :: ·) heq, hopen⟩
  depths := h.depths
  found := h.found

theorem importWord (h : Follows B F s s') :
    EndAlike B (Follows B F) (s.importWord start) (s'.importWord (start.after B)) := by
  unfold ScanState.importWord
  rw [h.cursor]
  refine Cursor.skipTrivia_after.bind fun t _ _ htt => ?_
  subst htt
  rw [Cursor.rest_after]
  cases t.rest with
  | nil => exact .ok h
  | cons x rest =>
    refine .ite (fun _ => ?_) fun _ => .ite (fun _ => ?_) fun _ => .ite (fun _ => ?_) fun _ => .ok h
    · have hcall := (h.moveOver (c := t) 1 (.punctuation '(')).pushHead false
      dsimp only
      rw [Cursor.advance_after] at hcall ⊢
      refine (endAlike_of_ends (Correspondence.dynamicArgument rfl)).bind fun o o' _ hoo => ?_
      cases hoo with
      | none => exact .ok hcall
      | @some l l' hll =>
        obtain rfl : l' = l.after B := hll
        exact .ok (hcall.record .dynamic l)
    · refine Cursor.literal_after.bind fun l _ _ hll => ?_
      subst hll
      exact .ok (h.record .declaration l)
    · have hclause := Correspondence.importClause (K := relocation B)
        (Correspondence.failAlike (c := start) rfl) (c := t) rfl
      refine (endAlike_of_ends hclause).bind fun l l' _ hll => ?_
      obtain rfl : l' = l.after B := hll
      exact .ok (h.record .declaration l)

theorem exportWord (h : Follows B F s s') :
    EndAlike B (Follows B F) (s.exportWord start) (s'.exportWord (start.after B)) := by
  have hstart := Correspondence.failAlike (K := relocation B) (c := start) rfl
  have hfrom (d : Cursor) : EndAlike B (Follows B F)
      (Cursor.fromClause start d >>= fun l => .ok (s.record .reExport l))
      (Cursor.fromClause (start.after B) (d.after B) >>= fun l => .ok (s'.record .reExport l)) := by
    refine (endAlike_of_ends (Correspondence.fromClause hstart rfl)).bind fun l l' _ hll => ?_
    obtain rfl : l' = l.after B := hll
    exact .ok (h.record .reExport l)
  unfold ScanState.exportWord
  rw [h.cursor]
  refine Cursor.skipTrivia_after.bind fun t₀ _ ht₀ htt₀ => ?_
  subst htt₀
  have hword := Correspondence.skipWord (K := relocation B) (c := t₀) rfl
    (Cursor.startsTrivia_of_skipTrivia ht₀)
  refine (endAlike_of_ends (hword _)).bind fun t t' _ htt => ?_
  obtain rfl : t' = t.after B := htt
  rw [Cursor.rest_after]
  split
  · rw [Cursor.advance_after]
    refine Cursor.skipTrivia_after.bind fun u _ hu huu => ?_
    subst huu
    have hname := Correspondence.exportName hstart (c := u) rfl (Cursor.startsTrivia_of_skipTrivia hu)
    refine (endAlike_of_ends hname).bind fun v v' _ hvv => ?_
    obtain rfl : v' = v.after B := hvv
    exact hfrom v
  · rw [Cursor.advance_after]
    have hend := Correspondence.exportClauseEnd hstart (c := t.advance 1) rfl
    refine (endAlike_of_ends hend).bind fun d d' _ hdd => ?_
    obtain rfl : d' = d.after B := hdd
    refine Cursor.skipTrivia_after.bind fun u _ _ huu => ?_
    subst huu
    exact .ite (fun _ => hfrom d) fun _ => .ok (h.moveTo d _)
  · exact .ok h

theorem requireWord {before before' : LastToken} (h : Follows B F s s')
    (hbefore : before.Alike before') : EndAlike B (Follows B F) (s.requireWord start before)
      (s'.requireWord (start.after B) before') := by
  unfold ScanState.requireWord
  rw [h.cursor, hbefore.isWordAmong_eq]
  refine Cursor.skipTrivia_after.bind fun t _ _ htt => ?_
  subst htt
  exact .ite (fun _ => Cursor.fail_after _) fun _ => .ok h

theorem wordToken (hB : Cursor.PointFree B) (h : Follows B F s s') :
    EndAlike B (Follows B F) (s.wordToken c) (s'.wordToken (c.after B)) := by
  have hafter := h.moveOver (c := c) (word c.rest).length (.word (word c.rest))
  unfold ScanState.wordToken
  rw [Cursor.followsPoint_after hB, Cursor.rest_after]
  exact .ite (fun _ => .ok hafter) fun _ => .ite (fun _ => hafter.importWord) fun _ =>
    .ite (fun _ => hafter.exportWord) fun _ => .ite (fun _ => hafter.requireWord h.last) fun _ =>
    .ok hafter

theorem slashToken (h : Follows B F s s') :
    Follows B F (s.slashToken c) (s'.slashToken (c.after B)) := by
  unfold ScanState.slashToken
  rw [h.last.allowsRegex_eq, Cursor.rest_after]
  split
  · exact h.moveOver _ _
  · exact h.moveOver _ _

theorem closeBrace (h : Follows B F s s') :
    Follows B F (s.closeBrace c) (s'.closeBrace (c.after B)) := by
  have hone := h.moveOver (c := c) 1 (.punctuation '\x7d')
  have hdepths := h.depths
  cases hs : s.substitutions with
  | nil =>
    rw [hs] at hdepths
    generalize hs' : s'.substitutions = outer at hdepths
    cases hdepths
    rw [closeBrace_of_nil hs, closeBrace_of_nil hs']
    refine { hone with depths := ?_ }
    change DepthsAlike B _ s.substitutions _ s'.substitutions
    rw [hs, hs']
    exact .outside
  | cons t outer =>
    rw [hs] at hdepths
    generalize hs' : s'.substitutions = outer', hd' : s'.depth = d' at hdepths
    cases hdepths with
    | within hout =>
      have hdepths (d : Nat) : DepthsAlike B d s.substitutions d s'.substitutions :=
        hs ▸ hs' ▸ .within hout
      unfold ScanState.closeBrace
      rw [hd']
      cases s.depth with
      | zero =>
        rw [hs, hs']
        exact { h with cursor := hone.cursor, mode := rfl, depths := hout }
      | succ d => exact { hone with depths := hdepths d }

theorem closeParenthesis (h : Follows B F s s') :
    Follows B F (s.closeParenthesis c) (s'.closeParenthesis (c.after B)) := by
  have hmove (t : LastToken) := h.moveOver (c := c) 1 t
  obtain ⟨outer, heq, hopen⟩ := h.heads
  have hhead : s'.heads.head?.getD false = s.heads.head?.getD false := by
    rw [heq]
    cases s.heads with
    | cons => rfl
    | nil =>
      cases outer with
      | nil => rfl
      | cons head outer => simp_all
  have htail : ∃ outer', s'.heads.tail = s.heads.tail ++ outer' ∧ true ∉ outer' := by
    rw [heq]
    cases s.heads with
    | cons head heads => exact ⟨outer, rfl, hopen⟩
    | nil => exact ⟨outer.tail, rfl, fun h => hopen (List.mem_of_mem_tail h)⟩
  unfold ScanState.closeParenthesis
  rw [hhead]
  exact { hmove _ with heads := htail }

theorem token (hB : Cursor.PointFree B) (h : Follows B F s s') :
    EndAlike B (Follows B F) (s.token x c) (s'.token x (c.after B)) := by
  have one (t : LastToken) := h.moveOver (c := c) 1 t
  refine .ite (fun _ => .ok h.slashToken) fun _ => .ite (fun _ => ?_) fun _ =>
    .ite (fun _ => .ok ?_) fun _ => .ite (fun _ => .ok ?_) fun _ =>
    .ite (fun _ => .ok h.closeBrace) fun _ => .ite (fun _ => .ok (h.moveOver _ _)) fun _ =>
    .ite (fun _ => .ok ?_) fun _ => .ite (fun _ => .ok h.closeParenthesis) fun _ =>
    .ite (fun _ => h.wordToken hB) fun _ => .ok (one _)
  · refine Cursor.literal_after.bind fun l _ _ hll => ?_
    subst hll
    exact .ok (Literal.closing_after (B := B) (l := l) ▸ h.moveTo _ _)
  · exact { h with cursor := (one .none).cursor, mode := rfl }
  · exact { one _ with depths := h.depths.openBrace }
  · rw [h.last.isWordAmong_eq]
    exact (one _).pushHead _

theorem templateText (h : Follows B F s s') (opening : Cursor) :
    EndAlike B (Follows B F) (s.templateText opening) (s'.templateText (opening.after B)) := by
  have hmove (n : Nat) (t : LastToken) := h.moveOver (c := s.cursor) n t
  unfold ScanState.templateText
  rw [h.cursor, Cursor.rest_after]
  split
  · exact Cursor.fail_after _
  · exact .ok { hmove _ _ with mode := rfl }
  · exact .ok { hmove _ _ with mode := rfl, depths := .within h.depths }

theorem step (hB : Cursor.PointFree B) (h : Follows B F s s') :
    EndAlike B (Option.Rel (Follows B F)) s.step s'.step := by
  have hmode := h.mode
  cases hm : s.mode with
  | template opening =>
    rw [hm] at hmode
    rw [step_template hm, step_template hmode]
    exact (h.templateText opening).map fun _ _ h => .some h
  | code =>
    rw [hm] at hmode
    rw [step_code hm, step_code hmode, h.cursor, h.depths.isEmpty_eq]
    refine Cursor.skipTrivia_after.bind fun t _ _ htt => ?_
    subst htt
    rw [Cursor.rest_after]
    cases t.rest with
    | nil => exact .ite (fun _ => .ok .none) fun _ => Cursor.fail_after _
    | cons x rest => exact (h.token hB).map fun _ _ h => .some h

theorem run (hB : Cursor.PointFree B) (h : Follows B F s s') :
    EndAlike B (fun found found' =>
      found' = F.reverse ++ found.map (Reference.shift (byteLength B))) s.run s'.run := by
  refine run_agree (R := Follows B F) (fun s s' h => ?_) (fun s s' h => ?_) h
  · refine (h.step hB).mono fun o o' hoo => ?_
    cases hoo with
    | none => exact .none
    | some h => exact .some fun _ => h
  · rw [h.found, List.reverse_append, List.map_reverse]

end Follows

end ScanState

end ImportAtlas
