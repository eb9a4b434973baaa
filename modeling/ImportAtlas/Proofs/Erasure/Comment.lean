import ImportAtlas.Proofs.Erasure.Place
import ImportAtlas.Proofs.Reference.Lockstep
import ImportAtlas.Proofs.Reference.Steps

namespace ImportAtlas

open Text Lexeme Outcome Erasure

namespace ScanState

variable {s s' s₂ : ScanState} {c d t p q : Cursor} {A B T : List Char}

structure StandsBefore (s : ScanState) (c : Cursor) : Prop where
  mode : s.mode = .code
  trivia : ∃ T, Trivia T ∧ s.cursor.Passes T c

theorem StandsBefore.skipTrivia_eq (h : s.StandsBefore c) :
    s.cursor.skipTrivia = c.skipTrivia := by
  obtain ⟨T, hT, hp⟩ := h.trivia
  exact Cursor.skipTrivia_past hp hT

/-- What is erased from `c` to `d` is a comment of its own to the scan that goes on from
the state: one that stands between two tokens, ends where it is taken to end, and is not
looked at where the scanner looks back for a point or ahead for a body. -/
structure Detached (s : ScanState) (E : List Char) (c d : Cursor) : Prop where
  between : ∃ s', Relation.ReflTransGen Next s s' ∧ s'.StandsBefore c
  comment : Trivia E ∨ TriviaBefore d.rest E
  points : d.rest ≠ [] → d.followsPoint = c.followsPoint
  escapes : ∀ B, c.before ≠ '\n' :: '\\' :: B
  quiet : requireName <:+: s.cursor.rest → Quiet E

/-- All that is erased from the state on is detached. -/
def Detaches (rest? : List Char → Option (List Char)) (s : ScanState) : Prop :=
  ∀ E c d, s.cursor.Reaches c → Erases rest? E c d → s.Detached E c d

variable {rest? : List Char → Option (List Char)} {x : Char} {rest E : List Char}

theorem StandsBefore.eq_of_reaches (h : s.StandsBefore c) (ht : s.cursor.skipTrivia = .ok t)
    (hc : t.Reaches c) : c = t := by
  rw [h.skipTrivia_eq] at ht
  exact (hc.antisymm (.of_skipTrivia ht)).symm

theorem StandsBefore.lt_length (h : s.StandsBefore c) (hs : Next s s') :
    s'.cursor.rest.length < c.rest.length := by
  obtain ⟨t, x, rest, ht, hr, hs'⟩ := hs.exists_token h.mode
  rw [h.skipTrivia_eq] at ht
  exact Nat.lt_of_lt_of_le (length_lt_of_token (by simp [hr]) hs')
    (Cursor.Reaches.of_skipTrivia ht).length_le

theorem Detaches.of_ownLine (hs : Relation.ReflTransGen Next s s') (hm : s'.mode = .code)
    (htrivia : Trivia E)
    (hplaces : s'.cursor.Passes ['\n'] p ∧ Erases rest? E p q ∧
      q.followsPoint = p.followsPoint ∧ headIs (· = '\\') s'.cursor.before = false ∧ Quiet E)
    (honly : ∀ n ≤ s.cursor.rest.length, (s.cursor.advance n).startsLine = true →
      (rest? (s.cursor.advance n).rest).isSome = true → s.cursor.advance n = p) :
    s.Detaches rest? := by
  obtain ⟨hline, hE, hpoint, hescape, hquiet⟩ := hplaces
  intro E' c d hc hE'
  obtain ⟨A, hA⟩ := Cursor.Passes.of_reaches hc
  obtain rfl : c = p := by
    have honly := honly A.length (by simp [hA.rest_eq])
    rw [← hA.eq_advance] at honly
    exact honly hE'.startsLine (by rw [hE'.rest_eq]; rfl)
  have hrest : d.rest = q.rest := Option.some.inj (hE'.rest_eq.symm.trans hE.rest_eq)
  have hpasses := hE'.passes.rest_eq.symm.trans hE.passes.rest_eq
  rw [hrest] at hpasses
  obtain rfl := List.append_cancel_right hpasses
  obtain rfl := hE'.passes.unique hE.passes
  refine ⟨⟨s', hs, hm, ['\n'], .blank (by decide) .nil, hline⟩, .inl htrivia, fun _ => hpoint,
    fun B hB => ?_, fun _ => hquiet⟩
  rw [hline.before_eq] at hB
  have hlast : s'.cursor.before = '\\' :: B := (List.cons.inj hB).2
  rw [hlast] at hescape
  contradiction

theorem Detached.skipTrivia_eq (h : s.Detached E c d) (hp : c.Passes E d) :
    c.skipTrivia = d.skipTrivia := by
  rcases h.comment with h | h
  · exact Cursor.skipTrivia_past hp h
  · exact (Cursor.skipTrivia_of_passes hp h).trans (Cursor.skipTrivia_self h.startsTrivia).symm

theorem Detaches.stays (h : s.Detaches rest?) (hslash : OpensWithSlash rest?)
    (hc : s.cursor.Reaches c) (hstart : startsTrivia c.rest = false) : Stays rest? c := by
  intro E d hE
  have hskip := (h E c d hc hE).skipTrivia_eq hE.passes
  rw [Cursor.skipTrivia_self hstart] at hskip
  obtain rfl := hE.passes.reaches.antisymm (.of_skipTrivia hskip.symm)
  exact hE.ne_nil hslash (hE.passes.text_unique (.refl c))

theorem Detaches.spares (h : s.Detaches rest?) (hslash : OpensWithSlash rest?)
    (hstart : s.mode = .code → startsTrivia s.cursor.rest = false) (hs : Next s s')
    (hp : s.cursor.Passes A s'.cursor) : Spares rest? s.cursor A := by
  rintro B C c rfl hC hB E d hE
  obtain ⟨s₂, hs₂, hbefore⟩ := (h E c d hB.reaches hE).between
  rcases hs₂.cases_head with rfl | ⟨_, hs', hs₂⟩
  · -- the token itself begins there
    have hskip := Cursor.skipTrivia_self (hstart hbefore.mode)
    obtain rfl := hbefore.eq_of_reaches hskip hB.reaches
    exact h.stays hslash (.refl _) (hstart hbefore.mode) E d hE
  · -- the scanner has passed the place when the token ends
    obtain rfl := rightUnique_next hs hs'
    obtain ⟨T, -, hT⟩ := hbefore.trivia
    obtain ⟨c', hc', hend⟩ := hp.split
    obtain rfl := hc'.unique hB
    have hlt := List.length_pos_iff.2 hC
    have hlen := ((reaches_of_reaches hs₂).trans hT.reaches).length_le
    rw [hend.rest_eq, List.length_append] at hlen
    omega

theorem Detaches.next (h : s.Detaches rest?) (hs : Next s s') : s'.Detaches rest? := by
  intro E c d hc hE
  have hdetached := h E c d (hs.reaches.trans hc) hE
  refine { hdetached with
    between := ?_, quiet := fun h => hdetached.quiet (h.trans hs.reaches.isSuffix.isInfix) }
  obtain ⟨s₂, hs₂, hbefore⟩ := hdetached.between
  rcases hs₂.cases_head with rfl | ⟨_, hs', hs₂⟩
  · exact absurd hc.length_le (Nat.not_le.2 (hbefore.lt_length hs))
  · exact ⟨s₂, rightUnique_next hs hs' ▸ hs₂, hbefore⟩

theorem Detaches.withCursor (h : s.Detaches rest?) (hm : s.mode = .code)
    (ht : s.cursor.skipTrivia = .ok t) : ({ s with cursor := t } : ScanState).Detaches rest? := by
  intro E c d hc hE
  have hreach := Cursor.Reaches.of_skipTrivia ht
  have hdetached := h E c d (hreach.trans hc) hE
  refine { hdetached with
    between := ?_, quiet := fun h => hdetached.quiet (h.trans hreach.isSuffix.isInfix) }
  obtain ⟨s₂, hs₂, hbefore⟩ := hdetached.between
  rcases hs₂.cases_head with rfl | ⟨s', hs', hs₂⟩
  · obtain rfl := hbefore.eq_of_reaches ht hc
    exact ⟨_, .refl, hm, [], .nil, .refl _⟩
  · obtain ⟨_, x, rest, ht', hr, htoken⟩ := hs'.exists_token hm
    obtain rfl := Except.ok.inj (ht.symm.trans ht')
    have hskip := Cursor.skipTrivia_self (Cursor.startsTrivia_of_skipTrivia ht)
    exact ⟨s₂, .head (next_of_token hm hskip hr htoken) hs₂, hbefore⟩

theorem Detaches.standsBefore (h : s.Detaches rest?) (hm : s.mode = .code)
    (ht : s.cursor.skipTrivia = .ok t) (hc : s.cursor.Reaches c) (hE : Erases rest? E c d)
    (hlt : t.rest.length < c.rest.length) : s.StandsBefore c := by
  obtain ⟨s₂, hs₂, hbefore⟩ := (h E c d hc hE).between
  rcases hs₂.cases_head with rfl | ⟨s', hs', hs₂⟩
  · exact hbefore
  · obtain ⟨_, x, rest, ht', hr, htoken⟩ := hs'.exists_token hm
    obtain rfl := Except.ok.inj (ht.symm.trans ht')
    obtain ⟨T, -, hT⟩ := hbefore.trivia
    have hlen := ((reaches_of_reaches hs₂).trans hT.reaches).length_le
    have := length_lt_of_token (by simp [hr]) htoken
    omega

theorem Detached.pointsAlike (h : s.Detached E c d) (hE : E ≠ []) (hc : c.startsLine = true)
    (hp : c.Passes E d) {c' : Cursor} (hpoints : c.PointsAlike c') : d.PointsAlike c' := by
  have hne (hd : d.rest ≠ []) : c.rest ≠ [] := by simp [hp.rest_eq, hd]
  refine ⟨fun hd => ?_, fun hd => (hpoints.same (hne hd)).trans (h.points hd).symm⟩
  rw [hpoints.last (hne hd), hp.before_eq, headIs_append_of_ne_nil (by simpa using hE)]
  have htrivia : Trivia E := by
    rcases h.comment with h | h
    · exact h
    · cases h with
      | closed h => exact h
      | ended hnil => exact absurd hnil hd
  have hblank (x : Char) (hx : isBlank x = true) : decide (x = '.') = false := by
    refine decide_eq_false ?_
    rintro rfl
    exact absurd hx (by decide)
  rw [htrivia.headIs_reverse (by decide) hblank]
  cases hb : c.before with
  | nil => rfl
  | cons x B =>
    rw [Cursor.startsLine, hb] at hc
    have hx : x = '\n' := by simpa using hc
    rw [hx]
    rfl

theorem Detaches.exists_skipTrivia (h : s.Detaches rest?) (hslash : OpensWithSlash rest?)
    (hm : s.mode = .code) (ht : s.cursor.skipTrivia = .ok t) (hp : s.cursor.Passes T c)
    (hT : Trivia T) (hd : d.rest = remains rest? c) (hpoints : c.PointsAlike d) :
    ∃ e, d.skipTrivia = .ok e ∧ e.rest = remains rest? t ∧ t.PointsAlike e := by
  induction hn : c.rest.length using Nat.strong_induction_on generalizing c d T with
  | h n ih =>
    subst hn
    have hskip : c.skipTrivia = .ok t := (Cursor.skipTrivia_past hp hT).symm.trans ht
    obtain ⟨U, hU, hbefore⟩ := Cursor.skipTrivia_eq_ok.1 hskip
    rcases exists_first rest? hU with hspares | ⟨B, C, E, p, q, rfl, hC, hB, hE, hspares⟩
    · rw [remains_append hslash hspares hU] at hd
      obtain ⟨e, he, hrest⟩ := Cursor.exists_passes hd
      refine ⟨e, Cursor.skipTrivia_of_passes he ?_, hrest, hpoints.passes hU he⟩
      rw [hrest]
      cases hbefore with
      | closed hA hstart =>
        have hreach := Cursor.Reaches.of_skipTrivia ht
        exact .closed hA (startsTrivia_remains hslash hstart (h.stays hslash hreach hstart))
      | ended hnil hA htext => exact .ended (remains_of_nil hnil) hA htext
    · have hpB := hp.trans hB
      have hdetached := h E p q hpB.reaches hE
      have hlt : t.rest.length < p.rest.length := by
        obtain ⟨p', hp', hend⟩ := hU.split
        obtain rfl := hp'.unique hB
        have := List.length_pos_iff.2 hC
        rw [hend.rest_eq, List.length_append]
        omega
      -- what stands before the comment is trivia, too, so that both scans come to it
      obtain ⟨T', hT', hp'⟩ := (h.standsBefore hm ht hpB.reaches hE hlt).trivia
      obtain rfl := hp'.text_unique hpB
      have hBT := hT'.of_append hT
      rw [remains_append hslash hspares hB, hE.remains_eq hslash] at hd
      obtain ⟨d', hd', hrest⟩ := Cursor.exists_passes hd
      have hpoints' := hdetached.pointsAlike (hE.ne_nil hslash) hE.startsLine hE.passes
        (hpoints.passes hB hd')
      rw [Cursor.skipTrivia_past hd' hBT]
      have hq : q.skipTrivia = .ok t := by
        rw [← hdetached.skipTrivia_eq hE.passes, ← hskip, Cursor.skipTrivia_past hB hBT]
      rcases hdetached.comment with hcomment | hcomment
      · have hlen : q.rest.length < c.rest.length := by
          have := List.length_pos_iff.2 (hE.ne_nil hslash)
          rw [hB.rest_eq, hE.passes.rest_eq, List.length_append, List.length_append]
          omega
        exact ih _ hlen (hpB.trans hE.passes) (hT'.append hcomment) hrest hpoints' rfl
      · have hstart := hcomment.startsTrivia
        rw [Cursor.skipTrivia_self hstart] at hq
        cases hq
        have hstays := h.stays hslash (Cursor.Reaches.of_skipTrivia ht) hstart
        refine ⟨d', Cursor.skipTrivia_self ?_, hrest, hpoints'⟩
        rw [hrest]
        exact startsTrivia_remains hslash hstart hstays

end ScanState

end ImportAtlas
