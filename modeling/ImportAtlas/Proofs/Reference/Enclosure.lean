import Mathlib.Logic.Function.Iterate
import ImportAtlas.Proofs.Reference.Braces
import ImportAtlas.Proofs.Reference.Crossing

namespace ImportAtlas

open Text Lexeme Outcome

namespace ScanState

variable {s s' s₁ z f : ScanState} {c d : Cursor} {B T x : List Char} {t : Substitution}
  {outer : List Substitution} {n : Int}

section Relocation

theorem Follows.next (h : Follows B [] s z) (hB : Cursor.PointFree B) (hs : Next s s₁) :
    ∃ z₁, Next z z₁ ∧ Follows B [] s₁ z₁ := by
  have hstep := h.step hB
  rw [Next] at hs
  rw [hs] at hstep
  generalize hz : z.step = r at hstep
  cases hstep with
  | ok hsome =>
    cases hsome with
    | some h => exact ⟨_, hz, h⟩

theorem Follows.braces_eq (h : Follows B [] s z) (hs : Next s s₁) : z.braces = s.braces := by
  have hmode := h.mode
  cases hm : s.mode with
  | template opening =>
    rw [hm] at hmode
    rw [braces_of_template hm, braces_of_template hmode]
  | code =>
    rw [hm] at hmode
    obtain ⟨t, a, rest, ht, hr, -⟩ := hs.exists_token hm
    have hskip := Cursor.skipTrivia_after (B := B) (c := s.cursor)
    rw [ht, ← h.cursor] at hskip
    generalize hz : z.cursor.skipTrivia = r at hskip
    cases hskip with
    | ok heq =>
      subst heq
      have hnone : z.substitutions = [] ↔ s.substitutions = [] := by
        rw [← List.isEmpty_iff, ← List.isEmpty_iff, h.depths.isEmpty_eq]
      rw [braces_of_code hm ht hr, braces_of_code hmode hz hr]
      simp only [hnone]

theorem Extensible.braces_eq (h : Extensible x f s) (hs : Next s s₁) :
    (s.extend x).braces = s.braces := by
  cases hm : s.mode with
  | template opening =>
    have hm' : (s.extend x).mode = .template (opening.extend x) := by rw [extend, hm]; rfl
    rw [braces_of_template hm, braces_of_template hm']
  | code =>
    obtain ⟨t, a, rest, ht, hr, -⟩ := hs.exists_token hm
    have hm' : (s.extend x).mode = .code := by rw [extend, hm]; rfl
    have hx := Cursor.apart_of_reaches (.of_skipTrivia ht) h.apart
    have ht' : (s.extend x).cursor.skipTrivia = .ok (t.extend x) :=
      Cursor.skipTrivia_extend ht (by simp [hr]) hx
    have hr' : (t.extend x).rest = a :: (rest ++ x) := by
      rw [Cursor.rest_extend, hr, List.cons_append]
    rw [braces_of_code hm ht hr, braces_of_code hm' ht' hr']
    simp only [extend, List.map_eq_nil_iff]

theorem exists_reaches_enclose (outer : List Substitution) (hB : Cursor.PointFree B)
    (hE : Extensible x f s) (hn : s.Balances n) (hz : Follows B [] (s.extend x) z)
    (hd : (z.outerDepth : Int) = n) :
    ∃ g, Relation.ReflTransGen Next (z.enclose outer) (g.enclose outer) ∧
      Follows B [] (f.extend x) g ∧ g.outerDepth = 0 := by
  have hends := hE.ends
  induction hends using Relation.ReflTransGen.head_induction_on generalizing z n with
  | refl =>
    have hzero := hn.eq_zero hE.final
    exact ⟨z, .refl, hz, by omega⟩
  | @head s s₁ hs _ ih =>
    obtain ⟨z₁, hz₁, hfollows⟩ := hz.next hB (hE.next_extend hs)
    have hbraces : z.braces = s.braces :=
      (hz.braces_eq (hE.next_extend hs)).trans (hE.braces_eq hs)
    have hnext := hn.next hs
    have hpos : 0 ≤ (z.outerDepth : Int) + z.braces := by
      rw [hd, hbraces]
      exact hnext.nonneg
    obtain ⟨g, hreach, hg, hzero⟩ := ih (hE.next hs) hnext hfollows
      (by rw [hz₁.outerDepth_eq hpos, hd, hbraces])
    exact ⟨g, .head (hz₁.enclose hpos) hreach, hg, hzero⟩

end Relocation

section Templates

def opens (n : Nat) : List Char := (List.replicate n ['\x60', '$', '\x7b']).flatten

def closes (n : Nat) : List Char := (List.replicate n ['\n', '\x7d', '\x60']).flatten

theorem opens_succ (n : Nat) : opens (n + 1) = ['\x60', '$', '\x7b'] ++ opens n := by
  simp [opens, List.replicate_succ]

theorem closes_succ (n : Nat) : closes (n + 1) = ['\n'] ++ (['\x7d', '\x60'] ++ closes n) := by
  simp [closes, List.replicate_succ]

theorem closes_succ_last (n : Nat) : closes (n + 1) = closes n ++ ['\n', '\x7d', '\x60'] := by
  simp [closes, List.replicate_succ']

theorem run_open (hm : s.mode = .code) (hd : s.depth = 0)
    (hp : s.cursor.Passes ['\x60', '$', '\x7b'] d) :
    s.run = { s.moveTo d (.punctuation '\x7b') with
      substitutions := ⟨s.cursor, 0⟩ :: s.substitutions }.run := by
  have hr : s.cursor.rest = '\x60' :: '$' :: '\x7b' :: d.rest := hp.rest_eq
  have hrest : (s.cursor.advance 1).rest = '$' :: '\x7b' :: d.rest := by
    rw [Cursor.rest_advance, hr]
    rfl
  have hchunk : templateChunk? (s.cursor.advance 1).rest = some (.substitution, 2) := by
    rw [hrest]
    rfl
  have hadvance : (s.cursor.advance 1).advance 2 = d := by
    rw [hp.eq_advance]
    exact Cursor.advance_advance 1 2 _
  rw [run_of_token hm hr rfl (token_of_step (.template rfl)),
    run_of_step (next_of_text (s := { s with cursor := s.cursor.advance 1, mode := _ }) rfl hchunk)]
  simp only [afterText, ScanState.moveTo, hadvance, hd, hm]

theorem run_opens (k : Nat) (hm : s.mode = .code) (hd : s.depth = 0)
    (hp : s.cursor.Passes (opens (k + 1)) d) :
    ∃ outer : List Substitution, outer.length = k + 1 ∧ (∀ t ∈ outer, t.depth = 0) ∧
      s.run = { s.moveTo d (.punctuation '\x7b') with
        substitutions := outer ++ s.substitutions }.run := by
  induction k generalizing s with
  | zero => exact ⟨[⟨s.cursor, 0⟩], rfl, by simp, run_open hm hd hp⟩
  | succ k ih =>
    rw [opens_succ] at hp
    obtain ⟨e, he, hp⟩ := hp.split
    obtain ⟨outer, hlength, hall, hrun⟩ := ih (s := { s.moveTo e (.punctuation '\x7b') with
      substitutions := ⟨s.cursor, 0⟩ :: s.substitutions }) hm hd hp
    refine ⟨outer ++ [⟨s.cursor, 0⟩], by simp [hlength], ?_, ?_⟩
    · intro t ht
      rcases List.mem_append.1 ht with ht | ht
      · exact hall t ht
      · rw [List.mem_singleton.1 ht]
    · rw [run_open hm hd he, hrun]
      simp [ScanState.moveTo]

theorem run_close (hm : s.mode = .code) (hd : s.depth = 0) (hs : s.substitutions = t :: outer)
    (ht : t.depth = 0) (hT : Trivia T) (hp : s.cursor.Passes (T ++ ['\x7d', '\x60']) d) :
    s.run = { s.moveTo d .value with substitutions := outer }.run := by
  obtain ⟨c, hc, hp⟩ := hp.split
  have hr : c.rest = '\x7d' :: '\x60' :: d.rest := hp.rest_eq
  have hclose : closeBrace c { s with cursor := c } =
      { s with cursor := c.advance 1, mode := .template t.opening, substitutions := outer } := by
    unfold closeBrace
    simp only [hd, hs, ht]
  have hchunk : templateChunk? (c.advance 1).rest = some (.closed, 1) := by
    rw [Cursor.rest_advance, hr]
    rfl
  have hadvance : (c.advance 1).advance 1 = d := by
    rw [hp.eq_advance]
    exact Cursor.advance_advance 1 1 _
  rw [run_past_trivia hm hc hT, run_of_token (s := { s with cursor := c }) hm hr rfl
    (token_of_step (.closeBrace rfl)), hclose,
    run_of_step (next_of_text (s := { s with cursor := c.advance 1, mode := _, substitutions := _ })
      rfl hchunk)]
  simp only [afterText, ScanState.moveTo, hadvance, hm]

theorem run_closes (k : Nat) (hm : s.mode = .code) (hd : s.depth = 0)
    (hlength : s.substitutions.length = k) (hall : ∀ t ∈ s.substitutions, t.depth = 0)
    (hr : s.cursor.rest = closes k) : s.run = .ok s.found.reverse := by
  induction k generalizing s with
  | zero =>
    have hnone := List.length_eq_zero_iff.1 hlength
    refine run_of_end ?_
    rw [step_code hm, Cursor.skipTrivia_self (by rw [hr]; rfl), ok_bind, hr, hnone]
    rfl
  | succ k ih =>
    obtain ⟨t, outer, hs⟩ := List.exists_cons_of_length_eq_add_one hlength
    rw [hs] at hall hlength
    rw [closes_succ, ← List.append_assoc] at hr
    obtain ⟨d, hp, hd'⟩ := Cursor.exists_passes hr
    rw [run_close hm hd hs (hall t List.mem_cons_self) (.blank (by decide) .nil) hp]
    exact ih hm hd (Nat.succ.inj hlength) (fun u hu => hall u (List.mem_cons_of_mem t hu)) hd'

theorem not_mem_closes (k : Nat) : '/' ∉ closes k := by
  simp [closes, List.mem_flatten, List.mem_replicate]

theorem extensible_closes (k : Nat) (hs : Relation.ReflTransGen Next s f)
    (h : f.step = .ok none) : Extensible (closes (k + 1)) f s where
  ends := hs
  final := h
  admits := {
    value := fun _ _ => by rw [closes_succ]; rfl
    ahead := by
      obtain ⟨-, -, hT⟩ := of_end h
      refine ⟨f.cursor.rest ++ ['\n'], ['\x7d', '\x60'] ++ closes k, ?_, hT.line, rfl, rfl,
        fun _ => rfl⟩
      rw [closes_succ, List.append_assoc] }
  apart := .inr (by rw [closes_succ]; rfl)
  slashes := by
    intro s' _ _ _ t rest _ hr hn
    rw [hr] at hn ⊢
    exact regex?_append_of_not_mem (not_mem_closes _) hn

end Templates

end ScanState

/-- The text in a substitution of a template, whose end stands on a line of its own. -/
def wrap (e : String) : String := "\x60$\x7b" ++ e ++ "\n\x7d\x60"

theorem toList_wrap (e : String) (n : Nat) :
    (wrap^[n] e).toList = ScanState.opens n ++ (e.toList ++ ScanState.closes n) := by
  induction n with
  | zero => simp [ScanState.opens, ScanState.closes]
  | succ n ih =>
    rw [Function.iterate_succ_apply', wrap, String.toList_append, String.toList_append, ih,
      ScanState.opens_succ, ScanState.closes_succ_last]
    simp

theorem byteLength_opens (n : Nat) : byteLength (ScanState.opens n) = 3 * n := by
  induction n with
  | zero => rfl
  | succ n ih =>
    have hthree : byteLength ['\x60', '$', '\x7b'] = 3 := rfl
    rw [ScanState.opens_succ, byteLength_append, ih, hthree]
    omega

namespace ScanState

variable {e : String} {f g : ScanState} {outer : List Substitution}

theorem pointFree_opens (k : Nat) : Cursor.PointFree (opens (k + 1)).reverse := by
  have hlast : opens (k + 1) = opens k ++ ['\x60', '$', '\x7b'] := by
    simp [opens, List.replicate_succ']
  rw [hlast, List.reverse_append]
  exact ⟨rfl, rfl⟩

theorem exists_run_inside (he : ¬ BeginsHashbang e) (k : Nat) :
    ∃ (z : ScanState) (outer : List Substitution), outer.length = k + 1 ∧
      (∀ t ∈ outer, t.depth = 0) ∧ z.outerDepth = 0 ∧
      Follows (opens (k + 1)).reverse [] ((initial e.toList).extend (closes (k + 1))) z ∧
      scan (wrap^[k + 1] e) = (z.enclose outer).run := by
  have htext := toList_wrap e (k + 1)
  have hbegin : headIs (fun c => c != '#' && c != byteOrderMark) (opens (k + 1)) = true := by
    rw [opens_succ]
    rfl
  have hcursor := cursor_initial_of_headIs (k := e.toList ++ closes (k + 1)) hbegin
  rw [← htext] at hcursor
  obtain ⟨d, hp, hd⟩ := Cursor.exists_passes (c := .ofText (wrap^[k + 1] e).toList) htext
  obtain ⟨outer, hlength, hall, hrun⟩ :=
    run_opens (s := initial (wrap^[k + 1] e).toList) k rfl rfl (hcursor ▸ hp)
  obtain ⟨T, hT, hmark⟩ := Cursor.exists_skipMark (.ofText e.toList)
  rw [← cursor_initial he] at hmark
  have hafter : d = ((Cursor.ofText e.toList).extend (closes (k + 1))).after
      (opens (k + 1)).reverse := by
    refine Cursor.eq_of_before_of_rest (hp.before_eq.trans ?_) hd
    exact List.append_nil _
  refine ⟨{ (initial e.toList).extend (closes (k + 1)) with
    cursor := ((initial e.toList).cursor.extend (closes (k + 1))).after (opens (k + 1)).reverse
    last := .punctuation '\x7b' }, outer, hlength, hall, rfl,
    ⟨rfl, rfl, .beginning rfl, ⟨[], rfl, by simp⟩, .outside, rfl⟩, ?_⟩
  have hnone : (initial (wrap^[k + 1] e).toList).substitutions = [] := rfl
  rw [scan, hrun, hnone, List.append_nil]
  exact run_past_trivia (s := { (initial _).moveTo d _ with substitutions := outer }) rfl
    (hafter ▸ hmark.extend.after) hT

theorem run_outside {k : Nat} {B : List Char} (hg : Follows B [] (f.extend (closes (k + 1))) g)
    (hfinal : f.step = .ok none) (hd : g.outerDepth = 0) (hlength : outer.length = k + 1)
    (hall : ∀ t ∈ outer, t.depth = 0) : (g.enclose outer).run =
      .ok (f.found.reverse.map (Reference.shift (byteLength B))) := by
  obtain ⟨hm, hnone, hT⟩ := of_end hfinal
  have hmode : g.mode = .code := by
    rw [hg.mode, extend, hm]
    rfl
  have hempty : g.substitutions = [] := by
    have hempty := hg.depths.isEmpty_eq
    rw [extend, hnone] at hempty
    exact List.isEmpty_iff.1 hempty
  have hdepth : g.depth = 0 := by rwa [outerDepth, hempty] at hd
  have hrest : g.cursor.rest = f.cursor.rest ++ ['\n'] ++ ['\x7d', '\x60'] ++ closes k := by
    rw [hg.cursor, Cursor.rest_after, extend, Cursor.rest_extend, closes_succ]
    simp
  obtain ⟨t, outer, rfl⟩ := List.exists_cons_of_length_eq_add_one hlength
  obtain ⟨d, hp, hd'⟩ := Cursor.exists_passes hrest
  have hsubstitutions : (g.enclose (t :: outer)).substitutions = t :: outer := by
    rw [enclose, hempty]
    rfl
  rw [run_close (s := g.enclose (t :: outer)) hmode hdepth hsubstitutions
      (hall t List.mem_cons_self) hT.line hp,
    run_closes (s := { (g.enclose (t :: outer)).moveTo d .value with substitutions := outer }) k
      hmode hdepth (Nat.succ.inj hlength)
      (fun u hu => hall u (List.mem_cons_of_mem t hu)) hd']
  have hfound : g.found = f.found.map (Reference.shift (byteLength B)) :=
    hg.found.trans (List.append_nil _)
  rw [List.map_reverse, ← hfound]
  rfl

end ScanState

/-- In substitutions of templates code has the references that it has as a text, however
many are around it, if its braces are balanced. -/
theorem scan_wrap {e : String} {found : List Reference} (hfound : scan e = .ok found)
    (he : ¬ BeginsHashbang e) (hbraces : Balanced e) (n : Nat) :
    scan (wrap^[n] e) = .ok (found.map (Reference.shift (3 * n))) := by
  cases n with
  | zero =>
    have hshift : Reference.shift (3 * 0) = id := rfl
    rw [hshift, List.map_id]
    exact hfound
  | succ k =>
    obtain ⟨f, hf, hfinal, rfl⟩ := ScanState.exists_end hfound
    obtain ⟨z, outer, hlength, hall, hz, hfollows, hscan⟩ := ScanState.exists_run_inside he k
    obtain ⟨g, hreach, hg, hd⟩ := ScanState.exists_reaches_enclose outer (ScanState.pointFree_opens k)
      (ScanState.extensible_closes k hf hfinal) hbraces hfollows
      (by rw [hz]; rfl)
    rw [hscan, ScanState.run_of_reaches hreach,
      ScanState.run_outside hg hfinal hd hlength hall, byteLength_reverse, byteLength_opens]

def importBlock : String := "\x7bimport('a')\x7d"

theorem scan_wrap_importBlock : scan importBlock = .ok [⟨"a", 8, 11, .dynamic⟩] ∧
    ¬ BeginsHashbang importBlock ∧ Balanced importBlock ∧
    scan (wrap^[2] importBlock) = .ok [⟨"a", 14, 17, .dynamic⟩] := by
  have hscan : scan importBlock = .ok [⟨"a", 8, 11, .dynamic⟩] :=
    eq_ok_of_toOption (by decide +kernel)
  have hhashbang : ¬ BeginsHashbang importBlock := by
    unfold BeginsHashbang
    decide +kernel
  have hbalances : (ScanState.initial importBlock.toList).balances? 5 0 = true := by decide +kernel
  have hbalanced : Balanced importBlock := .of_balances? hbalances
  refine ⟨hscan, hhashbang, hbalanced, ?_⟩
  rw [scan_wrap hscan hhashbang hbalanced 2]
  rfl

end ImportAtlas
