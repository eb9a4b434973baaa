import ImportAtlas.Proofs.Outcome
import ImportAtlas.Proofs.Reference.Lockstep

namespace ImportAtlas

open Text Lexeme Layout

/-- References to whose literals ids have been given: each span is the old one,
shifted by what the literals before its end have grown, `growth` at the first. -/
inductive Shifted (idFor : Reference → String) : Int → List Reference → List Reference → Prop
  | nil {growth : Int} : Shifted idFor growth [] []
  | cons {growth growth' : Int} {r r' : Reference} {later later' : List Reference} :
      r'.specifier = idFor r → r'.kind = r.kind → r'.start = r.start + growth →
      growth' = growth + byteLength (quoteId (idFor r)) - (r.stop - r.start) →
      r'.stop = r.stop + growth' → Shifted idFor growth' later later' →
      Shifted idFor growth (r :: later) (r' :: later')

namespace Layout

variable {f : Reference → String} {A : List Char} {L : Layout}

theorem fill_prepend (offset : Nat) :
    (L.prepend A).fill f offset = (L.fill f (offset + byteLength A)).prepend A := by
  cases L <;> simp [prepend, fill, reference, Nat.add_assoc]

theorem shifted_fill (offset offset' : Nat) :
    Shifted f (offset' - offset) (L.references offset) ((L.fill f offset).references offset') := by
  induction L generalizing offset offset' with
  | tail => exact .nil
  | slot gap quote body kind rest ih =>
    refine .cons ?_ rfl ?_ ?_ ?_ (ih _ _)
    · exact String.ofList_toList
    · simp only [reference]
      omega
    · simp only [reference, quoteId, quoted]
      omega
    · simp only [reference]
      omega

theorem fill_specifier (offset offset' : Nat) :
    (L.fill f offset).fill Reference.specifier offset' = L.fill f offset := by
  induction L generalizing offset offset' with
  | tail => rfl
  | slot gap quote body kind rest ih =>
    rw [fill, fill, ih, reference, String.toList_ofList]

end Layout

namespace Text.Cursor

variable {c c' d d' : Cursor}

def Skips (f : Cursor → Cursor) : Prop :=
  ∀ c, ∃ A, c.Passes A (f c) ∧
    ∀ c' d', c'.Passes A d' → Agree (f c).rest d'.rest → f c' = d'

theorem Skips.comp {f g : Cursor → Cursor} (hf : Skips f) (hg : Skips g) :
    Skips fun c => g (f c) := by
  intro c
  obtain ⟨A, hA, hf⟩ := hf c
  obtain ⟨B, hB, hg⟩ := hg (f c)
  refine ⟨A ++ B, hA.trans hB, fun c' e' hp hagree => ?_⟩
  obtain ⟨d', hd', he'⟩ := hp.split
  have hahead : Agree (f c).rest d'.rest := by
    rw [hB.rest_eq, he'.rest_eq]
    exact hagree.append B
  change g (f c') = e'
  rw [hf c' d' hd' hahead]
  exact hg d' e' he' hagree

def skipMark (c : Cursor) : Cursor :=
  if c.rest.head? = some byteOrderMark then c.advance 1 else c

def skipHashbang (c : Cursor) : Cursor :=
  if c.rest.take 2 = "#!".toList then c.advance (c.rest.takeWhile (· != '\n')).length else c

theorem exists_of_hashbang {k : List Char} (h : k.take 2 = "#!".toList) :
    ∃ k', k = '#' :: '!' :: k' :=
  ⟨k.drop 2, by rw [← List.take_append_drop 2 k, h]; rfl⟩

theorem skips_skipMark : Skips skipMark := by
  intro c
  unfold skipMark
  by_cases hc : c.rest.head? = some byteOrderMark
  · obtain ⟨k, hk⟩ := List.head?_eq_some_iff.1 hc
    rw [if_pos hc]
    refine ⟨[byteOrderMark], .of_rest hk, fun c' d' hp _ => ?_⟩
    rw [if_pos (by rw [hp.rest_eq]; rfl)]
    exact hp.eq_advance.symm
  · rw [if_neg hc]
    refine ⟨[], .refl c, fun c' d' hp hagree => ?_⟩
    obtain rfl := hp.unique (.refl c')
    rw [if_neg (by rwa [head?_eq_some_iff, hagree.headIs_eq, ← head?_eq_some_iff])]

theorem skips_skipHashbang : Skips skipHashbang := by
  intro c
  unfold skipHashbang
  by_cases hc : c.rest.take 2 = "#!".toList
  · rw [if_pos hc]
    have hsplit : c.rest = c.rest.takeWhile (· != '\n') ++ c.rest.dropWhile (· != '\n') :=
      List.takeWhile_append_dropWhile.symm
    have hp := Passes.of_rest hsplit
    refine ⟨_, hp, fun c' d' hp' hagree => ?_⟩
    have hend : headIs (· != '\n') d'.rest = false := by
      rw [hagree.headIs_eq, List.append_cancel_left (hp.rest_eq.symm.trans hsplit)]
      exact headIs_dropWhile
    have hline : c'.rest.takeWhile (· != '\n') = c.rest.takeWhile (· != '\n') := by
      rw [hp'.rest_eq]
      exact takeWhile_append_of_headIs (p := (· != '\n'))
        (fun d hd => List.mem_takeWhile_imp (p := (· != '\n')) hd) hend
    have hhash : c'.rest.take 2 = "#!".toList := by
      obtain ⟨k, hk⟩ := exists_of_hashbang hc
      rw [hp'.rest_eq, hk]
      rfl
    rw [if_pos hhash, hline]
    exact hp'.eq_advance.symm
  · rw [if_neg hc]
    refine ⟨[], .refl c, fun c' d' hp hagree => ?_⟩
    obtain rfl := hp.unique (.refl c')
    have htake := congrArg (List.take 2) hagree
    rw [List.take_take, List.take_take] at htake
    exact if_neg (htake ▸ hc)

end Text.Cursor

namespace ScanState

theorem exists_initial (cs : List Char) : ∃ A, cs = A ++ (initial cs).cursor.rest ∧
    (initial cs).cursor.before = A.reverse ∧ ∀ k, Agree (initial cs).cursor.rest k →
      (initial (A ++ k)).cursor = ⟨A.reverse, k⟩ := by
  obtain ⟨A, hA, hall⟩ := Cursor.skips_skipMark.comp Cursor.skips_skipHashbang (.ofText cs)
  refine ⟨A, hA.rest_eq, hA.before_eq.trans (List.append_nil _), fun k hk => ?_⟩
  exact hall (.ofText (A ++ k)) ⟨A.reverse, k⟩ ⟨rfl, (List.append_nil _).symm⟩ hk

end ScanState

/-- A text into which safe ids have been spliced is scanned again: the
references are the old ones with the ids, and splicing them in once more changes
nothing. -/
theorem scan_of_splice {text : String} {references : List Reference}
    {idFor : Reference → Option String} {f : Reference → String}
    (h : scan text = .ok references) (hrequire : ¬ "require".toList <:+: text.toList)
    (hspecifier : ∀ r ∈ references, ∀ c ∈ r.specifier.toList, c ∉ ['[', ']', '\\', '\n'])
    (hid : ∀ r ∈ references, idFor r = some (f r))
    (hsafe : ∀ r ∈ references, ∀ c ∈ (f r).toList, ModuleId.isSafe c = true) :
    ∃ out references', splice text references idFor = .ok out ∧ scan out = .ok references' ∧
      Shifted f 0 references references' ∧
      splice out references' (fun r => some r.specifier) = .ok out := by
  obtain ⟨L, hL, hrefs⟩ := ScanState.exists_runs h
  obtain ⟨A, htext, hbefore, hinitial⟩ := ScanState.exists_initial text.toList
  have hoffset : (ScanState.initial text.toList).cursor.offset = byteLength A := by
    rw [Cursor.offset, hbefore, byteLength_reverse]
  have hrefs : references = L.references (byteLength A) := hoffset ▸ hrefs
  subst hrefs
  have hrefills : L.Refills (L.fill f (byteLength A)) :=
    refills_fill hL.wellQuoted hspecifier hsafe
  have hagree := hrefills.agree hL.wide
  rw [hL.text_eq] at hagree
  have hcursor := hinitial _ hagree
  have halike : (ScanState.initial text.toList).Alike
      (ScanState.initial (A ++ (L.fill f (byteLength A)).text)) :=
    ⟨trivial, rfl, rfl, rfl, rfl, .of_before (by rw [hcursor, hbefore])⟩
  have hrest : ¬ requireName <:+: (ScanState.initial text.toList).cursor.rest := fun h =>
    hrequire (h.trans (htext ▸ List.suffix_append A _).isInfix)
  -- the same run with the ids for literals
  have hruns := hL.refill hrefills halike (by rw [hcursor]) hrest
  have hscan := hruns.run_eq
  rw [hcursor] at hscan
  refine ⟨String.ofList (A ++ (L.fill f (byteLength A)).text),
    (L.fill f (byteLength A)).references (byteLength A), ?_, ?_, ?_, ?_⟩
  · have hlayout : (L.prepend A).text = text.toList := by rw [text_prepend, hL.text_eq, ← htext]
    have hsplice := @splice_references _ _ idFor f hlayout
    rw [references_prepend, fill_prepend, text_prepend, Nat.zero_add] at hsplice
    exact hsplice hid
  · rw [scan, String.toList_ofList, hscan, Cursor.offset, byteLength_reverse]
    rfl
  · have hshift := shifted_fill (f := f) (L := L) (byteLength A) (byteLength A)
    rwa [Int.sub_self] at hshift
  · have hlayout : ((L.fill f (byteLength A)).prepend A).text =
        (String.ofList (A ++ (L.fill f (byteLength A)).text)).toList := by
      rw [text_prepend, String.toList_ofList]
    have hsplice := splice_references (f := Reference.specifier) hlayout fun r _ => rfl
    rwa [references_prepend, fill_prepend, text_prepend, Nat.zero_add, fill_specifier] at hsplice

def quotient : String := "import './a'\n{ } / import(\x60c\x60)"

def quotientReferences : List Reference :=
  [⟨"./a", 7, 12, .declaration⟩, ⟨"c", 26, 29, .dynamic⟩]

def quotientId (r : Reference) : String :=
  if r.kind = .dynamic then "c-0123456" else "a-789abcd"

theorem scan_of_splice_quotient : scan quotient = .ok quotientReferences ∧
    ¬ "require".toList <:+: quotient.toList ∧
    (∀ r ∈ quotientReferences, ∀ c ∈ r.specifier.toList, c ∉ ['[', ']', '\\', '\n']) ∧
    (∀ r ∈ quotientReferences, ∀ c ∈ (quotientId r).toList, ModuleId.isSafe c = true) ∧
    ∃ out references', splice quotient quotientReferences (fun r => some (quotientId r)) = .ok out ∧
      scan out = .ok references' ∧ Shifted quotientId 0 quotientReferences references' ∧
      splice out references' (fun r => some r.specifier) = .ok out := by
  have hscan : scan quotient = .ok quotientReferences :=
    Outcome.eq_ok_of_toOption (by decide +kernel)
  have hrequire : ¬ "require".toList <:+: quotient.toList := by decide +kernel
  have hspecifier : quotientReferences.all fun r =>
      r.specifier.toList.all fun c => c ∉ ['[', ']', '\\', '\n'] := by decide +kernel
  have hsafe : quotientReferences.all fun r => (quotientId r).toList.all ModuleId.isSafe := by
    decide +kernel
  simp only [List.all_eq_true, decide_eq_true_eq] at hspecifier hsafe
  exact ⟨hscan, hrequire, hspecifier, hsafe,
    scan_of_splice hscan hrequire hspecifier (fun _ _ => rfl) hsafe⟩

end ImportAtlas
