import ImportAtlas.Proofs.Reference.Continuation
import ImportAtlas.Proofs.Reference.Relocation

namespace ImportAtlas

open Text Lexeme Outcome

/-- Whether a hashbang begins the text, a byte order mark aside. -/
def BeginsHashbang (text : String) : Prop :=
  "#!".toList <+: text.toList ∨ byteOrderMark :: "#!".toList <+: text.toList

namespace Lexeme

theorem TriviaBefore.line {k T : List Char} (h : TriviaBefore k T) : Trivia (T ++ ['\n']) := by
  have hline : Trivia ['\n'] := .blank (by decide) .nil
  cases h with
  | closed hT => exact hT.append hline
  | @ended A text hk hA ht =>
    rw [List.append_assoc]
    exact hA.append (.line ht .nil)

end Lexeme

namespace Text.Cursor

variable {A B x y : List Char} {c d : Cursor}

theorem Passes.after (h : c.Passes A d) : (c.after B).Passes A (d.after B) where
  rest_eq := h.rest_eq
  before_eq := by
    change d.before ++ B = A.reverse ++ (c.before ++ B)
    rw [h.before_eq, List.append_assoc]

theorem exists_skipMark (c : Cursor) : ∃ T, Trivia T ∧ c.Passes T c.skipMark := by
  unfold skipMark
  split
  · rename_i h
    obtain ⟨k, hk⟩ := List.head?_eq_some_iff.1 h
    exact ⟨[byteOrderMark], .blank (by decide) .nil, .of_rest hk⟩
  · exact ⟨[], .nil, .refl c⟩

end Text.Cursor

namespace ScanState

variable {s s' f : ScanState} {T y : List Char}

theorem cursor_initial {text : String} (h : ¬ BeginsHashbang text) :
    (initial text.toList).cursor = (Cursor.ofText text.toList).skipMark := by
  refine if_neg fun htake => h ?_
  have hprefix : "#!".toList <+: (Cursor.ofText text.toList).skipMark.rest :=
    htake ▸ List.take_prefix 2 _
  unfold Cursor.skipMark at hprefix
  split at hprefix
  · rename_i hmark
    obtain ⟨k, hk⟩ := List.head?_eq_some_iff.1 hmark
    rw [Cursor.rest_advance, hk] at hprefix
    have htext : text.toList = byteOrderMark :: k := hk
    exact .inr (htext.symm ▸ List.cons_prefix_cons.2 ⟨rfl, hprefix⟩)
  · exact .inl hprefix

theorem endAlike_run {text : String} {B : List Char} (hB : Cursor.PointFree B)
    (htext : ¬ BeginsHashbang text) (hc : s.cursor = (Cursor.ofText text.toList).after B)
    (hm : s.mode = .code) (hlast : s.last = .punctuation ';') (hheads : true ∉ s.heads)
    (hnone : s.substitutions = []) :
    EndAlike B (fun found all => all = s.found.reverse ++ found.map (Reference.shift (byteLength B)))
      (scan text) s.run := by
  obtain ⟨T, hT, hp⟩ := Cursor.exists_skipMark (.ofText text.toList)
  have hmark : s.cursor.Passes T (((Cursor.ofText text.toList).skipMark).after B) := hc ▸ hp.after
  rw [run_past_trivia hm hmark hT, ← cursor_initial htext]
  refine Follows.run hB ⟨rfl, hm, hlast ▸ .beginning rfl, ⟨s.heads, rfl, hheads⟩, ?_, rfl⟩
  change DepthsAlike _ _ [] _ s.substitutions
  rw [hnone]
  exact .outside

theorem run_of_scan {text : String} {B : List Char} {found : List Reference}
    (hB : Cursor.PointFree B) (htext : ¬ BeginsHashbang text)
    (hc : s.cursor = (Cursor.ofText text.toList).after B) (hm : s.mode = .code)
    (hlast : s.last = .punctuation ';') (hheads : true ∉ s.heads) (hnone : s.substitutions = [])
    (hfound : scan text = .ok found) :
    s.run = .ok (s.found.reverse ++ found.map (Reference.shift (byteLength B))) := by
  have hboth := endAlike_run hB htext hc hm hlast hheads hnone
  rw [hfound] at hboth
  generalize s.run = r at hboth
  cases hboth with
  | ok h => rw [h]

def restart (y : List Char) (f : ScanState) : ScanState :=
  { f with cursor := (Cursor.ofText y).after (['\n', ';', '\n'] ++ f.cursor.text.reverse),
           last := .punctuation ';' }

theorem run_extend_separator (h : f.step = .ok none) :
    (f.extend ('\n' :: ';' :: '\n' :: y)).run = (f.restart y).run := by
  obtain ⟨hm, hnone, hT⟩ := of_end h
  obtain ⟨⟨before, rest⟩, mode, last, heads, depth, substitutions, found⟩ := f
  obtain rfl : mode = .code := hm
  obtain rfl : substitutions = [] := hnone
  have hline : (Cursor.extend ('\n' :: ';' :: '\n' :: y) ⟨before, rest⟩).Passes (rest ++ ['\n'])
      ⟨'\n' :: (rest.reverse ++ before), ';' :: '\n' :: y⟩ := ⟨by simp, by simp [Cursor.extend]⟩
  have hblank : Cursor.Passes ⟨';' :: '\n' :: (rest.reverse ++ before), '\n' :: y⟩ ['\n']
      ⟨'\n' :: ';' :: '\n' :: (rest.reverse ++ before), y⟩ := ⟨rfl, rfl⟩
  rw [run_past_trivia rfl hline hT.line,
    run_of_step (step_of_token rfl rfl rfl (token_of_step (.mark (by decide))))]
  refine (run_past_trivia rfl hblank (.blank (by decide) .nil)).trans ?_
  simp [restart, Cursor.after, Cursor.ofText, Cursor.text, extend, ScanState.moveTo, ScanMode.extend]

theorem extensible_separator (hs : Relation.ReflTransGen Next s f) (h : f.step = .ok none) :
    Extensible ('\n' :: ';' :: '\n' :: y) f s where
  ends := hs
  final := h
  admits := {
    value := fun _ _ => rfl
    ahead := by
      obtain ⟨-, -, hT⟩ := of_end h
      exact ⟨f.cursor.rest ++ ['\n'], ';' :: '\n' :: y, by simp, hT.line, rfl, rfl, fun _ => rfl⟩ }
  apart := .inr rfl
  slashes := by
    intro s' _ _ _ t rest _ hr hn
    rw [hr] at hn ⊢
    exact regex?_append_lines hn

end ScanState

/-- No parenthesis after a control word is open where the scan of the text ends. -/
def ClosesHeads (text : String) : Prop :=
  ∀ f, Relation.ReflTransGen ScanState.Next (.initial text.toList) f → f.step = .ok none →
    true ∉ f.heads

theorem ClosesHeads.of_after? {text : String} (n : Nat) (heads : List Bool)
    (h : ((ScanState.initial text.toList).after? n).map
      (fun f => (f.step matches .ok none, f.heads)) = some (true, heads))
    (hheads : true ∉ heads) : ClosesHeads text := by
  intro f hf hfinal
  obtain ⟨f', hf', hview⟩ := Option.map_eq_some_iff.1 h
  obtain ⟨hend, rfl⟩ := Prod.mk.inj hview
  have hfinal' : f'.step = .ok none := by
    split at hend
    · assumption
    · contradiction
  rwa [← ScanState.eq_of_end hfinal
    (ScanState.reaches_end (ScanState.reaches_of_after? hf') hfinal' hf)]

theorem endAlike_append {a b : String} {found : List Reference} (ha : scan a = .ok found)
    (hheads : ClosesHeads a) (hb : ¬ BeginsHashbang b) :
    Agree (fun e e' => e' = e.shift (byteLength a.toList + 3))
      (fun later all => all = found ++ later.map (Reference.shift (byteLength a.toList + 3)))
      (scan b) (scan (a ++ "\n;\n" ++ b)) := by
  obtain ⟨f, hf, hfinal, rfl⟩ := ScanState.exists_end ha
  obtain ⟨hm, hnone, -⟩ := ScanState.of_end hfinal
  have htext : f.cursor.text = a.toList :=
    ((ScanState.reaches_initial a.toList).trans (ScanState.reaches_of_reaches hf)).text_eq
  have hall : scan (a ++ "\n;\n" ++ b) = (f.restart b.toList).run := by
    have hlist : (a ++ "\n;\n" ++ b).toList = a.toList ++ '\n' :: ';' :: '\n' :: b.toList := by
      simp
    rw [scan, hlist, ScanState.initial_extend (.inr rfl) rfl,
      ScanState.run_of_reaches (ScanState.extensible_separator hf hfinal).reaches_extend,
      ScanState.run_extend_separator hfinal]
  have hlength : byteLength (['\n', ';', '\n'] ++ f.cursor.text.reverse) =
      byteLength a.toList + 3 := by
    rw [htext, byteLength_append, byteLength_reverse, Nat.add_comm]
    rfl
  rw [hall, ← hlength]
  exact ScanState.endAlike_run (s := f.restart b.toList) ⟨rfl, rfl⟩ hb rfl hm rfl
    (hheads f hf hfinal) hnone

/-- The references of two texts with a line between them that has a semicolon are
those of the one and then those of the other, and what keeps the second from being
scanned keeps the whole from it. -/
theorem scan_append {a b : String} {found : List Reference} (ha : scan a = .ok found)
    (hheads : ClosesHeads a) (hb : ¬ BeginsHashbang b) :
    (∀ later, scan b = .ok later → scan (a ++ "\n;\n" ++ b) =
      .ok (found ++ later.map (Reference.shift (byteLength a.toList + 3)))) ∧
    ∀ e, scan b = .error e →
      scan (a ++ "\n;\n" ++ b) = .error (e.shift (byteLength a.toList + 3)) := by
  have hboth := endAlike_append ha hheads hb
  constructor
  · intro later hlater
    rw [hlater] at hboth
    generalize scan (a ++ "\n;\n" ++ b) = r at hboth
    cases hboth with
    | ok h => rw [h]
  · intro e he
    rw [he] at hboth
    generalize scan (a ++ "\n;\n" ++ b) = r at hboth
    cases hboth with
    | error h => rw [h]

def openCall : String := "f(import('a'), \x7b"

def closingBrace : String := "\uFEFF\x7d) export * from 'b'"

theorem scan_append_openCall :
    scan openCall = .ok [⟨"a", 9, 12, .dynamic⟩] ∧ ClosesHeads openCall ∧
      ¬ BeginsHashbang closingBrace ∧ scan closingBrace = .ok [⟨"b", 20, 23, .reExport⟩] ∧
      scan (openCall ++ "\n;\n" ++ closingBrace) =
        .ok [⟨"a", 9, 12, .dynamic⟩, ⟨"b", 39, 42, .reExport⟩] := by
  have hscan : scan openCall = .ok [⟨"a", 9, 12, .dynamic⟩] :=
    eq_ok_of_toOption (by decide +kernel)
  have hheads : ClosesHeads openCall := .of_after? 6 [false] (by decide +kernel) (by decide)
  have hhashbang : ¬ BeginsHashbang closingBrace := by
    unfold BeginsHashbang
    decide +kernel
  have hlater : scan closingBrace = .ok [⟨"b", 20, 23, .reExport⟩] :=
    eq_ok_of_toOption (by decide +kernel)
  refine ⟨hscan, hheads, hhashbang, hlater, ?_⟩
  rw [(scan_append hscan hheads hhashbang).1 _ hlater]
  rfl

end ImportAtlas
