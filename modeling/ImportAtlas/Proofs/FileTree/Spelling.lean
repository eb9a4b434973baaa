import Mathlib.Data.List.Basic
import ImportAtlas.Outcome
import ImportAtlas.Proofs.FileTree.Location

/-! Spellings of a path.  Paths with the same components lead to the same place,
if they lead anywhere: a piece that is no component only makes following fail. -/

namespace ImportAtlas

namespace Text

theorem splitOn_cons_of_pos {p : Char → Bool} {c : Char} (h : p c = true) (cs : List Char) :
    splitOn p (c :: cs) = [] :: splitOn p cs := by
  simp [splitOn, h]

theorem splitOn_cons_of_neg {p : Char → Bool} {c : Char} (h : p c = false) (cs : List Char) :
    ∃ piece pieces, splitOn p (c :: cs) = (c :: piece) :: pieces := by
  cases hs : splitOn p cs with
  | nil => exact absurd hs (splitOn_ne_nil p cs)
  | cons piece pieces => exact ⟨piece, pieces, by simp [splitOn, h, hs]⟩

theorem mem_flatten_splitOn {p : Char → Bool} {c : Char} (hc : p c = false) {cs : List Char} :
    c ∈ (splitOn p cs).flatten ↔ c ∈ cs := by
  induction cs with
  | nil => rfl
  | cons d cs ih =>
    by_cases hd : p d = true
    · have hne : c ≠ d := by
        rintro rfl
        rw [hd] at hc
        cases hc
      simp [splitOn_cons_of_pos hd, ih, hne]
    · obtain ⟨piece, pieces, hcons⟩ := splitOn_cons_of_neg (Bool.eq_false_iff.2 hd) cs
      cases hs : splitOn p cs with
      | nil => exact absurd hs (splitOn_ne_nil p cs)
      | cons first rest =>
        have hsplit : splitOn p (d :: cs) = (d :: first) :: rest := by simp [splitOn, hd, hs]
        rw [hs] at ih
        simpa [hsplit] using or_congr_right (by simpa using ih)

end Text

namespace Path

open Text

def steady (pieces : List (List Char)) : List (List Char) := pieces.filter (!isIdle ·)

theorem text_componentOf (piece : List Char) : (componentOf piece).text = piece := by
  unfold componentOf
  split
  · rename_i hp
    exact hp.symm
  · split
    · rename_i hp
      exact hp.symm
    · rfl

theorem componentOf_injective {a b : List Char} (h : componentOf a = componentOf b) : a = b := by
  rw [← text_componentOf a, h, text_componentOf]

theorem componentOf_ne_root (piece : List Char) : componentOf piece ≠ .root := by
  unfold componentOf
  split
  · nofun
  · split <;> nofun

theorem components_absolute (cs : List Char) : (Path.mk ('/' :: cs)).components =
    .root :: (steady (splitOn isSeparator ('/' :: cs))).map componentOf := by
  simp [components, splitOn_cons_of_pos, isSeparator, steady, isIdle]

theorem components_relative {c : Char} (hc : c ≠ '/') (cs : List Char) :
    ∃ first rest, splitOn isSeparator (c :: cs) = first :: rest ∧
      (Path.mk (c :: cs)).components = (first :: steady rest).map componentOf := by
  obtain ⟨piece, rest, h⟩ := splitOn_cons_of_neg (p := isSeparator) (decide_eq_false hc) cs
  exact ⟨c :: piece, rest, h, by simp [components, h, steady]⟩

theorem steady_cons (first : List Char) (rest : List (List Char)) :
    steady (first :: rest) = steady [first] ++ steady rest :=
  List.filter_append [first] rest

theorem steady_eq_of_components {p q : Path} (hp : p.text ≠ []) (hq : q.text ≠ [])
    (h : p.components = q.components) : p.isAbsolute = q.isAbsolute ∧
      steady (splitOn isSeparator p.text) = steady (splitOn isSeparator q.text) := by
  have hinjective : Function.Injective componentOf := fun _ _ => componentOf_injective
  obtain ⟨_ | ⟨c, cs⟩⟩ := p
  · exact absurd rfl hp
  obtain ⟨_ | ⟨d, ds⟩⟩ := q
  · exact absurd rfl hq
  by_cases hc : c = '/' <;> by_cases hd : d = '/'
  · subst hc hd
    rw [components_absolute, components_absolute, List.cons.injEq] at h
    exact ⟨rfl, List.map_injective_iff.2 hinjective h.2⟩
  · subst hc
    obtain ⟨first, rest, -, hrest⟩ := components_relative hd ds
    rw [components_absolute, hrest, List.map_cons, List.cons.injEq] at h
    exact absurd h.1.symm (componentOf_ne_root first)
  · subst hd
    obtain ⟨first, rest, -, hrest⟩ := components_relative hc cs
    rw [components_absolute, hrest, List.map_cons, List.cons.injEq] at h
    exact absurd h.1 (componentOf_ne_root first)
  · obtain ⟨first, rest, hsplit, hrest⟩ := components_relative hc cs
    obtain ⟨first', rest', hsplit', hrest'⟩ := components_relative hd ds
    rw [hrest, hrest'] at h
    obtain ⟨hfirst, hsteady⟩ := List.cons.inj (List.map_injective_iff.2 hinjective h)
    refine ⟨by simp [isAbsolute, hc, hd], ?_⟩
    rw [hsplit, hsplit', steady_cons, steady_cons first', hfirst, hsteady]

end Path

namespace FileTree

variable {t : FileTree}

inductive Thins : List FileName → List FileName → Prop
  | nil : Thins [] []
  | keep {todo kept : List FileName} (piece : FileName) :
      Thins todo kept → Thins (piece :: todo) (piece :: kept)
  | drop {todo kept : List FileName} {piece : FileName} (h : Path.isIdle piece = true) :
      Thins todo kept → Thins (piece :: todo) kept

namespace Thins

theorem append_left (front : List FileName) {todo kept : List FileName} (h : Thins todo kept) :
    Thins (front ++ todo) (front ++ kept) := by
  induction front with
  | nil => exact h
  | cons piece front ih => exact .keep piece ih

theorem steady (pieces : List FileName) : Thins pieces (Path.steady pieces) := by
  induction pieces with
  | nil => exact .nil
  | cons piece pieces ih =>
    cases h : Path.isIdle piece with
    | true => simpa [Path.steady, h] using ih.drop h
    | false => simpa [Path.steady, h] using ih.keep piece

end Thins

theorem followPieces_cons_of_imp {admits : Place → Bool} {links : Nat} {place : Place}
    {piece : FileName} {todo todo' : List FileName}
    {jump : Place → List FileName → Except FileFault (Place × Nat)} {r : Place × Nat}
    (hjump : ∀ place target, jump place (pieces target ++ todo) = .ok r →
      jump place (pieces target ++ todo') = .ok r)
    (hrest : ∀ place, t.followPieces true admits links jump place todo = .ok r →
      t.followPieces true admits links jump place todo' = .ok r)
    (h : t.followPieces true admits links jump place (piece :: todo) = .ok r) :
    t.followPieces true admits links jump place (piece :: todo') = .ok r :=
  followPieces_cons_related (R := fun x y => x = .ok r → y = .ok r) nofun hrest hjump place h

theorem followPieces_of_thins {admits : Place → Bool} {links : Nat} {place : Place}
    {todo kept : List FileName}
    {jump : Place → List FileName → Except FileFault (Place × Nat)} {r : Place × Nat}
    (hjump : ∀ {place todo kept}, Thins todo kept → jump place todo = .ok r →
      jump place kept = .ok r)
    (ht : Thins todo kept) (h : t.followPieces true admits links jump place todo = .ok r) :
    t.followPieces true admits links jump place kept = .ok r := by
  induction ht generalizing place with
  | nil => exact h
  | drop hidle _ ih =>
    rw [followPieces] at h
    by_cases hdirectory : (!t.isDirectoryAt place) = true
    · rw [if_pos hdirectory] at h
      cases h
    · rw [if_neg hdirectory, if_pos hidle] at h
      exact ih h
  | keep piece hrest ih =>
    exact followPieces_cons_of_imp
      (fun _ target hj => hjump (hrest.append_left (pieces target)) hj) (fun _ => ih) h

theorem followWithin_of_thins {admits : Place → Bool} {links : Nat} {place : Place}
    {todo kept : List FileName} {r : Place × Nat} (ht : Thins todo kept)
    (h : t.followWithin true admits links place todo = .ok r) :
    t.followWithin true admits links place kept = .ok r := by
  induction links generalizing place todo kept with
  | zero => exact followPieces_of_thins nofun ht h
  | succ links ih => exact followPieces_of_thins (fun ht h => ih ht h) ht h

theorem follow_of_reach {path : Path} {r : Place × Nat} (h : t.reach true path = .ok r) :
    t.follow true linkLimit (t.startOf path) (Path.steady (pieces path.text)) = .ok r :=
  followWithin_of_thins (.steady _) (reach_eq_ok.1 h).2

inductive Fills : List FileName → List FileName → Prop
  | nil : Fills [] []
  | keep {kept todo : List FileName} (piece : FileName) :
      Fills kept todo → Fills (piece :: kept) (piece :: todo)
  | add {kept todo : List FileName} {piece : FileName} (h : Path.isIdle piece = true)
      (hne : kept ≠ []) : Fills kept todo → Fills kept (piece :: todo)

namespace Fills

theorem append_left (front : List FileName) {kept todo : List FileName} (h : Fills kept todo) :
    Fills (front ++ kept) (front ++ todo) := by
  induction front with
  | nil => exact h
  | cons piece front ih => exact .keep piece ih

theorem steady (front : List FileName) {last : FileName} (h : Path.isIdle last = false) :
    Fills (Path.steady (front ++ [last])) (front ++ [last]) := by
  induction front with
  | nil => simpa [Path.steady, h] using Fills.nil.keep last
  | cons piece front ih =>
    cases hidle : Path.isIdle piece with
    | true =>
      have hne : Path.steady (front ++ [last]) ≠ [] := by simp [Path.steady, h]
      simpa [Path.steady, hidle] using ih.add hidle hne
    | false => simpa [Path.steady, hidle] using ih.keep piece

end Fills

theorem followPieces_of_fills {admits : Place → Bool} {links : Nat} {place : Place}
    {kept todo : List FileName}
    {jump : Place → List FileName → Except FileFault (Place × Nat)} {r : Place × Nat}
    (hjump : ∀ {place kept todo}, Fills kept todo → jump place kept = .ok r →
      jump place todo = .ok r)
    (hf : Fills kept todo) (h : t.followPieces true admits links jump place kept = .ok r) :
    t.followPieces true admits links jump place todo = .ok r := by
  induction hf generalizing place with
  | nil => exact h
  | @add kept todo piece hidle hne _ ih =>
    have hdirectory : ¬ (!t.isDirectoryAt place) = true := by
      obtain ⟨next, rest, rfl⟩ := List.exists_cons_of_ne_nil hne
      intro hnot
      rw [followPieces, if_pos hnot] at h
      cases h
    rw [followPieces, if_neg hdirectory, if_pos hidle]
    exact ih h
  | keep piece hrest ih =>
    exact followPieces_cons_of_imp
      (fun _ target hj => hjump (hrest.append_left (pieces target)) hj) (fun _ => ih) h

theorem followWithin_of_fills {admits : Place → Bool} {links : Nat} {place : Place}
    {kept todo : List FileName} {r : Place × Nat} (hf : Fills kept todo)
    (h : t.followWithin true admits links place kept = .ok r) :
    t.followWithin true admits links place todo = .ok r := by
  induction links generalizing place kept todo with
  | zero => exact followPieces_of_fills nofun hf h
  | succ links ih => exact followPieces_of_fills (fun hf h => ih hf h) hf h

theorem reach_eq_of_components {p q : Path} {r s : Place × Nat}
    (hcomponents : p.components = q.components) (hp : t.reach true p = .ok r)
    (hq : t.reach true q = .ok s) : r = s := by
  obtain ⟨habsolute, hsteady⟩ := Path.steady_eq_of_components (reach_eq_ok.1 hp).1.2.1
    (reach_eq_ok.1 hq).1.2.1 hcomponents
  have hp := follow_of_reach hp
  have hq := follow_of_reach hq
  rw [startOf, pieces, habsolute, hsteady] at hp
  rw [startOf, pieces, hp] at hq
  exact Except.ok.inj hq

theorem mem_flatten_steady {c : Char} (hc : c ≠ '.') {pieces : List FileName} :
    c ∈ (Path.steady pieces).flatten ↔ c ∈ pieces.flatten := by
  induction pieces with
  | nil => rfl
  | cons piece rest ih =>
    rw [Path.steady_cons, List.flatten_append, List.mem_append, ih, List.flatten_cons,
      List.mem_append]
    refine or_congr_left ?_
    by_cases hidle : Path.isIdle piece = true
    · rcases (by simpa [Path.isIdle] using hidle : piece = [] ∨ piece = ['.']) with rfl | rfl
      · rfl
      · simp [Path.steady, Path.isIdle, hc]
    · simp [Path.steady, hidle]

theorem reach_of_components {p q : Path} {r : Place × Nat} {front : List FileName}
    {last : FileName} (hcomponents : p.components = q.components)
    (hlast : pieces q.text = front ++ [last]) (hidle : Path.isIdle last = false)
    (hshort : Text.byteLength q.text ≤ pathLimit) (hp : t.reach true p = .ok r) :
    t.reach true q = .ok r := by
  have hq : q.text ≠ [] := by
    intro hnil
    have hempty : last ∈ pieces q.text := hlast ▸ by simp
    simp only [pieces, hnil, Text.splitOn, List.mem_singleton] at hempty
    simp [hempty, Path.isIdle] at hidle
  obtain ⟨habsolute, hsteady⟩ := Path.steady_eq_of_components (reach_eq_ok.1 hp).1.2.1 hq
    hcomponents
  have hfollow := follow_of_reach hp
  have hnul : q.text.contains '\x00' = false := by
    have hmem (path : Path) : '\x00' ∈ path.text ↔
        '\x00' ∈ (Path.steady (pieces path.text)).flatten := by
      rw [mem_flatten_steady (by decide), pieces, Text.mem_flatten_splitOn (by decide)]
    have hnot := (reach_eq_ok.1 hp).1.1
    simp only [List.contains_eq_mem, decide_eq_false_iff_not] at hnot ⊢
    rwa [hmem, pieces, ← hsteady, ← pieces, ← hmem]
  refine reach_eq_ok.2 ⟨⟨hnul, hq, hshort⟩, ?_⟩
  rw [startOf, pieces, habsolute, hsteady] at hfollow
  rw [startOf, hlast]
  refine followWithin_of_fills (Fills.steady front hidle) ?_
  rwa [← hlast]

theorem isFile_of_components {p q : Path} {front : List FileName} {last : FileName}
    (hcomponents : p.components = q.components) (hlast : pieces q.text = front ++ [last])
    (hidle : Path.isIdle last = false) (hshort : Text.byteLength q.text ≤ pathLimit)
    (hp : t.isFile p = true) : t.isFile q = true := by
  obtain ⟨place, bytes, hplace, hnode⟩ := isFile_iff.1 hp
  obtain ⟨r, hr, rfl⟩ := Outcome.map_eq_ok.1 hplace
  refine isFile_iff.2 ⟨r.1, bytes, ?_, hnode⟩
  rw [locate, reach_of_components hcomponents hlast hidle hshort hr]
  rfl

theorem readStream_eq_of_components {p q : Path} {text : String}
    (hcomponents : p.components = q.components) (hp : t.isFile p = true)
    (hq : t.readStream q = .ok text) : t.readStream p = .ok text := by
  obtain ⟨place, -, hplace, -⟩ := isFile_iff.1 hp
  obtain ⟨r, hr, hrplace⟩ := Outcome.map_eq_ok.1 hplace
  obtain ⟨_, hbytes, -⟩ := Outcome.bind_eq_ok.1 hq
  obtain ⟨place', hplace', -⟩ := Outcome.bind_eq_ok.1 hbytes
  obtain ⟨s, hs, hsplace⟩ := Outcome.map_eq_ok.1 hplace'
  have hrs := reach_eq_of_components hcomponents hr hs
  have hsame : t.locate true p = t.locate true q := by
    rw [hplace, hplace', ← hrplace, ← hsplace, hrs]
  rw [← hq, readStream, readStream, readBytes, readBytes, hsame]

end FileTree

end ImportAtlas
