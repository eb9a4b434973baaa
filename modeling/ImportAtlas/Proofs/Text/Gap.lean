import ImportAtlas.Proofs.Lexeme.Forms
import ImportAtlas.Text.Blank

namespace ImportAtlas.Text

abbrev Gapped := List (Option Char)

namespace Gapped

open Lexeme

variable {T k : Gapped} {x y c : Char} {p : Char → Bool}

def fill (x : Char) (T : Gapped) : List Char := T.map fun o => o.getD x

/-- The tokens with gaps between them. -/
def join (tokens : List (List Char)) : Gapped :=
  [none].intercalate (tokens.map fun w => w.map some)

def gaps (T : Gapped) : Gapped := T.takeWhile Option.isNone

def afterGaps (T : Gapped) : Gapped := T.dropWhile Option.isNone

@[simp] theorem fill_nil : fill x [] = [] := rfl

@[simp] theorem fill_cons {o : Option Char} : fill x (o :: k) = o.getD x :: fill x k := rfl

@[simp] theorem fill_none : fill x (none :: k) = x :: fill x k := rfl

@[simp] theorem fill_some : fill x (some c :: k) = c :: fill x k := rfl

@[simp] theorem fill_append : fill x (T ++ k) = fill x T ++ fill x k := List.map_append

@[simp] theorem length_fill : (fill x T).length = T.length := List.length_map _

@[simp] theorem fill_reverse : fill x T.reverse = (fill x T).reverse := List.map_reverse

theorem fill_take {n : Nat} : fill x (T.take n) = (fill x T).take n := List.map_take

theorem fill_drop {n : Nat} : fill x (T.drop n) = (fill x T).drop n := List.map_drop

theorem fill_tail : fill x T.tail = (fill x T).tail := List.map_tail

theorem fill_eq_of_not_mem (h : none ∉ T) : fill x T = fill y T := by
  refine List.map_congr_left fun o ho => ?_
  cases o with
  | none => exact absurd ho h
  | some c => rfl

@[simp] theorem fill_map_some {w : List Char} : fill x (w.map some) = w := by
  rw [fill, List.map_map]
  exact List.map_id w

theorem join_cons_cons {w v : List Char} {tokens : List (List Char)} :
    join (w :: v :: tokens) = w.map some ++ none :: join (v :: tokens) := by
  rw [join, List.map_cons, List.map_cons, List.intercalate_cons_cons, List.append_assoc]
  rfl

theorem fill_join : ∀ tokens : List (List Char), fill x (join tokens) = [x].intercalate tokens
  | [] => rfl
  | [w] => by
    rw [join, List.map_singleton, List.intercalate_singleton, List.intercalate_singleton,
      fill_map_some]
  | w :: v :: tokens => by
    rw [join_cons_cons, fill_append, fill_none, fill_map_some, fill_join (v :: tokens),
      List.intercalate_cons_cons, List.append_assoc, List.singleton_append]

theorem exists_join_eq_cons {w : List Char} (tokens : List (List Char)) (hw : w ≠ []) :
    ∃ c k, join (w :: tokens) = some c :: k := by
  obtain ⟨c, w, rfl⟩ := List.exists_cons_of_ne_nil hw
  cases tokens with
  | nil => exact ⟨c, w.map some, List.intercalate_singleton⟩
  | cons v tokens => exact ⟨c, _, join_cons_cons⟩

theorem mem_of_mem_fill (h : c ∈ fill x T) (hc : c ≠ x) : some c ∈ T := by
  obtain ⟨o, ho, rfl⟩ := List.mem_map.1 h
  cases o with
  | none => exact absurd rfl hc
  | some c => exact ho

theorem head?_fill (h : none ∉ T.head?) : (fill x T).head? = (fill y T).head? := by
  match T with
  | [] => rfl
  | none :: _ => exact absurd rfl h
  | some _ :: _ => rfl

theorem headIs_fill (h : p x = p y) : headIs p (fill x T) = headIs p (fill y T) := by
  match T with
  | [] => rfl
  | none :: _ => exact h
  | some _ :: _ => rfl

theorem dropWhile_fill (hx : p x = false) :
    (fill x T).dropWhile p = fill x (T.dropWhile (Option.any p)) := by
  induction T with
  | nil => rfl
  | cons o T ih =>
    cases o with
    | none => simp [hx]
    | some c =>
      rw [fill_some, List.dropWhile_cons, List.dropWhile_cons, Option.any_some, ih]
      split
      · rfl
      · rfl

end Gapped

structure GapCursor where
  before : Gapped
  rest : Gapped

namespace GapCursor

variable {g : GapCursor} {x : Char} {n : Nat}

def text (g : GapCursor) : Gapped := g.before.reverse ++ g.rest

def fill (x : Char) (g : GapCursor) : Cursor := ⟨g.before.fill x, g.rest.fill x⟩

def advance (n : Nat) (g : GapCursor) : GapCursor :=
  ⟨(g.rest.take n).reverse ++ g.before, g.rest.drop n⟩

@[simp] theorem before_fill : (g.fill x).before = g.before.fill x := rfl

@[simp] theorem rest_fill : (g.fill x).rest = g.rest.fill x := rfl

@[simp] theorem text_advance : (g.advance n).text = g.text := by
  simp [text, advance]

theorem fill_advance : (g.advance n).fill x = (g.fill x).advance n := by
  apply Cursor.eq_of_before_of_rest
  · rw [Cursor.before_advance, rest_fill, ← Gapped.fill_take, ← Gapped.fill_reverse]
    exact Gapped.fill_append
  · rw [Cursor.rest_advance]
    exact Gapped.fill_drop

end GapCursor

end ImportAtlas.Text
