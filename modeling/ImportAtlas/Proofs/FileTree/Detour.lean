import Mathlib.Algebra.GroupWithZero.Nat
import Mathlib.Algebra.Order.BigOperators.Group.List
import Mathlib.Algebra.Order.Group.Nat
import ImportAtlas.Proofs.FileTree.Directory

/-! Paths that lead somewhere on a detour, over links or double points, and go on
from there.  They lead where the canonical path of that place, going on in the same
way, leads, unless the detour takes too many links. -/

namespace ImportAtlas

namespace Text

theorem byteLength_splitOn (cs : List Char) :
    ((splitOn Path.isSeparator cs).map (byteLength · + 1)).sum = byteLength cs + 1 := by
  induction cs with
  | nil => rfl
  | cons c cs ih =>
    by_cases hc : Path.isSeparator c = true
    · have hbyte : byteLength [c] = 1 := by
        obtain rfl : c = '/' := by simpa [Path.isSeparator] using hc
        rfl
      rw [splitOn_cons_of_pos hc, List.map_cons, List.sum_cons, ih]
      simp only [byteLength_cons, byteLength_nil] at hbyte ⊢
      omega
    · cases hsplit : splitOn Path.isSeparator cs with
      | nil => exact absurd hsplit (splitOn_ne_nil _ _)
      | cons piece pieces =>
        rw [hsplit] at ih
        simp only [splitOn, hc, hsplit, Bool.false_eq_true, if_false, List.map_cons, List.sum_cons,
          byteLength_cons] at ih ⊢
        omega

end Text

namespace FileTree

open Outcome

variable {t : FileTree} {admits : Place → Bool} {links : Nat} {place : Place}
  {todo : List FileName} {r : Place × Nat}

theorem followPieces_eq_of_fills {kept : List FileName}
    {jump : Place → List FileName → Except FileFault (Place × Nat)}
    (hjump : ∀ {place kept todo}, Fills kept todo → jump place kept = jump place todo)
    (hf : Fills kept todo) : t.followPieces true admits links jump place kept =
      t.followPieces true admits links jump place todo := by
  induction hf generalizing place with
  | nil => rfl
  | @add kept todo piece hidle hne _ ih =>
    obtain ⟨next, rest, rfl⟩ := List.exists_cons_of_ne_nil hne
    by_cases hdirectory : (!t.isDirectoryAt place) = true
    · rw [followPieces, followPieces, if_pos hdirectory, if_pos hdirectory]
    · rw [ih, followPieces.eq_2 _ _ _ _ _ _ piece, if_neg hdirectory, if_pos hidle]
  | @keep kept todo piece hrest ih =>
    refine followPieces_cons_related (R := Eq) (fun _ => rfl) (fun _ => ih) ?_ place
    exact fun _ target => hjump (hrest.append_left (pieces target))

theorem followWithin_eq_of_fills {kept : List FileName} (hf : Fills kept todo) :
    t.followWithin true admits links place kept = t.followWithin true admits links place todo := by
  induction links generalizing place kept todo with
  | zero => exact followPieces_eq_of_fills (fun _ => rfl) hf
  | succ links ih => exact followPieces_eq_of_fills (fun hf => ih hf) hf

theorem followPieces_add {links' more : Nat} (hlinks : links' = links + more)
    {jump jump' : Place → List FileName → Except FileFault (Place × Nat)}
    (hjump : ∀ place todo, jump place todo ≠ .error .tooManyLinks →
      jump' place todo = (jump place todo).map fun r => (r.1, r.2 + more))
    (h : t.followPieces true admits links jump place todo ≠ .error .tooManyLinks) :
    t.followPieces true admits links' jump' place todo =
      (t.followPieces true admits links jump place todo).map fun r => (r.1, r.2 + more) := by
  induction todo generalizing place with
  | nil =>
    rw [hlinks]
    rfl
  | cons piece rest ih =>
    refine followPieces_cons_related
      (R := fun x y => x ≠ .error .tooManyLinks → y = x.map fun r => (r.1, r.2 + more))
      (fun _ _ => rfl) (fun _ => ih) ?_ place h
    exact fun place target => hjump place (pieces target ++ rest)

theorem followWithin_add (more : Nat)
    (h : t.followWithin true admits links place todo ≠ .error .tooManyLinks) :
    t.followWithin true admits (links + more) place todo =
      (t.followWithin true admits links place todo).map fun r => (r.1, r.2 + more) := by
  induction links generalizing place todo with
  | zero =>
    rw [Nat.zero_add]
    cases more with
    | zero => exact followPieces_add (Nat.zero_add 0).symm (fun _ _ hj => absurd rfl hj) h
    | succ more =>
      exact followPieces_add (Nat.zero_add (more + 1)).symm (fun _ _ hj => absurd rfl hj) h
  | succ links ih =>
    rw [Nat.add_right_comm]
    exact followPieces_add (Nat.add_right_comm links more 1) (fun _ _ => ih) h

theorem contains_nul_iff {p : Path} : p.text.contains '\x00' = true ↔
    '\x00' ∈ (Path.steady (pieces p.text)).flatten := by
  rw [mem_flatten_steady (by decide), pieces, Text.mem_flatten_splitOn (by decide),
    List.contains_iff_mem]

structure EndsInName (p : Path) : Prop where
  last : ∃ front last, pieces p.text = front ++ [last] ∧ Path.isIdle last = false
  short : Text.byteLength p.text ≤ pathLimit

theorem EndsInName.text_ne_nil {p : Path} (h : EndsInName p) : p.text ≠ [] := by
  obtain ⟨⟨front, last, hlast, hidle⟩, -⟩ := h
  intro hempty
  rw [hempty, pieces, Text.splitOn, eq_comm, List.append_eq_singleton_iff] at hlast
  rcases hlast with ⟨-, hlast⟩ | ⟨-, hlast⟩
  · cases hlast
    cases hidle
  · cases hlast

theorem EndsInName.reach_eq_follow {p : Path} (h : EndsInName p)
    (hnul : p.text.contains '\x00' = false) :
    t.reach true p = t.follow true linkLimit (t.startOf p) (Path.steady (pieces p.text)) := by
  have hne := h.text_ne_nil
  obtain ⟨⟨front, last, hlast, hidle⟩, hshort⟩ := h
  rw [reach, if_neg (Bool.eq_false_iff.1 hnul), if_neg hne, if_neg (Nat.not_lt.2 hshort), hlast]
  exact (followWithin_eq_of_fills (Fills.steady front hidle)).symm

structure LeadsTo (t : FileTree) (front : Path) (place : Place) (left : Nat) : Prop where
  nulFree : front.text.contains '\x00' = false
  follow : t.followWithin true isWithinReach linkLimit (t.startOf front)
    (Path.steady (pieces front.text)) = .ok (place, left)

theorem exists_leadsTo {front canonical : Path} (h : t.canonicalize front = .ok canonical) :
    ∃ place left, pathOf place = canonical ∧ t.LeadsTo front place left := by
  obtain ⟨⟨hnul, -⟩, r, hr, hcanonical⟩ := canonicalize_eq_ok.1 h
  exact ⟨r.1, r.2, hcanonical, hnul, followWithin_of_thins (.steady _) hr⟩

structure GoOn (front : Path) (place : Place) (rest : List FileName) (p q : Path) : Prop where
  isAbsolute : p.isAbsolute = front.isAbsolute
  steady : Path.steady (pieces p.text) = Path.steady (pieces front.text) ++ rest
  isAbsolute' : q.isAbsolute = true
  steady' : Path.steady (pieces q.text) = place ++ rest

variable {front p q r : Path} {rest : List FileName} {left : Nat}

theorem steady_of_below (h : front.Below p rest) (hne : front.text ≠ []) :
    p.isAbsolute = front.isAbsolute ∧
      Path.steady (pieces p.text) = Path.steady (pieces front.text) ++ rest := by
  obtain ⟨component, components, hfront⟩ :=
    List.exists_cons_of_ne_nil (mt Path.components_eq_nil_iff.1 hne)
  constructor
  · rw [Bool.eq_iff_iff, Path.isAbsolute_iff, Path.isAbsolute_iff, h, hfront]
    rfl
  · have hnames : (rest.map Path.Component.name).filterMap Path.Component.piece? = rest := by
      rw [List.filterMap_map]
      exact List.filterMap_some
    rw [pieces, Path.steady_eq_filterMap, h, List.filterMap_append, hnames,
      ← Path.steady_eq_filterMap, pieces]

theorem LeadsTo.isDirectoryAt (h : t.LeadsTo front place left) (hbelow : front.Below p rest)
    (hne : front.text ≠ []) (hp : t.LeadsToDirectory p) : t.isDirectoryAt place = true := by
  obtain ⟨r, hr, hdirectory⟩ := hp
  obtain ⟨habsolute, hsteady⟩ := steady_of_below hbelow hne
  have hfollow := follow_of_followWithin h.follow
  rw [FileTree.follow] at hfollow
  rw [startOf, habsolute, ← startOf, hsteady, FileTree.follow, followWithin_append, hfollow] at hr
  change t.followWithin true _ left place rest = _ at hr
  cases rest with
  | nil =>
    have hend : t.followWithin true (fun _ => true) left place [] = .ok (place, left) := by
      cases left <;> rfl
    rw [hend] at hr
    cases hr
    exact hdirectory
  | cons n rest => exact isDirectoryAt_of_followWithin hr

theorem GoOn.of_below (hp : front.Below p rest) (hq : (pathOf place).Below q rest)
    (hne : front.text ≠ []) (hnames : ∀ n ∈ place, IsName n) : GoOn front place rest p q := by
  obtain ⟨habsolute, hsteady⟩ := steady_of_below hp hne
  obtain ⟨habsolute', hsteady'⟩ := steady_of_below hq (List.cons_ne_nil _ _)
  have hplace : Path.steady (pieces (pathOf place).text) = place := by
    by_cases hplace : place = []
    · rw [hplace]
      rfl
    · rw [pieces_pathOf hplace hnames, Path.steady, List.filter_cons_of_neg (by simp [Path.isIdle])]
      exact List.filter_eq_self.2 fun n hn => by simp [(hnames n hn).not_isIdle]
  exact ⟨habsolute, hsteady, habsolute', by rw [hsteady', hplace]⟩

theorem GoOn.join (h : GoOn front place rest p q) (hr : r.isAbsolute = false) :
    GoOn front place (rest ++ Path.steady (pieces r.text)) (p.join r) (q.join r) where
  isAbsolute := by rw [Path.isAbsolute_join p hr, h.isAbsolute]
  steady := by
    rw [← List.append_assoc, ← h.steady]
    exact Path.steady_join p hr
  isAbsolute' := by rw [Path.isAbsolute_join q hr, h.isAbsolute']
  steady' := by
    rw [← List.append_assoc, ← h.steady']
    exact Path.steady_join q hr

theorem followWithin_names (ht : t.WellNamed) (hplace : t.isDirectoryAt place = true)
    (hadmits : ∀ q, q <+: place → admits q = true) :
    t.followWithin true admits links [] place = .ok (place, links) := by
  obtain ⟨entries, hnode⟩ := exists_node_of_isDirectoryAt hplace
  have hnames {jump : Place → List FileName → Except FileFault (Place × Nat)} :
      t.followPieces true admits links jump [] place = .ok (place, links) :=
    followPieces_names (ht.isName hnode) (show t.node? ([] ++ place) = _ from hnode)
      (fun target => nofun) hadmits
  cases links with
  | zero => exact hnames
  | succ links => exact hnames

namespace GoOn

theorem followWithin_eq (h : GoOn front place rest p q) (ht : t.WellNamed)
    (hplace : t.isDirectoryAt place = true) (hadmits : ∀ q, q <+: place → admits q = true)
    (hfront : t.followWithin true admits linkLimit (t.startOf front)
      (Path.steady (pieces front.text)) = .ok (place, left))
    (hlinks : t.followWithin true admits linkLimit (t.startOf p) (Path.steady (pieces p.text)) ≠
      .error .tooManyLinks) :
    (t.followWithin true admits linkLimit (t.startOf p) (Path.steady (pieces p.text))).map Prod.fst =
      (t.followWithin true admits linkLimit (t.startOf q) (Path.steady (pieces q.text))).map
        Prod.fst := by
  have hstart : t.startOf p = t.startOf front := by rw [startOf, startOf, h.isAbsolute]
  have hstart' : t.startOf q = [] := by rw [startOf, if_pos h.isAbsolute']
  have hp : t.followWithin true admits linkLimit (t.startOf p) (Path.steady (pieces p.text)) =
      t.followWithin true admits left place rest := by
    rw [hstart, h.steady, followWithin_append, hfront]
    rfl
  have hq : t.followWithin true admits linkLimit (t.startOf q) (Path.steady (pieces q.text)) =
      t.followWithin true admits linkLimit place rest := by
    rw [hstart', h.steady', followWithin_append, followWithin_names ht hplace hadmits]
    rfl
  obtain ⟨more, hmore⟩ := Nat.exists_eq_add_of_le (followWithin_links_le hfront)
  rw [hp] at hlinks ⊢
  rw [hq, hmore, followWithin_add more hlinks]
  cases t.followWithin true admits left place rest <;> rfl

theorem nul_eq (h : GoOn front place rest p q) (ht : t.WellNamed)
    (hplace : t.isDirectoryAt place = true) (hfront : front.text.contains '\x00' = false) :
    p.text.contains '\x00' = q.text.contains '\x00' := by
  obtain ⟨entries, hnode⟩ := exists_node_of_isDirectoryAt hplace
  have hnames : '\x00' ∉ place.flatten := by
    intro hnul
    obtain ⟨name, hname, hnul⟩ := List.mem_flatten.1 hnul
    exact (ht.isName hnode name hname).nulFree hnul
  have hfront : '\x00' ∉ (Path.steady (pieces front.text)).flatten := by
    rw [← contains_nul_iff, hfront]
    nofun
  rw [Bool.eq_iff_iff, contains_nul_iff, contains_nul_iff, h.steady, h.steady']
  simp [hnames, hfront]

theorem locate_eq (h : GoOn front place rest p q) (ht : t.WellNamed)
    (hplace : t.isDirectoryAt place = true) (hfront : t.LeadsTo front place left)
    (hp : EndsInName p) (hq : EndsInName q) (hlinks : t.locate true p ≠ .error .tooManyLinks) :
    t.locate true p = t.locate true q := by
  have hnul := h.nul_eq ht hplace hfront.nulFree
  cases hpnul : p.text.contains '\x00' with
  | true => rw [locate, locate, reach, reach, if_pos hpnul, if_pos (hnul ▸ hpnul)]
  | false =>
    have hpreach := hp.reach_eq_follow (t := t) hpnul
    have hqreach := hq.reach_eq_follow (t := t) (hnul ▸ hpnul)
    rw [locate, hpreach] at hlinks
    rw [locate, locate, hpreach, hqreach]
    refine h.followWithin_eq ht hplace (fun _ _ => rfl) (follow_of_followWithin hfront.follow) ?_
    intro hmany
    rw [follow, hmany] at hlinks
    exact hlinks rfl

theorem isWithinReach (h : GoOn front place rest p q) (hnames : ∀ n ∈ place, IsName n)
    (hshort : Text.byteLength q.text ≤ pathLimit) : FileTree.isWithinReach place = true := by
  obtain ⟨cs, hq⟩ : ∃ cs, q.text = '/' :: cs := by
    have habsolute := h.isAbsolute'
    rw [Path.isAbsolute, decide_eq_true_eq] at habsolute
    exact List.head?_eq_some_iff.1 habsolute
  have hlength := Text.byteLength_splitOn q.text
  have hsteady := h.steady'
  have hsplit : Text.splitOn Path.isSeparator q.text = [] :: Text.splitOn Path.isSeparator cs := by
    rw [hq, Text.splitOn_cons_of_pos (by rfl)]
  rw [hsplit, List.map_cons, List.sum_cons, Text.byteLength_nil] at hlength
  rw [pieces, hsplit, Path.steady, List.filter_cons_of_neg (by simp [Path.isIdle])] at hsteady
  have hkept : ((place ++ rest).map (Text.byteLength · + 1)).sum ≤
      ((Text.splitOn Path.isSeparator cs).map (Text.byteLength · + 1)).sum := by
    rw [← hsteady]
    exact (List.filter_sublist.map _).sum_le_sum (by simp)
  rw [List.map_append, List.sum_append] at hkept
  refine decide_eq_true ?_
  have hslash : Text.byteLength ['/'] = 1 := rfl
  simp only [pathOf, Text.byteLength_cons, Text.byteLength_nil] at hslash ⊢
  by_cases hplace : place = []
  · have hone : 1 ≤ ((Text.splitOn Path.isSeparator cs).map (Text.byteLength · + 1)).sum := by
      rw [Text.byteLength_splitOn]
      omega
    simp only [hplace, List.intercalate_nil, Text.byteLength_nil]
    omega
  · have hplace := Path.splitOn_intercalate hplace fun n hn => (hnames n hn).slashFree
    have hpath := Text.byteLength_splitOn (['/'].intercalate place)
    rw [hplace] at hpath
    omega

theorem canonicalize_eq (h : GoOn front place rest p q) (ht : t.WellNamed)
    (hplace : t.isDirectoryAt place = true) (hfront : t.LeadsTo front place left)
    {s s' : Place × Nat} (hp : t.reach true p = .ok s) (hq : t.reach true q = .ok s') :
    t.canonicalize p = t.canonicalize q := by
  obtain ⟨⟨hpnul, hpne, -⟩, hpfollow⟩ := reach_eq_ok.1 hp
  obtain ⟨⟨hqnul, hqne, hshort⟩, hqfollow⟩ := reach_eq_ok.1 hq
  obtain ⟨entries, hnode⟩ := exists_node_of_isDirectoryAt hplace
  have hp' := followWithin_eq_of_thins FileTree.isWithinReach (.steady _) hpfollow
  have hq' := followWithin_eq_of_thins FileTree.isWithinReach (.steady _) hqfollow
  have hadmits (q : Place) (hq : q <+: place) : FileTree.isWithinReach q = true :=
    isWithinReach_of_prefix hq (h.isWithinReach (ht.isName hnode) hshort)
  have hlinks : t.followWithin true FileTree.isWithinReach linkLimit (t.startOf p)
      (Path.steady (pieces p.text)) ≠ .error .tooManyLinks := by
    have hrestricted := restricted_followWithin FileTree.isWithinReach hpfollow
    rw [← hp']
    generalize t.followWithin true _ linkLimit (t.startOf p) (pieces p.text) = answer at hrestricted ⊢
    intro hanswer
    cases hrestricted <;> cases hanswer
  have hsame := h.followWithin_eq ht hplace hadmits hfront.follow hlinks
  have hmap (x : Except FileFault (Place × Nat)) :
      x.map (fun r => pathOf r.1) = (x.map Prod.fst).map pathOf := by
    cases x <;> rfl
  rw [canonicalize, canonicalize, if_neg (Bool.eq_false_iff.1 hpnul), if_neg hpne,
    if_neg (Bool.eq_false_iff.1 hqnul), if_neg hqne, hp', hq', hmap, hmap, hsame]

end GoOn

inductive Meet (t : FileTree) (p q : Path) : Prop
  | spelling (h : p.components = q.components)
  | detour {front : Path} {place : Place} {left : Nat} {rest : List FileName}
      (hplace : t.isDirectoryAt place = true) (hfront : t.LeadsTo front place left)
      (h : GoOn front place rest p q)

namespace Meet

theorem join (h : t.Meet p q) (r : Path) : t.Meet (p.join r) (q.join r) := by
  cases h with
  | spelling h => exact .spelling (Path.components_join_congr h r)
  | detour hplace hfront h =>
    cases hr : r.isAbsolute with
    | true => exact .spelling (by simp [Path.join, hr])
    | false => exact .detour hplace hfront (h.join hr)

theorem locate_eq (h : t.Meet p q) (ht : t.WellNamed) (hp : EndsInName p) (hq : EndsInName q)
    (hlinks : t.locate true p ≠ .error .tooManyLinks) : t.locate true p = t.locate true q := by
  cases h with
  | detour hplace hfront h => exact h.locate_eq ht hplace hfront hp hq hlinks
  | spelling h =>
    obtain ⟨habsolute, hsteady⟩ := Path.steady_eq_of_components hp.text_ne_nil hq.text_ne_nil h
    have hnul : p.text.contains '\x00' = q.text.contains '\x00' := by
      rw [Bool.eq_iff_iff, contains_nul_iff, contains_nul_iff, pieces, pieces, hsteady]
    cases hpnul : p.text.contains '\x00' with
    | true => rw [locate, locate, reach, reach, if_pos hpnul, if_pos (hnul ▸ hpnul)]
    | false =>
      rw [locate, locate, hp.reach_eq_follow hpnul, hq.reach_eq_follow (hnul ▸ hpnul), startOf,
        startOf, habsolute, pieces, pieces, hsteady]

theorem canonicalize_eq (h : t.Meet p q) (ht : t.WellNamed) {s s' : Place × Nat}
    (hp : t.reach true p = .ok s) (hq : t.reach true q = .ok s') :
    t.canonicalize p = t.canonicalize q := by
  cases h with
  | detour hplace hfront h => exact h.canonicalize_eq ht hplace hfront hp hq
  | spelling h => exact canonicalize_congr h hp hq

end Meet

end FileTree

end ImportAtlas
