import Mathlib.Data.List.Nodup
import ImportAtlas.Manifest.Target
import ImportAtlas.Proofs.Json.Keys
import ImportAtlas.Proofs.Path.Components
import ImportAtlas.Text.Cut

namespace ImportAtlas.Target

open Text

/-- What a key stands for in a field of a manifest. -/
def ofField : Scope → Json → String → List String → Option String
  | .exports => ofExports
  | .imports => ofImports

/-- The key `name` is a pattern, which matches `key` with `star` for its star. -/
structure Fits (name : String) (p : Pattern) (star key : List Char) : Prop where
  name_eq : name.toList = p.head ++ '*' :: p.tail
  star_not_mem_head : '*' ∉ p.head
  star_not_mem_tail : '*' ∉ p.tail
  key_eq : key = p.head ++ star ++ p.tail
  star_ne : star ≠ []

/-- The longer text before the star is the more specific one, then the longer key. -/
def Pattern.MoreSpecific (p q : Pattern) : Prop :=
  byteLength q.head < byteLength p.head ∨
    byteLength q.head = byteLength p.head ∧ q.length < p.length

/-- The entry of the candidate has the longest key of those that fit, and is the
first of several. -/
def Selected (members : Json.Members) (key : List Char) (c : Candidate) : Prop :=
  ∃ name front back, members = front ++ (name, c.target) :: back ∧
    Fits name c.pattern c.star key ∧
    (∀ m ∈ front, ∀ p star, Fits m.1 p star key → p.length < c.pattern.length) ∧
    ∀ m ∈ back, ∀ p star, Fits m.1 p star key → p.length ≤ c.pattern.length

/-- No two entries that fit have keys of the same length. -/
def LengthsDiffer (members : Json.Members) (key : List Char) : Prop :=
  members.Pairwise fun m m' => ∀ p star q star', Fits m.1 p star key → Fits m'.1 q star' key →
    p.length ≠ q.length

/-- Of two entries that fit, the one with the longer text before its star has the
longer key. -/
def LengthsAgree (members : Json.Members) (key : List Char) : Prop :=
  ∀ m ∈ members, ∀ m' ∈ members, ∀ p star q star', Fits m.1 p star key → Fits m'.1 q star' key →
    byteLength q.head < byteLength p.head → q.length < p.length

variable {members members' : Json.Members} {key : List Char} {name other : String} {p q : Pattern}
  {star star' : List Char} {c d : Candidate} {cs ds : List Candidate}

namespace Pattern

theorem ofKey?_eq_some : ofKey? name = some p ↔
    name.toList = p.head ++ '*' :: p.tail ∧ '*' ∉ p.head ∧ '*' ∉ p.tail := by
  have starless {piece : List Char} : '*' ∉ piece ↔ ∀ c ∈ piece, decide (c = '*') = false := by
    simp only [decide_eq_false_iff_not]
    exact ⟨fun h c hc heq => h (heq ▸ hc), fun h hmem => h _ hmem rfl⟩
  constructor
  · intro h
    unfold ofKey? at h
    split at h
    · rename_i head tail hpieces
      cases h
      have hname : ['*'].intercalate (splitOn (· = '*') name.toList) = name.toList := by
        rw [splitOn_eq_splitOnP]
        exact List.intercalate_splitOn '*'
      have hpiece : ∀ piece ∈ [head, tail], '*' ∉ piece := fun piece hmem =>
        starless.2 (forall_of_mem_splitOn (hpieces ▸ hmem))
      refine ⟨?_, hpiece head (by simp), hpiece tail (by simp)⟩
      simpa [hpieces, List.intercalate] using hname.symm
    · cases h
  · rintro ⟨hname, hhead, htail⟩
    unfold ofKey?
    rw [hname, splitOn_append (p := (decide <| · = '*')) (by simp),
      splitOn_of_forall (starless.1 hhead), splitOn_of_forall (starless.1 htail)]
    rfl

theorem match?_eq_some : p.match? key = some star ↔ key = p.head ++ star ++ p.tail ∧ star ≠ [] := by
  constructor
  · intro h
    obtain ⟨rest, hrest, h⟩ := Option.bind_eq_some_iff.1 h
    obtain ⟨reversed, hreversed, h⟩ := Option.bind_eq_some_iff.1 h
    split at h
    · cases h
    · rename_i hne
      cases h
      rw [stripHead_eq_some] at hrest hreversed
      refine ⟨?_, by simpa using hne⟩
      rw [hrest, ← List.reverse_reverse rest, hreversed, List.reverse_append, List.reverse_reverse,
        List.append_assoc]
  · rintro ⟨rfl, hne⟩
    refine Option.bind_eq_some_iff.2 ⟨star ++ p.tail, ?_, ?_⟩
    · rw [stripHead_eq_some, List.append_assoc]
    · refine Option.bind_eq_some_iff.2 ⟨star.reverse, ?_, ?_⟩
      · rw [stripHead_eq_some, List.reverse_append]
      · simp [hne]

end Pattern

theorem fits_iff : Fits name p star key ↔
    Pattern.ofKey? name = some p ∧ p.match? key = some star := by
  rw [Pattern.ofKey?_eq_some, Pattern.match?_eq_some]
  exact ⟨fun h => ⟨⟨h.name_eq, h.star_not_mem_head, h.star_not_mem_tail⟩, h.key_eq, h.star_ne⟩,
    fun h => ⟨h.1.1, h.1.2.1, h.1.2.2, h.2.1, h.2.2⟩⟩

namespace Fits

theorem length_eq (h : Fits name p star key) : p.length = byteLength name.toList := by
  rw [h.name_eq, byteLength_append, byteLength_cons, show '*'.utf8Size = 1 from rfl,
    Pattern.length, Nat.add_assoc]

theorem unique (h : Fits name p star key) (h' : Fits other q star' key)
    (hhead : byteLength p.head = byteLength q.head) (hlength : p.length = q.length) :
    name = other := by
  have hcut : cut? (byteLength p.head) key = cut? (byteLength q.head) key := by rw [hhead]
  rw [h.key_eq, List.append_assoc, cut?_append, ← List.append_assoc, ← h.key_eq, h'.key_eq,
    List.append_assoc, cut?_append, Option.some.injEq, Prod.mk.injEq] at hcut
  obtain ⟨hsame, hrest⟩ := hcut
  -- The tails are cut from the end of the text.
  have htail : byteLength p.tail = byteLength q.tail := by
    rw [Pattern.length, Pattern.length] at hlength
    omega
  have hstar : byteLength star = byteLength star' := by
    have := congrArg byteLength hrest
    rw [byteLength_append, byteLength_append] at this
    omega
  have hcut : cut? (byteLength star) (star ++ p.tail) = cut? (byteLength star') (star' ++ q.tail) := by
    rw [hstar, hrest]
  rw [cut?_append, cut?_append, Option.some.injEq, Prod.mk.injEq] at hcut
  rw [← String.toList_inj, h.name_eq, h'.name_eq, hsame, hcut.2]

end Fits

def candidate? (key : List Char) (m : String × Json) : Option Candidate :=
  (Pattern.ofKey? m.1).bind fun p => (p.match? key).map fun star => ⟨p, m.2, star⟩

theorem candidates_eq_filterMap : candidates members key = members.filterMap (candidate? key) := rfl

theorem candidate?_eq_some {m : String × Json} :
    candidate? key m = some c ↔ c.target = m.2 ∧ Fits m.1 c.pattern c.star key := by
  constructor
  · intro h
    obtain ⟨p, hp, h⟩ := Option.bind_eq_some_iff.1 h
    obtain ⟨star, hstar, rfl⟩ := Option.map_eq_some_iff.1 h
    exact ⟨rfl, fits_iff.2 ⟨hp, hstar⟩⟩
  · rintro ⟨htarget, hfits⟩
    obtain ⟨hp, hstar⟩ := fits_iff.1 hfits
    rw [candidate?, hp, Option.bind_some, hstar, Option.map_some, ← htarget]

theorem mem_candidates : c ∈ candidates members key ↔
    ∃ m ∈ members, c.target = m.2 ∧ Fits m.1 c.pattern c.star key := by
  simp only [candidates_eq_filterMap, List.mem_filterMap, candidate?_eq_some]

theorem longest_cons : longest (c :: cs) =
    match longest cs with
    | none => some c
    | some d => if c.pattern.length < d.pattern.length then some d else some c := rfl

theorem longest_eq_none_iff : longest cs = none ↔ cs = [] := by
  cases cs with
  | nil => simp [longest]
  | cons c cs =>
    rw [longest_cons]
    split
    · simp
    · split <;> simp

theorem exists_split_of_longest (h : longest cs = some c) : ∃ front back, cs = front ++ c :: back ∧
    (∀ d ∈ front, d.pattern.length < c.pattern.length) ∧
      ∀ d ∈ back, d.pattern.length ≤ c.pattern.length := by
  induction cs generalizing c with
  | nil => cases h
  | cons first rest ih =>
    rw [longest_cons] at h
    split at h
    · rename_i hnone
      cases h
      exact ⟨[], [], by rw [longest_eq_none_iff.1 hnone]; rfl, by simp, by simp⟩
    · rename_i d hd
      obtain ⟨front, back, rfl, hfront, hback⟩ := ih hd
      split at h
      · rename_i hlt
        cases h
        exact ⟨first :: front, back, rfl, List.forall_mem_cons.2 ⟨hlt, hfront⟩, hback⟩
      · rename_i hle
        cases h
        refine ⟨[], _, rfl, by simp, fun e he => Nat.le_trans ?_ (Nat.le_of_not_lt hle)⟩
        rcases List.mem_append.1 he with he | he
        · exact Nat.le_of_lt (hfront e he)
        · rcases List.mem_cons.1 he with rfl | he
          · exact Nat.le_refl _
          · exact hback e he

theorem mem_of_longest (h : longest cs = some c) : c ∈ cs := by
  obtain ⟨front, back, rfl, -, -⟩ := exists_split_of_longest h
  simp

theorem longest_of_split {front back : List Candidate}
    (hfront : ∀ d ∈ front, d.pattern.length < c.pattern.length)
    (hback : ∀ d ∈ back, d.pattern.length ≤ c.pattern.length) :
    longest (front ++ c :: back) = some c := by
  induction front with
  | nil =>
    rw [List.nil_append, longest_cons]
    split
    · rfl
    · rename_i d hd
      exact if_neg (Nat.not_lt.2 (hback d (mem_of_longest hd)))
  | cons first front ih =>
    obtain ⟨hfirst, hfront⟩ := List.forall_mem_cons.1 hfront
    rw [List.cons_append, longest_cons, ih hfront]
    exact if_pos hfirst

theorem longest_eq_some_iff : longest cs = some c ↔ ∃ front back, cs = front ++ c :: back ∧
    (∀ d ∈ front, d.pattern.length < c.pattern.length) ∧
      ∀ d ∈ back, d.pattern.length ≤ c.pattern.length := by
  constructor
  · exact exists_split_of_longest
  · rintro ⟨front, back, rfl, hfront, hback⟩
    exact longest_of_split hfront hback

theorem longest_of_perm (h : cs.Perm ds) (hne : cs.Pairwise (·.pattern.length ≠ ·.pattern.length)) :
    longest cs = longest ds := by
  induction h with
  | nil => rfl
  | cons c _ ih => rw [longest_cons, longest_cons, ih (List.pairwise_cons.1 hne).2]
  | swap c d cs =>
    have hdc := (List.pairwise_cons.1 hne).1 c List.mem_cons_self
    simp only [longest_cons]
    cases longest cs <;> grind
  | trans h _ ih ih' =>
    exact (ih hne).trans (ih' ((h.pairwise_iff fun h => h.symm).1 hne))

theorem longest_candidates_eq_some_iff : longest (candidates members key) = some c ↔
    Selected members key c := by
  rw [longest_eq_some_iff, candidates_eq_filterMap]
  constructor
  · rintro ⟨front, back, hsplit, hfront, hback⟩
    obtain ⟨before, after, rfl, rfl, hafter⟩ := List.filterMap_eq_append_iff.1 hsplit
    obtain ⟨skipped, m, back', rfl, hskipped, hm, rfl⟩ := List.filterMap_eq_cons_iff.1 hafter
    obtain ⟨htarget, hfits⟩ := candidate?_eq_some.1 hm
    refine ⟨m.1, before ++ skipped, back', ?_, hfits, fun e he p star h => ?_, fun e he p star h => ?_⟩
    · rw [List.append_assoc, htarget]
    · rcases List.mem_append.1 he with he | he
      · exact hfront ⟨p, e.2, star⟩ (mem_candidates.2 ⟨e, he, rfl, h⟩)
      · have hsome : candidate? key e = some ⟨p, e.2, star⟩ := candidate?_eq_some.2 ⟨rfl, h⟩
        rw [hskipped e he] at hsome
        cases hsome
    · exact hback ⟨p, e.2, star⟩ (mem_candidates.2 ⟨e, he, rfl, h⟩)
  · rintro ⟨name, front, back, rfl, hfits, hfront, hback⟩
    refine ⟨candidates front key, candidates back key, ?_, fun d hd => ?_, fun d hd => ?_⟩
    · have hsome : candidate? key (name, c.target) = some c := candidate?_eq_some.2 ⟨rfl, hfits⟩
      rw [List.filterMap_append, List.filterMap_cons_some hsome]
      rfl
    · obtain ⟨m, hm, -, h⟩ := mem_candidates.1 hd
      exact hfront m hm _ _ h
    · obtain ⟨m, hm, -, h⟩ := mem_candidates.1 hd
      exact hback m hm _ _ h

theorem pairwise_candidates (h : LengthsDiffer members key) :
    (candidates members key).Pairwise (·.pattern.length ≠ ·.pattern.length) :=
  List.Pairwise.filterMap _ (fun _ _ hne _ hc _ hd =>
    hne _ _ _ _ (candidate?_eq_some.1 hc).2 (candidate?_eq_some.1 hd).2) h

theorem lengthsDiffer_of_agree (hkeys : members.keys.Nodup) (h : LengthsAgree members key) :
    LengthsDiffer members key := by
  refine (List.pairwise_map.1 hkeys).imp_of_mem ?_
  intro m m' hm hm' hne p star q star' hp hq hlength
  rcases Nat.lt_trichotomy (byteLength p.head) (byteLength q.head) with hlt | heq | hlt
  · exact absurd (h m' hm' m hm _ _ _ _ hq hp hlt) (by omega)
  · exact hne (hp.unique hq heq hlength)
  · exact absurd (h m hm m' hm' _ _ _ _ hp hq hlt) (by omega)

theorem Selected.moreSpecific (hselected : Selected members key c) (hkeys : members.keys.Nodup)
    (h : LengthsAgree members key) :
    ∃ name, (name, c.target) ∈ members ∧ Fits name c.pattern c.star key ∧
      ∀ m ∈ members, ∀ p star, Fits m.1 p star key →
        m = (name, c.target) ∨ c.pattern.MoreSpecific p := by
  obtain ⟨name, front, back, rfl, hfits, hfront, hback⟩ := hselected
  refine ⟨name, by simp, hfits, fun m hm p star hp => ?_⟩
  by_cases hsame : m = (name, c.target)
  · exact .inl hsame
  have hle : p.length ≤ c.pattern.length := by
    rw [List.mem_append, List.mem_cons] at hm
    rcases hm with hm | rfl | hm
    · exact Nat.le_of_lt (hfront m hm p star hp)
    · exact absurd rfl hsame
    · exact hback m hm p star hp
  have hnot : ¬ byteLength c.pattern.head < byteLength p.head := fun hlt =>
    absurd (h m hm (name, c.target) (by simp) _ _ _ _ hp hfits hlt) (by omega)
  rcases Nat.lt_or_eq_of_le (Nat.le_of_not_lt hnot) with hlt | heq
  · exact .inr (.inl hlt)
  refine .inr (.inr ⟨heq, Nat.lt_of_le_of_ne hle fun hlength => hsame ?_⟩)
  have hname : m.1 = (name, c.target).1 := hp.unique hfits heq hlength
  exact List.inj_on_of_nodup_map hkeys hm (by simp) hname

section Field

variable {scope : Scope} {subpath : String} {conditions : List String}

theorem ofField_object (hsubpaths : scope = .exports → hasSubpaths members = true)
    (hkey : '*' ∈ subpath.toList ∨ members.get? subpath = none) :
    ofField scope (.object members) subpath conditions =
      (longest (candidates members subpath.toList)).bind fun c =>
        evaluate scope (some c.star) conditions c.target := by
  have hnamed : named? members subpath =
      (longest (candidates members subpath.toList)).map fun c => (c.target, some c.star) := by
    have hexact : (if subpath.toList.contains '*' then none else members.get? subpath) = none := by
      split
      · rfl
      · rename_i hstar
        exact hkey.resolve_left (by simpa using hstar)
    rw [named?, hexact]
  have hentry : ofField scope (.object members) subpath conditions =
      evaluateEntry scope members subpath conditions := by
    cases scope with
    | exports => rw [ofField, ofExports, if_pos (hsubpaths rfl)]
    | imports => rfl
  rw [hentry, evaluateEntry, hnamed, Option.bind_map]
  rfl

/-- Which entry stands for a key that has none of its own.  It is the selected one,
whose target alone is evaluated, and none where nothing fits.  The order of the
entries is indifferent where no two that fit have keys of one length; the selected
entry is the most specific one where lengths agree with specificity. -/
theorem ofField_of_selected (hsubpaths : scope = .exports → hasSubpaths members = true)
    (hkeys : members.keys.Nodup)
    (hkey : '*' ∈ subpath.toList ∨ members.get? subpath = none) :
    ((∀ m ∈ members, ∀ p star, ¬ Fits m.1 p star subpath.toList) →
      ofField scope (.object members) subpath conditions = none) ∧
    ((∃ m ∈ members, ∃ p star, Fits m.1 p star subpath.toList) →
      ∃ c, Selected members subpath.toList c) ∧
    (∀ c, Selected members subpath.toList c →
      ofField scope (.object members) subpath conditions =
        evaluate scope (some c.star) conditions c.target) ∧
    (LengthsDiffer members subpath.toList → ∀ members' : Json.Members, members.Perm members' →
      ofField scope (.object members') subpath conditions =
        ofField scope (.object members) subpath conditions) ∧
    (LengthsAgree members subpath.toList → LengthsDiffer members subpath.toList ∧
      ∀ c, Selected members subpath.toList c →
        ∃ name, (name, c.target) ∈ members ∧ Fits name c.pattern c.star subpath.toList ∧
          ∀ m ∈ members, ∀ p star, Fits m.1 p star subpath.toList →
            m = (name, c.target) ∨ c.pattern.MoreSpecific p) := by
  refine ⟨fun hnone => ?_, ?_, fun c hc => ?_, fun hdiffer members' hperm => ?_, fun hagree =>
    ⟨lengthsDiffer_of_agree hkeys hagree, fun c hc => hc.moreSpecific hkeys hagree⟩⟩
  · have hempty : candidates members subpath.toList = [] := by
      refine List.eq_nil_iff_forall_not_mem.2 fun c hc => ?_
      obtain ⟨m, hm, -, hfits⟩ := mem_candidates.1 hc
      exact hnone m hm _ _ hfits
    rw [ofField_object hsubpaths hkey, hempty]
    rfl
  · rintro ⟨m, hm, p, star, hfits⟩
    have hmem : Candidate.mk p m.2 star ∈ candidates members subpath.toList :=
      mem_candidates.2 ⟨m, hm, rfl, hfits⟩
    obtain ⟨c, hc⟩ := Option.ne_none_iff_exists'.1 fun hnone =>
      List.ne_nil_of_mem hmem (longest_eq_none_iff.1 hnone)
    exact ⟨c, longest_candidates_eq_some_iff.1 hc⟩
  · rw [ofField_object hsubpaths hkey, longest_candidates_eq_some_iff.2 hc]
    rfl
  · have hsubpaths' : scope = .exports → hasSubpaths members' = true := fun h => by
      rw [← hsubpaths h, hasSubpaths, hasSubpaths, hperm.any_eq]
    have hkey' : '*' ∈ subpath.toList ∨ Json.Members.get? subpath members' = none := by
      refine hkey.imp_right fun h => Json.Members.get?_eq_none_iff.2 fun hmem => ?_
      exact Json.Members.get?_eq_none_iff.1 h ((hperm.map Prod.fst).mem_iff.2 hmem)
    rw [ofField_object hsubpaths' hkey', ofField_object hsubpaths hkey]
    congr 1
    exact (longest_of_perm (hperm.filterMap _) (pairwise_candidates hdiffer)).symm

def minifiedMap : Json.Members :=
  [("./*.min.js", .string "./min/*.js"), ("./lib/*", .string "./src/*")]

theorem ofField_minifiedMap :
    Fits "./*.min.js" ⟨"./".toList, ".min.js".toList⟩ "lib/a".toList "./lib/a.min.js".toList ∧
    Fits "./lib/*" ⟨"./lib/".toList, []⟩ "a.min.js".toList "./lib/a.min.js".toList ∧
    Pattern.MoreSpecific ⟨"./lib/".toList, []⟩ ⟨"./".toList, ".min.js".toList⟩ ∧
    ∀ members : Json.Members, minifiedMap.Perm members →
      ofField .exports (.object members) "./lib/a.min.js" ["import"] = some "./min/lib/a.js" := by
  have hlong : Fits "./*.min.js" ⟨"./".toList, ".min.js".toList⟩ "lib/a".toList
      "./lib/a.min.js".toList := fits_iff.2 ⟨by decide +kernel, by decide +kernel⟩
  have hspecific : Fits "./lib/*" ⟨"./lib/".toList, []⟩ "a.min.js".toList
      "./lib/a.min.js".toList := fits_iff.2 ⟨by decide +kernel, by decide +kernel⟩
  refine ⟨hlong, hspecific, .inl (by decide), fun members hperm => ?_⟩
  have hlengths {p q : Pattern} {star star' : List Char}
      (hp : Fits "./*.min.js" p star "./lib/a.min.js".toList)
      (hq : Fits "./lib/*" q star' "./lib/a.min.js".toList) : p.length = 10 ∧ q.length = 7 := by
    rw [hp.length_eq, hq.length_eq]
    decide
  have hselected : Selected minifiedMap "./lib/a.min.js".toList
      ⟨⟨"./".toList, ".min.js".toList⟩, .string "./min/*.js", "lib/a".toList⟩ := by
    refine ⟨"./*.min.js", [], _, rfl, hlong, by simp, fun m hm q star' hq => ?_⟩
    cases List.mem_singleton.1 hm
    obtain ⟨hp, hq⟩ := hlengths hlong hq
    dsimp only at hp ⊢
    omega
  have hdiffer : LengthsDiffer minifiedMap "./lib/a.min.js".toList := by
    refine List.pairwise_pair.2 fun p star q star' hp hq => ?_
    obtain ⟨hp, hq⟩ := hlengths hp hq
    omega
  obtain ⟨-, -, hanswer, horder, -⟩ := @ofField_of_selected minifiedMap .exports
    "./lib/a.min.js" ["import"] (fun _ => by decide) (by decide) (.inr (by decide))
  rw [horder hdiffer members hperm, hanswer _ hselected]
  decide +kernel

end Field

end ImportAtlas.Target
