import Mathlib.Algebra.GroupWithZero.Nat
import Mathlib.Data.List.Chain
import Mathlib.Data.List.Pairwise
import ImportAtlas.Proofs.Outcome
import ImportAtlas.Proofs.Text.Boundary
import ImportAtlas.Splice

namespace ImportAtlas

open Text Outcome

variable {idFor : Reference → Option String} {cs rest out A : List Char}
  {references later others : List Reference} {r s : Reference} {offset length : Nat}

/-- The reference has a span of the text, and an id. -/
structure Reference.Replaceable (idFor : Reference → Option String) (cs : List Char)
    (r : Reference) : Prop where
  nonempty : r.start < r.stop
  within : r.stop ≤ byteLength cs
  start : IsBoundary cs r.start
  stop : IsBoundary cs r.stop
  named : (idFor r).isSome = true

/-- The second text is the first, which begins at `offset`, with the quoted id of each
reference in the place of its span: what comes before, between and after the spans is
kept. -/
inductive Replaced (idFor : Reference → Option String) :
    Nat → List Char → List Reference → List Char → Prop
  | tail {offset : Nat} (rest : List Char) : Replaced idFor offset rest [] rest
  | span {r : Reference} {later : List Reference} {offset : Nat} {span rest out : List Char}
      {id : String} (kept : List Char) (hspan : span ≠ [])
      (hstart : r.start = offset + byteLength kept) (hstop : r.stop = r.start + byteLength span)
      (hid : idFor r = some id) (hrest : Replaced idFor r.stop rest later out) :
      Replaced idFor offset (kept ++ (span ++ rest)) (r :: later) (kept ++ quoteId id ++ out)

namespace Replaced

theorem le_start (h : Replaced idFor offset rest references out) :
    ∀ r ∈ references, offset ≤ r.start := by
  induction h with
  | tail => simp
  | span kept hspan hstart hstop hid _ ih =>
    intro s hs
    rcases List.mem_cons.1 hs with rfl | hs
    · omega
    · have := ih s hs
      omega

theorem pairwise (h : Replaced idFor offset rest references out) :
    references.Pairwise fun r s => r.stop ≤ s.start := by
  induction h with
  | tail => exact .nil
  | span kept hspan hstart hstop hid hrest ih => exact .cons hrest.le_start ih

theorem replaceable (h : Replaced idFor (byteLength A) rest references out) :
    ∀ r ∈ references, r.Replaceable idFor (A ++ rest) := by
  generalize hoffset : byteLength A = offset at h
  induction h generalizing A with
  | tail => simp
  | @span r later _ span rest out id kept hspan hstart hstop hid hrest ih =>
    subst hoffset
    have hstart : r.start = byteLength (A ++ kept) := by rw [hstart, byteLength_append]
    have hstop : r.stop = byteLength (A ++ kept ++ span) := by
      rw [hstop, hstart, byteLength_append (A ++ kept)]
    intro s hs
    rcases List.mem_cons.1 hs with rfl | hs
    · have hpos := byteLength_pos hspan
      have hboundary : IsBoundary (A ++ (kept ++ (span ++ rest))) s.stop := by
        rw [hstop, ← List.append_assoc, ← List.append_assoc]
        exact .append
      refine ⟨?_, hboundary.le, ?_, hboundary, by rw [hid]; rfl⟩
      · rw [hstart, hstop, byteLength_append (A ++ kept)]
        omega
      · rw [hstart, ← List.append_assoc]
        exact .append
    · simpa using ih hstop.symm s hs

theorem byteLength_eq (h : Replaced idFor offset rest references out) :
    byteLength out + (references.map fun r => r.stop - r.start).sum =
      byteLength rest +
        (references.map fun r => byteLength ((idFor r).getD "").toList + 2).sum := by
  induction h with
  | tail => rfl
  | span kept hspan hstart hstop hid _ ih =>
    simp only [List.map_cons, List.sum_cons, byteLength_append, hid, Option.getD_some, quoteId,
      List.cons_append, byteLength_cons, byteLength_nil]
    have : '"'.utf8Size = 1 := rfl
    omega

end Replaced

theorem spliceFrom_eq_ok_iff (hlen : offset + byteLength rest = length) :
    spliceFrom idFor length offset rest references = .ok out ↔
      Replaced idFor offset rest references out := by
  constructor
  · intro h
    induction references generalizing offset rest out with
    | nil => cases h; exact .tail rest
    | cons r later ih =>
      simp only [spliceFrom] at h
      split at h
      · cases h
      split at h
      · cases h
      next hcovered hspan =>
      simp only [ge_iff_le, gt_iff_lt, Bool.or_eq_true, decide_eq_true_eq, not_or,
        Nat.not_le, Nat.not_lt] at hcovered hspan
      split at h
      · cases h
      next kept tail hkept =>
      split at h
      · cases h
      next span rest' hrest =>
      split at h
      · cases h
      next id hid =>
      -- both cuts fall between characters, so the span is a text of its own
      obtain ⟨rfl, hstart⟩ := cut?_eq hkept
      obtain ⟨rfl, hstop⟩ := cut?_eq hrest
      obtain ⟨out', hout, h⟩ := bind_eq_ok.1 h
      cases h
      refine .span kept ?_ (by omega) (by omega) hid (ih ?_ hout)
      · rintro rfl
        rw [byteLength_nil] at hstop
        omega
      · simp only [byteLength_append] at hlen
        omega
  · intro h
    induction h generalizing length with
    | tail => rfl
    | @span r later offset span rest out id kept hspan hstart hstop hid hrest ih =>
      have hpos := byteLength_pos hspan
      simp only [byteLength_append] at hlen
      have hkept : r.start - offset = byteLength kept := by omega
      have hcut : r.stop - r.start = byteLength span := by omega
      rw [spliceFrom, if_neg (by omega), if_neg (by simp; omega), hkept, cut?_append]
      dsimp only
      rw [hcut, cut?_append]
      dsimp only
      rw [hid]
      dsimp only
      rw [ih (by omega)]
      rfl

theorem exists_replaced (hrep : ∀ r ∈ references, r.Replaceable idFor (A ++ rest))
    (hle : ∀ r ∈ references.head?, byteLength A ≤ r.start)
    (hchain : references.IsChain fun r s => r.stop ≤ s.start) :
    ∃ out, Replaced idFor (byteLength A) rest references out := by
  induction references generalizing A rest with
  | nil => exact ⟨rest, .tail rest⟩
  | cons r later ih =>
    obtain ⟨hpos, -, hstart, hstop, hid⟩ := hrep r List.mem_cons_self
    obtain ⟨id, hid⟩ := Option.isSome_iff_exists.1 hid
    obtain ⟨kept, tail, rfl, hkept⟩ := hstart.exists_append (hle r rfl)
    rw [← List.append_assoc] at hstop
    obtain ⟨span, rest, rfl, hspan⟩ := hstop.exists_append (by rw [byteLength_append]; omega)
    rw [← byteLength_append] at hspan
    obtain ⟨hnext, hchain⟩ := List.isChain_cons.1 hchain
    have hlater : ∀ s ∈ later, s.Replaceable idFor (A ++ kept ++ span ++ rest) :=
      fun s hs => by simpa using hrep s (List.mem_cons_of_mem _ hs)
    obtain ⟨out, hout⟩ := ih hlater (fun s hs => hspan ▸ hnext s hs) hchain
    rw [← hspan] at hout
    refine ⟨_, .span kept ?_ hkept ?_ hid hout⟩
    · rintro rfl
      simp only [byteLength_append, byteLength_nil] at hspan
      omega
    · simp only [byteLength_append] at hspan
      omega

theorem Reference.spanLe_iff :
    Reference.spanLe r s = true ↔ r.start < s.start ∨ r.start = s.start ∧ r.stop ≤ s.stop := by
  simp [Reference.spanLe]

/-- The references in the order in which they are replaced. -/
def bySpan (references : List Reference) : List Reference :=
  references.mergeSort Reference.spanLe

theorem pairwise_bySpan (references : List Reference) :
    (bySpan references).Pairwise fun r s => Reference.spanLe r s = true := by
  apply List.pairwise_mergeSort
  · intro r s t
    simp only [Reference.spanLe_iff]
    omega
  · intro r s
    simp only [Bool.or_eq_true, Reference.spanLe_iff]
    omega

theorem bySpan_perm (references : List Reference) : (bySpan references).Perm references :=
  List.mergeSort_perm references Reference.spanLe

theorem bySpan_eq_of_perm (h : references.Perm others)
    (hpos : ∀ r ∈ references, r.start < r.stop)
    (hsep : (bySpan references).Pairwise fun r s => r.stop ≤ s.start) :
    bySpan references = bySpan others := by
  have hperm : (bySpan references).Perm (bySpan others) :=
    (bySpan_perm references).trans (h.trans (bySpan_perm others).symm)
  refine hperm.eq_of_pairwise ?_ (pairwise_bySpan references) (pairwise_bySpan others)
  intro r s hr hs hrs hsr
  by_contra hne
  have hs := hperm.mem_iff.2 hs
  have := hpos r ((bySpan_perm references).mem_iff.1 hr)
  have := hpos s ((bySpan_perm references).mem_iff.1 hs)
  rw [Reference.spanLe_iff] at hrs hsr
  have hsymm : Std.Symm fun r s : Reference => r.stop ≤ s.start ∨ s.stop ≤ r.start :=
    ⟨fun _ _ => Or.symm⟩
  have hapart : (bySpan references).Pairwise fun r s => r.stop ≤ s.start ∨ s.stop ≤ r.start :=
    hsep.imp Or.inl
  have := hapart.forall hr hs hne
  omega

theorem splice_eq_ok_iff {text out : String} :
    splice text references idFor = .ok out ↔
      Replaced idFor 0 text.toList (bySpan references) out.toList := by
  have hlen : 0 + byteLength text.toList = byteLength text.toList := Nat.zero_add _
  rw [← spliceFrom_eq_ok_iff hlen, splice, map_eq_ok, bySpan]
  constructor
  · rintro ⟨cs, h, rfl⟩
    rwa [String.toList_ofList]
  · intro h
    exact ⟨_, h, String.ofList_toList⟩

theorem splice_of_perm {text out : String} (hperm : references.Perm others)
    (h : splice text references idFor = .ok out) : splice text others idFor = .ok out := by
  rw [splice_eq_ok_iff] at h ⊢
  rwa [← bySpan_eq_of_perm hperm ?_ h.pairwise]
  intro r hr
  exact (h.replaceable (A := []) r ((bySpan_perm references).mem_iff.2 hr)).nonempty

/-- A splice succeeds just where each span is one of the text with an id and begins no
earlier than the one before it ends.  Then the text has the quoted ids in the place of
the spans and is as it was outside them.  All this is so in whichever order the
references are given. -/
theorem splice_characterized (text : String) (references : List Reference)
    (idFor : Reference → Option String) :
    ((∃ out, splice text references idFor = .ok out) ↔
      (∀ r ∈ bySpan references, r.Replaceable idFor text.toList) ∧
        (bySpan references).IsChain fun r s => r.stop ≤ s.start) ∧
    (∀ out, splice text references idFor = .ok out →
      Replaced idFor 0 text.toList (bySpan references) out.toList ∧
      byteLength out.toList + (references.map fun r => r.stop - r.start).sum =
        byteLength text.toList +
          (references.map fun r => byteLength ((idFor r).getD "").toList + 2).sum) ∧
    ∀ others, references.Perm others →
      ∀ out, splice text references idFor = .ok out ↔ splice text others idFor = .ok out := by
  refine ⟨⟨?_, ?_⟩, ?_, fun others hperm out => ⟨splice_of_perm hperm, splice_of_perm hperm.symm⟩⟩
  · rintro ⟨out, h⟩
    rw [splice_eq_ok_iff] at h
    exact ⟨h.replaceable (A := []), h.pairwise.isChain⟩
  · rintro ⟨hrep, hchain⟩
    obtain ⟨out, h⟩ := exists_replaced (A := []) hrep (fun _ _ => Nat.zero_le _) hchain
    refine ⟨String.ofList out, ?_⟩
    rwa [splice_eq_ok_iff, String.toList_ofList]
  · intro out h
    rw [splice_eq_ok_iff] at h
    refine ⟨h, ?_⟩
    have hperm := bySpan_perm references
    rw [← (hperm.map _).sum_nat, ← (hperm.map _).sum_nat]
    exact h.byteLength_eq

def reversedImports : List Reference :=
  [⟨"./b", 35, 40, .declaration⟩, ⟨"./a", 14, 19, .declaration⟩]

theorem splice_reversedImports :
    let text := "import a from './a';\nimport b from './b';\n"
    let idFor : Reference → Option String := fun r => some r.specifier
    reversedImports.Perm reversedImports.reverse ∧
    splice text reversedImports.reverse idFor =
      .ok "import a from \"./a\";\nimport b from \"./b\";\n" ∧
    splice text reversedImports idFor = splice text reversedImports.reverse idFor ∧
    (bySpan reversedImports).IsChain fun r s => r.stop ≤ s.start := by
  intro text idFor
  have hperm : reversedImports.Perm reversedImports.reverse := (List.reverse_perm _).symm
  have hsplice : splice text reversedImports.reverse idFor =
      .ok "import a from \"./a\";\nimport b from \"./b\";\n" := by
    rw [splice, List.mergeSort_of_pairwise (by decide)]
    exact eq_ok_of_toOption (by decide +kernel)
  obtain ⟨hok, -, hperms⟩ := splice_characterized text reversedImports idFor
  have hreversed := (hperms _ hperm _).2 hsplice
  exact ⟨hperm, hsplice, hreversed.trans hsplice.symm, (hok.1 ⟨_, hreversed⟩).2⟩

end ImportAtlas
