import ImportAtlas.Proofs.Erasure.Heading
import ImportAtlas.Proofs.Erasure.Thinning
import ImportAtlas.Proofs.Reference.Rescan

namespace ImportAtlas

open Text Lexeme ScanState

namespace Text.Cursor

variable {c : Cursor}

theorem exists_passes_skipMark (c : Cursor) :
    ∃ A, c.Passes A c.skipMark ∧ ∀ x ∈ A, x = byteOrderMark := by
  unfold skipMark
  split
  · rename_i hc
    obtain ⟨k, hk⟩ := List.head?_eq_some_iff.1 hc
    exact ⟨[byteOrderMark], .of_rest hk, by simp⟩
  · exact ⟨[], .refl c, by simp⟩

theorem exists_passes_skipHashbang (c : Cursor) :
    ∃ A, c.Passes A c.skipHashbang ∧ '\n' ∉ A ∧ headIs (· ≠ '#') A = false := by
  unfold skipHashbang
  split
  · rename_i hc
    refine ⟨_, .of_rest List.takeWhile_append_dropWhile.symm, fun h => ?_, ?_⟩
    · simpa using List.mem_takeWhile_imp h
    · obtain ⟨k, hk⟩ := exists_of_hashbang hc
      rw [hk]
      rfl
  · exact ⟨[], .refl c, by simp, rfl⟩

end Text.Cursor

namespace Erasure

variable {rest? : List Char → Option (List Char)} {cs : List Char}

theorem exists_passes_initial (hslash : OpensWithSlash rest?) (cs : List Char) :
    ∃ A, (Cursor.ofText cs).Passes A (initial cs).cursor ∧ Spares rest? (.ofText cs) A := by
  obtain ⟨A, hA, hmark⟩ := Cursor.exists_passes_skipMark (.ofText cs)
  obtain ⟨B, hB, hline, hhead⟩ := Cursor.exists_passes_skipHashbang (Cursor.ofText cs).skipMark
  refine ⟨A ++ B, hA.trans hB, .of_line hslash ?_ ?_ (hA.trans hB)⟩
  · rw [List.mem_append, not_or]
    exact ⟨fun h => absurd (hmark _ h) (by decide), hline⟩
  · cases A with
    | nil =>
      refine headIs_eq_false_of_imp (fun x hx => decide_eq_true ?_) hhead
      rintro rfl
      exact absurd hx (by decide)
    | cons x A =>
      rw [hmark x List.mem_cons_self]
      exact (by decide : (isIndent byteOrderMark || decide (byteOrderMark = '/')) = false)

/-- The comments of the form are apart from all else that the scanner reads in the text,
and none hides what is passed over at its beginning. -/
structure Separable (rest? : List Char → Option (List Char)) (cs : List Char) : Prop where
  detaches : (initial cs).Detaches rest?
  beginning : (initial (erase (.ofRest rest?) cs)).cursor.before = (initial cs).cursor.before

theorem scan_erase (hslash : OpensWithSlash rest?) {references : List Reference}
    (h : (initial cs).run = .ok references) (hcs : Separable rest? cs) :
    ∃ references', (initial (erase (.ofRest rest?) cs)).run = .ok references' ∧
      references'.map (fun r => (r.specifier, r.kind)) =
        references.map fun r => (r.specifier, r.kind) := by
  obtain ⟨L, hL, hrefs⟩ := exists_runs h
  obtain ⟨A, hA, hspares⟩ := exists_passes_initial hslash cs
  obtain ⟨A', hA', -⟩ := exists_passes_initial hslash (erase (.ofRest rest?) cs)
  have hrest : (initial (erase (.ofRest rest?) cs)).cursor.rest =
      remains rest? (initial cs).cursor := by
    have hsame : A' = A := by
      simpa [hA.before_eq, hA'.before_eq, Cursor.ofText] using hcs.beginning
    have herase : erase (.ofRest rest?) cs = A ++ remains rest? (initial cs).cursor :=
      remains_append hslash hspares hA
    exact List.append_cancel_left (hA'.rest_eq.symm.trans (herase.trans (hsame ▸ rfl)))
  have halike : (initial cs).Alike (initial (erase (.ofRest rest?) cs)) :=
    ⟨trivial, rfl, rfl, rfl, rfl, .of_before hcs.beginning⟩
  obtain ⟨L', hL', hnames⟩ := hL.thin hslash halike hcs.detaches hrest
  refine ⟨_, hL'.run_eq, ?_⟩
  rw [hrefs, List.map_append, List.map_append, Layout.map_references, Layout.map_references, hnames]
  rfl

/-- A module without types imports what it did before, whatever comments about source
maps are erased, as long as they are separable. -/
theorem scan_normalize_sourceMaps {path : Path} {text : String} {references : List Reference}
    (hpath : isTypeScript path = false) (h : scan text = .ok references)
    (hline : Separable lineMapRest? text.toList)
    (hblock : Separable blockMapRest? (erase (.ofRest lineMapRest?) text.toList)) :
    ∃ references', scan (normalize true path text) = .ok references' ∧
      references'.map (fun r => (r.specifier, r.kind)) =
        references.map fun r => (r.specifier, r.kind) := by
  obtain ⟨references₁, h₁, hnames₁⟩ := scan_erase opensWithSlash_line h hline
  obtain ⟨references₂, h₂, hnames₂⟩ := scan_erase opensWithSlash_block h₁ hblock
  have hnormal : (normalize true path text).toList = sourceMaps text.toList := by
    rw [normalize, hpath, String.toList_ofList]
    rfl
  refine ⟨references₂, ?_, hnames₂.trans hnames₁⟩
  rw [scan, hnormal]
  exact h₂

def mappedModule : String :=
  "import './a.js';\n//# sourceMappingURL=a.js.map\nexport * from './b.js';\n" ++
    "/*# sourceMappingURL=b.js.map */"

def blockMappedModule : String :=
  "import './a.js';\nexport * from './b.js';\n/*# sourceMappingURL=b.js.map */"

def mappedReferences : List Reference :=
  [⟨"./a.js", 7, 15, .declaration⟩, ⟨"./b.js", 61, 69, .reExport⟩]

theorem exists_of_after? {n m : Nat} {s : ScanState} (h : (match s.after? n with
    | some s' => (match s'.mode with | .code => true | .template _ => false) &&
      s'.cursor = s.cursor.advance m
    | none => false) = true) :
    ∃ s', Relation.ReflTransGen Next s s' ∧ s'.mode = .code ∧ s'.cursor = s.cursor.advance m := by
  split at h
  · rename_i s' hs'
    rw [Bool.and_eq_true, decide_eq_true_eq] at h
    refine ⟨s', reaches_of_after? hs', ?_, h.2⟩
    cases hm : s'.mode with
    | code => rfl
    | template => simp [hm] at h
  · contradiction

theorem separable_line_mappedModule : Separable lineMapRest? mappedModule.toList := by
  obtain ⟨s, hs, hm, hcursor⟩ :=
    exists_of_after? (n := 2) (m := 16) (s := initial mappedModule.toList) (by decide +kernel)
  let p := (initial mappedModule.toList).cursor.advance 17
  have htrivia : Trivia "//# sourceMappingURL=a.js.map\n".toList :=
    .line (by decide : '\n' ∉ "# sourceMappingURL=a.js.map".toList) .nil
  refine ⟨.of_ownLine (p := p) (q := p.advance 30) hs hm htrivia ?_ (by decide +kernel),
    by decide +kernel⟩
  rw [hcursor]
  decide +kernel

theorem separable_block_mappedModule : Separable blockMapRest? blockMappedModule.toList := by
  obtain ⟨s, hs, hm, hcursor⟩ :=
    exists_of_after? (n := 4) (m := 40) (s := initial blockMappedModule.toList) (by decide +kernel)
  let p := (initial blockMappedModule.toList).cursor.advance 41
  have htrivia : Trivia "/*# sourceMappingURL=b.js.map */".toList :=
    .block (by decide +kernel : ¬ ['*', '/'] <:+: "# sourceMappingURL=b.js.map ".toList) .nil
  refine ⟨.of_ownLine (p := p) (q := p.advance 32) hs hm htrivia ?_ (by decide +kernel),
    by decide +kernel⟩
  rw [hcursor]
  decide +kernel

theorem scan_normalize_mappedModule :
    isTypeScript (Path.ofString "/w/mod.js") = false ∧
    scan mappedModule = .ok mappedReferences ∧
    Separable lineMapRest? mappedModule.toList ∧
    Separable blockMapRest? (erase (.ofRest lineMapRest?) mappedModule.toList) ∧
    ∃ references, scan (normalize true (Path.ofString "/w/mod.js") mappedModule) = .ok references ∧
      references.map (fun r => (r.specifier, r.kind)) =
        [("./a.js", .declaration), ("./b.js", .reExport)] := by
  have hpath : isTypeScript (Path.ofString "/w/mod.js") = false := by decide +kernel
  have hscan : scan mappedModule = .ok mappedReferences :=
    Outcome.eq_ok_of_toOption (by decide +kernel)
  have herase : erase (.ofRest lineMapRest?) mappedModule.toList = blockMappedModule.toList := by
    decide +kernel
  have hblock := separable_block_mappedModule
  rw [← herase] at hblock
  exact ⟨hpath, hscan, separable_line_mappedModule, hblock,
    scan_normalize_sourceMaps hpath hscan separable_line_mappedModule hblock⟩

def templateModule : String := "const s = \x60\n//# sourceMappingURL=\x60;\nimport './a.js';"

/-- It is no comment: without it the template is left open. -/
theorem scan_normalize_templateModule :
    isTypeScript (Path.ofString "/w/mod.js") = false ∧
    scan templateModule = .ok [⟨"./a.js", 43, 51, .declaration⟩] ∧
    ∀ references, scan (normalize true (Path.ofString "/w/mod.js") templateModule) ≠
      .ok references := by
  refine ⟨by decide +kernel, Outcome.eq_ok_of_toOption (by decide +kernel), ?_⟩
  intro references h
  have hnone : (scan (normalize true (Path.ofString "/w/mod.js") templateModule)).toOption = none := by
    decide +kernel
  rw [h] at hnone
  cases hnone

end Erasure

end ImportAtlas
