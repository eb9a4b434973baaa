import ImportAtlas.OsPath
import ImportAtlas.Proofs.Path.Relative
import ImportAtlas.Proofs.Text.Bytes
import ImportAtlas.Proofs.Text.Utf8

/-! Relative paths of paths in bytes.  Those of texts are the relative paths of the texts;
and where a name is no text, its relative path does not lead back to it. -/

namespace ImportAtlas

open Text

namespace Text

variable {cs ds : List Char}

theorem ofNat_toNat_ofNat (b : UInt8) : UInt8.ofNat (Char.ofNat b.toNat).toNat = b := by
  have hvalid : b.toNat.isValidChar := .inl (Nat.lt_trans b.toNat_lt (by decide))
  have hnat : (Char.ofNat b.toNat).toNat = b.toNat := by
    rw [Char.ofNat, dif_pos hvalid]
    rfl
  rw [hnat, UInt8.ofNat_toNat]

theorem readable_bytes (cs : List Char) :
    readable ((bytes cs).map fun b => UInt8.ofNat b.toNat) = cs := by
  have hbytes : (bytes cs).map (fun b => UInt8.ofNat b.toNat) = encodeUtf8 cs := by
    rw [bytes, List.map_map]
    exact (List.map_congr_left fun b _ => ofNat_toNat_ofNat b).trans (List.map_id _)
  rw [hbytes, readable_encodeUtf8]

theorem bytes_injective (h : bytes cs = bytes ds) : cs = ds := by
  rw [← readable_bytes cs, h, readable_bytes]

theorem bytes_eq_iff (cs ds : List Char) : bytes cs = bytes ds ↔ cs = ds :=
  ⟨bytes_injective, congrArg bytes⟩

theorem mem_bytes_iff {c : Char} (hc : isAscii c = true) : c ∈ bytes cs ↔ c ∈ cs := by
  induction cs with
  | nil => rfl
  | cons d cs ih =>
    cases hd : isAscii d with
    | true => rw [bytes_cons_of_isAscii hd, List.mem_cons, List.mem_cons, ih]
    | false =>
      have hne : c ≠ d := by
        rintro rfl
        rw [hc] at hd
        contradiction
      have hnot : c ∉ bytes [d] := fun hmem => by
        have hwide := isAscii_of_mem_bytes hd hmem
        rw [hc] at hwide
        contradiction
      rw [bytes_cons, List.mem_append, List.mem_cons, ih]
      simp [hne, hnot]

theorem bytes_intercalate (pieces : List (List Char)) :
    bytes (['/'].intercalate pieces) = ['/'].intercalate (pieces.map bytes) := by
  match pieces with
  | [] => rfl
  | [piece] => simp [List.intercalate]
  | piece :: next :: rest =>
    rw [List.intercalate_cons_cons, List.map_cons, List.map_cons, List.intercalate_cons_cons,
      bytes_append, bytes_append, bytes_intercalate (next :: rest)]
    rfl

theorem intercalate_splitOn (cs : List Char) :
    ['/'].intercalate (splitOn Path.isSeparator cs) = cs := by
  rw [splitOn_eq_splitOnP]
  exact List.intercalate_splitOn '/'

theorem splitOn_bytes (cs : List Char) :
    splitOn Path.isSeparator (bytes cs) = (splitOn Path.isSeparator cs).map bytes := by
  have hfree : ∀ piece ∈ (splitOn Path.isSeparator cs).map bytes, '/' ∉ piece := by
    intro piece hpiece
    obtain ⟨text, htext, rfl⟩ := List.mem_map.1 hpiece
    exact mt (mem_bytes_iff (by decide)).1 (Path.slashFree_of_mem_splitOn htext)
  have hne : (splitOn Path.isSeparator cs).map bytes ≠ [] := by
    simpa using splitOn_ne_nil Path.isSeparator cs
  calc
    splitOn Path.isSeparator (bytes cs) =
        splitOn Path.isSeparator (bytes (['/'].intercalate (splitOn Path.isSeparator cs))) := by
      rw [intercalate_splitOn]
    _ = (splitOn Path.isSeparator cs).map bytes := by
      rw [bytes_intercalate, Path.splitOn_intercalate hne hfree]

end Text

namespace Path

variable {path : Path} {piece first : List Char} {pieces rest : List (List Char)}

def Component.toBytes : Component → Component
  | .name text => .name (bytes text)
  | c => c

theorem Component.text_toBytes (c : Component) : c.toBytes.text = bytes c.text := by
  cases c with
  | name text => rfl
  | root => decide
  | current => decide
  | parent => decide

theorem Component.toBytes_injective : Function.Injective Component.toBytes := by
  intro c d h
  cases c <;> cases d <;> simp_all [toBytes, bytes_eq_iff]

theorem isIdle_bytes (piece : List Char) : isIdle (bytes piece) = isIdle piece := by
  have hnil : bytes piece = [] ↔ piece = [] := bytes_eq_iff piece []
  have hpoint : bytes piece = ['.'] ↔ piece = ['.'] := bytes_eq_iff piece ['.']
  simp only [isIdle, hnil, hpoint]

theorem componentOf_bytes (piece : List Char) :
    componentOf (bytes piece) = (componentOf piece).toBytes := by
  have hpoint : bytes piece = ['.'] ↔ piece = ['.'] := bytes_eq_iff piece ['.']
  have hpoints : bytes piece = ['.', '.'] ↔ piece = ['.', '.'] := bytes_eq_iff piece ['.', '.']
  simp only [componentOf, hpoint, hpoints]
  split
  · rfl
  · split <;> rfl

theorem steady_bytes (pieces : List (List Char)) :
    (steady (pieces.map bytes)).map componentOf =
      ((steady pieces).map componentOf).map Component.toBytes := by
  have hfilter : steady (pieces.map bytes) = (steady pieces).map bytes := by
    rw [steady, List.filter_map, steady]
    exact congrArg (List.map bytes) (List.filter_congr fun piece _ => by
      rw [Function.comp, isIdle_bytes])
  rw [hfilter, List.map_map, List.map_map]
  exact List.map_congr_left fun piece _ => componentOf_bytes piece

theorem leading_bytes (first : List Char) : leading (bytes first) = (leading first).toBytes := by
  have hnil : bytes first = [] ↔ first = [] := bytes_eq_iff first []
  simp only [leading, hnil]
  split
  · rfl
  · exact componentOf_bytes first

theorem components_bytes (cs : List Char) :
    (Path.mk (bytes cs)).components = (Path.mk cs).components.map Component.toBytes := by
  by_cases hcs : cs = []
  · rw [hcs]
    rfl
  · obtain ⟨first, rest, hsplit⟩ := List.exists_cons_of_ne_nil (splitOn_ne_nil isSeparator cs)
    have hbytes : splitOn isSeparator (bytes cs) = bytes first :: rest.map bytes := by
      rw [splitOn_bytes, hsplit, List.map_cons]
    have hne : bytes cs ≠ [] := mt (bytes_eq_iff cs []).1 hcs
    rw [components_eq_leading (p := ⟨bytes cs⟩) hne hbytes, components_eq_leading hcs hsplit,
      leading_bytes, steady_bytes, List.map_cons]

theorem steps_bytes (cs : List Char) :
    (Path.mk (bytes cs)).steps = (Path.mk cs).steps.map Component.toBytes := by
  rw [steps, splitOn_bytes, steady_bytes, steps]

theorem dropFront_toBytes (base cs : List Component) :
    dropFront (base.map Component.toBytes) (cs.map Component.toBytes) =
      (dropFront base cs).map (List.map Component.toBytes) := by
  induction base generalizing cs with
  | nil => rfl
  | cons b base ih =>
    cases cs with
    | nil => rfl
    | cons c cs =>
      simp only [List.map_cons, dropFront, Component.toBytes_injective.eq_iff]
      split
      · exact ih cs
      · rfl

end Path

namespace OsPath

open ImportAtlas.Path (Component)

variable {base p p' : OsPath} {directory path : Path} {relative : List Char}
  {steps : List Component}

theorem spelled_ofPath (path : Path) : (ofPath path).spelled = ⟨Text.bytes path.text⟩ := rfl

theorem components_ofPath (path : Path) :
    (ofPath path).components = path.components.map Component.toBytes :=
  Path.components_bytes path.text

theorem ofNat_toNat_eq_slash_iff {b : UInt8} : Char.ofNat b.toNat = '/' ↔ b = slash := by
  constructor
  · intro h
    rw [← ofNat_toNat_ofNat b, h]
    rfl
  · rintro rfl
    rfl

theorem spelled_join (p q : OsPath) : (p.join q).spelled = p.spelled.join q.spelled := by
  have habsolute : q.spelled.isAbsolute = decide (q.octets.head? = some slash) := by
    simp [Path.isAbsolute, spelled, ofNat_toNat_eq_slash_iff]
  have hlast : p.spelled.text.getLast? = some '/' ↔ p.octets.getLast? = some slash := by
    simp [spelled, ofNat_toNat_eq_slash_iff]
  have hempty : p.spelled.text = [] ↔ p.octets = [] := List.map_eq_nil_iff
  simp only [join, Path.join, habsolute, hlast, hempty]
  split_ifs <;> simp_all [spelled]
  rfl

def IsText (c : Component) : Prop := ∃ d : Component, c = d.toBytes

@[simp] theorem shown_toBytes (c : Component) : shown c.toBytes = c.text := by
  rw [shown, Component.text_toBytes, readable_bytes]

theorem slashed_toBytes (cs : List Component) :
    slashed (cs.map Component.toBytes) = Path.slashed cs := by
  rw [slashed, List.map_map, Path.slashed]
  exact congrArg _ (List.map_congr_left fun c _ => shown_toBytes c)

theorem bytes_slashed (cs : List Component) :
    bytes (Path.slashed cs) = Path.slashed (cs.map Component.toBytes) := by
  rw [Path.slashed, bytes_intercalate, List.map_map, Path.slashed, List.map_map]
  exact congrArg _ (List.map_congr_left fun c _ => (Component.text_toBytes c).symm)

theorem relativeTo_ofPath (directory path : Path) :
    (ofPath directory).relativeTo (ofPath path) = directory.relativeTo path := by
  rw [relativeTo, components_ofPath, components_ofPath, Path.dropFront_toBytes, Option.map_map,
    Path.relativeTo]
  exact congrArg (Option.map · _) (funext slashed_toBytes)

theorem relativeTo_isSome_iff :
    (base.relativeTo p).isSome = true ↔ base.components <+: p.components := by
  rw [relativeTo, Option.isSome_map, Option.isSome_iff_exists]
  exact exists_congr fun steps => Path.dropFront_eq_some.trans eq_comm

theorem exists_toBytes (h : ∀ c ∈ steps, IsText c) :
    ∃ texts : List Component, steps = texts.map Component.toBytes := by
  induction steps with
  | nil => exact ⟨[], rfl⟩
  | cons c steps ih =>
    obtain ⟨d, rfl⟩ := h c List.mem_cons_self
    obtain ⟨texts, rfl⟩ := ih fun c hc => h c (List.mem_cons_of_mem _ hc)
    exact ⟨d :: texts, rfl⟩

theorem isText_of_mem (cs : List Char) {c : Component}
    (h : c ∈ (Path.mk (bytes cs)).components) : IsText c := by
  rw [Path.components_bytes] at h
  obtain ⟨d, -, rfl⟩ := List.mem_map.1 h
  exact ⟨d, rfl⟩

/-- What leads from a directory to the path are texts. -/
def IsTextBelow (base p : OsPath) : Prop :=
  ∀ steps, p.components = base.components ++ steps → ∀ c ∈ steps, IsText c

theorem isTextBelow_ofPath (base : OsPath) (path : Path) : base.IsTextBelow (ofPath path) :=
  fun _ hsteps _ hc => isText_of_mem path.text
    (show _ ∈ (ofPath path).components from hsteps ▸ List.mem_append_right _ hc)

theorem components_join_iff (h : base.relativeTo p = some relative) :
    (base.join (ofPath ⟨relative⟩)).components = p.components ↔ base.IsTextBelow p := by
  obtain ⟨below, hbelow, rfl⟩ := Option.map_eq_some_iff.1 h
  rw [Path.dropFront_eq_some] at hbelow
  have hjoin : (base.join (ofPath ⟨slashed below⟩)).components =
      (base.spelled.join ⟨bytes (slashed below)⟩).components := by
    rw [components, spelled_join, spelled_ofPath]
  constructor
  · intro heq steps hsteps
    rw [hjoin, hsteps] at heq
    intro c hc
    by_cases habsolute :
        (Path.mk (bytes (slashed below))).isAbsolute = true ∨ base.spelled.text = []
    · have htakes : base.spelled.join ⟨bytes (slashed below)⟩ = ⟨bytes (slashed below)⟩ := by
        rw [Path.join, if_pos (by simpa using habsolute)]
      rw [htakes] at heq
      exact isText_of_mem _ (heq ▸ List.mem_append_right _ hc)
    · obtain ⟨hrelative, hne⟩ := not_or.1 habsolute
      rw [Path.components_join _ (by simpa using hrelative) (.inl hne), Path.steps_bytes] at heq
      obtain ⟨d, -, rfl⟩ := List.mem_map.1 (List.append_cancel_left heq ▸ hc)
      exact ⟨d, rfl⟩
  · intro htexts
    obtain ⟨texts, rfl⟩ := exists_toBytes (htexts below hbelow)
    rw [hjoin, slashed_toBytes, bytes_slashed]
    exact Path.components_join_of_relativeTo (Option.map_eq_some_iff.2
      ⟨_, Path.dropFront_eq_some.2 hbelow, rfl⟩)

theorem relativeTo_congr (h : p.components = p'.components) :
    base.relativeTo p = base.relativeTo p' := by
  rw [relativeTo, h, ← relativeTo]

theorem components_eq_of_relativeTo (htext : base.IsTextBelow p) (htext' : base.IsTextBelow p')
    (h : base.relativeTo p = some relative) (h' : base.relativeTo p' = some relative) :
    p.components = p'.components :=
  ((components_join_iff h).2 htext).symm.trans ((components_join_iff h').2 htext')

def brokenName (b : UInt8) : OsPath := ⟨encodeUtf8 "/p/".toList ++ b :: encodeUtf8 ".d.ts".toList⟩

end OsPath

end ImportAtlas
