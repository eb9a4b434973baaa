import ImportAtlas.Proofs.Text.Split
import ImportAtlas.Specifier.Basic

namespace ImportAtlas

open Text

/-- A name of its own, or a name in a scope. -/
inductive PackageName where
  | plain (name : String)
  | inScope (scope package : String)
  deriving DecidableEq

namespace PackageName

/-- The name as it is written. -/
def text : PackageName → String
  | plain name => name
  | inScope scope package => "@" ++ scope ++ "/" ++ package

structure IsSegment (s : String) : Prop where
  ne_empty : s ≠ ""
  slashFree : '/' ∉ s.toList

inductive HasSegments : PackageName → Prop
  | plain {name : String} (hname : IsSegment name) (hpoint : name.toList.head? ≠ some '.')
      (hat : name.toList.head? ≠ some '@') : HasSegments (plain name)
  | inScope {scope package : String} (hscope : IsSegment scope) (hpackage : IsSegment package) :
      HasSegments (inScope scope package)

structure IsValid (name : PackageName) : Prop where
  segments : name.HasSegments
  percentFree : '%' ∉ name.text.toList
  backslashFree : '\\' ∉ name.text.toList

/-- The name of the package that declares types for one of this name. -/
def types : PackageName → PackageName
  | plain name => inScope "types" name
  | inScope scope package => inScope "types" (scope ++ "__" ++ package)

end PackageName

namespace PackageSpecifier

open PackageName

variable {cs front : List Char} {rest : Option (List Char)} {specifier : String}
  {subpath : Option String}

/-- The specifiers of a package of the name, and what they want inside it: the name, which
a slash may follow, and behind the slash what is wanted. -/
inductive Spells (name : String) : String → Option String → Prop
  | alone : Spells name name none
  | slash : Spells name (name ++ "/") none
  | inside {subpath : String} (h : subpath ≠ "") :
      Spells name (name ++ "/" ++ subpath) (some subpath)

def behind : Option (List Char) → List Char
  | none => []
  | some rest => '/' :: rest

theorem exists_behind (cs : List Char) :
    ∃ front rest, '/' ∉ front ∧ cs = front ++ behind rest := by
  rcases forall_or_exists_first (· = '/') cs with hcs | ⟨front, c, rest, rfl, hc, hfront⟩
  · refine ⟨cs, none, fun hslash => ?_, (List.append_nil cs).symm⟩
    exact of_decide_eq_false (hcs '/' hslash) rfl
  · obtain rfl : c = '/' := of_decide_eq_true hc
    exact ⟨front, some rest, fun hslash => of_decide_eq_false (hfront '/' hslash) rfl, rfl⟩

theorem cutAtFirst_behind (hfront : '/' ∉ front) (rest : Option (List Char)) :
    cutAtFirst (· = '/') (front ++ behind rest) = rest.map (front, ·) := by
  have hnone : ∀ c ∈ front, decide (c = '/') = false := by
    intro c hc
    rw [decide_eq_false_iff_not]
    rintro rfl
    exact hfront hc
  cases rest with
  | none =>
    rw [behind, List.append_nil]
    exact cutAtFirst_of_forall hnone
  | some rest => exact cutAtFirst_append hnone (by decide)

theorem cutAtFirst_slash (hfront : '/' ∉ front) (rest : List Char) :
    cutAtFirst (· = '/') (front ++ '/' :: rest) = some (front, rest) :=
  cutAtFirst_behind hfront (some rest)

theorem cutName_plain (hat : (front ++ behind rest).head? ≠ some '@') (hslash : '/' ∉ front) :
    cutName (front ++ behind rest) = some (front, rest) := by
  have hcut := cutAtFirst_behind hslash rest
  unfold cutName
  extract_lets isSlash
  split
  · rename_i hcs
    rw [hcs] at hat
    exact absurd rfl hat
  · rw [hcut]
    cases rest with
    | none =>
      rw [behind, List.append_nil]
      rfl
    | some rest => rfl

theorem cutName_inScope {scope package : List Char} (hscope : '/' ∉ scope)
    (hpackage : '/' ∉ package) (rest : Option (List Char)) :
    cutName ('@' :: (scope ++ '/' :: (package ++ behind rest))) =
      if scope = [] ∨ package = [] then none
      else some ('@' :: scope ++ '/' :: package, rest) := by
  have hat : '/' ∉ '@' :: scope := by simpa using hscope
  have hfirst := cutAtFirst_slash hat (package ++ behind rest)
  have hsecond := cutAtFirst_behind hpackage rest
  rw [List.cons_append] at hfirst
  simp only [cutName, hfirst, hsecond]
  cases rest with
  | none => simp [behind]
  | some rest => simp

theorem cutName_of_slashFree (h : '/' ∉ cs) : cutName ('@' :: cs) = none := by
  have hat : '/' ∉ '@' :: cs := by simpa using h
  have hcut := cutAtFirst_behind hat none
  rw [behind, List.append_nil, Option.map_none] at hcut
  simp only [cutName, hcut]

inductive IsFront : List Char → Prop
  | plain {front : List Char} (hat : front.head? ≠ some '@') (hslash : '/' ∉ front) :
      IsFront front
  | inScope {scope package : List Char} (hscope : scope ≠ []) (hslash : '/' ∉ scope)
      (hpackage : package ≠ []) (hslash' : '/' ∉ package) :
      IsFront ('@' :: scope ++ '/' :: package)

theorem cutName_eq_some : cutName cs = some (front, rest) ↔
    IsFront front ∧ cs = front ++ behind rest := by
  constructor
  · intro h
    by_cases hat : cs.head? = some '@'
    · obtain ⟨cs, rfl⟩ := List.head?_eq_some_iff.1 hat
      obtain ⟨scope, rest', hscope, rfl⟩ := exists_behind cs
      cases rest' with
      | none =>
        rw [behind, List.append_nil, cutName_of_slashFree hscope] at h
        cases h
      | some rest' =>
        obtain ⟨package, rest', hpackage, rfl⟩ := exists_behind rest'
        rw [behind, cutName_inScope hscope hpackage] at h
        split at h
        · cases h
        · rename_i hne
          cases h
          rw [not_or] at hne
          exact ⟨.inScope hne.1 hscope hne.2 hpackage, by simp [behind]⟩
    · obtain ⟨front', rest', hslash, rfl⟩ := exists_behind cs
      rw [cutName_plain hat hslash] at h
      cases h
      refine ⟨.plain (fun hfront => hat ?_) hslash, rfl⟩
      rw [List.head?_append, hfront, Option.some_or]
  · rintro ⟨hfront, rfl⟩
    cases hfront with
    | plain hat hslash =>
      refine cutName_plain (fun hhead => ?_) hslash
      rw [List.head?_append] at hhead
      cases front with
      | nil => cases rest <;> cases hhead
      | cons c front => exact hat hhead
    | @inScope scope package hscope hslash hpackage hslash' =>
      rw [List.append_assoc, List.cons_append, List.cons_append, cutName_inScope hslash hslash',
        if_neg (not_or.2 ⟨hscope, hpackage⟩)]

theorem isName_iff : isName cs = true ↔
    cs ≠ [] ∧ cs.head? ≠ some '.' ∧ '%' ∉ cs ∧ '\\' ∉ cs := by
  simp [isName, and_assoc]

def inside? (rest : Option (List Char)) : Option String :=
  (rest.filter (!·.isEmpty)).map String.ofList

theorem parse?_eq_some_iff {p : PackageSpecifier} : parse? specifier = some p ↔
    ∃ rest, IsFront p.name.toList ∧ isName p.name.toList = true ∧
      specifier.toList = p.name.toList ++ behind rest ∧ p.subpath = inside? rest := by
  obtain ⟨name, subpath⟩ := p
  constructor
  · intro h
    obtain ⟨⟨front, rest⟩, hcut, h⟩ := Option.bind_eq_some_iff.1 h
    obtain ⟨hfront, hspecifier⟩ := cutName_eq_some.1 hcut
    dsimp only at h
    split at h
    · rename_i hname
      cases h
      refine ⟨rest, ?_, ?_, ?_, rfl⟩ <;> simpa
    · cases h
  · rintro ⟨rest, hfront, hname, hspecifier, rfl⟩
    have hcut := cutName_eq_some.2 ⟨hfront, hspecifier⟩
    simp [parse?, hcut, hname, inside?]

theorem spells_iff {name : String} : Spells name specifier subpath ↔
    ∃ rest, specifier.toList = name.toList ++ behind rest ∧ subpath = inside? rest := by
  constructor
  · intro h
    cases h with
    | alone => exact ⟨none, (List.append_nil _).symm, rfl⟩
    | slash => exact ⟨some [], by simp [behind], rfl⟩
    | @inside subpath hne =>
      have hkept : (!subpath.toList.isEmpty) = true := by
        simpa [List.isEmpty_eq_false_iff, String.toList_eq_nil_iff] using hne
      refine ⟨some subpath.toList, by simp [behind], ?_⟩
      rw [inside?, Option.filter_some, if_pos hkept, Option.map_some, String.ofList_toList]
  · rintro ⟨rest, hspecifier, rfl⟩
    match rest with
    | none =>
      rw [behind, List.append_nil, String.toList_inj] at hspecifier
      exact hspecifier ▸ .alone
    | some [] =>
      have hspecifier : specifier = name ++ "/" :=
        String.toList_inj.1 (by simpa [behind] using hspecifier)
      exact hspecifier ▸ .slash
    | some (c :: cs) =>
      have hspecifier : specifier = name ++ "/" ++ String.ofList (c :: cs) :=
        String.toList_inj.1 (by simpa [behind] using hspecifier)
      exact hspecifier ▸ .inside (by simp [← String.toList_inj])

end PackageSpecifier

namespace PackageName

open PackageSpecifier

variable {name name' : PackageName} {cs : List Char}

theorem IsSegment.toList_ne_nil {s : String} (h : IsSegment s) : s.toList ≠ [] :=
  mt String.toList_eq_nil_iff.1 h.ne_empty

theorem isSegment_ofList (hne : cs ≠ []) (hslash : '/' ∉ cs) : IsSegment (String.ofList cs) where
  ne_empty h := hne (by simpa [← String.toList_inj] using h)
  slashFree := by rwa [String.toList_ofList]

theorem toList_text_inScope (scope package : String) :
    (inScope scope package).text.toList = '@' :: scope.toList ++ '/' :: package.toList := by
  simp [text]

theorem HasSegments.isFront (h : name.HasSegments) : IsFront name.text.toList := by
  cases h with
  | plain hname _ hat => exact .plain hat hname.slashFree
  | inScope hscope hpackage =>
    rw [toList_text_inScope]
    exact .inScope hscope.toList_ne_nil hscope.slashFree hpackage.toList_ne_nil
      hpackage.slashFree

theorem IsValid.isName (h : name.IsValid) : PackageSpecifier.isName name.text.toList = true := by
  have hhead : name.text.toList ≠ [] ∧ name.text.toList.head? ≠ some '.' := by
    cases h.segments with
    | plain hname hpoint _ => exact ⟨hname.toList_ne_nil, hpoint⟩
    | inScope => simp [toList_text_inScope]
  exact isName_iff.2 ⟨hhead.1, hhead.2, h.percentFree, h.backslashFree⟩

theorem exists_isValid (hfront : IsFront cs) (hname : PackageSpecifier.isName cs = true) :
    ∃ name : PackageName, name.IsValid ∧ name.text.toList = cs := by
  obtain ⟨hne, hpoint, hpercent, hbackslash⟩ := isName_iff.1 hname
  suffices ∃ name : PackageName, name.HasSegments ∧ name.text.toList = cs by
    obtain ⟨name, hsegments, rfl⟩ := this
    exact ⟨name, ⟨hsegments, hpercent, hbackslash⟩, rfl⟩
  cases hfront with
  | plain hat hslash =>
    refine ⟨.plain (String.ofList cs), .plain (isSegment_ofList hne hslash) ?_ ?_, ?_⟩
    · rwa [String.toList_ofList]
    · rwa [String.toList_ofList]
    · exact String.toList_ofList
  | @inScope scope package hscope hslash hpackage hslash' =>
    refine ⟨.inScope (String.ofList scope) (String.ofList package),
      .inScope (isSegment_ofList hscope hslash) (isSegment_ofList hpackage hslash'), ?_⟩
    simp [toList_text_inScope]

theorem HasSegments.eq_of_text (h : name.HasSegments) (h' : name'.HasSegments)
    (htext : name.text = name'.text) : name = name' := by
  cases h with
  | plain _ _ hat =>
    cases h' with
    | plain => exact congrArg PackageName.plain htext
    | inScope =>
      have hhead := congrArg (·.toList.head?) htext
      simp only [toList_text_inScope] at hhead
      exact absurd hhead hat
  | @inScope scope package hscope =>
    cases h' with
    | plain _ _ hat =>
      have hhead := congrArg (·.toList.head?) htext
      simp only [toList_text_inScope] at hhead
      exact absurd hhead.symm hat
    | @inScope scope' package' hscope' =>
      have hlist := congrArg String.toList htext
      rw [toList_text_inScope, toList_text_inScope, List.cons_append, List.cons_append,
        List.cons.injEq] at hlist
      have hcut := cutAtFirst_slash hscope.slashFree package.toList
      rw [hlist.2, cutAtFirst_slash hscope'.slashFree] at hcut
      have heq := (Option.some.inj hcut).symm
      rw [Prod.mk.injEq, String.toList_inj, String.toList_inj] at heq
      rw [heq.1, heq.2]

theorem not_mem_types {c : Char} (hc : c ∉ "@types/__".toList) (h : c ∉ name.text.toList) :
    c ∉ name.types.text.toList := by
  cases name with
  | plain name =>
    rw [text] at h
    rw [types, toList_text_inScope]
    simp_all
  | inScope scope package =>
    rw [toList_text_inScope] at h
    rw [types, toList_text_inScope]
    simp_all

theorem isValid_types (h : name.IsValid) : name.types.IsValid where
  segments := by
    have htypes : IsSegment "types" := ⟨by decide, by decide⟩
    cases h.segments with
    | plain hname => exact .inScope htypes hname
    | inScope hscope hpackage =>
      refine .inScope htypes ⟨mt (congrArg String.toList) (by simp), ?_⟩
      simpa using ⟨hscope.slashFree, hpackage.slashFree⟩
  percentFree := not_mem_types (by decide) h.percentFree
  backslashFree := not_mem_types (by decide) h.backslashFree

theorem HasSegments.typesPackage_eq (h : name.HasSegments) (subpath : Option String) :
    (PackageSpecifier.mk name.text subpath).typesPackage = name.types.text := by
  rw [← String.toList_inj]
  unfold typesPackage
  extract_lets folded
  rw [String.toList_ofList]
  cases h with
  | @plain name _ _ hat =>
    have hfolded : folded = name.toList := by
      unfold folded
      split
      · rename_i rest hname
        exact absurd (congrArg List.head? hname) hat
      · rfl
    rw [hfolded, types, toList_text_inScope]
    rfl
  | @inScope scope package hscope =>
    have hfolded : folded = scope.toList ++ ['_', '_'] ++ package.toList := by
      unfold folded
      simp only [toList_text_inScope, List.cons_append, cutAtFirst_slash hscope.slashFree]
    rw [hfolded, types, toList_text_inScope]
    simp

end PackageName

namespace PackageSpecifier

open PackageName

variable {specifier : String} {subpath : Option String} {name name' : PackageName}

theorem parse?_eq_some_iff_spells {text : String} : parse? specifier = some ⟨text, subpath⟩ ↔
    ∃ name : PackageName, name.IsValid ∧ name.text = text ∧ Spells text specifier subpath := by
  rw [parse?_eq_some_iff]
  constructor
  · rintro ⟨rest, hfront, hname, hspecifier⟩
    obtain ⟨name, hvalid, htext⟩ := exists_isValid hfront hname
    exact ⟨name, hvalid, String.toList_inj.1 htext, spells_iff.2 ⟨rest, hspecifier⟩⟩
  · rintro ⟨name, hvalid, rfl, hspells⟩
    obtain ⟨rest, hspecifier⟩ := spells_iff.1 hspells
    exact ⟨rest, hvalid.segments.isFront, hvalid.isName, hspecifier⟩

theorem parse?_of_spells (hname : name.IsValid) (h : Spells name.text specifier subpath) :
    parse? specifier = some ⟨name.text, subpath⟩ :=
  parse?_eq_some_iff_spells.2 ⟨name, hname, rfl, h⟩

theorem Spells.unique (hname : name.IsValid) (hname' : name'.IsValid) {subpath' : Option String}
    (h : Spells name.text specifier subpath) (h' : Spells name'.text specifier subpath') :
    name = name' ∧ subpath = subpath' := by
  have heq := (parse?_of_spells hname h).symm.trans (parse?_of_spells hname' h')
  rw [Option.some.injEq, PackageSpecifier.mk.injEq] at heq
  exact ⟨hname.segments.eq_of_text hname'.segments heq.1, heq.2⟩

/-- A specifier is read just if it is a name, with nothing behind it, or a slash, or a slash
and what is wanted in the package; no other name and wish are spelt by it.  A name alone is
read as itself, and so is that of the package for types, which has a scope of its own. -/
theorem parse?_characterized (specifier : String) :
    (∀ text subpath, parse? specifier = some ⟨text, subpath⟩ ↔ ∃ name : PackageName,
      name.IsValid ∧ name.text = text ∧ Spells text specifier subpath) ∧
    (∀ (name name' : PackageName) (subpath subpath' : Option String),
      name.IsValid → name'.IsValid → Spells name.text specifier subpath →
      Spells name'.text specifier subpath' → name = name' ∧ subpath = subpath') ∧
    ∀ p, parse? specifier = some p → parse? p.name = some ⟨p.name, none⟩ ∧
      ∃ name : PackageName, name.IsValid ∧ name.text = p.name ∧
        p.typesPackage = name.types.text ∧ name.types.IsValid ∧
        (∃ package, name.types = inScope "types" package) ∧
        parse? p.typesPackage = some ⟨p.typesPackage, none⟩ := by
  refine ⟨fun _ _ => parse?_eq_some_iff_spells,
    fun _ _ _ _ hname hname' h h' => h.unique hname hname' h', fun p hp => ?_⟩
  obtain ⟨text, subpath⟩ := p
  obtain ⟨name, hname, rfl, -⟩ := parse?_eq_some_iff_spells.1 hp
  have htypes := isValid_types hname
  refine ⟨parse?_of_spells hname .alone, name, hname, rfl, ?_⟩
  rw [hname.segments.typesPackage_eq]
  refine ⟨rfl, htypes, ?_, parse?_of_spells htypes .alone⟩
  cases name with
  | plain name => exact ⟨name, rfl⟩
  | inScope scope package => exact ⟨scope ++ "__" ++ package, rfl⟩

theorem parse?_doubledSlash :
    parse? ("@äö/pkg" ++ "/" ++ "/x") = some ⟨"@äö/pkg", some "/x"⟩ ∧
    parse? "@äö/pkg" = some ⟨"@äö/pkg", none⟩ ∧ ∃ package,
      (mk "@äö/pkg" (some "/x")).typesPackage = (inScope "types" package).text := by
  have hsegments : (inScope "äö" "pkg").HasSegments :=
    .inScope ⟨by decide, by decide⟩ ⟨by decide, by decide⟩
  have hname : (inScope "äö" "pkg").IsValid := ⟨hsegments, by decide, by decide⟩
  obtain ⟨hread, -, halone⟩ := parse?_characterized ("@äö/pkg" ++ "/" ++ "/x")
  have hparse := (hread "@äö/pkg" (some "/x")).2
    ⟨inScope "äö" "pkg", hname, by decide, .inside (by decide)⟩
  obtain ⟨hself, name, -, -, htypes, -, ⟨package, hpackage⟩, -⟩ := halone _ hparse
  exact ⟨hparse, hself, package, hpackage ▸ htypes⟩

end PackageSpecifier

end ImportAtlas
