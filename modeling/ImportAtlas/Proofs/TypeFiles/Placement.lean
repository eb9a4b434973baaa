import ImportAtlas.Proofs.TypeFiles.Sources

namespace ImportAtlas

namespace Diagnostic

variable {code code' : String} {ds : List Diagnostic}

theorem withCode_of_forall (h : ∀ d ∈ ds, d.code = code) : withCode code ds = ds :=
  List.filter_eq_self.2 fun d hd => decide_eq_true (h d hd)

theorem withCode_of_ne (h : ∀ d ∈ ds, d.code = code') (hne : code' ≠ code) :
    withCode code ds = [] :=
  List.filter_eq_nil_iff.2 fun d hd => by simpa [h d hd] using hne

end Diagnostic

structure PackageFile where
  package : InstalledPackage
  relative : String
  text : String

namespace PackageFile

def key (root : String) (f : PackageFile) : String :=
  TypeFiles.virtualPath root f.package.name f.relative

def ignored (root : String) (f : PackageFile) : Diagnostic :=
  .ofTakenTypePath (f.key root) f.package.name (f.package.directory.join (Path.ofString f.relative))

theorem ignored_code (root : String) (files : List PackageFile) :
    ∀ d ∈ files.map (·.ignored root), d.code = Diagnostic.duplicateTypePath := by
  intro d hd
  obtain ⟨f, -, rfl⟩ := List.mem_map.1 hd
  rfl

def IsIgnored (root : String) (files : OrderedMap String) (f : PackageFile) : Prop :=
  files.get? (f.key root) ≠ some f.text

instance (root : String) (files : OrderedMap String) (f : PackageFile) :
    Decidable (f.IsIgnored root files) :=
  inferInstanceAs (Decidable (_ ≠ _))

end PackageFile

namespace PackageFile

theorem isIgnored_iff_of_get? {root : String} {files files' : OrderedMap String} {f : PackageFile}
    {kept : String} (h : files.get? (f.key root) = some kept)
    (h' : files'.get? (f.key root) = some kept) :
    f.IsIgnored root files ↔ f.IsIgnored root files' := by
  rw [IsIgnored, IsIgnored, h, h']

theorem exists_find? (root : String) {files : List PackageFile} {f : PackageFile}
    (h : f ∈ files) : ∃ g, files.find? (·.key root = f.key root) = some g :=
  Option.isSome_iff_exists.1 (List.find?_isSome.2 ⟨f, h, by simp⟩)

end PackageFile

namespace PackageTypes

variable (p : PackageTypes)

def packageFiles : List PackageFile := p.files.map fun f => ⟨p.package, f.1, f.2⟩

def entryNotes : List Diagnostic :=
  p.missingEntry.toList.map fun entry => .ofMissingTypesEntry entry p.manifest.path

def missingNotes : List Diagnostic :=
  p.missing.map fun name => .ofMissingDependency name p.package.name p.manifest.path

theorem entryNotes_code : ∀ d ∈ p.entryNotes, d.code = Diagnostic.typesEntryMissing := by
  intro d hd
  obtain ⟨entry, -, rfl⟩ := List.mem_map.1 hd
  rfl

theorem missingNotes_code : ∀ d ∈ p.missingNotes, d.code = Diagnostic.typeDependencyMissing := by
  intro d hd
  obtain ⟨name, -, rfl⟩ := List.mem_map.1 hd
  rfl

def notes (root : String) (files : OrderedMap String) : List Diagnostic :=
  p.entryNotes ++ (p.packageFiles.filter (·.IsIgnored root files)).map (·.ignored root) ++
    p.missingNotes

end PackageTypes

namespace TypeFiles

variable {root : String} {fs : TypeFiles} {package : InstalledPackage} {p : PackageTypes}

theorem get?_addFile (fs : TypeFiles) (file : String × String) (key : String) :
    (addFile root package fs file).files.get? key = (fs.files.get? key).or
      (if virtualPath root package.name file.1 = key then some file.2 else none) := by
  simp only [addFile]
  split
  · rename_i hnone
    exact OrderedMap.get?_insert_of_none hnone key file.2
  · rename_i kept hkept
    rw [OrderedMap.or_of_get? hkept]
    split <;> rfl

theorem exists_get?_addFile (root : String) (package : InstalledPackage) (fs : TypeFiles)
    (file : String × String) :
    ∃ kept, (addFile root package fs file).files.get? (virtualPath root package.name file.1) =
      some kept := by
  rw [get?_addFile, if_pos rfl]
  cases fs.files.get? (virtualPath root package.name file.1) with
  | none => exact ⟨_, rfl⟩
  | some kept => exact ⟨kept, rfl⟩

theorem get?_foldl_addFile (fs : TypeFiles) (files : List (String × String)) (key : String) :
    (files.foldl (addFile root package) fs).files.get? key = (fs.files.get? key).or
      ((files.find? fun f => virtualPath root package.name f.1 = key).map Prod.snd) := by
  induction files generalizing fs with
  | nil => simp
  | cons file files ih =>
    rw [List.foldl_cons, ih, get?_addFile, Option.or_assoc, List.find?_cons]
    by_cases h : virtualPath root package.name file.1 = key <;> simp [h]

theorem get?_foldl_addFile_of_get? {key text : String} (h : fs.files.get? key = some text)
    (files : List (String × String)) :
    (files.foldl (addFile root package) fs).files.get? key = some text := by
  rw [get?_foldl_addFile, h, Option.some_or]

theorem diagnostics_addFile (fs : TypeFiles) (file : String × String) :
    (addFile root package fs file).diagnostics = fs.diagnostics ++
      ([PackageFile.mk package file.1 file.2].filter
        (·.IsIgnored root (addFile root package fs file).files)).map (·.ignored root) := by
  have hkept : (addFile root package fs file).files.get? (virtualPath root package.name file.1) =
      (fs.files.get? (virtualPath root package.name file.1)).or (some file.2) := by
    rw [get?_addFile, if_pos rfl]
  rw [List.filter_singleton]
  simp only [PackageFile.IsIgnored, PackageFile.key, hkept]
  simp only [addFile]
  split
  · rename_i hnone
    simp [hnone]
  · rename_i kept hsome
    split
    · rename_i hsame
      simp [hsome, hsame]
    · rename_i hdiffers
      simp [hsome, hdiffers, note, PackageFile.ignored, PackageFile.key]

theorem diagnostics_foldl_addFile (fs : TypeFiles) (files : List (String × String)) :
    (files.foldl (addFile root package) fs).diagnostics = fs.diagnostics ++
      ((files.map fun f => PackageFile.mk package f.1 f.2).filter
        (·.IsIgnored root (files.foldl (addFile root package) fs).files)).map (·.ignored root) := by
  induction files generalizing fs with
  | nil => simp
  | cons file files ih =>
    have hfirst : [PackageFile.mk package file.1 file.2].filter
          (·.IsIgnored root (addFile root package fs file).files) =
        [PackageFile.mk package file.1 file.2].filter
          (·.IsIgnored root
            (files.foldl (addFile root package) (addFile root package fs file)).files) := by
      apply List.filter_congr
      intro f hf
      obtain rfl := List.mem_singleton.1 hf
      obtain ⟨kept, hkept⟩ := exists_get?_addFile root package fs file
      exact decide_eq_decide.2 (PackageFile.isIgnored_iff_of_get? hkept
        (get?_foldl_addFile_of_get? hkept files))
    rw [List.foldl_cons, ih, diagnostics_addFile, hfirst, List.append_assoc, ← List.map_append,
      ← List.filter_append, List.singleton_append, List.map_cons]

theorem foldl_note {α : Type} (f : α → Diagnostic) (fs : TypeFiles) (as : List α) :
    as.foldl (fun fs a => fs.note (f a)) fs =
      ⟨fs.files, fs.diagnostics ++ as.map f⟩ := by
  induction as generalizing fs with
  | nil => simp
  | cons a as ih => rw [List.foldl_cons, ih, note, List.map_cons, List.append_assoc]; rfl

theorem addPackage_eq (fs : TypeFiles) (p : PackageTypes) :
    addPackage root fs p =
      let added := p.files.foldl (addFile root p.package)
        ⟨fs.files, fs.diagnostics ++ p.entryNotes⟩
      ⟨added.files, added.diagnostics ++ p.missingNotes⟩ := by
  simp only [addPackage, foldl_note, PackageTypes.entryNotes, PackageTypes.missingNotes]
  cases p.missingEntry with
  | none => simp
  | some entry => rfl

theorem get?_addPackage (fs : TypeFiles) (p : PackageTypes) (key : String) :
    (addPackage root fs p).files.get? key = (fs.files.get? key).or
      ((p.packageFiles.find? (·.key root = key)).map PackageFile.text) := by
  rw [addPackage_eq]
  dsimp only
  rw [get?_foldl_addFile, PackageTypes.packageFiles, List.find?_map, Option.map_map]
  rfl

theorem diagnostics_addPackage (fs : TypeFiles) (p : PackageTypes) :
    (addPackage root fs p).diagnostics =
      fs.diagnostics ++ p.notes root (addPackage root fs p).files := by
  rw [addPackage_eq]
  dsimp only
  rw [diagnostics_foldl_addFile, PackageTypes.notes, List.append_assoc, List.append_assoc,
    List.append_assoc]
  rfl

theorem get?_foldl_addPackage (fs : TypeFiles) (ps : List PackageTypes) (key : String) :
    (ps.foldl (addPackage root) fs).files.get? key = (fs.files.get? key).or
      (((ps.flatMap PackageTypes.packageFiles).find? (·.key root = key)).map
        PackageFile.text) := by
  induction ps generalizing fs with
  | nil => simp
  | cons p ps ih =>
    rw [List.foldl_cons, ih, get?_addPackage, Option.or_assoc, List.flatMap_cons,
      List.find?_append, Option.map_or]

theorem exists_get?_of_mem_packageFiles (root : String) {f : PackageFile} (fs : TypeFiles)
    (h : f ∈ p.packageFiles) (ps : List PackageTypes) : ∃ kept,
      (addPackage root fs p).files.get? (f.key root) = some kept ∧
      (ps.foldl (addPackage root) (addPackage root fs p)).files.get? (f.key root) = some kept := by
  have hkey : ∃ kept, (addPackage root fs p).files.get? (f.key root) = some kept := by
    rw [get?_addPackage]
    cases fs.files.get? (f.key root) with
    | some kept => exact ⟨kept, rfl⟩
    | none =>
      obtain ⟨g, hg⟩ := PackageFile.exists_find? root h
      exact ⟨g.text, by rw [hg]; rfl⟩
  obtain ⟨kept, hkept⟩ := hkey
  exact ⟨kept, hkept, by rw [get?_foldl_addPackage, hkept, Option.some_or]⟩

theorem diagnostics_foldl_addPackage (fs : TypeFiles) (ps : List PackageTypes) :
    (ps.foldl (addPackage root) fs).diagnostics = fs.diagnostics ++
      ps.flatMap (·.notes root (ps.foldl (addPackage root) fs).files) := by
  induction ps generalizing fs with
  | nil => simp
  | cons p ps ih =>
    have hfirst : p.notes root (addPackage root fs p).files =
        p.notes root (ps.foldl (addPackage root) (addPackage root fs p)).files := by
      simp only [PackageTypes.notes]
      congr 3
      apply List.filter_congr
      intro f hf
      obtain ⟨kept, hkept, hlater⟩ := exists_get?_of_mem_packageFiles root fs hf ps
      exact decide_eq_decide.2 (PackageFile.isIgnored_iff_of_get? hkept hlater)
    rw [List.foldl_cons, ih, diagnostics_addPackage, hfirst, List.append_assoc, List.flatMap_cons]

theorem get?_ofPackages_append {key text : String} {front : List PackageTypes}
    (h : (ofPackages root front).files.get? key = some text) (back : List PackageTypes) :
    (ofPackages root (front ++ back)).files.get? key = some text := by
  rw [ofPackages, List.foldl_append, ← ofPackages, get?_foldl_addPackage, h, Option.some_or]

theorem get?_ofPackages (ps : List PackageTypes) (key : String) :
    (ofPackages root ps).files.get? key =
      ((ps.flatMap PackageTypes.packageFiles).find? (·.key root = key)).map PackageFile.text := by
  rw [ofPackages, get?_foldl_addPackage]
  exact Option.none_or

theorem mem_keys_ofPackages {ps : List PackageTypes} {key : String} :
    key ∈ (ofPackages root ps).files.keys ↔
      ∃ p ∈ ps, ∃ f ∈ p.packageFiles, f.key root = key := by
  rw [OrderedMap.mem_keys_iff]
  simp only [get?_ofPackages, Option.map_eq_some_iff]
  constructor
  · rintro ⟨_, f, hf, -⟩
    obtain ⟨p, hp, hfp⟩ := List.mem_flatMap.1 (List.mem_of_find?_eq_some hf)
    exact ⟨p, hp, f, hfp, by simpa using List.find?_some hf⟩
  · rintro ⟨p, hp, f, hf, rfl⟩
    obtain ⟨g, hg⟩ := PackageFile.exists_find? root (List.mem_flatMap.2 ⟨p, hp, hf⟩)
    exact ⟨g.text, g, hg, rfl⟩

theorem diagnostics_ofPackages (ps : List PackageTypes) :
    (ofPackages root ps).diagnostics = ps.flatMap (·.notes root (ofPackages root ps).files) := by
  rw [ofPackages, diagnostics_foldl_addPackage]
  exact List.nil_append _

theorem duplicates_ofPackages (ps : List PackageTypes) :
    Diagnostic.withCode Diagnostic.duplicateTypePath (ofPackages root ps).diagnostics =
      ((ps.flatMap PackageTypes.packageFiles).filter
        (·.IsIgnored root (ofPackages root ps).files)).map (·.ignored root) := by
  rw [diagnostics_ofPackages, Diagnostic.withCode, List.filter_flatMap, List.filter_flatMap,
    List.map_flatMap]
  refine List.flatMap_congr fun p _ => ?_
  rw [PackageTypes.notes, List.filter_append, List.filter_append, ← Diagnostic.withCode,
    ← Diagnostic.withCode, ← Diagnostic.withCode,
    Diagnostic.withCode_of_ne p.entryNotes_code (by decide),
    Diagnostic.withCode_of_ne p.missingNotes_code (by decide), List.nil_append, List.append_nil]
  exact Diagnostic.withCode_of_forall (PackageFile.ignored_code root _)

theorem missing_ofPackages (ps : List PackageTypes) :
    Diagnostic.withCode Diagnostic.typeDependencyMissing (ofPackages root ps).diagnostics =
      ps.flatMap PackageTypes.missingNotes := by
  rw [diagnostics_ofPackages, Diagnostic.withCode, List.filter_flatMap]
  refine List.flatMap_congr fun p _ => ?_
  rw [PackageTypes.notes, List.filter_append, List.filter_append, ← Diagnostic.withCode,
    ← Diagnostic.withCode, ← Diagnostic.withCode,
    Diagnostic.withCode_of_ne p.entryNotes_code (by decide),
    Diagnostic.withCode_of_ne (PackageFile.ignored_code root _) (by decide),
    Diagnostic.withCode_of_forall p.missingNotes_code, List.nil_append, List.nil_append]

end TypeFiles

end ImportAtlas
