import ImportAtlas.Proofs.ModuleId.Form

/-! What an id tells of a module.  It is spelt with safe characters, and its name and its
digits can be read back from it: two ids are the same just if both are. -/

namespace ImportAtlas.ModuleId

open Text

variable {cs : List Char} {c : Char} {kind : SpecifierKind} {id name hash name' hash' : String}

/-- The id is a name that is not empty, a hyphen, and seven hexadecimal digits in lower
case. -/
structure Spells (id name hash : String) : Prop where
  eq : id = name ++ "-" ++ hash
  name_ne : name ≠ ""
  length : hash.length = 7
  digits : ∀ c ∈ hash.toList, '0' ≤ c ∧ c ≤ '9' ∨ 'a' ≤ c ∧ c ≤ 'f'

theorem isHashDigit_iff : isHashDigit c = true ↔ '0' ≤ c ∧ c ≤ '9' ∨ 'a' ≤ c ∧ c ≤ 'f' := by
  simp [isHashDigit, Char.isDigit, Char.le_def]

theorem isSafe_of_isHashDigit (h : isHashDigit c = true) : isSafe c = true := by
  have halphanum : c.isAlphanum = true := by
    change (c.isUpper || c.isLower || c.isDigit) = true
    rcases isHashDigit_iff.1 h with ⟨h0, h9⟩ | ⟨ha, hf⟩
    · have hdigit : c.isDigit = true := by simpa [Char.isDigit, Char.le_def] using ⟨h0, h9⟩
      rw [hdigit, Bool.or_true]
    · have hz : c ≤ 'z' := Char.le_trans hf (by decide)
      have hlower : c.isLower = true :=
        (Bool.and_eq_true _ _).to_iff.2 ⟨decide_eq_true ha, decide_eq_true hz⟩
      rw [hlower, Bool.or_true, Bool.true_or]
  simp [isSafe, halphanum]

theorem mem_of_mem_dropExtension (h : c ∈ dropExtension cs) : c ∈ cs := by
  unfold dropExtension at h
  split at h
  · exact h
  · rename_i hcut
    obtain ⟨d, rfl, -⟩ := cutAtLast_eq_some.1 hcut
    exact List.mem_append_left _ h
  · exact h

theorem isSafe_of_mem_shortNameOf : ∀ c ∈ shortNameOf kind cs, isSafe c = true := by
  intro c hc
  unfold shortNameOf at hc
  extract_lets safe name at hc
  have hname : ∀ c ∈ name, c ∈ safe := by
    intro c hc
    unfold name at hc
    split at hc
    · exact hc
    · exact mem_of_mem_dropExtension hc
  split at hc
  · exact List.all_eq_true.1 (by decide : placeholder.all isSafe = true) c hc
  · exact List.mem_takeWhile_imp (hname c hc)

theorem exists_mem_shortNameOf : ∃ c ∈ shortNameOf kind cs, c ≠ '.' := by
  unfold shortNameOf
  extract_lets safe name
  split
  · exact ⟨'m', by decide, by decide⟩
  · rename_i hall
    simpa using hall

theorem isUniqueId_iff : isUniqueId id = true ↔ ∃ name hash, Spells id name hash := by
  constructor
  · intro h
    unfold isUniqueId at h
    split at h
    · rename_i name hash hcut
      obtain ⟨c, hid, hc, -⟩ := cutAtLast_eq_some.1 hcut
      obtain rfl : c = '-' := of_decide_eq_true hc
      simp only [Bool.and_eq_true, decide_eq_true_eq, Bool.not_eq_true', List.isEmpty_eq_false_iff,
        List.all_eq_true] at h
      refine ⟨String.ofList name, String.ofList hash, ?_, ?_, ?_, ?_⟩
      · rw [← String.toList_inj, hid]
        simp
      · simpa [← String.toList_inj] using h.1.1
      · rw [String.length_ofList]
        exact h.1.2
      · intro c hc
        exact isHashDigit_iff.1 (h.2 c (by simpa using hc))
    · contradiction
  · rintro ⟨name, hash, rfl, hname, hlength, hdigits⟩
    have hlist : (name ++ "-" ++ hash).toList = name.toList ++ '-' :: hash.toList := by simp
    have hhash : ∀ c ∈ hash.toList, isHashDigit c = true :=
      fun c hc => isHashDigit_iff.2 (hdigits c hc)
    rw [isUniqueId, hlist,
      cutAtLast_append (fun c hc => not_hyphen_of_isHashDigit (hhash c hc)) (by decide)]
    have hempty : name.toList.isEmpty = false := by
      simpa [List.isEmpty_eq_false_iff, String.toList_eq_nil_iff] using hname
    have hseven : hash.toList.length = hashLength := String.length_toList.trans hlength
    simp [hempty, hseven, List.all_eq_true.2 hhash]

theorem Spells.unique (h : Spells id name hash) (h' : Spells id name' hash') :
    name = name' ∧ hash = hash' := by
  have heq : name.toList ++ ('-' :: hash.toList) = name'.toList ++ ('-' :: hash'.toList) := by
    have := congrArg String.toList (h.eq.symm.trans h'.eq)
    simpa using this
  have hlength : ('-' :: hash.toList).length = ('-' :: hash'.toList).length := by
    rw [List.length_cons, List.length_cons, String.length_toList, String.length_toList, h.length,
      h'.length]
  obtain ⟨hname, htail⟩ := List.append_inj' heq hlength
  exact ⟨String.toList_inj.1 hname, String.toList_inj.1 (List.cons.inj htail).2⟩

theorem spells_make (specifier contents : String) : Spells (make specifier contents)
    (shortName specifier) (shortHash (encodeUtf8 contents.toList)) where
  eq := rfl
  name_ne h := toList_shortName_ne_nil specifier (by rw [h]; rfl)
  length := String.length_toList.symm.trans (length_shortHash _)
  digits c hc := isHashDigit_iff.1 (isHashDigit_of_mem_shortHash c hc)

/-- Ids are made of safe characters, have a name with more than points in it, and are the
same just if the names and the digests of the contents are.  What is taken for an id is
just what is spelt like one. -/
theorem make_characterized (specifier specifier' contents contents' : String) :
    isUniqueId (make specifier contents) = true ∧
    (∀ c ∈ (make specifier contents).toList, isSafe c = true) ∧
    (∀ name hash, Spells (make specifier contents) name hash → ∃ c ∈ name.toList, c ≠ '.') ∧
    (make specifier contents = make specifier' contents' ↔
      shortName specifier = shortName specifier' ∧
        shortHash (encodeUtf8 contents.toList) = shortHash (encodeUtf8 contents'.toList)) ∧
    ∀ id, isUniqueId id = true ↔ ∃ name hash, Spells id name hash := by
  have hspells := spells_make specifier contents
  refine ⟨isUniqueId_make specifier contents, ?_, ?_, ⟨fun h => ?_, fun ⟨hname, hhash⟩ => ?_⟩,
    fun id => isUniqueId_iff⟩
  · intro c hc
    have hc : c ∈ (shortName specifier).toList ∨ c = '-' ∨
        c ∈ (shortHash (encodeUtf8 contents.toList)).toList := by simpa [make] using hc
    rcases hc with hc | rfl | hc
    · rw [shortName, String.toList_ofList] at hc
      exact isSafe_of_mem_shortNameOf c hc
    · decide
    · exact isSafe_of_isHashDigit (isHashDigit_of_mem_shortHash c hc)
  · intro name hash h
    obtain ⟨rfl, -⟩ := h.unique hspells
    rw [shortName, String.toList_ofList]
    exact exists_mem_shortNameOf
  · rw [h] at hspells
    exact hspells.unique (spells_make specifier' contents')
  · rw [make, make, hname, hhash]

end ImportAtlas.ModuleId
