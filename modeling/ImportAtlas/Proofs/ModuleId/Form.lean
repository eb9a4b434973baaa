import ImportAtlas.ModuleId
import ImportAtlas.Proofs.Text.Split

namespace ImportAtlas

namespace Blake3

open ModuleId

theorem length_hexPair (b : Nat) : (hexPair b).length = 2 := rfl

theorem isHashDigit_of_mem_hexPair {b : Nat} (hb : b < 256) :
    ∀ c ∈ hexPair b, isHashDigit c = true := by
  have digits : ∀ n : Fin 16,
      isHashDigit (Char.ofNat (if n.val < 10 then 48 + n.val else 87 + n.val)) = true := by
    decide
  intro c hc
  simp only [hexPair, List.mem_cons, List.not_mem_nil, or_false] at hc
  rcases hc with rfl | rfl
  · exact digits ⟨b / 16, by omega⟩
  · exact digits ⟨b % 16, by omega⟩

theorem length_hex (bytes : List UInt8) : (hex bytes).length = 64 := by
  simp only [hex, List.length_flatMap, List.length_append, length_hexPair]
  rw [List.map_const', List.sum_replicate_nat, Vector.length_toList]

theorem isHashDigit_of_mem_hex {bytes : List UInt8} : ∀ c ∈ hex bytes, isHashDigit c = true := by
  intro c hc
  obtain ⟨w, _, hc⟩ := List.mem_flatMap.1 hc
  have hw : w.toNat < 4294967296 := w.toNat_lt
  simp only [List.mem_append] at hc
  rcases hc with ((hc | hc) | hc) | hc
  · exact isHashDigit_of_mem_hexPair (by omega) c hc
  · exact isHashDigit_of_mem_hexPair (by omega) c hc
  · exact isHashDigit_of_mem_hexPair (by omega) c hc
  · exact isHashDigit_of_mem_hexPair (by omega) c hc

end Blake3

namespace ModuleId

theorem length_shortHash (bytes : List UInt8) : (shortHash bytes).toList.length = hashLength := by
  simp [shortHash, hashLength, Blake3.length_hex]

theorem isHashDigit_of_mem_shortHash {bytes : List UInt8} :
    ∀ c ∈ (shortHash bytes).toList, isHashDigit c = true := by
  intro c hc
  rw [shortHash, String.toList_ofList] at hc
  exact Blake3.isHashDigit_of_mem_hex c (List.mem_of_mem_take hc)

theorem orPlaceholder_ne_nil (name : List Char) :
    (if name.all (· = '.') then placeholder else name) ≠ [] := by
  split
  · decide
  · rename_i hall
    rintro rfl
    exact hall rfl

theorem toList_shortName_ne_nil (specifier : String) : (shortName specifier).toList ≠ [] := by
  rw [shortName, String.toList_ofList]
  exact orPlaceholder_ne_nil _

theorem not_hyphen_of_isHashDigit {c : Char} (h : isHashDigit c = true) :
    (c = '-' : Bool) = false := by
  rw [decide_eq_false_iff_not]
  rintro rfl
  cases h

theorem isUniqueId_make (specifier contents : String) :
    isUniqueId (make specifier contents) = true := by
  have hlist : (make specifier contents).toList =
      (shortName specifier).toList ++
        '-' :: (shortHash (Text.encodeUtf8 contents.toList)).toList := by
    simp [make]
  rw [isUniqueId, hlist, Text.cutAtLast_append _ (by decide)]
  · have hname := List.isEmpty_eq_false_iff.2 (toList_shortName_ne_nil specifier)
    have hdigits := List.all_eq_true.2
      (@isHashDigit_of_mem_shortHash (Text.encodeUtf8 contents.toList))
    simp only [hname, hdigits, length_shortHash]
    rfl
  · intro c hc
    exact not_hyphen_of_isHashDigit (isHashDigit_of_mem_shortHash c hc)

end ModuleId

end ImportAtlas
