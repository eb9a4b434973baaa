import ImportAtlas.OrderedMap

namespace ImportAtlas

namespace Entries

variable {α : Type}

theorem exists_get?_iff {es : Entries α} {key : String} :
    (∃ value, es.get? key = some value) ↔ key ∈ es.map Prod.fst := by
  induction es with
  | nil => simp [get?]
  | cons e rest ih =>
    by_cases h : e.1 = key
    · simp [get?, h]
    · simp [get?, h, Ne.symm h, ← ih]

end Entries

namespace OrderedMap

variable {α : Type}

/-- The keys, in order. -/
def keys (m : OrderedMap α) : List String := m.entries.map Prod.fst

@[simp] theorem keys_empty : (empty : OrderedMap α).keys = [] := rfl

theorem mem_keys_iff {m : OrderedMap α} {key : String} :
    key ∈ m.keys ↔ ∃ value, m.get? key = some value :=
  Entries.exists_get?_iff.symm

theorem mem_keys_of_get? {m : OrderedMap α} {key : String} {value : α}
    (h : m.get? key = some value) : key ∈ m.keys :=
  mem_keys_iff.2 ⟨value, h⟩

theorem mem_keys_insert {m : OrderedMap α} {key other : String} {value : α} :
    other ∈ (m.insert key value).keys ↔ other = key ∨ other ∈ m.keys := by
  by_cases h : key = other
  · simp [mem_keys_iff, h]
  · rw [mem_keys_iff, get?_insert_of_ne m h, ← mem_keys_iff]
    simp [Ne.symm h]

theorem mem_entries_insert {m : OrderedMap α} {key : String} {value : α} {e : String × α}
    (h : e ∈ (m.insert key value).entries) : e = (key, value) ∨ e ∈ m.entries :=
  Entries.mem_insert h

theorem get?_insert (m : OrderedMap α) (key other : String) (value : α) :
    (m.insert key value).get? other = if key = other then some value else m.get? other := by
  split
  · rename_i h
    rw [← h, get?_insert_self]
  · rename_i h
    exact get?_insert_of_ne m h value

theorem or_of_get? {m : OrderedMap α} {key : String} {kept : α} (h : m.get? key = some kept)
    (other : String) (value : α) :
    (m.get? other).or (if key = other then some value else none) = m.get? other := by
  split
  · rename_i hkey
    rw [← hkey, h, Option.some_or]
  · rw [Option.or_none]

theorem get?_insert_of_none {m : OrderedMap α} {key : String} (h : m.get? key = none)
    (other : String) (value : α) :
    (m.insert key value).get? other =
      (m.get? other).or (if key = other then some value else none) := by
  rw [get?_insert]
  split
  · rename_i hkey
    rw [← hkey, h, Option.none_or]
  · rw [Option.or_none]

end OrderedMap

end ImportAtlas
