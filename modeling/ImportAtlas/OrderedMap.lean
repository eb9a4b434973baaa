namespace ImportAtlas

abbrev Entries (α : Type) := List (String × α)

namespace Entries

variable {α : Type}

def get? (key : String) : Entries α → Option α
  | [] => none
  | (k, v) :: rest => if k = key then some v else get? key rest

def insert (key : String) (value : α) : Entries α → Entries α
  | [] => [(key, value)]
  | (k, v) :: rest =>
    if k = key then (key, value) :: rest
    else if key < k then (key, value) :: (k, v) :: rest
    else (k, v) :: insert key value rest

def Sorted (es : Entries α) : Prop := es.Pairwise fun a b => a.1 < b.1

theorem get?_insert_self (key : String) (value : α) (es : Entries α) :
    get? key (insert key value es) = some value := by
  induction es with
  | nil => simp [insert, get?]
  | cons e rest ih =>
    simp only [insert]
    split
    · simp [get?]
    · split
      · simp [get?]
      · simp [get?, *]

theorem get?_insert_of_ne {key other : String} (h : key ≠ other) (value : α) (es : Entries α) :
    get? other (insert key value es) = get? other es := by
  induction es with
  | nil => simp [insert, get?, h]
  | cons e rest ih =>
    simp only [insert]
    split
    · rename_i hk
      simp [get?, h, hk]
    · split
      · simp [get?, h]
      · simp only [get?]
        split
        · rfl
        · exact ih

theorem mem_insert {key : String} {value : α} {es : Entries α} {e : String × α}
    (h : e ∈ insert key value es) : e = (key, value) ∨ e ∈ es := by
  induction es with
  | nil => simpa [insert] using h
  | cons d rest ih =>
    simp only [insert] at h
    split at h
    · exact (List.mem_cons.1 h).imp id (List.mem_cons_of_mem d)
    · split at h
      · exact List.mem_cons.1 h
      · rcases List.mem_cons.1 h with h | h
        · exact .inr (h ▸ List.mem_cons_self)
        · exact (ih h).imp id (List.mem_cons_of_mem d)

theorem Sorted.insert {es : Entries α} (h : es.Sorted) (key : String) (value : α) :
    (Entries.insert key value es).Sorted := by
  induction es with
  | nil => simp [Entries.insert, Sorted]
  | cons d rest ih =>
    obtain ⟨hd, hrest⟩ := List.pairwise_cons.1 h
    simp only [Entries.insert]
    split
    · rename_i hk
      exact List.pairwise_cons.2 ⟨fun e he => hk ▸ hd e he, hrest⟩
    · rename_i hne
      split
      · rename_i hlt
        refine List.pairwise_cons.2 ⟨fun e he => ?_, h⟩
        rcases List.mem_cons.1 he with rfl | he
        · exact hlt
        · exact String.lt_trans hlt (hd e he)
      · rename_i hge
        refine List.pairwise_cons.2 ⟨fun e he => ?_, ih hrest⟩
        rcases mem_insert he with rfl | he
        · rcases Std.lt_trichotomy d.1 key with hlt | heq | hgt
          · exact hlt
          · exact absurd heq hne
          · exact absurd hgt hge
        · exact hd e he

end Entries

structure OrderedMap (α : Type) where
  entries : Entries α
  sorted : entries.Sorted

namespace OrderedMap

variable {α : Type}

def empty : OrderedMap α := ⟨[], List.Pairwise.nil⟩

def get? (m : OrderedMap α) (key : String) : Option α := m.entries.get? key

def insert (m : OrderedMap α) (key : String) (value : α) : OrderedMap α :=
  ⟨m.entries.insert key value, m.sorted.insert key value⟩

def insertNew (m : OrderedMap α) (key : String) (value : α) : OrderedMap α :=
  if (m.get? key).isSome then m else m.insert key value

@[simp] theorem get?_empty (key : String) : (empty : OrderedMap α).get? key = none := rfl

@[simp] theorem get?_insert_self (m : OrderedMap α) (key : String) (value : α) :
    (m.insert key value).get? key = some value :=
  Entries.get?_insert_self key value m.entries

theorem get?_insert_of_ne (m : OrderedMap α) {key other : String} (h : key ≠ other) (value : α) :
    (m.insert key value).get? other = m.get? other :=
  Entries.get?_insert_of_ne h value m.entries

theorem get?_insertNew_of_some {m : OrderedMap α} {key : String} {kept : α}
    (h : m.get? key = some kept) (other : String) (value : α) :
    (m.insertNew other value).get? key = some kept := by
  unfold insertNew
  split
  · exact h
  · rename_i hnone
    have hne : other ≠ key := by
      rintro rfl
      simp [h] at hnone
    rw [get?_insert_of_ne m hne, h]

end OrderedMap

end ImportAtlas
