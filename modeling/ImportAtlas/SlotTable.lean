import ImportAtlas.ModuleCache
import Mathlib.Data.List.Nodup

/-! Caches as they are kept: a slot for each location that has been asked for.  The
slot of a file that could not be read is empty. -/

namespace ImportAtlas

abbrev Slot := ModuleLocation × Option ModuleRecord

namespace Slot

def isFilled (slot : Slot) : Bool := slot.2.isSome

def fill (record : ModuleRecord) (slot : Slot) : Slot :=
  if slot.1 = record.location then (slot.1, some record) else slot

@[simp] theorem fst_fill (record : ModuleRecord) (slot : Slot) : (slot.fill record).1 = slot.1 := by
  unfold fill
  split <;> rfl

end Slot

structure SlotTable where
  slots : List Slot
  nodup : (slots.map Prod.fst).Nodup

namespace SlotTable

def empty : SlotTable := ⟨[], .nil⟩

def locations (s : SlotTable) : List ModuleLocation := s.slots.map Prod.fst

def slot? (s : SlotTable) (location : ModuleLocation) : Option (Option ModuleRecord) :=
  (s.slots.find? (·.1 = location)).map Prod.snd

def get? (s : SlotTable) (location : ModuleLocation) : Option ModuleRecord :=
  (s.slot? location).join

def size (s : SlotTable) : Nat := s.slots.countP Slot.isFilled

def reserve (s : SlotTable) (location : ModuleLocation) : SlotTable :=
  if h : location ∈ s.locations then s else ⟨(location, none) :: s.slots, s.nodup.cons h⟩

def fill (s : SlotTable) (record : ModuleRecord) : SlotTable where
  slots := s.slots.map (·.fill record)
  nodup := by simpa [Function.comp_def] using s.nodup

/-- The slot is there before the file is read, and stays if it cannot be read. -/
def load (t : FileTree) (location : ModuleLocation) (specifier : String) (s : SlotTable) :
    Except AtlasError ModuleRecord × SlotTable :=
  match (s.reserve location).get? location with
  | some record => (.ok record, s.reserve location)
  | none => match ModuleRecord.read t location specifier with
    | .error e => (.error e, s.reserve location)
    | .ok record => (.ok record, (s.reserve location).fill record)

theorem isSome_slot? (s : SlotTable) (location : ModuleLocation) :
    (s.slot? location).isSome = true ↔ location ∈ s.locations := by
  simp [slot?, locations, List.find?_isSome]

theorem slot?_eq_none {s : SlotTable} {location : ModuleLocation} :
    s.slot? location = none ↔ location ∉ s.locations := by
  rw [← isSome_slot?, Bool.not_eq_true, Option.isSome_eq_false_iff, Option.isNone_iff_eq_none]

theorem mem_locations_reserve (s : SlotTable) (location other : ModuleLocation) :
    other ∈ (s.reserve location).locations ↔ other = location ∨ other ∈ s.locations := by
  unfold reserve
  split
  · rename_i h
    exact ⟨.inr, fun h' => h'.elim (fun heq => heq ▸ h) id⟩
  · exact List.mem_cons

@[simp] theorem locations_fill (s : SlotTable) (record : ModuleRecord) :
    (s.fill record).locations = s.locations := by
  simp [fill, locations, Function.comp_def]

@[simp] theorem get?_reserve (s : SlotTable) (location other : ModuleLocation) :
    (s.reserve location).get? other = s.get? other := by
  unfold reserve
  split
  · rfl
  · rename_i h
    by_cases heq : location = other
    · subst heq
      rw [get?, get?, slot?_eq_none.2 h]
      simp [slot?]
    · simp [get?, slot?, heq]

theorem slot?_fill (s : SlotTable) (record : ModuleRecord) (location : ModuleLocation) :
    (s.fill record).slot? location = (s.slot? location).map fun kept =>
      if location = record.location then some record else kept := by
  have hfind : (s.fill record).slots.find? (·.1 = location) =
      (s.slots.find? (·.1 = location)).map (·.fill record) := by
    simp only [fill, List.find?_map, Function.comp_def, Slot.fst_fill]
  rw [slot?, slot?, hfind]
  cases hslot : s.slots.find? (·.1 = location) with
  | none => rfl
  | some slot =>
    have hkey : slot.1 = location := by simpa using List.find?_some hslot
    subst hkey
    simp only [Option.map_some, Slot.fill]
    split <;> rfl

theorem get?_fill_self {s : SlotTable} {record : ModuleRecord}
    (h : record.location ∈ s.locations) : (s.fill record).get? record.location = some record := by
  obtain ⟨kept, hkept⟩ := Option.isSome_iff_exists.1 ((isSome_slot? _ _).2 h)
  simp [get?, slot?_fill, hkept]

theorem get?_fill_of_ne {record : ModuleRecord} {location : ModuleLocation}
    (h : location ≠ record.location) (s : SlotTable) :
    (s.fill record).get? location = s.get? location := by
  simp [get?, slot?_fill, h]

end SlotTable

end ImportAtlas
