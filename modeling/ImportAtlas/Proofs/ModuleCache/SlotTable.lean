import ImportAtlas.SlotTable
import ImportAtlas.Proofs.ModuleCache.History

namespace ImportAtlas.SlotTable

open ModuleCache (Event Answer)

/-- A table and the files as they are at some time. -/
structure Scene where
  files : FileTree
  table : SlotTable

namespace Scene

def start (files : FileTree) : Scene := ⟨files, empty⟩

def answer (s : Scene) : Event → Answer
  | .load location specifier => .loaded (s.table.load s.files location specifier).1
  | .get location => .kept (s.table.get? location)
  | .count => .size s.table.size
  | .edit _ => .silent

def next (s : Scene) : Event → Scene
  | .load location specifier => { s with table := (s.table.load s.files location specifier).2 }
  | .get _ => s
  | .count => s
  | .edit change => { s with files := change s.files }

def after (s : Scene) (events : List Event) : Scene := events.foldl next s

end Scene

variable {s : SlotTable} {c : ModuleCache}

theorem slot?_of_mem {slot : Slot} (h : slot ∈ s.slots) : s.slot? slot.1 = some slot.2 := by
  obtain ⟨found, hfound⟩ := Option.isSome_iff_exists.1
    ((isSome_slot? s slot.1).2 (List.mem_map_of_mem h))
  obtain ⟨other, hother, rfl⟩ := Option.map_eq_some_iff.1 hfound
  have hkey : other.1 = slot.1 := by simpa using List.find?_some hother
  obtain rfl := List.inj_on_of_nodup_map s.nodup (List.mem_of_find?_eq_some hother) h hkey
  exact hfound

theorem isSome_get? (s : SlotTable) (location : ModuleLocation) :
    (s.get? location).isSome = true ↔ ∃ slot ∈ s.slots, slot.isFilled = true ∧ slot.1 = location := by
  constructor
  · intro h
    obtain ⟨record, hrecord⟩ := Option.isSome_iff_exists.1 h
    obtain ⟨slot, hslot, hfilled⟩ := Option.map_eq_some_iff.1 (Option.join_eq_some_iff.1 hrecord)
    refine ⟨slot, List.mem_of_find?_eq_some hslot, ?_, by simpa using List.find?_some hslot⟩
    rw [Slot.isFilled, hfilled]
    rfl
  · rintro ⟨slot, hslot, hfilled, rfl⟩
    rwa [get?, slot?_of_mem hslot, Option.join_some]

structure Shows (s : SlotTable) (c : ModuleCache) : Prop where
  get?_eq : ∀ location, s.get? location = c.get? location
  nodup : (c.records.map ModuleRecord.location).Nodup

theorem shows_empty : Shows empty .empty := ⟨fun _ => rfl, .nil⟩

namespace Shows

theorem size_eq (h : Shows s c) : s.size = c.size := by
  have hfilled : ((s.slots.filter Slot.isFilled).map Prod.fst).Nodup :=
    s.nodup.sublist (List.filter_sublist.map Prod.fst)
  have hperm : ((s.slots.filter Slot.isFilled).map Prod.fst).Perm
      (c.records.map ModuleRecord.location) := by
    apply (List.perm_ext_iff_of_nodup hfilled h.nodup).2
    intro location
    rw [← ModuleCache.isSome_get?, ← h.get?_eq, isSome_get?]
    simp only [List.mem_map, List.mem_filter, and_assoc]
  rw [size, List.countP_eq_length_filter, ← List.length_map Prod.fst, hperm.length_eq,
    List.length_map, ModuleCache.size]

theorem reserve (h : Shows s c) (location : ModuleLocation) : Shows (s.reserve location) c :=
  ⟨fun other => by rw [get?_reserve, h.get?_eq], h.nodup⟩

theorem fill {record : ModuleRecord} (h : Shows s c) (hslot : record.location ∈ s.locations)
    (hget : c.get? record.location = none) : Shows (s.fill record) (c.add record) := by
  constructor
  · intro other
    by_cases heq : other = record.location
    · rw [heq, get?_fill_self hslot, ModuleCache.get?_add_self]
    · rw [get?_fill_of_ne heq, ModuleCache.get?_add_of_ne (Ne.symm heq), h.get?_eq]
  · refine List.nodup_cons.2 ⟨?_, h.nodup⟩
    rw [← ModuleCache.isSome_get?, hget]
    nofun

theorem load (h : Shows s c) (t : FileTree) (location : ModuleLocation) (specifier : String) :
    (s.load t location specifier).1 = (c.load t location specifier).1 ∧
      Shows (s.load t location specifier).2 (c.load t location specifier).2 := by
  have hslot : location ∈ (s.reserve location).locations :=
    (mem_locations_reserve s location location).2 (.inl rfl)
  unfold SlotTable.load
  rw [get?_reserve, h.get?_eq]
  rcases ModuleCache.load_cases c t location specifier with
    ⟨record, hget, hload⟩ | ⟨record, hget, hread, hload⟩ | ⟨e, hget, hread, hload⟩
  · rw [hload, hget]
    exact ⟨rfl, h.reserve location⟩
  · rw [hload, hget, hread]
    obtain rfl := ModuleCache.location_of_read hread
    exact ⟨rfl, (h.reserve _).fill hslot hget⟩
  · rw [hload, hget, hread]
    exact ⟨rfl, h.reserve location⟩

end Shows

theorem mem_locations_load (s : SlotTable) (t : FileTree) (location : ModuleLocation)
    (specifier : String) (other : ModuleLocation) :
    other ∈ (s.load t location specifier).2.locations ↔ other = location ∨ other ∈ s.locations := by
  unfold load
  split
  · exact mem_locations_reserve s location other
  · split
    · exact mem_locations_reserve s location other
    · rw [locations_fill]
      exact mem_locations_reserve s location other

namespace Scene

structure Matches (s : Scene) (k : ModuleCache.Scene) : Prop where
  files : s.files = k.files
  shows : Shows s.table k.modules

variable {k : ModuleCache.Scene} {s : Scene}

theorem Matches.answer_eq (h : Matches s k) (event : Event) : s.answer event = k.answer event := by
  cases event with
  | load location specifier =>
    simp only [answer, ModuleCache.Scene.answer]
    rw [h.files, (h.shows.load k.files location specifier).1]
  | get location => exact congrArg Answer.kept (h.shows.get?_eq location)
  | count => exact congrArg Answer.size h.shows.size_eq
  | edit change => rfl

theorem Matches.next (h : Matches s k) (event : Event) : Matches (s.next event) (k.next event) := by
  cases event with
  | load location specifier =>
    refine ⟨h.files, ?_⟩
    simp only [Scene.next, ModuleCache.Scene.next]
    rw [h.files]
    exact (h.shows.load k.files location specifier).2
  | get location => exact h
  | count => exact h
  | edit change => exact ⟨congrArg change h.files, h.shows⟩

theorem Matches.after (h : Matches s k) (events : List Event) :
    Matches (s.after events) (k.after events) := by
  induction events generalizing s k with
  | nil => exact h
  | cons event events ih => exact ih (h.next event)

theorem matches_start (t : FileTree) : Matches (start t) (.start t) := ⟨rfl, shows_empty⟩

theorem answer_after_start (t : FileTree) (events : List Event) (event : Event) :
    ((start t).after events).answer event =
      ((ModuleCache.Scene.start t).after events).answer event :=
  ((matches_start t).after events).answer_eq event

theorem mem_locations_after (s : Scene) (events : List Event) (location : ModuleLocation) :
    location ∈ (s.after events).table.locations ↔
      location ∈ s.table.locations ∨ ∃ specifier, .load location specifier ∈ events := by
  induction events generalizing s with
  | nil => simp [after]
  | cons event events ih =>
    refine (ih (s.next event)).trans ?_
    cases event with
    | load asked specifier =>
      simp only [next, mem_locations_load, List.mem_cons, Event.load.injEq, exists_or,
        exists_and_left, exists_eq, and_true]
      rw [or_comm (b := location ∈ s.table.locations), or_assoc]
    | get other => simp [next]
    | count => simp [next]
    | edit change => simp [next]

theorem slot?_after_start_eq_some_none (t : FileTree) (events : List Event)
    (location : ModuleLocation) :
    ((start t).after events).table.slot? location = some none ↔
      (∃ specifier, .load location specifier ∈ events) ∧
        location ∉ (ModuleCache.Scene.start t).successes events := by
  have hasked : location ∈ ((start t).after events).table.locations ↔
      ∃ specifier, .load location specifier ∈ events := by
    rw [mem_locations_after]
    exact or_iff_right List.not_mem_nil
  have hshown : ((start t).after events).table.get? location = none ↔
      location ∉ (ModuleCache.Scene.start t).successes events := by
    rw [((matches_start t).after events).shows.get?_eq,
      (ModuleCache.Scene.accounts_start t events).get?_eq_none]
  rw [← hasked, ← hshown, ← isSome_slot?, get?]
  cases ((start t).after events).table.slot? location with
  | none => simp
  | some kept => simp

end Scene

end ImportAtlas.SlotTable
