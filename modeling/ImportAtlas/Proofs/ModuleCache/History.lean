import ImportAtlas.FileTree.Edit
import ImportAtlas.Proofs.Atlas.Keys
import ImportAtlas.Proofs.ModuleGraph.Sharing
import Mathlib.Data.List.Dedup

/-! What a cache answers in the course of its history, while the files change.
The first load of a location that succeeds fixes its record for good; a load
that fails leaves no trace. -/

namespace ImportAtlas

open Outcome Text

namespace ModuleCache

/-- What is asked of a cache, and the changes of the files in between. -/
inductive Event where
  | load (location : ModuleLocation) (specifier : String)
  | get (location : ModuleLocation)
  | count
  | edit (change : FileTree → FileTree)

inductive Answer where
  | loaded (result : Except AtlasError ModuleRecord)
  | kept (record : Option ModuleRecord)
  | size (n : Nat)
  | silent

/-- A cache and the files as they are at some time. -/
structure Scene where
  files : FileTree
  modules : ModuleCache

namespace Scene

def start (files : FileTree) : Scene := ⟨files, empty⟩

def answer (s : Scene) : Event → Answer
  | .load location specifier => .loaded (s.modules.load s.files location specifier).1
  | .get location => .kept (s.modules.get? location)
  | .count => .size s.modules.size
  | .edit _ => .silent

def next (s : Scene) : Event → Scene
  | .load location specifier =>
    { s with modules := (s.modules.load s.files location specifier).2 }
  | .get _ => s
  | .count => s
  | .edit change => { s with files := change s.files }

def after (s : Scene) (events : List Event) : Scene := events.foldl next s

end Scene

def Event.success? : Event → Answer → Option ModuleLocation
  | .load location _, .loaded (.ok _) => some location
  | _, _ => none

/-- The locations that are loaded with success in the course of the events. -/
def Scene.successes (s : Scene) : List Event → List ModuleLocation
  | [] => []
  | event :: events =>
    (event.success? (s.answer event)).toList ++ (s.next event).successes events

variable {c d : ModuleCache} {t : FileTree} {location : ModuleLocation} {specifier : String}
  {record : ModuleRecord}

theorem load_cases (c : ModuleCache) (t : FileTree) (location : ModuleLocation)
    (specifier : String) :
    (∃ record, c.get? location = some record ∧
      c.load t location specifier = (.ok record, c)) ∨
    (∃ record, c.get? location = none ∧ ModuleRecord.read t location specifier = .ok record ∧
      c.load t location specifier = (.ok record, c.add record)) ∨
    (∃ e, c.get? location = none ∧ ModuleRecord.read t location specifier = .error e ∧
      c.load t location specifier = (.error e, c)) := by
  unfold load
  split
  · rename_i record hc
    exact .inl ⟨record, hc, rfl⟩
  · rename_i hc
    split
    · rename_i e hread
      exact .inr (.inr ⟨e, hc, hread, rfl⟩)
    · rename_i record hread
      exact .inr (.inl ⟨record, hc, hread, rfl⟩)

theorem load_of_get?_none (h : c.get? location = none) (t : FileTree) (specifier : String) :
    (c.load t location specifier).1 = ModuleRecord.read t location specifier := by
  rcases load_cases c t location specifier with
    ⟨record, hget, -⟩ | ⟨record, -, hread, hload⟩ | ⟨e, -, hread, hload⟩
  · rw [h] at hget
    cases hget
  · rw [hload, hread]
  · rw [hload, hread]

theorem of_load_error {e : AtlasError} (h : (c.load t location specifier).1 = .error e) :
    (c.load t location specifier).2 = c ∧ c.get? location = none := by
  rcases load_cases c t location specifier with
    ⟨record, -, hload⟩ | ⟨record, -, -, hload⟩ | ⟨e, hget, -, hload⟩
  · rw [hload] at h
    cases h
  · rw [hload] at h
    cases h
  · rw [hload]
    exact ⟨rfl, hget⟩

theorem get?_of_load_ok (h : (c.load t location specifier).1 = .ok record) :
    (c.load t location specifier).2.get? location = some record :=
  get?_of_load (Prod.ext h rfl)

theorem text_of_read (h : ModuleRecord.read t location specifier = .ok record) :
    t.readText location.path = .ok record.contents := by
  unfold ModuleRecord.read at h
  split at h
  · cases h
  · rename_i htext
    cases h
    exact htext

structure Accounts (c : ModuleCache) (locations : List ModuleLocation) : Prop where
  mem : ∀ l, l ∈ locations ↔ (c.get? l).isSome = true
  nodup : (c.records.map ModuleRecord.location).Nodup

theorem accounts_empty : Accounts empty [] := ⟨by simp [empty, get?], .nil⟩

theorem isSome_get? (c : ModuleCache) (l : ModuleLocation) :
    (c.get? l).isSome = true ↔ l ∈ c.records.map ModuleRecord.location := by
  simp [get?, List.find?_isSome]

namespace Accounts

variable {locations : List ModuleLocation}

theorem get?_eq_none (h : Accounts c locations) : c.get? location = none ↔ location ∉ locations := by
  rw [h.mem, Bool.not_eq_true, Option.isSome_eq_false_iff, Option.isNone_iff_eq_none]

theorem size_eq (h : Accounts c locations) : c.size = locations.dedup.length := by
  have hperm : (c.records.map ModuleRecord.location).Perm locations.dedup := by
    apply (List.perm_ext_iff_of_nodup h.nodup (List.nodup_dedup locations)).2
    intro l
    rw [List.mem_dedup, h.mem, isSome_get?]
  rw [size, ← hperm.length_eq, List.length_map]

theorem again (h : Accounts c locations) (hget : c.get? location = some record) :
    Accounts c (locations ++ [location]) := by
  refine ⟨fun l => ?_, h.nodup⟩
  rw [List.mem_append, List.mem_singleton, h.mem]
  constructor
  · rintro (hl | rfl)
    · exact hl
    · rw [hget]
      rfl
  · exact .inl

theorem add (h : Accounts c locations) (hget : c.get? record.location = none) :
    Accounts (c.add record) (locations ++ [record.location]) := by
  constructor
  · intro l
    rw [isSome_get?, List.mem_append, List.mem_singleton, h.mem, isSome_get?, or_comm]
    exact List.mem_cons.symm
  · refine List.nodup_cons.2 ⟨?_, h.nodup⟩
    rw [← isSome_get?, hget]
    nofun

theorem next {s : Scene} (h : Accounts s.modules locations) (event : Event) :
    Accounts (s.next event).modules
      (locations ++ (event.success? (s.answer event)).toList) := by
  cases event with
  | load location specifier =>
    simp only [Scene.next, Scene.answer]
    rcases load_cases s.modules s.files location specifier with
      ⟨record, hget, hload⟩ | ⟨record, hget, hread, hload⟩ | ⟨e, -, -, hload⟩
    · rw [hload]
      exact h.again hget
    · rw [hload]
      obtain rfl := location_of_read hread
      exact h.add hget
    · rw [hload]
      simpa [Event.success?] using h
  | get location => simpa [Scene.next, Event.success?] using h
  | count => simpa [Scene.next, Event.success?] using h
  | edit change => simpa [Scene.next, Event.success?] using h

theorem after {s : Scene} (h : Accounts s.modules locations) (events : List Event) :
    Accounts (s.after events).modules (locations ++ s.successes events) := by
  induction events generalizing s locations with
  | nil => simpa [Scene.after, Scene.successes] using h
  | cons event events ih =>
    have h := ih (h.next event)
    rwa [List.append_assoc] at h

end Accounts

namespace Scene

theorem loadsTo_next (s : Scene) (event : Event) : s.modules.LoadsTo (s.next event).modules := by
  cases event with
  | load location specifier => exact .load s.files location specifier .refl
  | get location => exact .refl
  | count => exact .refl
  | edit change => exact .refl

theorem loadsTo_after (s : Scene) (events : List Event) :
    s.modules.LoadsTo (s.after events).modules := by
  induction events generalizing s with
  | nil => exact .refl
  | cons event events ih => exact (s.loadsTo_next event).trans (ih _)

theorem accounts_start (t : FileTree) (events : List Event) :
    Accounts ((start t).after events).modules ((start t).successes events) := by
  have h := Accounts.after (s := start t) accounts_empty events
  rwa [List.nil_append] at h

theorem answer_after_of_get? {s : Scene} (h : s.modules.get? location = some record)
    (events : List Event) :
    (∀ specifier, (s.after events).answer (.load location specifier) = .loaded (.ok record)) ∧
      (s.after events).answer (.get location) = .kept (some record) := by
  have hget := (s.loadsTo_after events).extend location record h
  constructor
  · intro specifier
    simp only [answer]
    rw [load_of_get? hget]
  · simp only [answer]
    rw [hget]

theorem get?_after_of_not_mem {s : Scene} {locations : List ModuleLocation}
    (h : Accounts s.modules locations) (hget : s.modules.get? location = none)
    {events : List Event} (hevents : location ∉ s.successes events) :
    (s.after events).modules.get? location = none := by
  rw [(h.after events).get?_eq_none, List.mem_append]
  rintro (hmem | hmem)
  · exact h.get?_eq_none.1 hget hmem
  · exact hevents hmem

theorem answer_of_get?_none {s : Scene} (h : s.modules.get? location = none)
    (specifier : String) : s.answer (.load location specifier) =
      .loaded (ModuleRecord.read s.files location specifier) := by
  simp only [answer]
  rw [load_of_get?_none h]

theorem load_of_answer {s : Scene} {result : Except AtlasError ModuleRecord}
    (h : s.answer (.load location specifier) = .loaded result) :
    (s.modules.load s.files location specifier).1 = result := by
  simpa [answer] using h

section History

variable {before : List Event}

theorem kept_of_answer {s : Scene}
    (h : s.answer (.load location specifier) = .loaded (.ok record)) (later : List Event) :
    (∀ specifier', ((s.next (.load location specifier)).after later).answer
        (.load location specifier') = .loaded (.ok record)) ∧
      ((s.next (.load location specifier)).after later).answer (.get location) =
        .kept (some record) :=
  answer_after_of_get? (get?_of_load_ok (load_of_answer h)) later

theorem first_of_answer
    (h : ((start t).after before).answer (.load location specifier) = .loaded (.ok record))
    (hfirst : location ∉ (start t).successes before) :
    ((start t).after before).files.readText location.path = .ok record.contents ∧
      record.id = ModuleId.make specifier record.contents := by
  have hget := (accounts_start t before).get?_eq_none.2 hfirst
  rw [answer_of_get?_none hget] at h
  cases hread : ModuleRecord.read ((start t).after before).files location specifier with
  | error e =>
    rw [hread] at h
    cases h
  | ok read =>
    rw [hread] at h
    cases h
    exact ⟨text_of_read hread, id_of_read hread⟩

theorem unchanged_of_answer {e : AtlasError}
    (h : ((start t).after before).answer (.load location specifier) = .loaded (.error e)) :
    ((start t).after before).next (.load location specifier) = (start t).after before ∧
      ∀ later, location ∉ ((start t).after before).successes later → ∀ specifier',
        (((start t).after before).after later).answer (.load location specifier') =
          .loaded (ModuleRecord.read (((start t).after before).after later).files location
            specifier') := by
  obtain ⟨hsame, hget⟩ := of_load_error (load_of_answer h)
  constructor
  · simp only [next]
    rw [hsame]
  · intro later hlater specifier'
    apply answer_of_get?_none
    exact get?_after_of_not_mem (accounts_start t before) hget hlater

end History

end Scene

end ModuleCache

end ImportAtlas
