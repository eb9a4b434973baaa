import ImportAtlas.ModuleId
import ImportAtlas.Resolution.Basic

/-! Modules that have been loaded.  A module keeps the contents and the id of
its first load. -/

namespace ImportAtlas

structure ModuleRecord where
  location : ModuleLocation
  contents : String
  id : String
  deriving DecidableEq

def ModuleRecord.read (t : FileTree) (location : ModuleLocation) (specifier : String) :
    Except AtlasError ModuleRecord :=
  match t.readText location.path with
  | .error fault => .error (.load location.path fault)
  | .ok contents => .ok ⟨location, contents, ModuleId.make specifier contents⟩

structure ModuleCache where
  records : List ModuleRecord

namespace ModuleCache

def empty : ModuleCache := ⟨[]⟩

def get? (c : ModuleCache) (location : ModuleLocation) : Option ModuleRecord :=
  c.records.find? (·.location = location)

def size (c : ModuleCache) : Nat := c.records.length

def add (c : ModuleCache) (record : ModuleRecord) : ModuleCache := ⟨record :: c.records⟩

/-- The record of a location, which is read unless it is known.  A file that
cannot be read leaves no record. -/
def load (t : FileTree) (location : ModuleLocation) (specifier : String) (c : ModuleCache) :
    Except AtlasError ModuleRecord × ModuleCache :=
  match c.get? location with
  | some record => (.ok record, c)
  | none => match ModuleRecord.read t location specifier with
    | .error e => (.error e, c)
    | .ok record => (.ok record, c.add record)

theorem location_of_read {t : FileTree} {location : ModuleLocation} {specifier : String}
    {record : ModuleRecord} (h : ModuleRecord.read t location specifier = .ok record) :
    record.location = location := by
  unfold ModuleRecord.read at h
  split at h
  · contradiction
  · cases h
    rfl

theorem get?_add_self (c : ModuleCache) (record : ModuleRecord) :
    (c.add record).get? record.location = some record := by
  simp [add, get?]

theorem get?_add_of_ne {record : ModuleRecord} {location : ModuleLocation}
    (h : record.location ≠ location) (c : ModuleCache) :
    (c.add record).get? location = c.get? location := by
  simp [add, get?, h]

theorem load_of_get? {c : ModuleCache} {location : ModuleLocation} {record : ModuleRecord}
    (h : c.get? location = some record) (t : FileTree) (specifier : String) :
    c.load t location specifier = (.ok record, c) := by
  simp [load, h]

end ModuleCache

end ImportAtlas
