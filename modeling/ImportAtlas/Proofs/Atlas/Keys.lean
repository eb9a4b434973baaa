import ImportAtlas.Atlas
import ImportAtlas.Proofs.ModuleGraph.Closure
import ImportAtlas.Proofs.ModuleId.Form
import ImportAtlas.Proofs.OrderedMap

/-! The keys of an import map.  They are what the expanded modules claim, their
texts are texts of expanded modules, and every id that a text names is among
them. -/

namespace ImportAtlas

open Outcome Text

/-- The keys under which a module asks to be listed: its id, and the bare
specifier that it was visited by. -/
def Expansion.Claims (e : Expansion) (key : String) : Prop :=
  key = e.id ∨ (isBare e.visit.specifier = true ∧ key = e.visit.specifier)

namespace Atlas

variable {a : Atlas} {claimed written : String → Prop}

structure Lists (a : Atlas) (claimed written : String → Prop) : Prop where
  keys : ∀ key, key ∈ a.importMap.keys ↔ claimed key
  texts : ∀ entry ∈ a.importMap.entries, written entry.2
  owners : ∀ specifier path, a.packagePaths.get? specifier = some path →
    specifier ∈ a.importMap.keys

theorem lists_empty : Lists empty (fun _ => False) (fun _ => False) :=
  ⟨by simp [empty], by simp [empty, OrderedMap.empty], by simp [empty]⟩

theorem Lists.of_eq {b : Atlas} (h : Lists a claimed written) (hmap : b.importMap = a.importMap)
    (hpaths : b.packagePaths = a.packagePaths) : Lists b claimed written := by
  refine ⟨?_, ?_, ?_⟩
  · rw [hmap]
    exact h.keys
  · rw [hmap]
    exact h.texts
  · rw [hmap, hpaths]
    exact h.owners

theorem Lists.claim (h : Lists a claimed written) {key : String} (hkey : key ∈ a.importMap.keys)
    (text : String) : Lists a (fun k => k = key ∨ claimed k) (fun t => t = text ∨ written t) := by
  refine ⟨?_, fun entry he => .inr (h.texts entry he), h.owners⟩
  intro k
  rw [h.keys k]
  constructor
  · exact .inr
  · rintro (rfl | hk)
    · exact (h.keys k).1 hkey
    · exact hk

theorem Lists.insert (h : Lists a claimed written) (key text : String) :
    (∀ k, k ∈ (a.importMap.insert key text).keys ↔ k = key ∨ claimed k) ∧
      ∀ entry ∈ (a.importMap.insert key text).entries, entry.2 = text ∨ written entry.2 := by
  constructor
  · intro k
    rw [OrderedMap.mem_keys_insert, h.keys k]
  · intro entry hentry
    rcases OrderedMap.mem_entries_insert hentry with rfl | hentry
    · exact .inl rfl
    · exact .inr (h.texts entry hentry)

@[simp] theorem importMap_noteImport (a : Atlas) (i : Import) :
    (a.noteImport i).importMap = a.importMap := by
  unfold noteImport
  split <;> rfl

@[simp] theorem packagePaths_noteImport (a : Atlas) (i : Import) :
    (a.noteImport i).packagePaths = a.packagePaths := by
  unfold noteImport
  split <;> rfl

theorem Lists.noteImport (h : Lists a claimed written) (i : Import) :
    Lists (a.noteImport i) claimed written :=
  h.of_eq (importMap_noteImport a i) (packagePaths_noteImport a i)

theorem Lists.noteImports (h : Lists a claimed written) (is : List Import) :
    Lists (is.foldl Atlas.noteImport a) claimed written := by
  induction is generalizing a with
  | nil => exact h
  | cons i is ih => exact ih (h.noteImport i)

theorem Lists.listId (h : Lists a claimed written) (id text : String) (path : Path) :
    Lists (a.listId id text path) (fun k => k = id ∨ claimed k)
      (fun t => t = text ∨ written t) := by
  unfold Atlas.listId
  split
  · rename_i kept hkept
    have h := h.claim (OrderedMap.mem_keys_of_get? hkept) text
    split
    · exact h
    · exact h.of_eq rfl rfl
  · obtain ⟨hkeys, htexts⟩ := h.insert id text
    refine ⟨hkeys, htexts, fun specifier kept hkept => ?_⟩
    exact OrderedMap.mem_keys_insert.2 (.inr (h.owners specifier kept hkept))

theorem Lists.listBare (h : Lists a claimed written) (specifier text : String) (path : Path) :
    Lists (a.listBare specifier text path) (fun k => k = specifier ∨ claimed k)
      (fun t => t = text ∨ written t) := by
  unfold Atlas.listBare
  split
  · rename_i owner howner
    have h := h.claim (h.owners specifier owner howner) text
    split
    · exact h
    · exact h.of_eq rfl rfl
  · obtain ⟨hkeys, htexts⟩ := h.insert specifier text
    refine ⟨hkeys, htexts, fun other kept hkept => OrderedMap.mem_keys_insert.2 ?_⟩
    by_cases heq : specifier = other
    · exact .inl heq.symm
    · rw [OrderedMap.get?_insert_of_ne _ heq] at hkept
      exact .inr (h.owners other kept hkept)

theorem Lists.congr {claimed' written' : String → Prop} (h : Lists a claimed written)
    (hclaimed : ∀ k, claimed k ↔ claimed' k) (hwritten : ∀ t, written t → written' t) :
    Lists a claimed' written' :=
  ⟨fun k => (h.keys k).trans (hclaimed k), fun entry he => hwritten _ (h.texts entry he), h.owners⟩

theorem Lists.add (h : Lists a claimed written) (e : Expansion) :
    Lists (a.add e) (fun k => e.Claims k ∨ claimed k) (fun t => t = e.text ∨ written t) := by
  have hnoted := h.noteImports e.imports
  unfold Atlas.add
  dsimp only
  split
  · rename_i hbare
    refine ((hnoted.listBare _ e.text _).listId e.id e.text _).congr ?_ ?_
    · intro k
      simp [Expansion.Claims, hbare, or_assoc]
    · intro t ht
      simpa using ht
  · rename_i hbare
    refine (hnoted.listId e.id e.text _).congr ?_ ?_
    · intro k
      simp [Expansion.Claims, hbare]
    · intro t ht
      exact ht

theorem Lists.addAll (h : Lists a claimed written) (es : List Expansion) :
    Lists (es.foldl Atlas.add a) (fun k => (∃ e ∈ es, e.Claims k) ∨ claimed k)
      (fun t => (∃ e ∈ es, t = e.text) ∨ written t) := by
  induction es generalizing a claimed written with
  | nil => exact h.congr (by simp) (by simp)
  | cons e es ih =>
    refine (ih (h.add e)).congr ?_ ?_
    · intro k
      simp [or_assoc, or_left_comm]
    · intro t
      simp [or_assoc, or_left_comm]

theorem lists_ofWalk (entry : Import) (es : List Expansion) :
    Lists (ofWalk entry es) (fun k => ∃ e ∈ es, e.Claims k) (fun t => ∃ e ∈ es, t = e.text) :=
  ((lists_empty.noteImport entry).addAll es).congr (by simp) (by simp)

/-- What an atlas says of the modules that a walk has expanded.  Every reference
of a module is spliced with an id, and the id is a key. -/
structure Describes (a : Atlas) (norm : Normalizer) (modules : ModuleCache) (es : List Expansion) :
    Prop where
  keys : ∀ key, key ∈ a.importMap.keys ↔ ∃ e ∈ es, e.Claims key
  texts : ∀ entry ∈ a.importMap.entries, ∃ e ∈ es, entry.2 = e.text
  references : ∀ e ∈ es, ∃ record text references,
    modules.get? e.visit.location = some record ∧ record.id = e.id ∧
    norm.normalize e.visit.location.path record.contents = .ok text ∧
    scan text = .ok references ∧
    splice text references (fun r => Expansion.idOf e.imports r.specifier) = .ok e.text ∧
    ∀ r ∈ references, ∃ id, Expansion.idOf e.imports r.specifier = some id ∧
      ModuleId.isUniqueId id = true ∧ id ∈ a.importMap.keys

variable {t : FileTree} {config : Config} {norm : Normalizer} {specifier : String} {base : Path}
  {a : Atlas} {s s' : Caches}

/-- Every walk that succeeds yields an import map that is closed: its keys are
what the expanded modules claim, that of the entry first, and every id in a text is a
key. -/
theorem describes_of_trace (hs : s.modules.Loaded)
    (h : (trace t config norm specifier base).run s = (.ok a, s')) :
    ∃ entry es, (ModuleGraph.walk t config norm specifier base).run s = (.ok (entry, es), s') ∧
      (∃ first others, es = first :: others ∧ first.visit = entry.visit) ∧
      a.Describes norm s'.modules es := by
  obtain ⟨⟨entry, es⟩, s₁, hwalk, h⟩ := gives_bind.1 h
  obtain ⟨rfl, rfl⟩ := gives_pure.1 h
  obtain ⟨hclosed, hgrows⟩ := ModuleGraph.gives_walk hwalk
  have hnamed := ModuleCache.Loaded.named (hs.trans hgrows)
  have hlists := lists_ofWalk entry es
  refine ⟨entry, es, hwalk, ModuleGraph.head_of_walk hwalk, hlists.keys, hlists.texts, ?_⟩
  intro e he
  obtain ⟨record, text, references, hrecord, hid, hnormal, hscan, hsplice, himports⟩ :=
    (hclosed.grounded e he).source
  refine ⟨record, text, references, hrecord, hid, hnormal, hscan, hsplice, ?_⟩
  intro r hr
  obtain ⟨i, hi, hidOf⟩ := Expansion.exists_idOf himports hr
  obtain ⟨_, child, hchild, hchildId⟩ := (hclosed.grounded e he).imports i hi
  obtain ⟨name, hname⟩ := hnamed.id_of_get? hchild
  obtain ⟨e', he', heq⟩ := hclosed.exists_id he hi
  refine ⟨i.id, hidOf, ?_, ?_⟩
  · rw [← hchildId, hname]
    exact ModuleId.isUniqueId_make name child.contents
  · exact (hlists.keys i.id).2 ⟨e', he', .inl heq.symm⟩

def cycleTree : FileTree where
  root := .directory [("a.js".toList, .file (encodeUtf8 "import 'b'".toList)),
    ("node_modules".toList, .directory [("b".toList, .directory
      [("index.js".toList, .file (encodeUtf8 "import '../../a.js'".toList))])])]
  workingDirectory := []

theorem describes_cycleTree : ModuleCache.empty.Loaded ∧
    ∃ a s', (trace cycleTree Config.default (.basic true) "./a.js" (Path.ofString "/")).run
        ⟨.empty, .empty⟩ = (.ok a, s') ∧
      a.importMap.entries = [("a-93d1b8d", "import \"b-e51f502\""),
        ("b", "import \"a-93d1b8d\""), ("b-e51f502", "import \"a-93d1b8d\"")] ∧
      ∃ entry es, (ModuleGraph.walk cycleTree Config.default (.basic true) "./a.js"
          (Path.ofString "/")).run ⟨.empty, .empty⟩ = (.ok (entry, es), s') ∧
        es.map Expansion.visit = [⟨"./a.js", ⟨Path.ofString "/a.js"⟩⟩,
          ⟨"b", ⟨Path.ofString "/node_modules/b/index.js"⟩⟩] ∧
        (∃ first others, es = first :: others ∧ first.visit = entry.visit) ∧
        a.Describes (.basic true) s'.modules es := by
  have hloaded : ModuleCache.empty.Loaded := .refl
  obtain ⟨⟨entry, es⟩, s', hwalk, hview⟩ := exists_gives_of_view (s := ⟨.empty, .empty⟩)
    (x := ModuleGraph.walk cycleTree Config.default (.basic true) "./a.js" (Path.ofString "/"))
    (f := fun walked =>
      (walked.2.map Expansion.visit, (ofWalk walked.1 walked.2).importMap.entries))
    (b := ([⟨"./a.js", ⟨Path.ofString "/a.js"⟩⟩,
        ⟨"b", ⟨Path.ofString "/node_modules/b/index.js"⟩⟩],
      [("a-93d1b8d", "import \"b-e51f502\""), ("b", "import \"a-93d1b8d\""),
        ("b-e51f502", "import \"a-93d1b8d\"")])) (by decide +kernel)
  obtain ⟨hvisits, hentries⟩ := Prod.mk.inj hview
  have h : Gives (trace cycleTree Config.default (.basic true) "./a.js" (Path.ofString "/"))
      ⟨.empty, .empty⟩ (ofWalk entry es) s' :=
    gives_bind.2 ⟨_, s', hwalk, gives_pure.2 ⟨rfl, rfl⟩⟩
  obtain ⟨entry', es', hwalk', hdescribes⟩ := describes_of_trace hloaded h
  cases hwalk.symm.trans hwalk'
  exact ⟨hloaded, _, s', h, hentries, entry, es, hwalk, hvisits, hdescribes⟩

end Atlas

end ImportAtlas
