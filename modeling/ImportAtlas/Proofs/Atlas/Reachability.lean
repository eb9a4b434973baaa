import Mathlib.Logic.Relation
import ImportAtlas.Proofs.Atlas.Termination
import ImportAtlas.Proofs.ModuleGraph.Answers

namespace ImportAtlas

open Outcome Relation

/-- A reference of the first module leads to the second one.  The text of the
module is what loading it gives, normalized, and the reference is resolved from its
directory, with the manifests that have been looked up; what they have led to
once they lead to again (`Resolver.repeated_resolve`). -/
def ModuleGraph.Refers (t : FileTree) (config : Config) (norm : Normalizer) (caches : Caches)
    (l l' : ModuleLocation) : Prop :=
  ∃ contents text references r resolution manifests, caches.modules.textOf t l = .ok contents ∧
    norm.normalize l.path contents = .ok text ∧ scan text = .ok references ∧ r ∈ references ∧
    Gives (Resolver.resolve t config r.specifier l.directory) caches.manifests resolution
      manifests ∧ resolution.location = l'

namespace Expansion

def Link (es : List Expansion) (l l' : ModuleLocation) : Prop :=
  ∃ e ∈ es, e.visit.location = l ∧ ∃ i ∈ e.imports, i.resolution.location = l'

theorem Link.append {es : List Expansion} {l l' : ModuleLocation} (h : Link es l l')
    (later : List Expansion) : Link (es ++ later) l l' := by
  obtain ⟨e, he, hlink⟩ := h
  exact ⟨e, List.mem_append_left _ he, hlink⟩

theorem Grounded.link_iff {t : FileTree} {config : Config} {norm : Normalizer} {s c : Caches}
    {e : Expansion} (h : e.Grounded t norm c.modules) (hgrows : s.Grows t c)
    (hfaithful : c.manifests.Faithful t)
    (hsettled : ∀ i ∈ e.imports,
      i.Settled t config c.manifests e.visit.location.directory) (l : ModuleLocation) :
    (∃ i ∈ e.imports, i.resolution.location = l) ↔
      ModuleGraph.Refers t config norm ⟨c.manifests, s.modules⟩ e.visit.location l := by
  obtain ⟨record, text, references, hrecord, -, hnormal, hscan, -, himports⟩ := h.source
  have htext : s.modules.textOf t e.visit.location = .ok record.contents := by
    rw [← hgrows.texts, ModuleCache.textOf_of_get? hrecord]
  have hagain (i : Import) (hi : i ∈ e.imports) :=
    hsettled i hi c.manifests (.refl _) hfaithful
  constructor
  · rintro ⟨i, hi, hl⟩
    have hmem : i.specifier ∈ specifiers references := himports ▸ List.mem_map_of_mem hi
    rw [specifiers, List.mem_eraseDups] at hmem
    obtain ⟨r, hr, hspecifier⟩ := List.mem_map.1 hmem
    exact ⟨_, text, references, r, i.resolution, c.manifests, htext, hnormal, hscan, hr,
      hspecifier ▸ hagain i hi, hl⟩
  · rintro ⟨contents, text', references', r, resolution, manifests, htext', hnormal', hscan', hr,
      hresolve, hl⟩
    cases htext.symm.trans htext'
    cases hnormal.symm.trans hnormal'
    cases hscan.symm.trans hscan'
    have hmem : r.specifier ∈ e.imports.map Import.specifier := by
      rw [himports, specifiers, List.mem_eraseDups]
      exact List.mem_map_of_mem hr
    obtain ⟨i, hi, hspecifier⟩ := List.mem_map.1 hmem
    obtain ⟨heq, -⟩ := (hspecifier ▸ hagain i hi).unique hresolve
    exact ⟨i, hi, heq ▸ hl⟩

end Expansion

namespace WalkState

variable {t : FileTree} {config : Config} {norm : Normalizer} {w w' : WalkState} {v : Visit}
  {s c c' : Caches} {rest : List Visit}

def Knows (w : WalkState) (l : ModuleLocation) : Prop :=
  l ∈ w.visited ∨ ∃ v ∈ w.pending, v.location = l

theorem knows_iff_of_pending (h : w.pending = v :: rest) (l : ModuleLocation) :
    w.Knows l ↔ v.location = l ∨ Knows { w with pending := rest } l := by
  simp [Knows, h, visited, or_left_comm]

theorem knows_expand (w : WalkState) (e : Expansion) (l : ModuleLocation) :
    (w.expand e).Knows l ↔
      e.visit.location = l ∨ (∃ i ∈ e.imports, i.resolution.location = l) ∨ w.Knows l := by
  have hpending : (∃ v ∈ (w.expand e).pending, v.location = l) ↔
      (∃ i ∈ e.imports, i.resolution.location = l) ∨ ∃ v ∈ w.pending, v.location = l := by
    simp [expand, Import.visit, or_and_right, exists_or]
  rw [Knows, Knows, hpending, visited_expand, List.mem_append, List.mem_singleton, eq_comm (a := l)]
  rw [or_assoc, or_left_comm, or_left_comm (a := l ∈ w.visited)]

structure Linked (t : FileTree) (config : Config) (s : Caches) (w : WalkState) (c : Caches) :
    Prop where
  entry : w.Knows w.entry.resolution.location
  links : ∀ l l', Expansion.Link w.expanded l l' → w.Knows l'
  reached : ∀ l, w.Knows l →
    ReflTransGen (Expansion.Link w.expanded) w.entry.resolution.location l
  settled : ∀ e ∈ w.expanded, ∀ i ∈ e.imports,
    i.Settled t config c.manifests e.visit.location.directory
  grows : s.Grows t c

namespace Linked

theorem start (entry : Import) (h : s.Grows t c) : Linked t config s (start entry) c := by
  have hknows : (WalkState.start entry).Knows entry.resolution.location :=
    .inr ⟨entry.visit, List.mem_singleton_self _, rfl⟩
  refine ⟨hknows, ?_, ?_, fun _ => nofun, h⟩
  · rintro l l' ⟨e, he, -⟩
    cases he
  · rintro l (hl | ⟨v, hv, rfl⟩)
    · cases hl
    · rw [List.mem_singleton.1 hv]
      exact .refl

theorem seen (h : Linked t config s w c) (hpending : w.pending = v :: rest)
    (hseen : v.location ∈ w.visited) : Linked t config s { w with pending := rest } c := by
  have hknows (l : ModuleLocation) (hl : w.Knows l) : Knows { w with pending := rest } l := by
    rcases (knows_iff_of_pending hpending l).1 hl with rfl | hl
    · exact .inl hseen
    · exact hl
  exact ⟨hknows _ h.entry, fun l l' hlink => hknows l' (h.links l l' hlink),
    fun l hl => h.reached l ((knows_iff_of_pending hpending l).2 (.inr hl)), h.settled, h.grows⟩

theorem fresh {e : Expansion} (h : Linked t config s w c) (hpending : w.pending = e.visit :: rest)
    (he : Gives (Expansion.ofVisit t config norm e.visit) c e c') :
    Linked t config s (expand { w with pending := rest } e) c' := by
  obtain ⟨hgrows, hsettled⟩ := Expansion.settled_ofVisit he
  have hknows (l : ModuleLocation) : (expand { w with pending := rest } e).Knows l ↔
      (∃ i ∈ e.imports, i.resolution.location = l) ∨ w.Knows l := by
    rw [knows_expand, knows_iff_of_pending hpending, or_left_comm]
  have hreached (l : ModuleLocation) (hl : w.Knows l) :
      ReflTransGen (Expansion.Link (w.expanded ++ [e])) w.entry.resolution.location l :=
    ReflTransGen.mono (fun _ _ hlink => Expansion.Link.append hlink [e]) _ _ (h.reached l hl)
  have hmem : e ∈ w.expanded ++ [e] := List.mem_append_right _ (List.mem_singleton_self e)
  refine ⟨(hknows _).2 (.inr h.entry), ?_, ?_, ?_, h.grows.trans hgrows⟩
  · rintro l l' ⟨e', he', rfl, hi⟩
    rcases List.mem_append.1 he' with he' | he'
    · exact (hknows l').2 (.inr (h.links _ l' ⟨e', he', rfl, hi⟩))
    · exact (hknows l').2 (.inl (List.mem_singleton.1 he' ▸ hi))
  · intro l hl
    rcases (hknows l).1 hl with hi | hl
    · have hvisit : w.Knows e.visit.location := (knows_iff_of_pending hpending _).2 (.inl rfl)
      exact (hreached _ hvisit).tail ⟨e, hmem, rfl, hi⟩
    · exact hreached l hl
  · intro e' he' i hi
    rcases List.mem_append.1 he' with he' | he'
    · exact (h.settled e' he' i hi).mono hgrows.manifests
    · cases List.mem_singleton.1 he'
      exact hsettled i hi

theorem step (h : Linked t config s w c) (hstep : Gives (w.step t config norm) c w' c') :
    Linked t config s w' c' := by
  obtain ⟨rfl, rfl⟩ | ⟨v, rest, hpending, hvisit⟩ := gives_step hstep
  · exact h
  · obtain ⟨hseen, rfl, rfl⟩ | ⟨-, e, rfl, he⟩ := gives_visit hvisit
    · exact h.seen hpending hseen
    · obtain ⟨rfl, -, -⟩ := Expansion.gives_ofVisit he
      exact h.fresh hpending he

theorem leads (h : Linked t config s w c) (hleads : Leads t config norm w c w' c') :
    Linked t config s w' c' := by
  induction hleads with
  | refl => exact h
  | step _ hstep ih => exact ih.step hstep

theorem located {modules : ModuleCache} (h : Linked t config s w c)
    (hgrounded : w.Grounded t norm modules c)
    (hentry : w.entry.resolution.location ∈ t.locations) {l : ModuleLocation}
    (hl : w.Knows l) : l ∈ t.locations := by
  rcases (h.reached l hl).cases_tail with heq | ⟨_, -, e, he, -, i, hi, rfl⟩
  · exact heq ▸ hentry
  · exact ((hgrounded.expanded e he).imports i hi).1

theorem mem_visited_iff {modules : ModuleCache} (h : Linked t config s w c)
    (hgrounded : w.Grounded t norm modules c) (hfaithful : c.manifests.Faithful t)
    (hpending : w.pending = []) (l : ModuleLocation) :
    l ∈ w.visited ↔ ReflTransGen (ModuleGraph.Refers t config norm ⟨c.manifests, s.modules⟩)
      w.entry.resolution.location l := by
  have hknows (l : ModuleLocation) : w.Knows l ↔ l ∈ w.visited := by
    simp [Knows, hpending]
  have hrefers {e : Expansion} (he : e ∈ w.expanded) (l : ModuleLocation) :=
    (hgrounded.expanded e he).link_iff h.grows hfaithful (h.settled e he) l
  constructor
  · intro hl
    refine ReflTransGen.mono ?_ _ _ (h.reached l ((hknows l).2 hl))
    rintro _ l' ⟨e, he, rfl, hi⟩
    exact (hrefers he l').1 hi
  · intro hl
    induction hl with
    | refl => exact (hknows _).1 h.entry
    | tail _ hrefer ih =>
      obtain ⟨e, he, rfl⟩ := List.mem_map.1 ih
      exact (hknows _).1 (h.links _ _ ⟨e, he, rfl, (hrefers he _).2 hrefer⟩)

end Linked

/-- Every walk ends.  Until then no module is expanded twice, and all that are
expanded are files of the tree; and if it ends well, the expanded modules are
the least set that has the entry's module and, with each module, whatever the
references of its normalized text lead to. -/
theorem walk_expands_reachable (t : FileTree) (config : Config) (norm : Normalizer)
    (specifier : String) (base : Path) (modules : ModuleCache) :
    (∀ e c, (Expansion.follow t config base specifier).run ⟨.empty, modules⟩ = (.error e, c) →
      (Atlas.trace t config norm specifier base).run ⟨.empty, modules⟩ = (.error e, c)) ∧
    ∀ entry c₀, (Expansion.follow t config base specifier).run ⟨.empty, modules⟩ =
        (.ok entry, c₀) →
      (∃ r c, Ends t config norm (start entry) c₀ r c ∧
        (Atlas.trace t config norm specifier base).run ⟨.empty, modules⟩ = (r.map atlas, c)) ∧
      (∀ w c, Leads t config norm (start entry) c₀ w c →
        w.visited.Nodup ∧ ∀ l ∈ w.visited, l ∈ t.locations) ∧
      ∀ w c, Ends t config norm (start entry) c₀ (.ok w) c → ∀ l, l ∈ w.visited ↔
        ReflTransGen (ModuleGraph.Refers t config norm ⟨c.manifests, modules⟩)
          entry.resolution.location l := by
  constructor
  · intro e c h
    simp only [Atlas.trace, ModuleGraph.walk, bind_assoc]
    exact run_bind_of_error h
  · intro entry c₀ h
    have hgrows := (Expansion.settled_follow h).1
    obtain ⟨-, hloaded, hloads⟩ := Expansion.gives_follow h
    have hlinked {w : WalkState} {c : Caches} (hleads : Leads t config norm (start entry) c₀ w c) :
        Linked t config ⟨.empty, modules⟩ w c ∧ w.Grounded t norm modules c ∧ w.entry = entry :=
      ⟨(Linked.start entry hgrows).leads hleads, (Grounded.start entry hloads).leads hleads,
        hleads.entry⟩
    refine ⟨exists_ends h, fun w c hleads => ?_, fun w c hends l => ?_⟩
    · obtain ⟨hw, hgrounded, hentry⟩ := hlinked hleads
      exact ⟨hgrounded.nodup, fun l hl => hw.located hgrounded (hentry ▸ hloaded.1) (.inl hl)⟩
    · obtain ⟨hleads, hpending⟩ := hends.leads w rfl
      obtain ⟨hw, hgrounded, hentry⟩ := hlinked hleads
      rw [← hentry]
      exact hw.mem_visited_iff hgrounded
        (hw.grows.faithful (ManifestCache.faithful_empty t)) hpending l

def linkTree : FileTree where
  root := .directory [("a.js".toList, .file (Text.encodeUtf8 "import './b.js'".toList)),
    ("b.js".toList, .link "c.js".toList),
    ("c.js".toList, .file (Text.encodeUtf8 "import './a.js'".toList)),
    ("d.js".toList, .file (Text.encodeUtf8 "import './a.js'".toList))]
  workingDirectory := []

theorem walk_linkTree :
    (∃ e c, (Expansion.follow linkTree Config.default (Path.ofString "/") "./e.js").run
        ⟨.empty, .empty⟩ = (.error e, c) ∧
      (Atlas.trace linkTree Config.default (.basic true) "./e.js" (Path.ofString "/")).run
        ⟨.empty, .empty⟩ = (.error e, c)) ∧
    ∃ entry c₀, (Expansion.follow linkTree Config.default (Path.ofString "/") "./a.js").run
        ⟨.empty, .empty⟩ = (.ok entry, c₀) ∧
      (∃ r c, Ends linkTree Config.default (.basic true) (start entry) c₀ r c ∧
        (Atlas.trace linkTree Config.default (.basic true) "./a.js" (Path.ofString "/")).run
          ⟨.empty, .empty⟩ = (r.map atlas, c)) ∧
      ∃ w c, Leads linkTree Config.default (.basic true) (start entry) c₀ w c ∧
        Ends linkTree Config.default (.basic true) (start entry) c₀ (.ok w) c ∧
        w.visited = [⟨Path.ofString "/a.js"⟩, ⟨Path.ofString "/c.js"⟩] ∧
        (w.visited.Nodup ∧ ∀ l ∈ w.visited, l ∈ linkTree.locations) ∧
        ∀ l, l ∈ w.visited ↔ ReflTransGen
          (ModuleGraph.Refers linkTree Config.default (.basic true) ⟨c.manifests, .empty⟩)
          entry.resolution.location l := by
  constructor
  · obtain ⟨e, c, h⟩ := exists_failure (s := ⟨.empty, .empty⟩)
      (x := Expansion.follow linkTree Config.default (Path.ofString "/") "./e.js")
      (by decide +kernel)
    exact ⟨e, c, h, (walk_expands_reachable _ _ (.basic true) _ _ _).1 e c h⟩
  · obtain ⟨⟨w₁, w₂, w₃⟩, c', h, hview⟩ := exists_gives_of_view (s := ⟨.empty, .empty⟩)
      (x := do
        let entry ← Expansion.follow linkTree Config.default (Path.ofString "/") "./a.js"
        let w₁ ← step linkTree Config.default (.basic true) (start entry)
        let w₂ ← step linkTree Config.default (.basic true) w₁
        let w₃ ← step linkTree Config.default (.basic true) w₂
        return (w₁, w₂, w₃))
      (f := fun (w₁, w₂, w₃) => (w₁.pending.isEmpty, w₂.pending.isEmpty, w₃.pending, w₃.visited))
      (b := (false, false, [], [⟨Path.ofString "/a.js"⟩, ⟨Path.ofString "/c.js"⟩]))
      (by decide +kernel)
    obtain ⟨entry, c₀, hentry, h⟩ := gives_bind.1 h
    obtain ⟨w₁', c₁, h₁, h⟩ := gives_bind.1 h
    obtain ⟨w₂', c₂, h₂, h⟩ := gives_bind.1 h
    obtain ⟨w₃', c₃, h₃, h⟩ := gives_bind.1 h
    obtain ⟨htriple, rfl⟩ := gives_pure.1 h
    obtain ⟨rfl, hpair⟩ := Prod.mk.inj htriple
    obtain ⟨rfl, rfl⟩ := Prod.mk.inj hpair
    obtain ⟨hpending₁, hview⟩ := Prod.mk.inj hview
    obtain ⟨hpending₂, hview⟩ := Prod.mk.inj hview
    obtain ⟨hpending₃, hvisited⟩ := Prod.mk.inj hview
    have hends : Ends linkTree Config.default (.basic true) (start entry) c₀ (.ok w₃') c₃ :=
      .step (List.cons_ne_nil _ _) h₁ (.step (List.isEmpty_eq_false_iff.1 hpending₁) h₂
        (.step (List.isEmpty_eq_false_iff.1 hpending₂) h₃ (.done hpending₃)))
    have hleads := (hends.leads w₃' rfl).1
    obtain ⟨htrace, honce, hreach⟩ :=
      (walk_expands_reachable linkTree Config.default (.basic true) _ _ _).2 entry c₀ hentry
    exact ⟨entry, c₀, hentry, htrace, w₃', c₃, hleads, hends, hvisited, honce w₃' c₃ hleads,
      hreach w₃' c₃ hends⟩

end WalkState

end ImportAtlas
