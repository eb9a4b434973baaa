import ImportAtlas.Proofs.Resolution.Encapsulation

namespace ImportAtlas.Target

/-- What a target comes to where a null closes it. -/
inductive Verdict where
  | noMatch
  | blocked
  | path (target : String)
  deriving DecidableEq, Repr

namespace Verdict

def path? : Verdict → Option String
  | path target => some target
  | _ => none

def ofItems (verdicts : List Verdict) : Verdict :=
  match verdicts.findSome? path? with
  | some target => path target
  | none => if verdicts = [] ∨ blocked ∈ verdicts then blocked else noMatch

def ofMembers : List Verdict → Verdict
  | [] => noMatch
  | noMatch :: rest => ofMembers rest
  | verdict :: _ => verdict

variable {verdicts : List Verdict} {verdict : Verdict} {target : String}

@[simp] theorem path?_eq_some : verdict.path? = some target ↔ verdict = path target := by
  cases verdict <;> simp [path?]

theorem path?_ofItems (verdicts : List Verdict) :
    (ofItems verdicts).path? = verdicts.findSome? path? := by
  unfold ofItems
  split
  · rename_i h
    rw [h]
    rfl
  · rename_i h
    rw [h]
    split <;> rfl

theorem eq_noMatch_of_ofItems (h : ofItems verdicts = noMatch) : ∀ v ∈ verdicts, v = noMatch := by
  unfold ofItems at h
  split at h
  · cases h
  · rename_i hnone
    split at h
    · cases h
    · rename_i hopen
      intro v hv
      cases v with
      | noMatch => rfl
      | blocked => exact absurd (.inr hv) hopen
      | path target =>
        have := List.findSome?_eq_none_iff.1 hnone _ hv
        cases this

theorem eq_noMatch_of_ofMembers (h : ofMembers verdicts = noMatch) :
    ∀ v ∈ verdicts, v = noMatch := by
  induction verdicts with
  | nil => simp
  | cons v rest ih =>
    cases v with
    | noMatch => exact List.forall_mem_cons.2 ⟨rfl, ih h⟩
    | blocked => cases h
    | path target => cases h

theorem mem_of_ofMembers (h : ofMembers verdicts = path target) : path target ∈ verdicts := by
  induction verdicts with
  | nil => cases h
  | cons v rest ih =>
    cases v with
    | noMatch => exact List.mem_cons_of_mem _ (ih h)
    | blocked => cases h
    | path => exact h ▸ List.mem_cons_self

end Verdict

/-- Targets that are built of nulls, conditions, alternatives and paths that stay in
the package. -/
inductive IsTarget : Json → Prop
  | null : IsTarget .null
  | string {target : String} {rest : List Char} (h : Confined target rest) :
      IsTarget (.string target)
  | array {items : List Json} (h : ∀ item ∈ items, IsTarget item) : IsTarget (.array items)
  | object {members : Json.Members} (h : ∀ m ∈ members, IsTarget m.2) :
      IsTarget (.object members)

mutual

def judge (conditions : List String) : Json → Verdict
  | .null => .blocked
  | .string target => .path target
  | .array items => .ofItems (judgeItems conditions items)
  | .object members => .ofMembers (judgeMembers conditions members)
  | _ => .noMatch

def judgeItems (conditions : List String) : List Json → List Verdict
  | [] => []
  | item :: rest => judge conditions item :: judgeItems conditions rest

def judgeMembers (conditions : List String) : List (String × Json) → List Verdict
  | [] => []
  | (key, target) :: rest =>
    if isActive conditions key then judge conditions target :: judgeMembers conditions rest
    else judgeMembers conditions rest

end

mutual

/-- All texts that active keys lead to, in order. -/
def offers (conditions : List String) : Json → List String
  | .string target => [target]
  | .array items => offersOfItems conditions items
  | .object members => offersOfMembers conditions members
  | _ => []

def offersOfItems (conditions : List String) : List Json → List String
  | [] => []
  | item :: rest => offers conditions item ++ offersOfItems conditions rest

def offersOfMembers (conditions : List String) : List (String × Json) → List String
  | [] => []
  | (key, target) :: rest =>
    if isActive conditions key then offers conditions target ++ offersOfMembers conditions rest
    else offersOfMembers conditions rest

end

mutual

/-- Nothing is offered past what is closed: no closed alternative offers a text, and
neither does a closed key or an active one after it. -/
def Sealed (conditions : List String) : Json → Prop
  | .array items => SealedItems conditions items
  | .object members => SealedMembers conditions members
  | _ => True

def SealedItems (conditions : List String) : List Json → Prop
  | [] => True
  | item :: rest => match judge conditions item with
    | .noMatch => SealedItems conditions rest
    | .blocked => offers conditions item = [] ∧ SealedItems conditions rest
    | .path _ => Sealed conditions item

def SealedMembers (conditions : List String) : List (String × Json) → Prop
  | [] => True
  | (key, target) :: rest =>
    if isActive conditions key then match judge conditions target with
      | .noMatch => SealedMembers conditions rest
      | .blocked => offers conditions target = [] ∧ offersOfMembers conditions rest = []
      | .path _ => Sealed conditions target
    else SealedMembers conditions rest

end

section

variable {conditions : List String}

theorem ofText_of_confined {target : String} {rest : List Char} (h : Confined target rest) :
    ofText .exports none target = some target := by
  have haccepts : accepts .exports target.toList = true := by
    rw [h.text]
    rfl
  have hescapes : escapes target.toList = false := by
    have hsplit : Text.splitOn (· = '/') ('.' :: '/' :: rest) =
        ['.'] :: Text.splitOn Path.isSeparator rest :=
      Text.splitOn_append (p := Path.isSeparator) (c := '/') rfl ['.'] rest
    rw [escapes, h.text, hsplit, List.tail_cons, List.any_eq_false]
    intro segment hsegment
    rw [h.segments segment hsegment]
    exact Bool.false_ne_true
  simp [ofText, fill, haccepts, hescapes]

mutual

theorem evaluate_eq_head? : ∀ value : Json, IsTarget value →
    evaluate .exports none conditions value = (offers conditions value).head?
  | .null, _ | .bool _, _ | .number _, _ => rfl
  | .string _, .string h => ofText_of_confined h
  | .array items, .array h => evaluateItems_eq_head? items h
  | .object members, .object h => evaluateMembers_eq_head? members h

theorem evaluateItems_eq_head? : ∀ items : List Json, (∀ item ∈ items, IsTarget item) →
    evaluateItems .exports none conditions items = (offersOfItems conditions items).head?
  | [], _ => rfl
  | item :: rest, h => by
    obtain ⟨hitem, hrest⟩ := List.forall_mem_cons.1 h
    rw [evaluateItems, offersOfItems, List.head?_append, evaluate_eq_head? item hitem,
      evaluateItems_eq_head? rest hrest]

theorem evaluateMembers_eq_head? : ∀ members : List (String × Json),
    (∀ m ∈ members, IsTarget m.2) →
    evaluateMembers .exports none conditions members = (offersOfMembers conditions members).head?
  | [], _ => rfl
  | (key, target) :: rest, h => by
    obtain ⟨htarget, hrest⟩ := List.forall_mem_cons.1 h
    rw [evaluateMembers, offersOfMembers]
    split
    · rw [List.head?_append, evaluate_eq_head? target htarget, evaluateMembers_eq_head? rest hrest]
    · rw [Option.none_or, evaluateMembers_eq_head? rest hrest]

end

mutual

theorem offers_of_noMatch : ∀ value : Json, judge conditions value = .noMatch →
    offers conditions value = []
  | .bool _, _ | .number _, _ => rfl
  | .array items, h => offersOfItems_of_noMatch items (Verdict.eq_noMatch_of_ofItems h)
  | .object members, h => offersOfMembers_of_noMatch members (Verdict.eq_noMatch_of_ofMembers h)

theorem offersOfItems_of_noMatch : ∀ items : List Json,
    (∀ v ∈ judgeItems conditions items, v = .noMatch) → offersOfItems conditions items = []
  | [], _ => rfl
  | item :: rest, h => by
    obtain ⟨hitem, hrest⟩ := List.forall_mem_cons.1 h
    rw [offersOfItems, offers_of_noMatch item hitem, offersOfItems_of_noMatch rest hrest,
      List.append_nil]

theorem offersOfMembers_of_noMatch : ∀ members : List (String × Json),
    (∀ v ∈ judgeMembers conditions members, v = .noMatch) → offersOfMembers conditions members = []
  | [], _ => rfl
  | (key, target) :: rest, h => by
    rw [judgeMembers] at h
    rw [offersOfMembers]
    split at h
    · rename_i hactive
      obtain ⟨htarget, hrest⟩ := List.forall_mem_cons.1 h
      rw [if_pos hactive, offers_of_noMatch target htarget, offersOfMembers_of_noMatch rest hrest,
        List.append_nil]
    · rename_i hactive
      rw [if_neg hactive, offersOfMembers_of_noMatch rest h]

end

mutual

theorem mem_offers {s : String} : ∀ value : Json, judge conditions value = .path s →
    s ∈ offers conditions value
  | .string _, h => by
    cases h
    exact List.mem_singleton_self s
  | .array items, h => by
    refine mem_offersOfItems items ?_
    rw [← Verdict.path?_eq_some, judge, Verdict.path?_ofItems] at h
    obtain ⟨v, hv, hpath⟩ := List.exists_of_findSome?_eq_some h
    exact Verdict.path?_eq_some.1 hpath ▸ hv
  | .object members, h => mem_offersOfMembers members (Verdict.mem_of_ofMembers h)

theorem mem_offersOfItems {s : String} : ∀ items : List Json,
    .path s ∈ judgeItems conditions items → s ∈ offersOfItems conditions items
  | item :: rest, h => by
    rw [offersOfItems, List.mem_append]
    rcases List.mem_cons.1 h with h | h
    · exact .inl (mem_offers item h.symm)
    · exact .inr (mem_offersOfItems rest h)

theorem mem_offersOfMembers {s : String} : ∀ members : List (String × Json),
    .path s ∈ judgeMembers conditions members → s ∈ offersOfMembers conditions members
  | (key, target) :: rest, h => by
    rw [judgeMembers] at h
    rw [offersOfMembers]
    split at h
    · rename_i hactive
      rw [if_pos hactive, List.mem_append]
      rcases List.mem_cons.1 h with h | h
      · exact .inl (mem_offers target h.symm)
      · exact .inr (mem_offersOfMembers rest h)
    · rename_i hactive
      rw [if_neg hactive]
      exact mem_offersOfMembers rest h

end

theorem head?_append_of_path {s : String} {value : Json} (h : judge conditions value = .path s)
    (texts : List String) :
    (offers conditions value ++ texts).head? = (offers conditions value).head? := by
  rw [List.head?_append]
  cases hoffers : offers conditions value with
  | nil => exact absurd (mem_offers value h) (hoffers ▸ List.not_mem_nil)
  | cons text texts => rfl

mutual

theorem head?_of_sealed : ∀ value : Json, Sealed conditions value →
    (offers conditions value).head? = (judge conditions value).path?
  | .null, _ | .bool _, _ | .number _, _ | .string _, _ => rfl
  | .array items, h => by
    rw [judge, Verdict.path?_ofItems]
    exact head?_of_sealedItems items h
  | .object members, h => head?_of_sealedMembers members h

theorem head?_of_sealedItems : ∀ items : List Json, SealedItems conditions items →
    (offersOfItems conditions items).head? = (judgeItems conditions items).findSome? Verdict.path?
  | [], _ => rfl
  | item :: rest, h => by
    rw [SealedItems] at h
    rw [offersOfItems, judgeItems]
    cases hjudge : judge conditions item with
    | noMatch =>
      rw [hjudge] at h
      rw [offers_of_noMatch item hjudge]
      exact head?_of_sealedItems rest h
    | blocked =>
      rw [hjudge] at h
      rw [h.1]
      exact head?_of_sealedItems rest h.2
    | path s =>
      rw [hjudge] at h
      rw [head?_append_of_path hjudge, head?_of_sealed item h, hjudge]
      rfl

theorem head?_of_sealedMembers : ∀ members : List (String × Json), SealedMembers conditions members →
    (offersOfMembers conditions members).head? =
      (Verdict.ofMembers (judgeMembers conditions members)).path?
  | [], _ => rfl
  | (key, target) :: rest, h => by
    rw [SealedMembers] at h
    rw [offersOfMembers, judgeMembers]
    split
    · rename_i hactive
      rw [if_pos hactive] at h
      cases hjudge : judge conditions target with
      | noMatch =>
        rw [hjudge] at h
        rw [offers_of_noMatch target hjudge]
        exact head?_of_sealedMembers rest h
      | blocked =>
        rw [hjudge] at h
        rw [h.1, h.2]
        rfl
      | path s =>
        rw [hjudge] at h
        rw [head?_append_of_path hjudge, head?_of_sealed target h, hjudge]
        rfl
    · rename_i hactive
      rw [if_neg hactive] at h
      exact head?_of_sealedMembers rest h

end

mutual

theorem sealed_of_head? : ∀ value : Json, (offers conditions value).Nodup →
    (offers conditions value).head? = (judge conditions value).path? → Sealed conditions value
  | .null, _, _ | .bool _, _, _ | .number _, _, _ | .string _, _, _ => trivial
  | .array items, hne, h => by
    rw [judge, Verdict.path?_ofItems] at h
    exact sealedItems_of_head? items hne h
  | .object members, hne, h => sealedMembers_of_head? members hne h

theorem sealedItems_of_head? : ∀ items : List Json, (offersOfItems conditions items).Nodup →
    (offersOfItems conditions items).head? =
      (judgeItems conditions items).findSome? Verdict.path? → SealedItems conditions items
  | [], _, _ => trivial
  | item :: rest, hne, h => by
    rw [offersOfItems] at hne h
    obtain ⟨hitem, hrest, hdisjoint⟩ := List.nodup_append.1 hne
    rw [SealedItems]
    cases hjudge : judge conditions item with
    | noMatch =>
      rw [judgeItems, hjudge, offers_of_noMatch item hjudge] at h
      exact sealedItems_of_head? rest hrest h
    | blocked =>
      rw [judgeItems, hjudge] at h
      cases hoffers : offers conditions item with
      | nil =>
        rw [hoffers] at h
        exact ⟨rfl, sealedItems_of_head? rest hrest h⟩
      | cons text texts =>
        -- The text would be the path of a later alternative, which is another text.
        rw [hoffers] at h
        have hpath : (judgeItems conditions rest).findSome? Verdict.path? = some text := h.symm
        obtain ⟨v, hv, hpath⟩ := List.exists_of_findSome?_eq_some hpath
        have hlater : text ∈ offersOfItems conditions rest :=
          mem_offersOfItems rest (Verdict.path?_eq_some.1 hpath ▸ hv)
        exact absurd rfl (hdisjoint text (hoffers ▸ List.mem_cons_self) text hlater)
    | path s =>
      rw [judgeItems, hjudge, head?_append_of_path hjudge] at h
      exact sealed_of_head? item hitem (h.trans (by rw [hjudge]; rfl))

theorem sealedMembers_of_head? : ∀ members : List (String × Json),
    (offersOfMembers conditions members).Nodup →
    (offersOfMembers conditions members).head? =
      (Verdict.ofMembers (judgeMembers conditions members)).path? → SealedMembers conditions members
  | [], _, _ => trivial
  | (key, target) :: rest, hne, h => by
    rw [offersOfMembers] at hne h
    rw [judgeMembers] at h
    rw [SealedMembers]
    split
    · rename_i hactive
      rw [if_pos hactive] at hne h
      rw [if_pos hactive] at h
      obtain ⟨htarget, hrest, -⟩ := List.nodup_append.1 hne
      cases hjudge : judge conditions target with
      | noMatch =>
        rw [hjudge, offers_of_noMatch target hjudge] at h
        exact sealedMembers_of_head? rest hrest h
      | blocked =>
        rw [hjudge] at h
        exact List.append_eq_nil_iff.1 (List.head?_eq_none_iff.1 h)
      | path s =>
        rw [hjudge, head?_append_of_path hjudge] at h
        exact sealed_of_head? target htarget (h.trans (by rw [hjudge]; rfl))
    · rename_i hactive
      rw [if_neg hactive] at hne h
      rw [if_neg hactive] at h
      exact sealedMembers_of_head? rest hne h

end

variable {members : Json.Members} {subpath : String} {target : Json}

theorem ofExports_of_get? (hsubpaths : hasSubpaths members = true) (hstar : '*' ∉ subpath.toList)
    (hget : members.get? subpath = some target) :
    ofExports (.object members) subpath conditions = evaluate .exports none conditions target := by
  have hnamed : named? members subpath = some (target, none) := by
    rw [named?, if_neg (by simpa using hstar), hget]
  rw [ofExports, if_pos hsubpaths, evaluateEntry, hnamed]
  rfl

/-- What an entry of `exports` leads to is the first text that is offered.  This is
nothing where nothing matches, and something where the entry comes to a path.  It is
that path just if nothing is offered past what is closed; the texts in an entry that
holds one text twice may hide that. -/
theorem ofExports_of_offers (hsubpaths : hasSubpaths members = true)
    (hstar : '*' ∉ subpath.toList) (hget : members.get? subpath = some target)
    (htarget : IsTarget target) :
    ofExports (.object members) subpath conditions = (offers conditions target).head? ∧
    (judge conditions target = .noMatch → ofExports (.object members) subpath conditions = none) ∧
    (∀ s, judge conditions target = .path s →
      (ofExports (.object members) subpath conditions).isSome = true ∧
        s ∈ offers conditions target) ∧
    (Sealed conditions target → ∀ s,
      ofExports (.object members) subpath conditions = some s ↔
        judge conditions target = .path s) ∧
    ((offers conditions target).Nodup →
      (∀ s, ofExports (.object members) subpath conditions = some s ↔
        judge conditions target = .path s) → Sealed conditions target) := by
  have hfirst : ofExports (.object members) subpath conditions =
      (offers conditions target).head? :=
    (ofExports_of_get? hsubpaths hstar hget).trans (evaluate_eq_head? target htarget)
  rw [hfirst]
  refine ⟨rfl, fun h => ?_, fun s h => ⟨?_, mem_offers target h⟩, fun h s => ?_, fun hne h => ?_⟩
  · rw [offers_of_noMatch target h]
    rfl
  · exact List.isSome_head?.2 (List.ne_nil_of_mem (mem_offers target h))
  · rw [head?_of_sealed target h, Verdict.path?_eq_some]
  · refine sealed_of_head? target hne (Option.ext fun s => ?_)
    rw [h s, Verdict.path?_eq_some]

def closedTarget : Json := .object [("import", .null), ("default", .string "./x.js")]

theorem ofExports_closedTarget :
    (ofExports (.object [("./x", closedTarget)]) "./x" ["import"] = some "./x.js" ∧
      judge ["import"] closedTarget = .blocked ∧ ¬ Sealed ["import"] closedTarget) ∧
    (ofExports (.object [("./x", closedTarget)]) "./x" ["require"] = some "./x.js" ∧
      judge ["require"] closedTarget = .path "./x.js") := by
  have htarget : IsTarget closedTarget := by
    have hconfined : Confined "./x.js" "x.js".toList := ⟨rfl, by decide⟩
    refine .object fun m hm => ?_
    rcases List.mem_pair.1 hm with rfl | rfl
    · exact .null
    · exact .string hconfined
  have hentry (conditions : List String) := @ofExports_of_offers conditions
    [("./x", closedTarget)] "./x" closedTarget rfl (by decide) rfl htarget
  refine ⟨⟨(hentry ["import"]).1, rfl, fun h => ?_⟩, (hentry ["require"]).1, rfl⟩
  have := ((hentry ["import"]).2.2.2.1 h "./x.js").1 (hentry ["import"]).1
  cases this

end

end ImportAtlas.Target
