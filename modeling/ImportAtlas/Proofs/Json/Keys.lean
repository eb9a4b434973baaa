import ImportAtlas.Manifest.Basic
import ImportAtlas.Outcome

namespace ImportAtlas

namespace Json

inductive KeyedOnce : Json → Prop
  | null : KeyedOnce .null
  | bool (b : Bool) : KeyedOnce (.bool b)
  | number (digits : String) : KeyedOnce (.number digits)
  | string (s : String) : KeyedOnce (.string s)
  | array {items : List Json} (h : ∀ item ∈ items, KeyedOnce item) : KeyedOnce (.array items)
  | object {ms : Members} (hkeys : ms.keys.Nodup) (h : ∀ m ∈ ms, KeyedOnce m.2) :
      KeyedOnce (.object ms)

namespace Members

variable {key : String} {value : Json} {ms : Members}

theorem mem_insert {m : String × Json} (h : m ∈ ms.insert key value) :
    m = (key, value) ∨ m ∈ ms := by
  induction ms with
  | nil => exact .inl (List.mem_singleton.1 h)
  | cons first rest ih =>
    rw [insert] at h
    split at h
    · rename_i hkey
      rcases List.mem_cons.1 h with rfl | h
      · exact .inl (by rw [hkey])
      · exact .inr (List.mem_cons_of_mem first h)
    · rcases List.mem_cons.1 h with rfl | h
      · exact .inr List.mem_cons_self
      · exact (ih h).imp_right (List.mem_cons_of_mem first)

theorem mem_keys_insert {other : String} (h : other ∈ (ms.insert key value).keys) :
    other = key ∨ other ∈ ms.keys := by
  obtain ⟨m, hm, rfl⟩ := List.mem_map.1 h
  rcases mem_insert hm with rfl | hm
  · exact .inl rfl
  · exact .inr (List.mem_map_of_mem hm)

theorem nodup_keys_insert (h : ms.keys.Nodup) : (ms.insert key value).keys.Nodup := by
  induction ms with
  | nil => exact List.pairwise_singleton _ key
  | cons first rest ih =>
    obtain ⟨hfirst, hrest⟩ := List.nodup_cons.1 h
    rw [insert]
    split
    · exact h
    · rename_i hkey
      refine List.nodup_cons.2 ⟨fun hmem => ?_, ih hrest⟩
      exact (mem_keys_insert hmem).elim hkey hfirst

theorem mem_of_get? (h : ms.get? key = some value) : (key, value) ∈ ms := by
  induction ms with
  | nil => cases h
  | cons first rest ih =>
    rw [get?] at h
    split at h
    · rename_i hkey
      cases h
      exact hkey ▸ List.mem_cons_self
    · exact List.mem_cons_of_mem first (ih h)

theorem get?_eq_none_iff : ms.get? key = none ↔ key ∉ ms.keys := by
  induction ms with
  | nil => simp [get?, keys]
  | cons first rest ih =>
    rw [get?, keys, List.map_cons, List.mem_cons, not_or]
    by_cases h : first.1 = key
    · simp [h]
    · rw [if_neg h, ih]
      exact ⟨fun hrest => ⟨Ne.symm h, hrest⟩, And.right⟩

end Members

def Token.KeyedOnce (token : Token) : Prop := ∀ value, token = .word (.ok value) → value.KeyedOnce

namespace Token

theorem keyedOnce_wordToken (letters : String) {value : Json} (h : value.KeyedOnce)
    (rest : List Char) : (wordToken letters value rest).1.KeyedOnce := by
  intro v hv
  simp only [wordToken, word.injEq] at hv
  obtain ⟨_, -, rfl⟩ := Outcome.map_eq_ok.1 hv
  exact h

theorem keyedOnce_stringToken (s : StringState) (v : StringValue) (cs : List Char) :
    (stringToken s v cs).1.KeyedOnce := by
  fun_induction stringToken s v cs <;> first | assumption | rintro _ ⟨⟩

theorem keyedOnce_numberToken (sign cs : List Char) : (numberToken sign cs).1.KeyedOnce := by
  unfold numberToken
  split
  · exact nofun
  · exact nofun

theorem keyedOnce_beginning (c : Char) (rest : List Char) : (beginning c rest).1.KeyedOnce := by
  unfold beginning
  split
  case h_7 => exact keyedOnce_stringToken _ _ _
  case h_8 => exact keyedOnce_numberToken _ _
  case h_9 => exact keyedOnce_wordToken _ .null _
  case h_10 => exact keyedOnce_wordToken _ (.bool true) _
  case h_11 => exact keyedOnce_wordToken _ (.bool false) _
  case h_12 =>
    split
    · exact keyedOnce_numberToken _ _
    · exact nofun
  all_goals exact nofun

end Token

theorem keyedOnce_of_mem_tokens {cs : List Char} {token : Token} (h : token ∈ tokens cs) :
    token.KeyedOnce := by
  induction cs using tokens.induct with
  | case1 cs hdrop =>
    rw [tokens] at h
    split at h
    · cases h
    · rename_i hcons
      rw [hdrop] at hcons
      cases hcons
  | case2 cs c rest hdrop ih =>
    rw [tokens] at h
    split at h
    · cases h
    · rename_i hcons
      rw [hdrop] at hcons
      cases hcons
      rcases List.mem_cons.1 h with rfl | h
      · exact Token.keyedOnce_beginning c rest
      · exact ih h

def Frame.KeyedOnce : Frame → Prop
  | .array items => ∀ item ∈ items, item.KeyedOnce
  | .object ms _ => ms.keys.Nodup ∧ ∀ m ∈ ms, m.2.KeyedOnce

def Progress.KeyedOnce : Progress → Prop
  | .done value => value.KeyedOnce
  | .further stack _ => ∀ frame ∈ stack, frame.KeyedOnce

namespace Care

open Outcome

variable {care : Care} {stack : List Frame} {token : Token} {progress : Progress} {value : Json}

theorem keyedOnce_settle (hvalue : value.KeyedOnce) (h : ∀ frame ∈ stack, frame.KeyedOnce) :
    (settle value stack).KeyedOnce := by
  cases stack with
  | nil => exact hvalue
  | cons frame stack =>
    obtain ⟨hframe, hstack⟩ := List.forall_mem_cons.1 h
    cases frame with
    | array items => exact List.forall_mem_cons.2 ⟨List.forall_mem_cons.2 ⟨hvalue, hframe⟩, hstack⟩
    | object ms key =>
      cases key with
      | none => exact h
      | some key =>
        refine List.forall_mem_cons.2 ⟨⟨Members.nodup_keys_insert hframe.1, fun m hm => ?_⟩, hstack⟩
        rcases Members.mem_insert hm with rfl | hm
        · exact hvalue
        · exact hframe.2 m hm

theorem keyedOnce_close (h : ∀ frame ∈ stack, frame.KeyedOnce)
    (hclose : close stack = .ok progress) : progress.KeyedOnce := by
  cases stack with
  | nil => cases hclose
  | cons frame stack =>
    obtain ⟨hframe, hstack⟩ := List.forall_mem_cons.1 h
    cases frame with
    | array items =>
      cases hclose
      exact keyedOnce_settle (.array fun item hitem => hframe item (List.mem_reverse.1 hitem)) hstack
    | object ms key =>
      cases hclose
      exact keyedOnce_settle (.object hframe.1 hframe.2) hstack

theorem keyedOnce_enter {frame : Frame} {expected : Expected}
    (hframe : frame.KeyedOnce) (h : ∀ frame ∈ stack, frame.KeyedOnce)
    (henter : care.enter stack frame expected = .ok progress) : progress.KeyedOnce := by
  unfold enter at henter
  split at henter
  · cases henter
  · cases henter
    exact List.forall_mem_cons.2 ⟨hframe, h⟩

theorem keyedOnce_key (h : ∀ frame ∈ stack, frame.KeyedOnce)
    (hkey : care.key stack token = .ok progress) : progress.KeyedOnce := by
  unfold key at hkey
  split at hkey
  · obtain ⟨_, _, hkey⟩ := bind_eq_ok.1 hkey
    cases hkey
    obtain ⟨hframe, hstack⟩ := List.forall_mem_cons.1 h
    exact List.forall_mem_cons.2 ⟨hframe, hstack⟩
  · cases hkey

theorem keyedOnce_scalar {v : Except Fault Json} (htoken : token.KeyedOnce)
    (h : care.scalar? token = some v) (hv : v = .ok value) : value.KeyedOnce := by
  subst hv
  unfold scalar? at h
  split at h
  · exact htoken value (by rw [Option.some.inj h])
  · obtain ⟨digits, -, rfl⟩ := map_eq_ok.1 (Option.some.inj h)
    exact .number digits
  · obtain ⟨text, -, rfl⟩ := map_eq_ok.1 (Option.some.inj h)
    exact .string text
  · cases h

theorem keyedOnce_value (htoken : token.KeyedOnce) (h : ∀ frame ∈ stack, frame.KeyedOnce)
    (hvalue : care.value stack token = .ok progress) : progress.KeyedOnce := by
  unfold Care.value at hvalue
  split at hvalue
  · have hframe : (Frame.array []).KeyedOnce := fun _ => nofun
    exact keyedOnce_enter hframe h hvalue
  · have hframe : (Frame.object [] none).KeyedOnce := ⟨List.nodup_nil, fun _ => nofun⟩
    exact keyedOnce_enter hframe h hvalue
  · split at hvalue
    · rename_i hscalar
      obtain ⟨v, hv, rfl⟩ := map_eq_ok.1 hvalue
      exact keyedOnce_settle (keyedOnce_scalar htoken hscalar hv) h
    · cases hvalue

theorem keyedOnce_separator (h : ∀ frame ∈ stack, frame.KeyedOnce)
    (hseparator : separator stack token = .ok progress) : progress.KeyedOnce := by
  unfold separator at hseparator
  split at hseparator
  · cases hseparator
    exact h
  · cases hseparator
    exact h
  · exact keyedOnce_close h hseparator
  · exact keyedOnce_close h hseparator
  · cases hseparator

theorem keyedOnce_next {expected : Expected} (htoken : token.KeyedOnce)
    (h : ∀ frame ∈ stack, frame.KeyedOnce)
    (hnext : care.next stack expected token = .ok progress) : progress.KeyedOnce := by
  unfold next at hnext
  split at hnext
  · exact keyedOnce_close h hnext
  · exact keyedOnce_close h hnext
  · cases hnext
    exact h
  · cases hnext
  · exact keyedOnce_key h hnext
  · exact keyedOnce_key h hnext
  · exact keyedOnce_value htoken h hnext
  · exact keyedOnce_value htoken h hnext
  · exact keyedOnce_separator h hnext

theorem keyedOnce_read {expected : Expected} {ts rest : List Token}
    (hts : ∀ token ∈ ts, token.KeyedOnce) (h : ∀ frame ∈ stack, frame.KeyedOnce)
    (hread : care.read stack expected ts = .ok (value, rest)) : value.KeyedOnce := by
  induction ts generalizing stack expected with
  | nil => cases hread
  | cons token ts ih =>
    obtain ⟨htoken, hts⟩ := List.forall_mem_cons.1 hts
    rw [read] at hread
    cases hnext : care.next stack expected token with
    | error f => simp [hnext] at hread
    | ok progress =>
      have hprogress := keyedOnce_next htoken h hnext
      rw [hnext] at hread
      cases progress with
      | done v =>
        cases hread
        exact hprogress
      | further stack expected => exact ih hts hprogress hread

end Care

theorem keyedOnce_of_parse {text : String} {value : Json} (h : parse text = .ok value) :
    value.KeyedOnce := by
  unfold parse Reader.run at h
  split at h
  · cases h
  · rename_i hvalue
    cases h
    unfold Reader.anyValue at hvalue
    split at hvalue
    · rename_i hread
      cases hvalue
      exact Care.keyedOnce_read (fun _ => keyedOnce_of_mem_tokens) (fun _ h => by cases h) hread
    · cases hvalue
  · cases h

theorem KeyedOnce.get? {value member : Json} {key : String} (h : value.KeyedOnce)
    (hmember : value.get? key = some member) : member.KeyedOnce := by
  cases h with
  | object _ hmembers => exact hmembers _ (Members.mem_of_get? hmember)
  | _ => cases hmember

theorem KeyedOnce.nodup_keys {value : Json} {ms : Members} (h : value.KeyedOnce)
    (hms : value.object? = some ms) : ms.keys.Nodup := by
  cases h with
  | object hkeys _ =>
    cases hms
    exact hkeys
  | _ => cases hms

end Json

namespace Manifest

theorem nodup_dependencies_of_read {t : FileTree} {path : Path} {m : Manifest}
    (h : read t path = .ok m) : m.dependencies.Nodup := by
  unfold read at h
  split at h
  · cases h
  · split at h
    · cases h
    · rename_i hparse
      cases h
      have hvalue := Json.keyedOnce_of_parse hparse
      rw [dependencies]
      cases hms : (Json.get? "dependencies" _).bind Json.object? with
      | none => exact List.nodup_nil
      | some ms =>
        obtain ⟨member, hmember, hobject⟩ := Option.bind_eq_some_iff.1 hms
        exact (hvalue.get? hmember).nodup_keys hobject

end Manifest

end ImportAtlas
