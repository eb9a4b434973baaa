namespace ImportAtlas

inductive Json where
  | null
  | bool (b : Bool)
  | number (digits : String)
  | string (s : String)
  | array (items : List Json)
  | object (members : List (String × Json))
  deriving Inhabited, Repr

namespace Json

abbrev Members := List (String × Json)

namespace Members

def insert (key : String) (value : Json) : Members → Members
  | [] => [(key, value)]
  | (k, v) :: rest => if k = key then (k, value) :: rest else (k, v) :: insert key value rest

def get? (key : String) : Members → Option Json
  | [] => none
  | (k, v) :: rest => if k = key then some v else get? key rest

def keys (ms : Members) : List String := ms.map Prod.fst

@[simp] theorem get?_insert_self (key : String) (value : Json) (ms : Members) :
    get? key (insert key value ms) = some value := by
  induction ms with
  | nil => simp [insert, get?]
  | cons m rest ih => by_cases h : m.1 = key <;> simp [insert, get?, h, ih]

theorem get?_insert_of_ne {key other : String} (h : key ≠ other) (value : Json) (ms : Members) :
    get? other (insert key value ms) = get? other ms := by
  induction ms with
  | nil => simp [insert, get?, h]
  | cons m rest ih =>
    by_cases hk : m.1 = key
    · have hne : m.1 ≠ other := hk ▸ h
      simp [insert, get?, hk, hk ▸ hne]
    · simp [insert, get?, hk, ih]

end Members

def ofNat (n : Nat) : Json := .number (toString n)

def ofStrings (ss : List String) : Json := .array (ss.map .string)

def ofOption : Option Json → Json
  | none => .null
  | some j => j

def get? (key : String) : Json → Option Json
  | .object ms => Members.get? key ms
  | _ => none

def string? : Json → Option String
  | .string s => some s
  | _ => none

def bool? : Json → Option Bool
  | .bool b => some b
  | _ => none

def nat? : Json → Option Nat
  | .number digits => digits.toNat?
  | _ => none

def array? : Json → Option (List Json)
  | .array items => some items
  | _ => none

def object? : Json → Option Members
  | .object ms => some ms
  | _ => none

def isNull : Json → Bool
  | .null => true
  | _ => false

end Json

end ImportAtlas
