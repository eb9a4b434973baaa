namespace ImportAtlas.Text

/-- The pieces between the characters that satisfy `p`; a text without any is
its own only piece. -/
def splitOn (p : Char → Bool) : List Char → List (List Char)
  | [] => [[]]
  | c :: cs =>
    if p c then [] :: splitOn p cs
    else match splitOn p cs with
      | [] => [[c]]
      | piece :: pieces => (c :: piece) :: pieces

theorem splitOn_ne_nil (p : Char → Bool) (cs : List Char) : splitOn p cs ≠ [] := by
  cases cs with
  | nil => simp [splitOn]
  | cons c cs =>
    by_cases h : p c
    · simp [splitOn, h]
    · simp only [splitOn, h, Bool.false_eq_true, if_false]
      split <;> simp

def cutAtFirst (p : Char → Bool) (cs : List Char) : Option (List Char × List Char) :=
  match cs.dropWhile (!p ·) with
  | [] => none
  | _ :: after => some (cs.takeWhile (!p ·), after)

def cutAtLast (p : Char → Bool) (cs : List Char) : Option (List Char × List Char) :=
  (cutAtFirst p cs.reverse).map fun (after, before) => (before.reverse, after.reverse)

def stripHead : List Char → List Char → Option (List Char)
  | [], cs => some cs
  | _ :: _, [] => none
  | h :: head, c :: cs => if h = c then stripHead head cs else none

theorem stripHead_eq_some {head cs rest : List Char} :
    stripHead head cs = some rest ↔ cs = head ++ rest := by
  induction head generalizing cs with
  | nil => simp [stripHead, eq_comm]
  | cons h head ih =>
    cases cs with
    | nil => simp [stripHead]
    | cons c cs =>
      by_cases hc : h = c
      · simp [stripHead, hc, ih]
      · simp [stripHead, hc, Ne.symm hc]

def startsWith (head cs : List Char) : Bool := (stripHead head cs).isSome

def endsWith (tail cs : List Char) : Bool := startsWith tail.reverse cs.reverse

def contains (part : List Char) : List Char → Bool
  | [] => part.isEmpty
  | c :: cs => startsWith part (c :: cs) || contains part cs

def stripHeads (head cs : List Char) : List Char :=
  match head with
  | [] => cs
  | h :: hs => match _h : stripHead (h :: hs) cs with
    | none => cs
    | some rest => stripHeads (h :: hs) rest
termination_by cs.length
decreasing_by
  rw [stripHead_eq_some.1 _h, List.length_append, List.length_cons]
  omega

end ImportAtlas.Text
