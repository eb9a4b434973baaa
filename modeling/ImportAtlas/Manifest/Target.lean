import ImportAtlas.Json.Basic
import ImportAtlas.Text.Split
import ImportAtlas.Text.Utf8

/-! Targets of a package's `exports` and `imports`.  A target is a path, a list
of alternatives, or an object whose keys are conditions; a map of targets has
keys of which some hold one star that stands for any text. -/

namespace ImportAtlas.Target

open Text

/-- Which texts are targets: those of `exports` stay in the package, those of
`imports` may also name another one. -/
inductive Scope where
  | exports
  | imports
  deriving DecidableEq, Repr

def accepts (scope : Scope) (target : List Char) : Bool :=
  startsWith ['.', '/'] target ||
    (scope = .imports && target.head? ≠ some '.' && target.head? ≠ some '/' &&
      !contains "://".toList target)

def isEscape (segment : List Char) : Bool :=
  segment = ['.', '.'] || segment = ['.'] || segment = "node_modules".toList

def escapes (target : List Char) : Bool := (splitOn (· = '/') target).tail.any isEscape

def fill (star : Option (List Char)) (target : List Char) : List Char :=
  match star with
  | none => target
  | some text => target.flatMap fun c => if c = '*' then text else [c]

def ofText (scope : Scope) (star : Option (List Char)) (target : String) : Option String :=
  let filled := fill star target.toList
  if accepts scope target.toList && !escapes filled then some (String.ofList filled) else none

def isActive (conditions : List String) (key : String) : Bool :=
  key = "default" || conditions.contains key

mutual

def evaluate (scope : Scope) (star : Option (List Char)) (conditions : List String) :
    Json → Option String
  | .string target => ofText scope star target
  | .array items => evaluateItems scope star conditions items
  | .object members => evaluateMembers scope star conditions members
  | _ => none

def evaluateItems (scope : Scope) (star : Option (List Char)) (conditions : List String) :
    List Json → Option String
  | [] => none
  | item :: rest =>
    (evaluate scope star conditions item).or (evaluateItems scope star conditions rest)

def evaluateMembers (scope : Scope) (star : Option (List Char)) (conditions : List String) :
    List (String × Json) → Option String
  | [] => none
  | (key, target) :: rest =>
    (if isActive conditions key then evaluate scope star conditions target else none).or
      (evaluateMembers scope star conditions rest)

end

structure Pattern where
  head : List Char
  tail : List Char
  deriving DecidableEq, Repr

namespace Pattern

def ofKey? (key : String) : Option Pattern :=
  match splitOn (· = '*') key.toList with
  | [head, tail] => some ⟨head, tail⟩
  | _ => none

def match? (p : Pattern) (key : List Char) : Option (List Char) :=
  (stripHead p.head key).bind fun rest =>
    (stripHead p.tail.reverse rest.reverse).bind fun star =>
      if star.isEmpty then none else some star.reverse

def length (p : Pattern) : Nat := byteLength p.head + 1 + byteLength p.tail

end Pattern

structure Candidate where
  pattern : Pattern
  target : Json
  star : List Char

def candidates (members : Json.Members) (key : List Char) : List Candidate :=
  members.filterMap fun (name, target) =>
    (Pattern.ofKey? name).bind fun p => (p.match? key).map fun star => ⟨p, target, star⟩

def longest : List Candidate → Option Candidate
  | [] => none
  | c :: rest => match longest rest with
    | none => some c
    | some d => if c.pattern.length < d.pattern.length then some d else some c

def named? (members : Json.Members) (key : String) : Option (Json × Option (List Char)) :=
  match if key.toList.contains '*' then none else Json.Members.get? key members with
  | some target => some (target, none)
  | none => (longest (candidates members key.toList)).map fun c => (c.target, some c.star)

def hasSubpaths (members : Json.Members) : Bool :=
  members.any fun (key, _) => key.toList.head? = some '.'

def evaluateEntry (scope : Scope) (members : Json.Members) (key : String)
    (conditions : List String) : Option String :=
  (named? members key).bind fun (target, star) => evaluate scope star conditions target

/-- What a package exports under a subpath, which is a point for the package
itself.  A field without subpaths is the target of the package itself. -/
def ofExports (field : Json) (subpath : String) (conditions : List String) : Option String :=
  let whole := if subpath = "." then evaluate .exports none conditions field else none
  match field with
  | .object members =>
    if hasSubpaths members then evaluateEntry .exports members subpath conditions else whole
  | _ => whole

def ofImports (field : Json) (specifier : String) (conditions : List String) : Option String :=
  match field with
  | .object members => evaluateEntry .imports members specifier conditions
  | _ => none

end ImportAtlas.Target
