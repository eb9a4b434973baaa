import ImportAtlas.Json.Reader
import ImportAtlas.Path

namespace ImportAtlas

inductive Severity where
  | info
  | warning
  deriving DecidableEq, Repr

namespace Severity

def text : Severity → String
  | .info => "info"
  | .warning => "warning"

def ofText? : String → Option Severity
  | "info" => some .info
  | "warning" => some .warning
  | _ => none

@[simp] theorem ofText?_text (s : Severity) : ofText? s.text = some s := by
  cases s <;> rfl

end Severity

structure Diagnostic where
  severity : Severity
  code : String
  message : String
  path : Option String
  deriving DecidableEq, Repr

namespace Diagnostic

def duplicateBareKey : String := "DUPLICATE_BARE_KEY"

def duplicateModuleId : String := "DUPLICATE_MODULE_ID"

def duplicateTypePath : String := "DUPLICATE_TYPE_PATH"

def typeDependencyMissing : String := "TYPE_DEPENDENCY_MISSING"

def commonJsFallback : String := "CJS_FALLBACK"

def typesEntryMissing : String := "TYPES_ENTRY_MISSING"

def warning (code message : String) (path : Path) : Diagnostic :=
  ⟨.warning, code, message, some path.toString⟩

def ofFallback (specifier : String) (path : Path) : Diagnostic :=
  ⟨.info, commonJsFallback, s!"'{specifier}' resolved through the CommonJS fallback",
    some path.toString⟩

def ofTakenSpecifier (specifier : String) (owner path : Path) : Diagnostic :=
  warning duplicateBareKey
    s!"'{specifier}' already maps to {owner.toString}; ignoring {path.toString}" path

def ofTakenId (id : String) (owner : Option Path) (path : Path) : Diagnostic :=
  let taker := match owner with
    | some o => " by " ++ o.toString
    | none => ""
  warning duplicateModuleId
    s!"module id '{id}' is already taken{taker}; ignoring {path.toString}" path

def ofTakenTypePath (key name : String) (path : Path) : Diagnostic :=
  warning duplicateTypePath s!"'{key}' is already collected from another copy of '{name}'" path

def ofMissingTypesEntry (entry : String) (manifest : Path) : Diagnostic :=
  warning typesEntryMissing s!"types entry '{entry}' does not exist" manifest

def ofMissingDependency (dependency name : String) (manifest : Path) : Diagnostic :=
  warning typeDependencyMissing s!"dependency '{dependency}' of '{name}' has no package.json"
    manifest

def toJson (d : Diagnostic) : Json :=
  .object ([("severity", .string d.severity.text), ("code", .string d.code),
    ("message", .string d.message)] ++
    match d.path with
    | some path => [("path", .string path)]
    | none => [])

def listToJson (ds : List Diagnostic) : Json := .array (ds.map toJson)

def withCode (code : String) (ds : List Diagnostic) : List Diagnostic :=
  ds.filter (·.code = code)

open Json

def severityOf (name : String) : Except Fault Severity :=
  match Severity.ofText? name with
  | some s => .ok s
  | none => .error .shape

def readSeverity : Reader Severity := fun ts =>
  match ts.head? with
  | none => .error .ended
  | some (.string _ _) => Reader.named severityOf ts
  | some (.mark .openObject) =>
    Reader.bind (Reader.mark .openObject) (fun _ =>
      Reader.bind (Reader.named severityOf) fun s =>
      Reader.bind (Reader.mark .colon) fun _ =>
      Reader.bind Reader.null fun _ =>
      Reader.map (fun _ => s) (Reader.mark .closeObject)) ts
  | some _ => .error .malformed

structure Draft where
  severity : Option Severity
  code : Option String
  message : Option String
  path : Option (Option String)

def fieldNames : List String := ["severity", "code", "message", "path"]

def fields : Reader.Fields Draft := fun p name =>
  match name with
  | "severity" => if p.severity.isSome then .error .shape
    else .ok (Reader.map (fun s => { p with severity := some s }) readSeverity)
  | "code" => if p.code.isSome then .error .shape
    else .ok (Reader.map (fun s => { p with code := some s }) Reader.string)
  | "message" => if p.message.isSome then .error .shape
    else .ok (Reader.map (fun s => { p with message := some s }) Reader.string)
  | "path" => if p.path.isSome then .error .shape
    else .ok (Reader.map (fun s => { p with path := some s }) (Reader.orNull Reader.string))
  | _ => .ok (Reader.map (fun _ => p) (Reader.anyValue .loose))

def Draft.complete (p : Draft) : Except Fault Diagnostic :=
  match p.severity, p.code, p.message with
  | some severity, some code, some message => .ok ⟨severity, code, message, p.path.getD none⟩
  | _, _, _ => .error .shape

def reader : Reader Diagnostic := fun ts =>
  match Reader.record fields false fieldNames ⟨none, none, none, none⟩ ts with
  | .error f => .error f
  | .ok (p, rest) => p.complete.map (·, rest)

def parseList (text : String) : Except Fault (List Diagnostic) := (Reader.items reader).run text

end Diagnostic

end ImportAtlas
