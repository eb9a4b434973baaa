import ImportAtlas.Json.Reader
import ImportAtlas.Text.Split

namespace ImportAtlas

structure Config where
  esmConditions : List String
  cjsConditions : List String
  extensions : List String
  declarationSuffixes : List String
  virtualRoot : String
  stripSourceMaps : Bool
  followTypesPackages : Bool
  deriving DecidableEq, Repr

namespace Config

def default : Config where
  esmConditions := ["import", "node", "default"]
  cjsConditions := ["require", "node", "default"]
  extensions := [".js", ".mjs", ".cjs", ".json"]
  declarationSuffixes := [".d.ts", ".d.mts", ".d.cts"]
  virtualRoot := "file:///node_modules/"
  stripSourceMaps := true
  followTypesPackages := true

def isDeclaration (c : Config) (path : List Char) : Bool :=
  c.declarationSuffixes.any fun suffix => Text.endsWith suffix.toList path

def toJson (c : Config) : Json :=
  .object [("esmConditions", .ofStrings c.esmConditions),
    ("cjsConditions", .ofStrings c.cjsConditions), ("extensions", .ofStrings c.extensions),
    ("declarationSuffixes", .ofStrings c.declarationSuffixes),
    ("virtualRoot", .string c.virtualRoot), ("stripSourceMaps", .bool c.stripSourceMaps),
    ("followTypesPackages", .bool c.followTypesPackages)]

open Json

def fieldNames : List String :=
  ["esmConditions", "cjsConditions", "extensions", "declarationSuffixes", "virtualRoot",
    "stripSourceMaps", "followTypesPackages"]

def fieldReader (c : Config) (name : String) : Reader Config :=
  let strings := Reader.items Reader.string
  match name with
  | "esmConditions" => Reader.map (fun v => { c with esmConditions := v }) strings
  | "cjsConditions" => Reader.map (fun v => { c with cjsConditions := v }) strings
  | "extensions" => Reader.map (fun v => { c with extensions := v }) strings
  | "declarationSuffixes" => Reader.map (fun v => { c with declarationSuffixes := v }) strings
  | "virtualRoot" => Reader.map (fun v => { c with virtualRoot := v }) Reader.string
  | "stripSourceMaps" => Reader.map (fun v => { c with stripSourceMaps := v }) Reader.bool
  | "followTypesPackages" => Reader.map (fun v => { c with followTypesPackages := v }) Reader.bool
  | _ => Reader.map (fun _ => c) (Reader.anyValue .loose)

def fields : Reader.Fields (Config × List String) := fun (c, given) name =>
  if given.contains name then .error .shape
  else
    let given := if fieldNames.contains name then name :: given else given
    .ok (Reader.map (·, given) (c.fieldReader name))

def parse (text : String) : Except Fault Config :=
  ((Reader.record fields true fieldNames (default, [])).run text).map Prod.fst

end Config

end ImportAtlas
