import ImportAtlas.FileTree.Basic
import ImportAtlas.Json.Token
import ImportAtlas.Splice

namespace ImportAtlas

inductive Unresolved where
  | specifierInvalid
  | unsupportedScheme
  | notFound
  | isDirectory
  | packageNotFound
  | packageEntryNotFound
  | exportsNotFound
  | exportsTargetNotFound
  | importsNotFound
  deriving DecidableEq, Repr

def Unresolved.code : Unresolved → String
  | .specifierInvalid => "SPECIFIER_INVALID"
  | .unsupportedScheme => "UNSUPPORTED_SCHEME"
  | .notFound => "NOT_FOUND"
  | .isDirectory => "IS_DIRECTORY"
  | .packageNotFound => "PACKAGE_NOT_FOUND"
  | .packageEntryNotFound => "PACKAGE_ENTRY_NOT_FOUND"
  | .exportsNotFound => "EXPORTS_NOT_FOUND"
  | .exportsTargetNotFound => "EXPORTS_TARGET_NOT_FOUND"
  | .importsNotFound => "IMPORTS_NOT_FOUND"

inductive ResolutionFailure where
  | single (reason : Unresolved)
  | stages (esm commonJs : Unresolved)
  deriving DecidableEq, Repr

def ResolutionFailure.text : ResolutionFailure → String
  | .single reason => reason.code
  | .stages esm commonJs => s!"esm: {esm.code}, commonjs: {commonJs.code}"

inductive AtlasError where
  | resolution (specifier : String) (base : Path) (failure : ResolutionFailure)
  | load (path : Path) (fault : FileFault)
  | scan (path : Path) (failure : ScanFailure)
  | splice (failure : SpliceFailure)
  | manifest (path : Path) (fault : Json.Fault)
  | configRead (path : Path) (fault : FileFault)
  | config (path : Path) (fault : Json.Fault)
  deriving DecidableEq

namespace AtlasError

def resolutionMessage (specifier base reason : String) : String :=
  s!"Cannot resolve '{specifier}' from {base}: {reason}"

def loadMessage (path reason : String) : String := s!"Failed to load {path}: {reason}"

def scanMessage (path : String) (offset : Nat) (reason : String) : String :=
  s!"Failed to scan {path} at byte {offset}: {reason}"

def spliceMessage (reason : String) : String := s!"Inconsistent patch: {reason}"

def message : AtlasError → String
  | .resolution specifier base failure =>
    resolutionMessage specifier base.toString failure.text
  | .load path fault => loadMessage path.toString fault.message
  | .scan path failure => scanMessage path.toString failure.offset failure.obstruction.message
  | .splice failure => spliceMessage failure.message
  | .manifest path _ => s!"Failed to parse package manifest at {path.toString}"
  | .configRead path fault => s!"Failed to read config at {path.toString}: {fault.message}"
  | .config path _ => s!"Failed to parse config at {path.toString}"

def resolutionCode : String := "RESOLUTION_ERROR"

def loadCode : String := "LOAD_ERROR"

def scanCode : String := "PARSE_ERROR"

def spliceCode : String := "PATCH_CONSISTENCY_ERROR"

def code : AtlasError → String
  | .resolution _ _ _ => resolutionCode
  | .load _ _ => loadCode
  | .scan _ _ => scanCode
  | .splice _ => spliceCode
  | .manifest _ _ => "MANIFEST_PARSE_ERROR"
  | .configRead _ _ => "CONFIG_READ_ERROR"
  | .config _ _ => "CONFIG_PARSE_ERROR"

def jsonFault? : AtlasError → Option Json.Fault
  | .manifest _ fault => some fault
  | .config _ fault => some fault
  | _ => none

end AtlasError

end ImportAtlas
