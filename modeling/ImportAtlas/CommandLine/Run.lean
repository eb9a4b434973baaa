import ImportAtlas.CommandLine.Arguments
import ImportAtlas.ConfigFile
import ImportAtlas.Session

namespace ImportAtlas

def Reference.toJson (r : Reference) : Json :=
  .object [("specifier", .string r.specifier), ("start", .ofNat r.start), ("end", .ofNat r.stop),
    ("kind", .string r.kind.text)]

namespace CommandLine

structure Failure where
  code : String
  message : String
  deriving DecidableEq, Repr

namespace Failure

def ofError (e : AtlasError) : Failure := ⟨e.code, e.message⟩

def notATrigger (id : String) : Failure :=
  ⟨"NOT_A_TRIGGER", s!"'{id}' has no ?sourceFiles, ?typeFiles or ?remapImports suffix"⟩

def toJson (f : Failure) : Json :=
  .object [("code", .string f.code), ("message", .string f.message)]

end Failure

inductive Report where
  | value (j : Json)
  | module (id text : String)

structure Outcome where
  exitCode : Nat
  output : String
  complaint : String
  deriving DecidableEq, Repr

def schemaVersion : Nat := 1

def envelope (ok : Bool) (key : String) (value : Json) : String :=
  (Json.object [("ok", .bool ok), ("schema_version", .ofNat schemaVersion), (key, value)]).compress

def Report.render (json : Bool) : Report → String
  | .value j => if json then envelope true "result" j else j.pretty
  | .module id text =>
    if json then
      envelope true "result" (.object [("id", .string id), ("module", .string text)])
    else text

def Outcome.of (json : Bool) : Except Failure Report → Outcome
  | .ok report => ⟨0, report.render json ++ "\n", ""⟩
  | .error f =>
    if json then ⟨1, envelope false "error" f.toJson ++ "\n", ""⟩
    else ⟨1, "", f.code ++ ": " ++ f.message ++ "\n"⟩

def importMaps (t : FileTree) (cwd : Path) (s : Session) (maps : OrderedMap Json) :
    List String → Except AtlasError (OrderedMap Json)
  | [] => .ok maps
  | specifier :: rest => match s.importMap t specifier cwd with
    | (.ok atlas, s) => importMaps t cwd s (maps.insert specifier atlas.toJson) rest
    | (.error e, _) => .error e

def scanFile (t : FileTree) (path : Path) (s : Session) : Except AtlasError Json := do
  let text ← (t.readText path).mapError (.load path)
  let references ← Expansion.references path (← s.normalizer.normalize path text)
  return .object [("file", .string path.toString),
    ("references", .array (references.map Reference.toJson))]

def answer (t : FileTree) (cwd : Path) (s : Session) : Command → Except Failure Report
  | .importMap specifiers =>
    ((importMaps t cwd s .empty specifiers).map fun maps => .value (maps.toJson id)).mapError
      .ofError
  | .typeFiles specifier =>
    ((s.typeFiles t specifier cwd).map fun fs => .value fs.toJson).mapError .ofError
  | .sourceFiles specifier =>
    ((s.sourceFiles t specifier cwd).1.map fun files => .value files.toJson).mapError .ofError
  | .load id => match Trigger.parse? id with
    | none => .error (.notATrigger id)
    | some trigger => ((s.serve t trigger cwd).1.map fun text => .module id text).mapError .ofError
  | .scan file =>
    ((scanFile t (cwd.join (Path.ofString file)) s).map .value).mapError .ofError

def directory (t : FileTree) (o : Options) : Path :=
  let path := match o.cwd with
    | some cwd => Path.ofString cwd
    | none => FileTree.pathOf t.workingDirectory
  match t.canonicalize path with
  | .ok canonical => canonical
  | .error _ => path

def execute (t : FileTree) (o : Options) (c : Command) : Except Failure Report :=
  let cwd := directory t o
  match Config.discover t (o.config.map Path.ofString) cwd with
  | .error e => .error (.ofError e)
  | .ok config => answer t cwd (.start config .empty) c

def usageText : String :=
  "Usage: sourcefiles [-v] [--json] [--cwd PATH] [--config PATH] COMMAND\n\n" ++
  "Commands:\n" ++
  "  import-map SPECIFIER...  Build the import map of entry specifiers\n" ++
  "  type-files SPECIFIER     Collect the declaration files of a package\n" ++
  "  source-files SPECIFIER   Build the import map and collect the type files of a package\n" ++
  "  load ID                  Render the data module of a trigger id\n" ++
  "  scan FILE                List the import references of a file\n"

def versionText : String := "sourcefiles 0.1.0\n"

def Stop.outcome : Stop → Outcome
  | .usage => ⟨2, "", usageText⟩
  | .help => ⟨0, usageText, ""⟩
  | .version => ⟨0, versionText, ""⟩

def run (t : FileTree) (arguments : List String) : Outcome :=
  match parse arguments with
  | .error stop => stop.outcome
  | .ok (o, c) => .of o.json (execute t o c)

end CommandLine

end ImportAtlas
