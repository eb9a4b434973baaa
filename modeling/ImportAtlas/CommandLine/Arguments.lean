import ImportAtlas.Text.Split

namespace ImportAtlas.CommandLine

inductive Command where
  | importMap (specifiers : List String)
  | typeFiles (specifier : String)
  | sourceFiles (specifier : String)
  | load (id : String)
  | scan (file : String)
  deriving DecidableEq, Repr

inductive Stop where
  | usage
  | help
  | version
  deriving DecidableEq, Repr

structure Options where
  json : Bool
  cwd : Option String
  config : Option String
  deriving DecidableEq, Repr

namespace Options

def initial : Options := ⟨false, none, none⟩

def merge (before after : Options) : Options where
  json := before.json || after.json
  cwd := after.cwd.or before.cwd
  config := after.config.or before.config

end Options

inductive Flag where
  | verbose
  | json
  | cwd
  | config
  | help
  | version
  deriving DecidableEq, Repr

namespace Flag

def ofLong? : String → Option Flag
  | "verbose" => some .verbose
  | "json" => some .json
  | "cwd" => some .cwd
  | "config" => some .config
  | "help" => some .help
  | "version" => some .version
  | _ => none

def ofShort? : Char → Option Flag
  | 'v' => some .verbose
  | 'h' => some .help
  | 'V' => some .version
  | _ => none

def takesPath : Flag → Bool
  | .cwd => true
  | .config => true
  | _ => false

end Flag

namespace Options

def apply (o : Options) : Flag → Except Stop Options
  | .verbose => .ok o
  | .json => if o.json then .error .usage else .ok { o with json := true }
  | .help => .error .help
  | .version => .error .version
  | .cwd => .error .usage
  | .config => .error .usage

def applyPath (o : Options) (flag : Flag) (path : String) : Except Stop Options :=
  if path = "" then .error .usage
  else match flag with
    | .cwd => if o.cwd.isSome then .error .usage else .ok { o with cwd := some path }
    | .config => if o.config.isSome then .error .usage else .ok { o with config := some path }
    | _ => .error .usage

def applyAll (o : Options) : List (Option Flag) → Except Stop Options
  | [] => .ok o
  | none :: _ => .error .usage
  | some flag :: rest => do applyAll (← o.apply flag) rest

end Options

inductive Argument where
  | flags (fs : List (Option Flag))
  | path (flag : Flag) (value : String)
  | awaitsPath (flag : Flag)
  | value (text : String)
  | escape
  deriving DecidableEq, Repr

namespace Argument

/-- Which flags there are after the name of a command: the version is not asked
for there. -/
def permit (nested : Bool) (flag : Option Flag) : Option Flag :=
  flag.filter fun f => !(nested && f = .version)

def ofLong (nested : Bool) (cs : List Char) : Argument :=
  let (name, given) := match Text.cutAtFirst (· = '=') cs with
    | some (name, given) => (name, some (String.ofList given))
    | none => (cs, none)
  match permit nested (Flag.ofLong? (String.ofList name)), given with
  | none, _ => .flags [none]
  | some flag, none => if flag.takesPath then .awaitsPath flag else .flags [some flag]
  | some flag, some given => if flag.takesPath then .path flag given else .flags [none]

def of (nested : Bool) (text : String) : Argument :=
  match text.toList with
  | ['-', '-'] => .escape
  | '-' :: '-' :: cs => ofLong nested cs
  | '-' :: c :: cs => .flags ((c :: cs).map fun c => permit nested (Flag.ofShort? c))
  | _ => .value text

end Argument

inductive CommandName where
  | importMap
  | typeFiles
  | sourceFiles
  | load
  | scan
  deriving DecidableEq, Repr

namespace CommandName

def ofText? : String → Option CommandName
  | "import-map" => some .importMap
  | "type-files" => some .typeFiles
  | "source-files" => some .sourceFiles
  | "load" => some .load
  | "scan" => some .scan
  | _ => none

def accepts (name : CommandName) (values : List String) (value : String) : Bool :=
  (values.isEmpty || name = .importMap) && (name ≠ .scan || value ≠ "")

def command? : CommandName → List String → Option Command
  | .importMap, value :: values => some (.importMap (value :: values))
  | .typeFiles, [value] => some (.typeFiles value)
  | .sourceFiles, [value] => some (.sourceFiles value)
  | .load, [value] => some (.load value)
  | .scan, [value] => some (.scan value)
  | _, _ => none

end CommandName

def readValues (name : CommandName) (values : List String) :
    List String → Except Stop Command
  | [] => match name.command? values with
    | some command => .ok command
    | none => .error .usage
  | value :: rest =>
    if name.accepts values value then readValues name (values ++ [value]) rest
    else .error .usage

def isValue (text : String) : Bool := Argument.of false text = .value text

def readCommand (name : CommandName) (o : Options) (values : List String) :
    List String → Except Stop (Options × Command)
  | [] => do return (o, ← readValues name values [])
  | text :: rest => match Argument.of true text with
    | .escape => do return (o, ← readValues name values rest)
    | .value value =>
      if name.accepts values value then readCommand name o (values ++ [value]) rest
      else .error .usage
    | .flags fs => do readCommand name (← o.applyAll fs) values rest
    | .path flag value => do readCommand name (← o.applyPath flag value) values rest
    | .awaitsPath flag => match rest with
      | value :: rest =>
        if isValue value then do readCommand name (← o.applyPath flag value) values rest
        else .error .usage
      | [] => .error .usage

def readHelp : List String → Stop
  | [] => .help
  | [name] => if name = "help" || (CommandName.ofText? name).isSome then .help else .usage
  | _ => .usage

def readFrom (o : Options) : List String → Except Stop (Options × Command)
  | [] => .error .usage
  | text :: rest => match Argument.of false text with
    | .escape => .error .usage
    | .value value => match CommandName.ofText? value with
      | some name => do
        let (after, command) ← readCommand name .initial [] rest
        return (o.merge after, command)
      | none => .error (if value = "help" then readHelp rest else .usage)
    | .flags fs => do readFrom (← o.applyAll fs) rest
    | .path flag value => do readFrom (← o.applyPath flag value) rest
    | .awaitsPath flag => match rest with
      | value :: rest =>
        if isValue value then do readFrom (← o.applyPath flag value) rest else .error .usage
      | [] => .error .usage

def parse (arguments : List String) : Except Stop (Options × Command) :=
  readFrom .initial arguments

end ImportAtlas.CommandLine
