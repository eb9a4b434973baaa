import ImportAtlas.Json.Print
import ImportAtlas.Text.Split

namespace ImportAtlas

inductive TriggerKind where
  | sourceFiles
  | typeFiles
  | remapImports
  deriving DecidableEq, Repr

namespace TriggerKind

def suffix : TriggerKind → String
  | .sourceFiles => "?sourcefiles"
  | .typeFiles => "?typefiles"
  | .remapImports => "?remapimports"

def all : List TriggerKind := [.sourceFiles, .typeFiles, .remapImports]

end TriggerKind

structure Trigger where
  specifier : String
  kind : TriggerKind
  deriving DecidableEq, Repr

namespace Trigger

def parse? (id : String) : Option Trigger :=
  let cs := id.toList
  TriggerKind.all.findSome? fun kind =>
    let length := cs.length - kind.suffix.length
    if Text.endsWith kind.suffix.toList (cs.map Char.toLower) && 0 < length then
      some ⟨String.ofList (cs.take length), kind⟩
    else none

end Trigger

def dataModule (value : Json) : String := "export default " ++ value.pretty ++ ";"

end ImportAtlas
