import ImportAtlas.Config
import ImportAtlas.Error

namespace ImportAtlas.Config

def load (t : FileTree) (path : Path) : Except AtlasError Config :=
  match t.readStream path with
  | .error fault => .error (.configRead path fault)
  | .ok text => (parse text).mapError (.config path)

def fileName : Path := Path.ofString "sourcefiles.json"

def discover (t : FileTree) (asked : Option Path) (directory : Path) : Except AtlasError Config :=
  match asked with
  | some path => load t (directory.join path)
  | none =>
    let own := directory.join fileName
    if t.isFile own then load t own else .ok default

end ImportAtlas.Config
