import ImportAtlas.Path
import ImportAtlas.Text.Bytes
import ImportAtlas.Text.Percent

/-! Paths as the system has them.  What stands between the slashes is any bytes; a `Path`
is a path of which they are a text. -/

namespace ImportAtlas

open Text

structure OsPath where
  octets : List UInt8
  deriving DecidableEq

namespace OsPath

def ofPath (p : Path) : OsPath := ⟨encodeUtf8 p.text⟩

def slash : UInt8 := 0x2F

def spelled (p : OsPath) : Path := ⟨p.octets.map fun b => Char.ofNat b.toNat⟩

def components (p : OsPath) : List Path.Component := p.spelled.components

def join (p q : OsPath) : OsPath :=
  if q.octets.head? = some slash || p.octets = [] then q
  else if p.octets.getLast? = some slash then ⟨p.octets ++ q.octets⟩
  else ⟨p.octets ++ slash :: q.octets⟩

/-- A component as a text.  Where its bytes are none, they are replaced. -/
def shown (c : Path.Component) : List Char := readable (c.text.map fun b => UInt8.ofNat b.toNat)

def slashed (cs : List Path.Component) : List Char := ['/'].intercalate (cs.map shown)

/-- The components with slashes between them. -/
def toSlash (p : OsPath) : String := String.ofList (slashed p.components)

/-- The components below a directory, with slashes between them. -/
def relativeTo (base p : OsPath) : Option (List Char) :=
  (Path.dropFront base.components p.components).map slashed

end OsPath

end ImportAtlas
