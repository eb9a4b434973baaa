import ImportAtlas.HostName.Label
import ImportAtlas.HostName.Mapping
import ImportAtlas.Text.Punycode
import ImportAtlas.Unicode.NormalForm

namespace ImportAtlas.HostName

open Text Unicode

def isForbidden (c : Char) : Bool :=
  c.toNat ≤ 0x20 || c.toNat = 0x7F || "%#/:<>?@[\\]^|".toList.contains c

def decoded? (label : List Char) : Option (List Char) :=
  match stripHead "xn--".toList label with
  | none => some label
  | some coded =>
    if label.getLast? = some '-' || 2000 < coded.length || !coded.all isAscii then none
    else
      (Punycode.decode? coded).filter fun cs =>
        cs.all isStable && !cs.any isForbidden && !cs.contains '.' && normalForm cs = cs

def read? (cs : List Char) : Option (List Char) :=
  (cs.mapM mapped?).bind fun targets =>
    let name := normalForm targets.flatten
    if name.isEmpty || name.any isForbidden then none
    else
      ((splitOn (· = '.') name).mapM decoded?).bind fun labels =>
        if labels.all isLabel && keepOrder labels then some name else none

end ImportAtlas.HostName
