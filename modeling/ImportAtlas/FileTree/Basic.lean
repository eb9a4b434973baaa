import ImportAtlas.Path
import ImportAtlas.Text.Utf8

/-! A tree of files as a value.  Paths are followed from directory to directory
through symbolic links, so a double point after a link leads to the parent of
what the link stands for. -/

namespace ImportAtlas

abbrev FileName := List Char

inductive FileNode where
  | file (bytes : List UInt8)
  | link (target : List Char)
  | directory (entries : List (FileName × FileNode))
  deriving Inhabited

inductive FileFault where
  | notFound
  | notDirectory
  | isDirectory
  | nameTooLong
  | tooManyLinks
  | nulByte
  | invalidText (fault : Text.Utf8Fault)
  | invalidStream
  deriving DecidableEq, Repr

def FileFault.message : FileFault → String
  | .notFound => "No such file or directory (os error 2)"
  | .notDirectory => "Not a directory (os error 20)"
  | .isDirectory => "Is a directory (os error 21)"
  | .nameTooLong => "File name too long (os error 36)"
  | .tooManyLinks => "Too many levels of symbolic links (os error 40)"
  | .nulByte => "file name contained an unexpected NUL byte"
  | .invalidText fault => fault.message
  | .invalidStream => "stream did not contain valid UTF-8"

namespace FileNode

def named? (name : FileName) : List (FileName × FileNode) → Option FileNode
  | [] => none
  | (n, node) :: rest => if n = name then some node else named? name rest

def putEntry (name : FileName) (node : FileNode) :
    List (FileName × FileNode) → List (FileName × FileNode)
  | [] => [(name, node)]
  | (n, old) :: rest => if n = name then (n, node) :: rest else (n, old) :: putEntry name node rest

def eraseEntry (name : FileName) (entries : List (FileName × FileNode)) :
    List (FileName × FileNode) :=
  entries.filter (·.1 ≠ name)

def child? (name : FileName) : FileNode → Option FileNode
  | .directory entries => named? name entries
  | _ => none

def isDirectory : FileNode → Bool
  | .directory _ => true
  | _ => false

def at? : List FileName → FileNode → Option FileNode
  | [], node => some node
  | name :: rest, node => (node.child? name).bind (at? rest)

def put (new : FileNode) : List FileName → FileNode → FileNode
  | [], _ => new
  | [name], .directory entries => .directory (putEntry name new entries)
  | name :: rest, .directory entries => match named? name entries with
    | some node => .directory (putEntry name (put new rest node) entries)
    | none => .directory entries
  | _ :: _, node => node

def erase : List FileName → FileNode → FileNode
  | [], node => node
  | [name], .directory entries => .directory (eraseEntry name entries)
  | name :: rest, .directory entries => match named? name entries with
    | some node => .directory (putEntry name (erase rest node) entries)
    | none => .directory entries
  | _ :: _, node => node

end FileNode

abbrev Place := List FileName

structure FileTree where
  root : FileNode
  /-- Where relative paths begin. -/
  workingDirectory : Place

namespace FileTree

def startOf (t : FileTree) (path : Path) : Place :=
  if path.isAbsolute then [] else t.workingDirectory

def node? (t : FileTree) (place : Place) : Option FileNode := t.root.at? place

def isDirectoryAt (t : FileTree) (place : Place) : Bool :=
  ((t.node? place).map FileNode.isDirectory).getD false

def linkLimit : Nat := 40

def nameLimit : Nat := 255

def pathLimit : Nat := 4095

def pieces (text : List Char) : List FileName := Text.splitOn Path.isSeparator text

/-- Follow the pieces of a path from a place, the last piece too if `through`
holds, as long as all places on the way are admitted.  The text of a link is left
to `jump`, with the pieces after it. -/
def followPieces (t : FileTree) (through : Bool) (admits : Place → Bool) (links : Nat)
    (jump : Place → List FileName → Except FileFault (Place × Nat)) (place : Place) :
    List FileName → Except FileFault (Place × Nat)
  | [] => .ok (place, links)
  | piece :: rest =>
    if !t.isDirectoryAt place then .error .notDirectory
    else if Path.isIdle piece then t.followPieces through admits links jump place rest
    else if piece = ['.', '.'] then t.followPieces through admits links jump place.dropLast rest
    else if nameLimit < Text.byteLength piece || !admits (place ++ [piece]) then
      .error .nameTooLong
    else match t.node? (place ++ [piece]) with
      | none => .error .notFound
      | some (.link target) =>
        if rest.isEmpty && !through then .ok (place ++ [piece], links)
        else jump (if target.head? = some '/' then [] else place) (pieces target ++ rest)
      | some _ => t.followPieces through admits links jump (place ++ [piece]) rest

def followWithin (t : FileTree) (through : Bool) (admits : Place → Bool) :
    Nat → Place → List FileName → Except FileFault (Place × Nat)
  | 0 => t.followPieces through admits 0 fun _ _ => .error .tooManyLinks
  | links + 1 =>
    t.followPieces through admits (links + 1) (t.followWithin through admits links)

def follow (t : FileTree) (through : Bool) :
    Nat → Place → List FileName → Except FileFault (Place × Nat) :=
  t.followWithin through fun _ => true

theorem followPieces_links_le {t : FileTree} {through : Bool} {admits : Place → Bool}
    {links left : Nat} {jump : Place → List FileName → Except FileFault (Place × Nat)}
    {place q : Place} {todo : List FileName}
    (hjump : ∀ place todo q left, jump place todo = .ok (q, left) → left ≤ links)
    (h : t.followPieces through admits links jump place todo = .ok (q, left)) :
    left ≤ links := by
  fun_induction followPieces t through admits links jump place todo with
  | case1 =>
    cases h
    exact Nat.le_refl _
  | case2 => contradiction
  | case3 _ _ _ _ _ ih => exact ih h
  | case4 _ _ _ _ ih => exact ih h
  | case5 => contradiction
  | case6 => contradiction
  | case7 =>
    cases h
    exact Nat.le_refl _
  | case8 => exact hjump _ _ _ _ h
  | case9 _ _ _ _ _ _ _ _ _ _ ih => exact ih h

theorem followPieces_cons_related {t : FileTree} {admits : Place → Bool} {links links' : Nat}
    {jump jump' : Place → List FileName → Except FileFault (Place × Nat)} {piece : FileName}
    {todo todo' : List FileName}
    {R : Except FileFault (Place × Nat) → Except FileFault (Place × Nat) → Prop}
    (herror : ∀ fault, R (.error fault) (.error fault))
    (hrest : ∀ place, R (t.followPieces true admits links jump place todo)
      (t.followPieces true admits links' jump' place todo'))
    (hjump : ∀ place target, R (jump place (pieces target ++ todo))
      (jump' place (pieces target ++ todo'))) (place : Place) :
    R (t.followPieces true admits links jump place (piece :: todo))
      (t.followPieces true admits links' jump' place (piece :: todo')) := by
  rw [followPieces, followPieces]
  split
  · exact herror _
  split
  · exact hrest place
  split
  · exact hrest place.dropLast
  split
  · exact herror _
  cases t.node? (place ++ [piece]) with
  | none => exact herror _
  | some node =>
    cases node with
    | file bytes => exact hrest _
    | directory entries => exact hrest _
    | link target =>
      simp only [Bool.not_true, Bool.and_false, Bool.false_eq_true, if_false]
      exact hjump _ target

theorem followWithin_links_le {t : FileTree} {through : Bool} {admits : Place → Bool}
    {links left : Nat} {place q : Place} {todo : List FileName}
    (h : t.followWithin through admits links place todo = .ok (q, left)) : left ≤ links := by
  induction links generalizing place q left todo with
  | zero => exact followPieces_links_le (by simp) h
  | succ links ih => exact followPieces_links_le (fun _ _ _ _ hj => Nat.le_succ_of_le (ih hj)) h

def reach (t : FileTree) (through : Bool) (path : Path) : Except FileFault (Place × Nat) :=
  if path.text.contains '\x00' then .error .nulByte
  else if path.text = [] then .error .notFound
  else if pathLimit < Text.byteLength path.text then .error .nameTooLong
  else
    t.follow through linkLimit (t.startOf path) (pieces path.text)

def locate (t : FileTree) (through : Bool) (path : Path) : Except FileFault Place :=
  (t.reach through path).map Prod.fst

def pathOf (place : Place) : Path := ⟨'/' :: ['/'].intercalate place⟩

def isWithinReach (place : Place) : Bool := Text.byteLength (pathOf place).text ≤ pathLimit

/-- The canonical path is found from the root on, one place after another, and
each place is looked up by its own canonical path.  It does not matter how long
the path itself is. -/
def canonicalize (t : FileTree) (path : Path) : Except FileFault Path :=
  if path.text.contains '\x00' then .error .nulByte
  else if path.text = [] then .error .notFound
  else (t.followWithin true isWithinReach linkLimit (t.startOf path) (pieces path.text)).map
    fun r => pathOf r.1

def find? (t : FileTree) (path : Path) : Option FileNode :=
  match t.locate true path with
  | .ok place => t.node? place
  | .error _ => none

def isFile (t : FileTree) (path : Path) : Bool :=
  match t.find? path with
  | some (.file _) => true
  | _ => false

def isDirectory (t : FileTree) (path : Path) : Bool :=
  match t.find? path with
  | some (.directory _) => true
  | _ => false

def readBytes (t : FileTree) (path : Path) : Except FileFault (List UInt8) := do
  match t.node? (← t.locate true path) with
  | some (.file bytes) => .ok bytes
  | some (.directory _) => .error .isDirectory
  | _ => .error .notFound

def readText (t : FileTree) (path : Path) : Except FileFault String := do
  (Text.decodeUtf8 (← t.readBytes path)).mapError .invalidText

def readStream (t : FileTree) (path : Path) : Except FileFault String := do
  (Text.decodeUtf8 (← t.readBytes path)).mapError fun _ => .invalidStream

end FileTree

end ImportAtlas
