/- # Changes of a file tree — listing, linking, removing and moving

The operations work on locations, as paths lead to them; each says why it
cannot be carried out, and then changes nothing.  A file that loses its last
name is still stored, for those who have opened it.
-/
import ProductLine.Files.Tree

namespace ProductLine.FileTree

/-- The names in a directory, in no particular order. -/
def namesIn (t : FileTree) (loc : Location) : List String :=
  t.entries.filterMap fun entry =>
    match loc.isPrefixOf? entry.1 with
    | some [name] => some name
    | _ => none

def size (t : FileTree) (number : Nat) : Nat :=
  (t.content number).size

def mode (t : FileTree) (number : Nat) : Nat :=
  (t.stored[number]?).elim 0 StoredFile.mode

/-- Says who may do what with a file. -/
def setMode (t : FileTree) (number mode : Nat) : FileTree :=
  { t with stored := t.stored.modify number fun file => { file with mode := mode } }

/-- Somebody may run the file. -/
def isRunnable (t : FileTree) (number : Nat) : Bool :=
  t.mode number &&& 73 != 0

def nameCount (t : FileTree) (number : Nat) : Nat :=
  t.entries.countP fun entry => entry.2 == .file number

def discard (t : FileTree) (loc : Location) : FileTree :=
  { t with entries := t.entries.filter fun entry => !loc.isPrefixOf entry.1 }

/-- The tree without the name of a file, a link or a device. -/
def removeFile (t : FileTree) (loc : Location) : Except FileFault FileTree :=
  match t.node? loc with
  | none => .error .notFound
  | some .directory => .error .isADirectory
  | some _ => .ok (t.discard loc)

def removeDirectory (t : FileTree) (loc : Location) : Except FileFault FileTree :=
  match t.node? loc with
  | none => .error .notFound
  | some .directory =>
    if loc.isEmpty then .error .busy
    else if (t.namesIn loc).isEmpty then .ok (t.discard loc)
    else .error .notEmpty
  | some _ => .error .notADirectory

def add (t : FileTree) (loc : Location) (node : FileNode) : Except FileFault FileTree :=
  match t.node? loc with
  | some _ => .error .alreadyExists
  | none => .ok (t.put loc node)

def relocate (source target place : Location) : Location :=
  match source.isPrefixOf? place with
  | some rest => target ++ rest
  | none => place

/-- The tree in which what is at `source` has moved to `target`, in the place of what was there. -/
def move (t : FileTree) (source target : Location) : Except FileFault FileTree :=
  let moved : FileTree :=
    let cleared := t.discard target
    { cleared with
      entries := cleared.entries.map fun entry => (relocate source target entry.1, entry.2) }
  match t.node? source, t.node? target with
  | none, _ => .error .notFound
  | some .directory, some .directory =>
    if source = target then .ok t
    else if source.isPrefixOf target then .error .invalidArgument
    else if (t.namesIn target).isEmpty then .ok moved
    else .error .notEmpty
  | some .directory, some _ => .error .notADirectory
  | some .directory, none =>
    if source.isPrefixOf target then .error .invalidArgument else .ok moved
  | some _, some .directory => .error .isADirectory
  | some node, there => .ok (if there = some node then t else moved)

end ProductLine.FileTree
