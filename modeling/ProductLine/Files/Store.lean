/- # Stores — where a program reads and writes files

A store is whatever can open a file, read it block by block, create
directories and write a file.  The logic of the library is written once for
any of them.  `FileTree` is one: there an operation is a change of state, and
can be reasoned about.
-/
import ProductLine.Files.Tree
import ProductLine.Text.Lines

namespace ProductLine

/-- The operations on files that a project needs.  `readBlock source n` is a block of what the
source holds at this time beyond its first `n` bytes, and empty at its end; blocks are asked for one
after the other. -/
class FileStore (m : Type → Type) where
  Source : Type
  openFile : String → m (Except FileFault Source)
  readBlock : Source → Nat → m (Except FileFault (List UInt8))
  createDirectories : Route → m (Except FileFault Unit)
  writeFile : String → String → m (Except FileFault Unit)

/-- The most bytes that are read at once. -/
def blockSize : Nat := 8192

namespace FileTree

/-- Opens a path for reading; nothing changes. -/
def openFileM (path : String) : StateM FileTree (Except FileFault Opened) := fun t =>
  (t.openFile path, t)

def readBlockM (opened : Opened) (n : Nat) : StateM FileTree (Except FileFault (List UInt8)) :=
  fun t =>
    match opened with
    | .directory => (.error .isADirectory, t)
    | .device => (.ok [], t)
    | .file number => (.ok ((t.content number).extract n (n + blockSize)).data.toList, t)

def createDirectoriesM (r : Route) : StateM FileTree (Except FileFault Unit) := fun t =>
  t.createDirectories r

/-- Writes a text to a file; nothing changes if that fails. -/
def writeFileM (path : String) (text : String) : StateM FileTree (Except FileFault Unit) := fun t =>
  match t.writeFile path (bytesOf (Text.encode text.toList)) with
  | .error fault => (.error fault, t)
  | .ok t => (.ok (), t)

end FileTree

instance : FileStore (StateM FileTree) where
  Source := Opened
  openFile := FileTree.openFileM
  readBlock := FileTree.readBlockM
  createDirectories := FileTree.createDirectoriesM
  writeFile := FileTree.writeFileM

end ProductLine
