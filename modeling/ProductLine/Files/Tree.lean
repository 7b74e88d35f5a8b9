/- # File trees — files, directories, links and devices as a value

A tree lists by location, the names on the way from the root, what stands
there.  A file is known by its number and stored apart from its names, so it
may have several, or none while something still reads it.  A path is walked
from the root or from the working directory; every step but the last has to
lead to a directory, and a link on the way is replaced by the path that it
holds.  The root is a directory without an entry.
-/
import ProductLine.Files.Fault
import ProductLine.Files.Path

namespace ProductLine

/-- The names on the way from the root. -/
abbrev Location := List String

/-- A device, by what becomes of bytes that are written to it.  They are dropped, by a `sink` that
has nothing to give, by `zeros` that never end, and by `noise` that never ends; there is no room for
them; or they are put behind all that was written to the file of that number.  A device may also be
`missing`, so that it cannot be opened. -/
inductive Device where
  | sink
  | zeros
  | noise
  | full
  | channel (number : Nat)
  | missing
deriving DecidableEq

inductive FileNode where
  | file (number : Nat)
  | directory
  | link (target : String)
  | device (d : Device)
deriving DecidableEq

/-- A file as it is stored: its content, and who may do what with it, as a number of nine bits. -/
structure StoredFile where
  content : ByteArray
  mode : Nat := 420

/-- What stands where, the files by their numbers, and the directory where relative paths start. -/
structure FileTree where
  workingDirectory : Location
  entries : List (Location × FileNode)
  stored : Array StoredFile := #[]

/-- What opening a path for reading gives.  A directory can be opened, but not read; a device has
nothing to be read. -/
inductive Opened where
  | file (number : Nat)
  | directory
  | device
deriving DecidableEq

namespace FileTree

def node? (t : FileTree) (loc : Location) : Option FileNode :=
  if loc.isEmpty then some .directory else t.entries.lookup loc

def put (t : FileTree) (loc : Location) (node : FileNode) : FileTree :=
  { t with entries := (loc, node) :: t.entries.filter (·.1 ≠ loc) }

theorem lookup_filter_of_ne {entries : List (Location × FileNode)} {loc other : Location}
    (h : other ≠ loc) :
    (entries.filter (·.1 ≠ loc)).lookup other = entries.lookup other := by
  induction entries with
  | nil => rfl
  | cons entry entries ih =>
    obtain ⟨place, node⟩ := entry
    by_cases hp : place = loc
    · subst hp
      have hb : (other == place) = false := by simpa using h
      rw [List.filter_cons_of_neg (by simp), ih, List.lookup_cons, hb]
    · rw [List.filter_cons_of_pos (by simpa using hp), List.lookup_cons, List.lookup_cons, ih]

theorem node?_put_self {t : FileTree} {loc : Location} {node : FileNode} (h : loc ≠ []) :
    (t.put loc node).node? loc = some node := by
  simp [node?, put, h]

theorem node?_put_of_ne {t : FileTree} {loc other : Location} {node : FileNode} (h : other ≠ loc) :
    (t.put loc node).node? other = t.node? other := by
  have hb : (other == loc) = false := by simpa using h
  unfold node? put
  split
  · rfl
  · rw [List.lookup_cons, hb]
    exact lookup_filter_of_ne h

/-! ## Files by their numbers -/

def content (t : FileTree) (number : Nat) : ByteArray :=
  (t.stored[number]?).elim ByteArray.empty StoredFile.content

def modifyContent (t : FileTree) (number : Nat) (f : ByteArray → ByteArray) : FileTree :=
  { t with stored := t.stored.modify number fun file => { file with content := f file.content } }

def create (t : FileTree) (loc : Location) (file : StoredFile) : FileTree :=
  { t.put loc (.file t.stored.size) with stored := t.stored.push file }

def bytesOf (bytes : List UInt8) : ByteArray := ⟨bytes.toArray⟩

/-! ## Paths -/

def follow (loc : Location) (step : String) : Location :=
  match step with
  | "." => loc
  | ".." => loc.dropLast
  | name => loc ++ [name]

/-- The most bytes in one step of a path. -/
def maxNameBytes : Nat := 255

def maxPathBytes : Nat := 4095

/-- The most links on the way of a path. -/
def maxLinks : Nat := 40

/-- Walks steps from a location, at the last of which there need not be anything.  A link is
followed by `leap`, which has the steps of its target to take before the others; one at the end is
followed only if that is wanted. -/
def walkBy (t : FileTree) (followsLast : Bool)
    (leap : Location → List String → Except FileFault Location) :
    Location → List String → Except FileFault Location
  | loc, [] => .ok loc
  | loc, step :: rest =>
    if maxNameBytes < step.utf8ByteSize then .error .nameTooLong
    else
      match t.node? (follow loc step) with
      | some .directory => t.walkBy followsLast leap (follow loc step) rest
      | some (.link target) =>
        if rest.isEmpty && !followsLast then .ok (follow loc step)
        else
          let route := Route.ofText target
          leap (if route.absolute then [] else loc) (route.steps ++ rest)
      | some _ => if rest.isEmpty then .ok (follow loc step) else .error .notADirectory
      | none => if rest.isEmpty then .ok (follow loc step) else .error .notFound

/-- Walks steps from a location, and follows at most `links` links on the way. -/
def walk (t : FileTree) (followsLast : Bool) :
    (links : Nat) → Location → List String → Except FileFault Location
  | 0 => t.walkBy followsLast fun _ _ => .error .tooManyLevels
  | links + 1 => t.walkBy followsLast (t.walk followsLast links)

/-- The location of a route, at which there need not be anything. -/
def locate (t : FileTree) (followsLast : Bool) (r : Route) : Except FileFault Location :=
  if r.isEmpty then .error .notFound
  else
    t.walk (followsLast || r.slashAtEnd) maxLinks (if r.absolute then [] else t.workingDirectory)
      r.steps

def locatePath (t : FileTree) (followsLast : Bool) (path : String) : Except FileFault Location :=
  if path.toList.contains '\x00' then .error .zeroByteInPath
  else if maxPathBytes < path.utf8ByteSize then .error .nameTooLong
  else t.locate followsLast (Route.ofText path)

def openFile (t : FileTree) (path : String) : Except FileFault Opened :=
  match t.locatePath true path with
  | .error fault => .error fault
  | .ok loc =>
    let asFile (opened : Opened) : Except FileFault Opened :=
      if (Route.ofText path).slashAtEnd then .error .notADirectory else .ok opened
    match t.node? loc with
    | none => .error .notFound
    | some (.link _) => .error .tooManyLevels
    | some .directory => .ok .directory
    | some (.device .missing) => .error .noSuchDevice
    | some (.device _) => asFile .device
    | some (.file number) => asFile (.file number)

def writeDevice (t : FileTree) (content : ByteArray) : Device → Except FileFault FileTree
  | .sink | .zeros | .noise => .ok t
  | .full => if content.isEmpty then .ok t else .error .noSpace
  | .channel number => .ok (t.modifyContent number (· ++ content))
  | .missing => .error .noSuchDevice

def writeFile (t : FileTree) (path : String) (content : ByteArray) : Except FileFault FileTree :=
  match t.locatePath true path with
  | .error fault => .error fault
  | .ok loc =>
    if (Route.ofText path).slashAtEnd then .error .isADirectory
    else
      match t.node? loc with
      | some .directory => .error .isADirectory
      | some (.link _) => .error .tooManyLevels
      | some (.device d) => t.writeDevice content d
      | some (.file number) => .ok (t.modifyContent number fun _ => content)
      | none => .ok (t.create loc { content := content })

def makeDirectory (t : FileTree) (r : Route) : Except FileFault FileTree :=
  match t.locatePath false r.text with
  | .error fault => .error fault
  | .ok loc =>
    match t.node? loc with
    | some _ => .error .alreadyExists
    | none => .ok (t.put loc .directory)

def isDirectory (t : FileTree) (r : Route) : Bool :=
  match t.locate true r with
  | .error _ => false
  | .ok loc => t.node? loc == some .directory

/-- The directory that is there already is as good as a new one. -/
def ensureDirectory (t : FileTree) (r : Route) : Except FileFault FileTree :=
  match t.makeDirectory r with
  | .error .alreadyExists => if t.isDirectory r then .ok t else .error .alreadyExists
  | result => result

/-- Creates the directory of the first `depth` steps of a route and those above it, as far as they
are missing.  What was created stays, whatever fails after it. -/
def createUpTo (t : FileTree) (absolute : Bool) (steps : List String) :
    (depth : Nat) → Except FileFault Unit × FileTree
  | 0 => (.ok (), t)
  | depth + 1 =>
    let route : Route := { absolute := absolute, steps := steps.take (depth + 1) }
    match t.ensureDirectory route with
    | .ok t => (.ok (), t)
    | .error .notFound =>
      match t.createUpTo absolute steps depth with
      | (.error fault, t) => (.error fault, t)
      | (.ok (), t) =>
        match t.ensureDirectory route with
        | .error fault => (.error fault, t)
        | .ok t => (.ok (), t)
    | .error fault => (.error fault, t)

/-- Creates a directory and those above it, as far as they are missing. -/
def createDirectories (t : FileTree) (r : Route) : Except FileFault Unit × FileTree :=
  t.createUpTo r.absolute r.steps r.steps.length

/-! ## A tree to start from, and what has become of it -/

/-- The location of a fresh working directory. -/
def scratch : Location := ["tmp", "scratch"]

/-- The number of the file in which what is written to the standard output is kept. -/
def outputNumber : Nat := 0

/-- The number of the file in which what is written to the standard error stream is kept. -/
def errorsNumber : Nat := 1

/-- A tree with an empty working directory.  Standard input is empty. -/
def fresh : FileTree where
  workingDirectory := scratch
  entries := [
    (["tmp"], .directory), (scratch, .directory),
    (["dev"], .directory), (["dev", "null"], .device .sink),
    (["dev", "stdin"], .link "/proc/self/fd/0"), (["dev", "stdout"], .link "/proc/self/fd/1"),
    (["dev", "stderr"], .link "/proc/self/fd/2"), (["dev", "fd"], .link "/proc/self/fd"),
    (["proc"], .directory), (["proc", "self"], .directory), (["proc", "self", "fd"], .directory),
    (["proc", "self", "fd", "0"], .device .sink),
    (["proc", "self", "fd", "1"], .device (.channel outputNumber)),
    (["proc", "self", "fd", "2"], .device (.channel errorsNumber))]
  stored := #[{ content := .empty }, { content := .empty }]

/-- Adds a file below the working directory, and the directories it stands in. -/
def addFile (t : FileTree) (path : String) (content : List UInt8) : FileTree :=
  let t := match (Route.ofText path).parent? with
    | none => t
    | some directory => (t.createDirectories directory).2
  match t.writeFile path (bytesOf content) with
  | .error _ => t
  | .ok t => t

/-- The location to which one leads when links are followed, and what stands there. -/
def resolve? (t : FileTree) (loc : Location) : Option (Location × FileNode) :=
  match t.walk true maxLinks [] loc with
  | .error _ => none
  | .ok loc => (t.node? loc).map fun node => (loc, node)

def contentAt? (t : FileTree) (loc : Location) : Option ByteArray :=
  match t.resolve? loc with
  | some (_, .file number) => some (t.content number)
  | _ => none

/-- The files below the working directory whose content is not that of `before`, by their paths
from there. -/
def changesSince (t before : FileTree) : List (String × ByteArray) :=
  t.entries.filterMap fun (loc, _) =>
    match t.workingDirectory.isPrefixOf? loc, t.contentAt? loc with
    | some steps, some content =>
      if before.contentAt? loc == some content then none
      else some ("/".intercalate steps, content)
    | _, _ => none

end FileTree

end ProductLine
