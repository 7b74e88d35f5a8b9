/- # Transfers — copying, moving and linking files

What is copied goes into the file that is there already, if one is; what is
moved or linked takes the place of its name.
-/
import ProductLine.Shell.Tool.Files

namespace ProductLine.Shell.Tool

/-- What is made of a file that is copied. -/
inductive Made where
  | copy
  | hardLink
  | symbolicLink
deriving DecidableEq

/-- How files are copied or moved. -/
structure Transfer where
  recursive : Bool := false
  keeps : Bool := false
  keepsLinks : Bool := false
  isVerbose : Bool := false
  replaces : Bool := false
  makes : Made := .copy

def isDirectory (p : Process) (path : Chars) : Act Bool := do
  match ← p.node path with
  | .ok (_, .directory) => return true
  | _ => return false

/-- The location of a path that is or will be, with what is there; a link at its end is followed
only if that is wanted. -/
def destination (p : Process) (followsLast : Bool) (path : Chars) :
    Act (Except FileFault (Location × Option FileNode)) := do
  match ← Process.locateBy followsLast p path with
  | .error fault => return .error fault
  | .ok place =>
    match p.streamAt? place with
    | some _ => return .ok (place, some (.device .sink))
    | none => return .ok (place, (← get).files.node? place)

/-- Makes a link or a device at a location, in the place of what is there. -/
def placeNode (place : Location) (node : FileNode) : Act Unit :=
  modify fun m => { m with files := (m.files.discard place).put place node }

def writeCopy (p : Process) (target : Chars) (goal : Location) (there : Option FileNode)
    (content : ByteArray) (mode : Nat) : Act Unit := do
  match there with
  | some (.file number) => Machine.modifyFile number fun _ => content
  | some _ =>
    match ← p.openPath target .write with
    | .ok opening => let _ ← Machine.write opening (Chars.slice content 0 content.size)
    | .error _ => pure ()
  | none =>
    modify fun m => { m with files := m.files.create goal { content := content, mode := mode } }

def copyFile (p : Process) (t : Transfer) (source target : Chars) (place : Location)
    (node : FileNode) (content : ByteArray) (mode : Nat) : Act Nat := do
  let quoted := Chars.quoted
  let arrow : Act Unit := do
    if t.isVerbose then p.print (quoted source ++ str " -> " ++ quoted target ++ ['\n'])
  let entry ← destination p false target
  match ← destination p (!t.replaces) target with
  | .error fault =>
    report p (str "cannot create regular file " ++ quoted target ++ str ": " ++
      Process.reason fault)
  | .ok (_, some .directory) =>
    report p (str "cannot overwrite directory " ++ quoted target ++ str " with non-directory " ++
      quoted source)
  | .ok (goal, there) =>
    let isSame := goal = place || match there, node with
      | some (.file a), .file b => a == b
      | _, _ => false
    let isDangling := match entry with
      | .ok (_, some (.link _)) => there.isNone
      | _ => false
    if t.makes = .copy && isSame then
      report p (quoted source ++ str " and " ++ quoted target ++ str " are the same file")
    else if t.keeps && there.isSome then return 0
    else if t.makes ≠ .copy && there.isSome && !t.replaces then
      let kind := if t.makes = .hardLink then "hard" else "symbolic"
      report p (str "cannot create " ++ str kind ++ str " link " ++ quoted target ++
        (if t.makes = .hardLink then str " to " ++ quoted source else []) ++ str ": File exists")
    else if isDangling then
      report p (str "not writing through dangling symlink " ++ quoted target)
    else if there.isNone && Process.wantsDirectory target then
      report p (str "cannot create regular file " ++ quoted target ++ str ": Not a directory")
    else
      match t.makes with
      | .hardLink => placeNode goal node
      | .symbolicLink => placeNode goal (.link (Chars.toName source))
      | .copy => writeCopy p target goal there content mode
      arrow
      return 0

def copyLink (p : Process) (t : Transfer) (source target : Chars) (node : FileNode) : Act Nat := do
  let quoted := Chars.quoted
  match ← destination p false target with
  | .error fault =>
    report p (str "cannot create symbolic link " ++ quoted target ++ str ": " ++
      Process.reason fault)
  | .ok (_, some .directory) =>
    report p (str "cannot overwrite directory " ++ quoted target ++ str " with non-directory " ++
      quoted source)
  | .ok (goal, there) =>
    if t.keeps && there.isSome then return 0
    placeNode goal node
    if t.isVerbose then p.print (quoted source ++ str " -> " ++ quoted target ++ ['\n'])
    return 0

/-- Copies what is at a path.  `depth` bounds the directories. -/
def copyPath (p : Process) (t : Transfer) : (depth : Nat) → (source target : Chars) → Act Nat
  | 0, _, _ => return 1
  | depth + 1, source, target => do
    let quoted := Chars.quoted
    match ← Process.nodeBy (!t.keepsLinks) p source with
    | .error fault =>
      report p (str "cannot stat " ++ quoted source ++ str ": " ++ Process.reason fault)
    | .ok (_, .link link) => copyLink p t source target (.link link)
    | .ok (place, .file number) =>
      let files := (← get).files
      copyFile p t source target place (.file number) (files.content number) (files.mode number)
    | .ok (place, .device d) =>
      let content ← match ← p.readPath source with
        | .ok text => pure (Chars.appendTo .empty text)
        | .error _ => pure .empty
      copyFile p t source target place (.device d) content 420
    | .ok (place, .directory) =>
      if !t.recursive then
        report p (str "-r not specified; omitting directory " ++ quoted source)
      else
        match ← destination p true target with
        | .error fault =>
          report p (str "cannot create directory " ++ quoted target ++ str ": " ++
            Process.reason fault)
        | .ok (goal, there) =>
          if there.any (· != .directory) then
            report p (str "cannot overwrite non-directory " ++ quoted target ++
              str " with directory " ++ quoted source)
          else if place.isPrefixOf goal then
            report p (str "cannot copy a directory, " ++ quoted source ++ str ", into itself, " ++
              quoted target)
          else
            if there.isNone then
              modify fun m => { m with files := m.files.put goal .directory }
              if t.isVerbose then p.print (quoted source ++ str " -> " ++ quoted target ++ ['\n'])
            forEach (← entriesOf place) fun name =>
              copyPath p t depth (below source name) (below target name)

def movePath (p : Process) (t : Transfer) (source target : Chars) : Act Nat := do
  let quoted := Chars.quoted
  match ← p.entry source with
  | .error fault =>
    report p (str "cannot stat " ++ quoted source ++ str ": " ++ Process.reason fault)
  | .ok (place, node) =>
    match ← destination p false target with
    | .error fault =>
      report p (str "cannot move " ++ quoted source ++ str " to " ++ quoted target ++ str ": " ++
        Process.reason fault)
    | .ok (goal, there) =>
      if goal = place then
        report p (quoted source ++ str " and " ++ quoted target ++ str " are the same file")
      else if t.keeps && there.isSome then return 0
      else if there.isNone && Process.wantsDirectory target && node ≠ .directory then
        report p (str "cannot move " ++ quoted source ++ str " to " ++ quoted target ++
          str ": Not a directory")
      else if node ≠ .directory && there = some .directory then
        report p (str "cannot overwrite directory " ++ quoted target ++
          str " with non-directory " ++ quoted source)
      else if node = .directory && there.any (· != .directory) then
        report p (str "cannot overwrite non-directory " ++ quoted target ++
          str " with directory " ++ quoted source)
      else
        match ← Machine.changing fun files => files.move place goal with
        | .ok () =>
          if t.isVerbose then
            p.print (str "renamed " ++ quoted source ++ str " -> " ++ quoted target ++ ['\n'])
          return 0
        | .error .invalidArgument =>
          report p (str "cannot move " ++ quoted source ++ str " to a subdirectory of itself, " ++
            quoted target)
        | .error fault =>
          report p (str "cannot move " ++ quoted source ++ str " to " ++ quoted target ++
            str ": " ++ Process.reason fault)

def transferOptions : OptionTable where
  letters := "rRapPdfinvuTLHxsl".toList.map (fun c => (c, .nothing)) ++ [('t', .argument)]
  long := [("recursive", 'r', .nothing), ("archive", 'a', .nothing), ("force", 'f', .nothing),
    ("no-clobber", 'n', .nothing), ("verbose", 'v', .nothing),
    ("target-directory", 't', .argument), ("no-target-directory", 'T', .nothing),
    ("preserve", 'p', .optional), ("update", 'u', .nothing), ("link", 'l', .nothing),
    ("symbolic-link", 's', .nothing), ("dereference", 'L', .nothing),
    ("no-dereference", 'P', .nothing), ("remove-destination", 'O', .nothing)]

/-- Copies or moves what the arguments name to where they say. -/
def transfer (one : Process → Transfer → Chars → Chars → Act Nat) : Tool := fun p => do
  let (given, paths) ← p.options transferOptions
  let has (c : Char) : Bool := Given.has given c
  let t : Transfer :=
    { recursive := has 'r' || has 'R' || has 'a', keeps := has 'n', isVerbose := has 'v'
      keepsLinks := match Given.lastOf? given "LHPda" with
        | some 'L' | some 'H' => false
        | some _ => true
        | none => has 'r' || has 'R'
      makes := if has 'l' then .hardLink else if has 's' then .symbolicLink else .copy
      replaces := has 'f' || has 'O' }
  let (sources, target) ← match Given.last? given 't' with
    | some directory => pure (paths, some directory)
    | none => pure (paths.dropLast, paths.getLast?)
  match sources, target with
  | _, none => missingOperand p "file operand"
  | [], some only =>
    if (Given.last? given 't').isSome then missingOperand p "file operand"
    else p.failWithHint 1 (str "missing destination file operand after " ++ Chars.quoted only)
  | sources, some target =>
    let intoDirectory ← if has 'T' then pure false else isDirectory p target
    if intoDirectory then
      let status ← forEach sources fun source =>
        one p t source (below target (lastStep source))
      Process.done status
    else if 1 < sources.length || (Given.last? given 't').isSome then
      let reason := match ← p.node target with
        | .ok _ => str "Not a directory"
        | .error fault => Process.reason fault
      p.fail 1 ((if (Given.last? given 't').isSome then str "target directory "
        else str "target ") ++ Chars.quoted target ++ str ": " ++ reason)
    else
      let status ← forEach sources fun source => one p t source target
      Process.done status

def cp : Tool := transfer fun p t => copyPath p t maxDepth

def mv : Tool := transfer movePath

/-! ## Links -/

/-- How links are made. -/
structure Linking where
  symbolic : Bool
  replaces : Bool
  isVerbose : Bool

def makeLink (p : Process) (l : Linking) (source target : Chars) : Act Nat := do
  let quoted := Chars.quoted
  let fail (fault : FileFault) : Act Nat :=
    let behind := if l.symbolic || fault == .alreadyExists then []
      else str " => " ++ quoted source
    report p (str "failed to create " ++ str (if l.symbolic then "symbolic" else "hard") ++
      str " link " ++ quoted target ++ behind ++ str ": " ++ Process.reason fault)
  let node ← if l.symbolic then
      pure (Except.ok (FileNode.link (Chars.toName source)))
    else pure ((← p.entry source).map Prod.snd)
  match node with
  | .error fault =>
    report p (str "failed to access " ++ quoted source ++ str ": " ++ Process.reason fault)
  | .ok .directory => report p (quoted source ++ str ": hard link not allowed for directory")
  | .ok node =>
    match ← destination p false target with
    | .error fault => fail fault
    | .ok (goal, there) =>
      if there = some .directory then
        if l.replaces then report p (quoted target ++ str ": cannot overwrite directory")
        else fail .alreadyExists
      else if there.isSome && !l.replaces then fail .alreadyExists
      else if !l.symbolic && there = some node then
        report p (quoted source ++ str " and " ++ quoted target ++ str " are the same file")
      else if l.symbolic && source.isEmpty then
        report p (str "failed to create symbolic link " ++ quoted target ++ str " -> '': " ++
          Process.reason .notFound)
      else
        placeNode goal node
        if l.isVerbose then
          p.print (quoted target ++ str (if l.symbolic then " -> " else " => ") ++
            quoted source ++ ['\n'])
        return 0

def ln : Tool := fun p => do
  let (given, paths) ← p.options <| .ofLetters "sfnvirTPL" "t"
    [("symbolic", 's', .nothing), ("force", 'f', .nothing), ("verbose", 'v', .nothing),
      ("no-dereference", 'n', .nothing), ("target-directory", 't', .argument),
      ("no-target-directory", 'T', .nothing)] 1
  let has (c : Char) : Bool := Given.has given c
  let l : Linking := { symbolic := has 's', replaces := has 'f', isVerbose := has 'v' }
  let into (directory : Chars) (sources : List Chars) : Act Unit := do
    Process.done (← forEach sources fun source =>
      makeLink p l source (below directory (lastStep source)))
  match Given.last? given 't', paths with
  | _, [] => missingOperand p "file operand"
  | some directory, sources => into directory sources
  | none, [source] =>
    if has 'T' then
      p.failWithHint 1 (str "missing destination file operand after " ++ Chars.quoted source)
    else into ['.'] [source]
  | none, paths =>
    let target := paths.getLastD []
    let isLink := match ← p.entry target with
      | .ok (_, .link _) => true
      | _ => false
    let asFile := has 'T' || (has 'n' && isLink)
    let leads ← isDirectory p target
    match paths.dropLast with
    | [source] =>
      if leads && !asFile then into target [source]
      else Process.done (← makeLink p l source target)
    | sources =>
      if leads then into target sources
      else
        let reason := match ← p.node target with
          | .ok _ => str "Not a directory"
          | .error fault => Process.reason fault
        p.fail 1 (str "target " ++ Chars.quoted target ++ str ": " ++ reason)

def linkTool : Tool := fun p => do
  match p.arguments with
  | [source, target] =>
    Process.done (← makeLink p { symbolic := false, replaces := false, isVerbose := false }
      source target)
  | [] => missingOperand p "operand"
  | [only] => p.failWithHint 1 (str "missing operand after " ++ Chars.quoted only)
  | _ :: _ :: extra :: _ => p.failWithHint 1 (str "extra operand " ++ Chars.quoted extra)

def unlink : Tool := fun p => do
  match p.arguments with
  | [path] =>
    let result ← match ← p.entry path with
      | .error fault => pure (Except.error fault)
      | .ok (place, _) => Machine.changing fun files => files.removeFile place
    match result with
    | .ok () => return
    | .error fault =>
      p.fail 1 (str "cannot unlink " ++ Chars.quoted path ++ str ": " ++ Process.reason fault)
  | [] => missingOperand p "operand"
  | _ :: extra :: _ => p.failWithHint 1 (str "extra operand " ++ Chars.quoted extra)

end ProductLine.Shell.Tool
