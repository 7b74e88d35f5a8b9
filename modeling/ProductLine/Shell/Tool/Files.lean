/- # Tools on files — creating, changing and removing them

Paths are taken as they are written; what is done to the tree of files is an
operation of it, and a fault of that is complained about.
-/
import ProductLine.Shell.Tool.Basic
import ProductLine.Shell.Glob

namespace ProductLine.Shell.Tool

def below (directory name : Chars) : Chars :=
  if directory.getLast? == some '/' then directory ++ name else directory ++ '/' :: name

def dropSlashes (path : Chars) : Chars :=
  match (path.reverse.dropWhile (· == '/')).reverse with
  | [] => if path.isEmpty then [] else ['/']
  | shorter => shorter

def lastStep (path : Chars) : Chars :=
  let path := dropSlashes path
  if path == ['/'] then path else (path.reverse.takeWhile (· != '/')).reverse

def withoutLastStep (path : Chars) : Chars :=
  let path := dropSlashes path
  if path == ['/'] then path
  else
    match path.reverse.dropWhile (· != '/') with
    | [] => ['.']
    | front => dropSlashes front.reverse

/-- A fault of a tool, after which it goes on with other paths. -/
def report (p : Process) (text : Chars) : Act Nat := do
  p.warn text
  return 1

/-- Does something with each path; the status is that of the last failure. -/
def forEach (paths : List Chars) (action : Chars → Act Nat) : Act Nat :=
  paths.foldlM (fun status path => do
    let own ← action path
    return if own = 0 then status else own) 0

def missingOperand (p : Process) (what : String) : Act Unit :=
  p.failWithHint 1 (str ("missing " ++ what))

/-! ## Directories -/

def makeDirectory (p : Process) (path : Chars) : Act (Except FileFault Unit) := do
  match ← Process.locateBy false p path with
  | .error fault => return .error fault
  | .ok place => Machine.changing fun files => files.add place .directory

/-- The fronts of a path that end with a step, the shortest first. -/
def fronts (path : Chars) : List Chars :=
  let path := dropSlashes path
  let ends := (List.range (path.length + 1)).filter fun i =>
    0 < i && (i == path.length || path[i]? == some '/') && path[i - 1]? != some '/'
  ends.map path.take

def makeDirectories (p : Process) (isVerbose : Bool) (path : Chars) : Act Nat := do
  let mut status := 0
  for front in fronts path do
    if status = 0 then
      match ← makeDirectory p front with
      | .ok () =>
        if isVerbose then
          p.print (p.name ++ str ": created directory " ++ Chars.quoted front ++ ['\n'])
      | .error fault =>
        let isThere := match ← p.node front with
          | .ok (_, .directory) => true
          | _ => false
        if !isThere then
          status ← report p
            (str "cannot create directory " ++ Chars.quoted front ++ str ": " ++
              Process.reason fault)
  return status

def mkdir : Tool := fun p => do
  let (given, paths) ← p.options <| .ofLetters "pvZ" "m"
    [("parents", 'p', .nothing), ("verbose", 'v', .nothing), ("mode", 'm', .argument)] 1
  if paths.isEmpty then missingOperand p "operand"
  let isVerbose := Given.has given 'v'
  let status ← forEach paths fun path => do
    if Given.has given 'p' then makeDirectories p isVerbose path
    else
      match ← makeDirectory p path with
      | .ok () =>
        if isVerbose then
          p.print (p.name ++ str ": created directory " ++ Chars.quoted path ++ ['\n'])
        return 0
      | .error fault =>
        report p (str "cannot create directory " ++ Chars.quoted path ++ str ": " ++
          Process.reason fault)
  Process.done status

def removeDirectory (p : Process) (path : Chars) : Act (Except FileFault Unit) := do
  match ← p.entry path with
  | .error fault => return .error fault
  | .ok (place, _) =>
    if lastStep path == ['.'] then return .error .invalidArgument
    else Machine.changing fun files => files.removeDirectory place

def rmdir : Tool := fun p => do
  let (given, paths) ← p.options <| .ofLetters "pv" ""
    [("parents", 'p', .nothing), ("verbose", 'v', .nothing),
      ("ignore-fail-on-non-empty", 'I', .nothing)] 1
  if paths.isEmpty then missingOperand p "operand"
  let status ← forEach paths fun path => do
    let all := if Given.has given 'p' then (fronts path).reverse else [path]
    forEach all fun path => do
      match ← removeDirectory p path with
      | .ok () => return 0
      | .error fault =>
        if fault == .notEmpty && Given.has given 'I' then return 0
        else
          report p (str "failed to remove " ++ Chars.quoted path ++ str ": " ++
            Process.reason fault)
  Process.done status

/-! ## Removing -/

def entriesOf (place : Location) : Act (List Chars) := do
  return Chars.sort (((← get).files.namesIn place).map Chars.ofString)

/-- Removes a path and, if that is wanted, what is below it.  `depth` bounds the directories. -/
def removePath (p : Process) (recursive emptyToo forced isVerbose : Bool) :
    (depth : Nat) → Chars → Act Nat
  | 0, _ => return 1
  | depth + 1, path => do
    let fail (fault : FileFault) : Act Nat :=
      report p (str "cannot remove " ++ Chars.quoted path ++ str ": " ++ Process.reason fault)
    let step := lastStep path
    match ← p.entry path with
    | .error fault =>
      if forced && (fault == .notFound || fault == .notADirectory) then return 0
      else fail fault
    | .ok (place, .directory) =>
      if !recursive && !emptyToo then fail .isADirectory
      else if step == ['.'] || step == ['.', '.'] then
        report p (str "refusing to remove '.' or '..' directory: skipping " ++ Chars.quoted path)
      else if place.isEmpty then
        let _ ← report p (str "it is dangerous to operate recursively on '/'")
        report p (str "use --no-preserve-root to override this failsafe")
      else
        let inside ← if recursive then entriesOf place else pure []
        let status ← forEach inside fun name =>
          removePath p recursive emptyToo forced isVerbose depth (below path name)
        match ← Machine.changing fun files => files.removeDirectory place with
        | .ok () =>
          if isVerbose then p.print (str "removed directory " ++ Chars.quoted path ++ ['\n'])
          return status
        | .error fault => if status = 0 then fail fault else return status
    | .ok (place, _) =>
      match ← Machine.changing fun files => files.removeFile place with
      | .ok () =>
        if isVerbose then p.print (str "removed " ++ Chars.quoted path ++ ['\n'])
        return 0
      | .error fault => fail fault

/-- How deep directories may be nested. -/
def maxDepth : Nat := 200

def rm : Tool := fun p => do
  let (given, paths) ← p.options <| .ofLetters "rRfidvI" ""
    [("recursive", 'r', .nothing), ("force", 'f', .nothing), ("dir", 'd', .nothing),
      ("verbose", 'v', .nothing), ("interactive", 'i', .optional)] 1
  let has (c : Char) : Bool := Given.has given c
  if paths.isEmpty then
    if has 'f' then return else missingOperand p "operand"
  let status ← forEach paths
    (removePath p (has 'r' || has 'R') (has 'd') (has 'f') (has 'v') maxDepth)
  Process.done status

/-! ## Changing files in place -/

def touch : Tool := fun p => do
  let (given, paths) ← p.options <| .ofLetters "acfmh" "drt"
    [("no-create", 'c', .nothing), ("date", 'd', .argument), ("reference", 'r', .argument)] 1
  if paths.isEmpty then missingOperand p "file operand"
  let status ← forEach paths fun path => do
    match ← p.node path with
    | .ok _ => return 0
    | .error .notFound =>
      if Given.has given 'c' then return 0
      else
        match ← p.openPath path .append with
        | .ok _ => return 0
        | .error fault =>
          report p (str "cannot touch " ++ Chars.quoted path ++ str ": " ++ Process.reason fault)
    | .error fault =>
      report p (str "cannot touch " ++ Chars.quoted path ++ str ": " ++ Process.reason fault)
  Process.done status

/-- The bits of rights that a letter stands for, for all users. -/
def rightBits (isDirectory : Bool) (old : Nat) : Char → Nat
  | 'r' => 292
  | 'w' => 146
  | 'x' => 73
  | 'X' => if isDirectory || old &&& 73 != 0 then 73 else 0
  | _ => 0

def userBits (letters : Chars) : Nat :=
  let bits (c : Char) : Nat := match c with
    | 'u' => 448
    | 'g' => 56
    | 'o' => 7
    | _ => 511
  letters.foldl (fun mask c => mask ||| bits c) 0

/-- What one clause of a mode, such as `go-w`, makes of rights.  A clause that does not say whose
rights it means leaves alone what new files do not get. -/
def modeClause? (text : Chars) : Option (Nat → Nat) :=
  let who := text.takeWhile "ugoa".toList.contains
  match text.drop who.length with
  | op :: rights =>
    if !"+-=".toList.contains op || !rights.all "rwxXst".toList.contains then none
    else
      let mask := if who.isEmpty then 511 - 18 else userBits who
      some fun old =>
        let bits := (rights.foldl (fun bits c => bits ||| rightBits false old c) 0) &&& mask
        if op == '+' then old ||| bits
        else if op == '-' then old &&& (511 - bits)
        else (old &&& (511 - (if who.isEmpty then 511 else mask))) ||| bits
  | [] => none

def modeChange? (mode : Chars) : Option (Nat → Nat) :=
  if !mode.isEmpty && mode.all fun c => '0' ≤ c && c ≤ '7' then
    some fun _ => (Chars.leadingNumber 8 mode 0 0).1 % 512
  else
    (mode.splitOn ',').foldl (fun sofar text =>
      match sofar, modeClause? text with
      | some f, some g => some fun old => g (f old)
      | _, _ => none) (some fun old => old)

def rightsOf (mode : Nat) : Chars :=
  "rwxrwxrwx".toList.zipIdx.map fun (c, i) => if mode.testBit (8 - i) then c else '-'

def modeDigits (mode : Nat) : Chars := Nat.toDigits 8 mode

/-- Changes the rights of what is at a path.  `depth` bounds the directories. -/
def changeMode (p : Process) (recursive isVerbose : Bool) (change : Nat → Nat) :
    (depth : Nat) → Chars → Act Nat
  | 0, _ => return 1
  | depth + 1, path => do
    match ← p.node path with
    | .error fault =>
      report p (str "cannot access " ++ Chars.quoted path ++ str ": " ++ Process.reason fault)
    | .ok (_, .file number) =>
      let old := (← get).files.mode number
      let new := change old
      modify fun m => { m with files := m.files.setMode number new }
      let shown (mode : Nat) : Chars :=
        List.replicate (4 - (modeDigits mode).length) '0' ++ modeDigits mode ++ str " (" ++
          rightsOf mode ++ [')']
      if isVerbose then
        p.print (if old = new then
            str "mode of " ++ Chars.quoted path ++ str " retained as " ++ shown old ++ ['\n']
          else
            str "mode of " ++ Chars.quoted path ++ str " changed from " ++ shown old ++
              str " to " ++ shown new ++ ['\n'])
      return 0
    | .ok (place, .directory) =>
      if recursive then
        forEach (← entriesOf place) fun name =>
          changeMode p recursive isVerbose change depth (below path name)
      else return 0
    | .ok _ => return 0

def chmod : Tool := fun p => do
  let isMode (word : Chars) : Bool :=
    word.head? == some '-' && 1 < word.length && (word.drop 1).all "rwxXst,+=".toList.contains
  let words := p.arguments
  let options := words.filter fun w => w.head? == some '-' && 1 < w.length && !isMode w
  let others := words.filter fun w => !options.contains w
  let recursive := options.contains (str "-R") || options.contains (str "--recursive")
  let isVerbose := options.contains (str "-v") || options.contains (str "--verbose")
  match others with
  | [] => missingOperand p "operand"
  | [mode] => p.failWithHint 1 (str "missing operand after " ++ Chars.quoted mode)
  | mode :: paths =>
    match modeChange? mode with
    | none => p.failWithHint 1 (str "invalid mode: " ++ Chars.quoted mode)
    | some change =>
      Process.done (← forEach paths (changeMode p recursive isVerbose change maxDepth))

def truncate : Tool := fun p => do
  let (given, paths) ← p.options <| .ofLetters "co" "sr" [("size", 's', .argument)] 1
  match (Given.last? given 's').map fun text => (text.head?, sizeArgument? (text.dropWhile
      fun c => c == '+' || c == '-')) with
  | some (sign, some size) =>
    let status ← forEach paths fun path => do
      match ← p.openPath path .append with
      | .error fault =>
        report p (str "cannot open " ++ Chars.quoted path ++ str " for writing: " ++
          Process.reason fault)
      | .ok _ =>
        match ← p.node path with
        | .ok (_, .file number) =>
          let old := (← get).files.size number
          let goal := if sign == some '+' then old + size
            else if sign == some '-' then old - size else size
          Machine.modifyFile number fun bytes =>
            bytes.extract 0 goal ++ ⟨Array.replicate (goal - old) 0⟩
          return 0
        | _ => return 0
    Process.done status
  | _ => p.failWithHint 1 (str "you must specify either '--size' or '--reference'")

def mktemp : Tool := fun p => do
  let (given, words) ← p.options <| .ofLetters "dqut" "p"
    [("directory", 'd', .nothing), ("dry-run", 'u', .nothing), ("tmpdir", 'p', .optional),
      ("suffix", 'S', .argument)] 1
  let template := words.headD (str "tmp.XXXXXXXXXX")
  let suffix := (Given.last? given 'S').getD []
  let marks := (template.reverse.takeWhile (· == 'X')).length
  if marks < 3 then p.fail 1 (str "too few X's in template " ++ Chars.quoted template)
  let serial := Chars.ofNat (← Machine.newSerial)
  let name := template.take (template.length - marks) ++
    List.replicate (marks - serial.length) 'a' ++ serial.take marks ++ suffix
  let directory := ((Given.last? given 'p').or (p.setting? "TMPDIR")).getD (str "/tmp")
  let inDirectory := words.isEmpty || Given.has given 'p' || Given.has given 't'
  let path := if inDirectory then below directory name else name
  if !Given.has given 'u' then
    let created : Act (Except FileFault Unit) := do
      match ← p.openPath path .create with
      | .error fault => return .error fault
      | .ok _ =>
        match ← p.node path with
        | .ok (_, .file number) =>
          modify fun m => { m with files := m.files.setMode number 384 }
        | _ => pure ()
        return .ok ()
    let made ← if Given.has given 'd' then makeDirectory p path else created
    match made with
    | .ok () => pure ()
    | .error fault =>
      let what := if Given.has given 'd' then "directory" else "file"
      p.fail 1 (str ("failed to create " ++ what ++ " via template ") ++
        Chars.quoted (if inDirectory then below directory template else template) ++ str ": " ++
        Process.reason fault)
  p.print (path ++ ['\n'])

end ProductLine.Shell.Tool
