/- # Listings — paths taken apart and resolved, and what is in directories

A path is taken apart as a text; to resolve it is to follow all links on its
way.  A listing shows links themselves, except where one is named that leads
to a directory.
-/
import ProductLine.Shell.Builtin.Report
import ProductLine.Shell.Tool.Files

namespace ProductLine.Shell.Tool

/-! ## Paths -/

def basename : Tool := fun p => do
  let (given, names) ← p.options
    { OptionTable.ofLetters "az" "s" [("multiple", 'a', .nothing), ("suffix", 's', .argument),
        ("zero", 'z', .nothing)] 1 with inOrder := true }
  let mark := if Given.has given 'z' then '\x00' else '\n'
  let cut (suffix name : Chars) : Chars :=
    let step := lastStep name
    let shorter := step.take (step.length - suffix.length)
    if suffix.length < step.length && shorter ++ suffix == step then shorter else step
  let isMany := Given.has given 'a' || Given.has given 's'
  match names with
  | [] => missingOperand p "operand"
  | names =>
    if isMany then
      let suffix := (Given.last? given 's').getD []
      p.print (names.flatMap fun name => cut suffix name ++ [mark])
    else
      match names with
      | _ :: _ :: extra :: _ => p.failWithHint 1 (str "extra operand " ++ Chars.quoted extra)
      | [name, suffix] => p.print (cut suffix name ++ [mark])
      | names => p.print (lastStep (names.headD []) ++ [mark])

def dirname : Tool := fun p => do
  let (given, names) ← p.options <| .ofLetters "z" "" [("zero", 'z', .nothing)] 1
  if names.isEmpty then missingOperand p "operand"
  let mark := if Given.has given 'z' then '\x00' else '\n'
  p.print (names.flatMap fun name => withoutLastStep name ++ [mark])

/-- How much of a path there has to be for it to be resolved. -/
inductive Presence where
  | whole
  | directories
  | nothing
deriving DecidableEq

/-- The path without links to where a path leads. -/
def resolved (p : Process) (presence : Presence) (name : Chars) :
    Act (Except FileFault Chars) := do
  match ← p.locate name with
  | .error fault =>
    if presence = .nothing && !name.isEmpty then
      let whole := if name.head? == some '/' then name
        else Process.pathOf p.directory ++ '/' :: name
      return .ok (Sh.plainPath whole)
    else return .error fault
  | .ok place =>
    if presence = .whole && ((← get).files.node? place).isNone then return .error .notFound
    else return .ok (Process.pathOf place)

/-- Prints the paths without links to where paths lead. -/
def printResolved (p : Process) (presence : Presence) (silent : Bool) (mark : Chars)
    (names : List Chars) : Act Unit := do
  let status ← forEach names fun name => do
    match ← resolved p presence name with
    | .ok path =>
      p.print (path ++ mark)
      return 0
    | .error fault => if silent then return 1 else report p (Process.faultOf name fault)
  Process.done status

/-- What the letters of options say about the presence of paths. -/
def presenceOf (given : List Given) : Presence :=
  match Given.lastOf? given "efEm" with
  | some 'e' => .whole
  | some 'm' => .nothing
  | _ => .directories

def realpath : Tool := fun p => do
  let (given, names) ← p.options <| .ofLetters "eELmPqsz" ""
    [("canonicalize-existing", 'e', .nothing), ("canonicalize-missing", 'm', .nothing),
      ("no-symlinks", 's', .nothing), ("strip", 's', .nothing), ("quiet", 'q', .nothing),
      ("zero", 'z', .nothing)] 1
  if names.isEmpty then missingOperand p "operand"
  printResolved p (presenceOf given) (Given.has given 'q')
    (if Given.has given 'z' then ['\x00'] else ['\n']) names

def readlink : Tool := fun p => do
  let (given, names) ← p.options <| .ofLetters "efmnqsvz" ""
    [("canonicalize", 'f', .nothing), ("canonicalize-existing", 'e', .nothing),
      ("canonicalize-missing", 'm', .nothing), ("no-newline", 'n', .nothing),
      ("verbose", 'v', .nothing), ("zero", 'z', .nothing)] 1
  if names.isEmpty then missingOperand p "operand"
  let isVerbose := Given.lastOf? given "qsv" == some 'v'
  let mark := if Given.has given 'n' && names.length == 1 then []
    else if Given.has given 'z' then ['\x00'] else ['\n']
  match Given.lastOf? given "efm" with
  | some _ => printResolved p (presenceOf given) (!isVerbose) mark names
  | none =>
    let status ← forEach names fun name => do
      match ← p.entry name with
      | .ok (_, .link target) =>
        p.print (Chars.ofString target ++ mark)
        return 0
      | .ok _ =>
        if isVerbose then report p (Process.faultOf name .invalidArgument) else return 1
      | .error fault => if isVerbose then report p (Process.faultOf name fault) else return 1
    Process.done status

def pwd : Tool := fun p => p.print (Process.pathOf p.directory ++ ['\n'])

/-! ## Listing -/

/-- How `ls` lists. -/
structure Listing where
  all : Bool := false
  almostAll : Bool := false
  itself : Bool := false
  recursive : Bool := false
  reversed : Bool := false
  bySize : Bool := false
  marks : Option Char := none
  commas : Bool := false
  long : Bool := false

def Listing.mark (l : Listing) (files : FileTree) (place : Location) : Chars :=
  match l.marks, files.node? place with
  | some _, some .directory => ['/']
  | some 'F', some (.file number) => if files.isRunnable number then ['*'] else []
  | some 'F', some (.link _) => if l.long then [] else ['@']
  | _, _ => []

def kindLetter : FileNode → Char
  | .file _ => '-'
  | .directory => 'd'
  | .link _ => 'l'
  | .device _ => 'c'

def nodeMode (files : FileTree) : FileNode → Nat
  | .file number => files.mode number
  | .directory => 493
  | .link _ => 511
  | .device _ => 438

def nodeSize (files : FileTree) : FileNode → Nat
  | .file number => files.size number
  | .directory => 4096
  | .link target => target.utf8ByteSize
  | .device _ => 0

def nodeNames (files : FileTree) (place : Location) : FileNode → Nat
  | .file number => files.nameCount number
  | .directory =>
    2 + (files.namesIn place).countP fun name => files.node? (place ++ [name]) == some .directory
  | _ => 1

def Listing.line (l : Listing) (files : FileTree) (name : Chars) (place : Location) : Chars :=
  let shown := name ++ l.mark files place
  if !l.long then shown
  else
    match files.node? place with
    | some node =>
      let target := match node with
        | .link target => str " -> " ++ Chars.ofString target
        | _ => []
      kindLetter node :: rightsOf (nodeMode files node) ++ ' ' ::
        Chars.ofNat (nodeNames files place node) ++ str " root root " ++
        Chars.ofNat (nodeSize files node) ++ str " Jan  1 00:00 " ++ shown ++ target
    | none => shown

def Listing.sorted (l : Listing) (files : FileTree) (entries : List (Chars × Location)) :
    List (Chars × Location) :=
  let size (place : Location) : Nat := ((files.node? place).map (nodeSize files)).getD 0
  let byName := entries.mergeSort fun a b => Chars.le a.1 b.1
  let sorted := if l.bySize then byName.mergeSort fun a b => size b.2 ≤ size a.2 else byName
  if l.reversed then sorted.reverse else sorted

def Listing.text (l : Listing) (files : FileTree) (entries : List (Chars × Location)) : Chars :=
  let lines := (l.sorted files entries).map fun (name, place) => l.line files name place
  if l.commas then (if lines.isEmpty then [] else (str ", ").intercalate lines ++ ['\n'])
  else Chars.unlines lines

def Listing.entries (l : Listing) (files : FileTree) (place : Location) :
    List (Chars × Location) :=
  let names := ((files.namesIn place).map Chars.ofString).filter fun name =>
    l.all || l.almostAll || name.head? != some '.'
  let own := if l.all then [(['.'], place), (['.', '.'], place.dropLast)] else []
  own ++ names.map fun name => (name, place ++ [Chars.toName name])

def Listing.blocks (l : Listing) (files : FileTree) : (depth : Nat) → Chars → Location →
    List (Chars × Chars)
  | 0, _, _ => []
  | depth + 1, path, place =>
    let entries := l.entries files place
    let total := if l.long then str "total 0\n" else []
    let own := (path, total ++ l.text files entries)
    if !l.recursive then [own]
    else
      let inside := (l.sorted files entries).filter fun (name, place) =>
        name != ['.'] && name != ['.', '.'] && files.node? place == some .directory
      own :: inside.flatMap fun (name, place) => l.blocks files depth (below path name) place

def ls : Tool := fun p => do
  let (given, paths) ← p.options <| .ofLetters "1aAdRrSlpFmCxtUfgGhiknNoqQsucBbLHZX" "wTI"
    [("all", 'a', .nothing), ("almost-all", 'A', .nothing), ("directory", 'd', .nothing),
      ("recursive", 'R', .nothing), ("reverse", 'r', .nothing), ("classify", 'F', .optional),
      ("color", 'G', .optional)] 2
  let has (c : Char) : Bool := Given.has given c
  let l : Listing :=
    { all := has 'a', almostAll := has 'A', itself := has 'd', recursive := has 'R'
      reversed := has 'r', bySize := has 'S', commas := has 'm', long := has 'l'
      marks := if has 'F' then some 'F' else if has 'p' then some 'p' else none }
  let paths := if paths.isEmpty then [['.']] else paths
  let mut status := 0
  let mut plain : List (Chars × Location) := []
  let mut directories : List (Chars × Location) := []
  for path in paths do
    let staysOut := l.itself || l.long || l.marks == some 'F'
    let looked ← match ← p.entry path with
      | .ok (place, .link target) =>
        if staysOut then pure (.ok (place, .link target))
        else
          match ← p.node path with
          | .ok (goal, .directory) => pure (.ok (goal, FileNode.directory))
          | _ => pure (.ok (place, .link target))
      | other => pure other
    match looked with
    | .error fault =>
      p.warn (str "cannot access " ++ Chars.quoted path ++ str ": " ++ Process.reason fault)
      status := 2
    | .ok (place, .directory) =>
      if l.itself then plain := plain ++ [(path, place)]
      else directories := directories ++ [(path, place)]
    | .ok (place, _) => plain := plain ++ [(path, place)]
  let files := (← get).files
  let blocks := (l.sorted files directories).flatMap fun (path, place) =>
    l.blocks files maxDepth path place
  let titled := 1 < paths.length || l.recursive
  let shown := blocks.map fun (path, text) =>
    (if titled then path ++ str ":\n" else []) ++ text
  let first := if plain.isEmpty then [] else [l.text files plain]
  p.print (['\n'].intercalate (first ++ shown))
  Process.done status

def kindText (files : FileTree) : FileNode → String
  | .file number => if files.size number = 0 then "regular empty file" else "regular file"
  | .directory => "directory"
  | .link _ => "symbolic link"
  | .device _ => "character special file"

def statText (files : FileTree) (path : Chars) (place : Location) (node : FileNode) :
    Chars → Chars
  | '%' :: c :: rest =>
    let text := match c with
      | 'n' => path
      | 'N' => Chars.quoted path ++ match node with
        | .link target => str " -> " ++ Chars.quoted (Chars.ofString target)
        | _ => []
      | 's' => Chars.ofNat (nodeSize files node)
      | 'F' => str (kindText files node)
      | 'a' => modeDigits (nodeMode files node)
      | 'A' => kindLetter node :: rightsOf (nodeMode files node)
      | 'h' => Chars.ofNat (nodeNames files place node)
      | 'u' | 'g' => ['0']
      | 'U' | 'G' => str "root"
      | '%' => ['%']
      | c => ['?', c]
    text ++ statText files path place node rest
  | '\\' :: 'n' :: rest => '\n' :: statText files path place node rest
  | '\\' :: 't' :: rest => '\t' :: statText files path place node rest
  | c :: rest => c :: statText files path place node rest
  | [] => []

/-- The program `stat`, of which only the format is of use. -/
def stat : Tool := fun p => do
  let (given, paths) ← p.options <| .ofLetters "Lft" "c" [("format", 'c', .argument),
    ("printf", 'P', .argument), ("dereference", 'L', .nothing)] 1
  if paths.isEmpty then missingOperand p "operand"
  let (format, mark) := match Given.last? given 'P', Given.last? given 'c' with
    | some format, _ => (format, [])
    | none, some format => (format, ['\n'])
    | none, none => (str "%n", ['\n'])
  let status ← forEach paths fun path => do
    match ← Process.nodeBy (Given.has given 'L') p path with
    | .error fault =>
      report p (str "cannot statx " ++ Chars.quoted path ++ str ": " ++ Process.reason fault)
    | .ok (place, node) =>
      p.print (statText (← get).files path place node format ++ mark)
      return 0
  Process.done status

end ProductLine.Shell.Tool
