/- # Redirections — which streams a command has

A redirection opens a file, makes one stream lead where another one does, or
closes it.  Redirections act from left to right; one that fails says so, and
the command is not run.
-/
import ProductLine.Shell.Expansion

namespace ProductLine.Shell.Sh

def setStream (n opening : Nat) : Sh Unit :=
  modifySession fun s => { s with streams := (n, opening) :: s.streams.filter (·.1 ≠ n) }

def closeStream (n : Nat) : Sh Unit :=
  modifySession fun s => { s with streams := s.streams.filter (·.1 ≠ n) }

def linkMode : FileLink → OpenMode
  | .read => .read
  | .write | .clobber => .write
  | .append => .append
  | .readWrite => .both

def openFault (extended : Bool) (link : FileLink) (path : Chars) (fault : FileFault) : Chars :=
  if extended then path ++ str ": " ++ fault.reason.toList
  else
    let isMissing := fault == .notFound || fault == .notADirectory
    if link == .read then
      str "cannot open " ++ path ++ str ": " ++
        (if isMissing then str "No such file" else fault.reason.toList)
    else
      str "cannot create " ++ path ++ str ": " ++
        (if isMissing then str "Directory nonexistent" else fault.reason.toList)

def isProtected (link : FileLink) (path : Chars) : Sh Bool := do
  if link == .write && (← hasOption "noclobber") then
    let p := (← session).process []
    match ← lift (.error .notFound) (p.node path) with
    | .ok (_, .file _) => return true
    | _ => return false
  else return false

def openStream (n : Nat) (link : FileLink) (path : Chars) : Sh Bool := do
  let s ← session
  if ← isProtected link path then
    warn (if s.extended then path ++ str ": cannot overwrite existing file"
      else openFault false link path .alreadyExists)
    return false
  else
    match ← lift (.error .notFound) ((s.process []).openPath path (linkMode link)) with
    | .ok opening =>
      setStream n opening
      return true
    | .error fault =>
      warn (openFault s.extended link path fault)
      return false

/-- Lets a stream lead where the one of another number does. -/
def copyStream (n source : Nat) : Sh Bool := do
  match (← session).streams.lookup source with
  | some opening =>
    setStream n opening
    return true
  | none =>
    warn (Chars.ofNat source ++ str ": Bad file descriptor")
    return false

/-- The text that a redirection's word stands for; it has to be one field in the extended
dialect. -/
def targetText (c : Capturing) (w : Word) : Sh (Option Chars) := do
  if ← isExtended then
    match ← expandWords c [w] with
    | [text] => return some text
    | _ =>
      warn (w.flatMap (fun
        | .text _ s => s
        | .parameter _ name _ _ => '$' :: name
        | _ => []) ++ str ": ambiguous redirect")
      return none
  else return some (← expandText c w)

/-- Lets the output and the errors lead to a file. -/
def openBoth (link : FileLink) (path : Chars) : Sh Bool := do
  if ← openStream 1 link path then copyStream 2 1 else return false

/-- Makes one stream a copy of another one, or closes it. -/
def duplicate (n : Nat) (text : Chars) : Sh Bool := do
  let extended ← isExtended
  if text == ['-'] then
    closeStream n
    return true
  else if !text.isEmpty && text.all Char.isDigit && (extended || text.length == 1) then
    copyStream n (Chars.digitsValue text)
  else if text.getLast? == some '-' && (text.dropLast).all Char.isDigit then
    let source := Chars.digitsValue text.dropLast
    let copied ← copyStream n source
    if copied then closeStream source
    return copied
  else if n = 1 then openBoth .write text
  else
    warn (text ++ str ": ambiguous redirect")
    return false

def documentText (c : Capturing) (number : Nat) : Sh Chars := do
  expandText c (((← session).documents.lookup number).getD [])

/-- Carries out a redirection of a stream with a number of its own. -/
def redirectPlain (c : Capturing) : Redirection → Sh Bool
  | .file n link target => do
    match ← targetText c target with
    | some path => openStream n link path
    | none => return false
  | .duplicate n target => do
    match ← targetText c target with
    | some text => duplicate n text
    | none => return false
  | .document n number => do
    let text ← documentText c number
    setStream n (← lift 0 (Machine.addText text))
    return true
  | .string n word => do
    let text ← expandText c word
    setStream n (← lift 0 (Machine.addText (text ++ ['\n'])))
    return true
  | .outputAndErrors appends target => do
    match ← targetText c target with
    | some path => openBoth (if appends then .append else .write) path
    | none => return false
  | .named .. => return false

def freeStream : Sh Nat := do
  let taken := (← session).streams.map Prod.fst
  let numbers := (List.range (taken.length + 1)).map (· + 10)
  return (numbers.find? fun n => !taken.contains n).getD 10

def redirectOne (c : Capturing) : Redirection → Sh Bool
  | .named name (.duplicate _ [.text _ ['-']]) => do
    closeStream (Chars.digitsValue (((← session).value? name).getD []))
    return true
  | .named name r => do
    let n ← freeStream
    if ← redirectPlain c (r.onStream n) then
      assign name (Chars.ofNat n)
      return true
    else return false
  | r => redirectPlain c r

/-- Carries out redirections until one of them fails. -/
def redirectAll (c : Capturing) : List Redirection → Sh Bool
  | [] => return true
  | r :: rest => do
    if ← redirectOne c r then redirectAll c rest else return false

def settled (c : Capturing) : Redirection → Sh Redirection
  | .file n link target => do
    return .file n link [.text true (← expandText c target)]
  | .duplicate n target => do
    let text ← expandText c target
    if text != ['-'] && !(text.length == 1 && text.all Char.isDigit) then
      fail (str "Syntax error: Bad fd number")
    return .duplicate n [.text true text]
  | r => return r

/-- Carries out redirections until one of them fails.  In the basic dialect all targets are expanded
first, and a fault in the text of a document is a failure like any other. -/
def redirect (c : Capturing) (redirections : List Redirection) : Sh Bool := do
  if ← isExtended then redirectAll c redirections
  else
    let redirections ← redirections.mapM (settled c)
    try redirectAll c redirections
    catch stop => if stop == .fault then return false else throw stop

def restoreStreams (streams : List (Nat × Nat)) : Sh Unit :=
  modifySession fun s => { s with streams := streams }

end ProductLine.Shell.Sh
