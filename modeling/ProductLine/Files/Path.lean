/- # Paths — the texts that name files

A path is a text; it is shown as it was given.  What it means depends on its
steps, the parts between slashes, of which empty ones say nothing.  A step
`.` stays where it is and `..` goes up; both are kept when a path is walked,
since each is a step that has to be possible.
-/

namespace ProductLine

/-- A path taken apart. -/
structure Route where
  absolute : Bool
  steps : List String
  slashAtEnd : Bool := false
deriving DecidableEq

namespace Route

def ofText (path : String) : Route :=
  let cs := path.toList
  { absolute := cs.head? == some '/'
    steps := ((cs.splitOn '/').filter (!·.isEmpty)).map String.ofList
    slashAtEnd := cs.getLast? == some '/' }

/-- The steps without those that stay where they are.  A relative path keeps one in front. -/
def essentialSteps (r : Route) : List String :=
  match r.absolute, r.steps with
  | false, "." :: rest => "." :: rest.filter (· ≠ ".")
  | _, steps => steps.filter (· ≠ ".")

/-- The route without its last essential step.  There is none to leave out in the empty path and
in the root. -/
def parent? (r : Route) : Option Route :=
  if r.essentialSteps.isEmpty then none
  else some { absolute := r.absolute, steps := r.essentialSteps.dropLast }

/-- The empty path, which leads nowhere. -/
def isEmpty (r : Route) : Bool :=
  !r.absolute && r.steps.isEmpty

def text (r : Route) : String :=
  (if r.absolute then "/" else "") ++ "/".intercalate r.steps

end Route

namespace Path

/-- The last step of a path, unless it goes up or stays where it is. -/
def fileName? (path : String) : Option String :=
  match (Route.ofText path).essentialSteps.getLast? with
  | none | some "." | some ".." => none
  | some name => some name

/-- The name before its last dot; a dot in front is part of the name. -/
def beforeLastDot (name : List Char) : List Char :=
  match name.reverse.dropWhile (· ≠ '.') with
  | [] | [_] => name
  | _ :: front => front.reverse

/-- The file name without its extension; nothing if there is no file name. -/
def fileStem (path : String) : String :=
  match fileName? path with
  | none => ""
  | some name => String.ofList (beforeLastDot name.toList)

/-- The path of `path` below `directory`.  An absolute path is below no directory. -/
def join (directory path : String) : String :=
  if (Route.ofText path).absolute then path
  else if directory.isEmpty || (Route.ofText directory).slashAtEnd then directory ++ path
  else directory ++ "/" ++ path

end Path

end ProductLine
