/- # Programs — every program of the system by its name

A program is a tool that works alone, a tool that starts others, or a shell.
Programs inside of programs run on levels: each level runs the commands of
the one above it, and below the last one there is no room on the stack.
-/
import ProductLine.Shell.Start
import ProductLine.Shell.Tool.Record.Run
import ProductLine.Shell.Tool.Blocks
import ProductLine.Shell.Tool.Compare
import ProductLine.Shell.Tool.Digest
import ProductLine.Shell.Tool.Dump
import ProductLine.Shell.Tool.Exchange
import ProductLine.Shell.Tool.Fields
import ProductLine.Shell.Tool.Grep
import ProductLine.Shell.Tool.Launchers
import ProductLine.Shell.Tool.Lines
import ProductLine.Shell.Tool.Editing.Run
import ProductLine.Shell.Tool.Sort
import ProductLine.Shell.Tool.Transfer
import ProductLine.Shell.Tool.Values

namespace ProductLine.Shell

namespace Tool

def saying (line : String) : Tool := fun p => p.print (str line ++ ['\n'])

def ending (code : Nat) : Tool := fun _ => Process.done code

/-- The program `tty`, on a system without terminals. -/
def tty : Tool := fun p => do
  p.print (str "not a tty\n")
  Process.done 1

def alone : List (Program × Tool) :=
  [("true", ending 0), ("false", ending 1), ("sync", ending 0),
    ("echo", echo), ("printf", printf), ("test", test), ("[", test), ("expr", expr), ("seq", seq),
    ("factor", factor), ("date", date), ("uname", uname), ("id", id), ("printenv", printenv),
    ("which", which), ("whoami", saying "root"), ("logname", saying "root"),
    ("hostname", saying "localhost"), ("arch", saying "x86_64"), ("nproc", saying "1"),
    ("tty", tty),
    ("cat", cat), ("tac", tac), ("rev", rev), ("tee", tee), ("head", head), ("tail", tail),
    ("nl", nl), ("fold", fold), ("expand", expand), ("unexpand", unexpand), ("yes", yes),
    ("wc", wc), ("cut", cut), ("paste", paste), ("join", join),
    ("sort", sort), ("uniq", uniq), ("comm", comm), ("tr", tr),
    ("grep", grep 'G'), ("egrep", grep 'E'), ("fgrep", grep 'F'),
    ("mkdir", mkdir), ("rmdir", rmdir), ("rm", rm), ("cp", cp), ("mv", mv), ("ln", ln),
    ("link", linkTool), ("unlink", unlink),
    ("touch", touch), ("chmod", chmod), ("chown", ending 0), ("chgrp", ending 0),
    ("truncate", truncate), ("mktemp", mktemp), ("basename", basename), ("dirname", dirname),
    ("realpath", realpath), ("readlink", readlink), ("pwd", pwd), ("ls", ls), ("stat", stat),
    ("sleep", sleep), ("groups", saying "root"), ("od", od), ("dd", dd), ("split", split),
    ("cmp", cmp), ("diff", diff)] ++ digesters

def starting : List (Program × (Start → Tool)) :=
  [("env", env), ("timeout", timeout), ("xargs", xargs), ("find", find), ("nice", nice),
    ("awk", awk), ("mawk", awk), ("nawk", awk), ("sed", sed), ("nohup", wrapper "" "" []),
    ("setsid", wrapper "cfw" "" []), ("stdbuf", wrapper "" "ioe" [("input", 'i', .argument), ("output", 'o', .argument),
      ("error", 'e', .argument)])]

end Tool

/-- The shells, and whether their dialect is the extended one. -/
def shells : List (Program × Bool) :=
  [("sh", false), ("dash", false), ("bash", true)]

def programNames : List Program :=
  shells.map Prod.fst ++ Tool.starting.map Prod.fst ++ Tool.alone.map Prod.fst

def runProgram (below : Level) (program : Program) : Tool :=
  match shells.lookup program with
  | some extended => runShell below extended
  | none =>
    match Tool.starting.lookup program with
    | some tool => tool below.start
    | none => (Tool.alone.lookup program).getD (Tool.ending 127)

def memorySignal : Nat := 11

def level : Nat → Level
  | 0 =>
    { run := fun _ _ => throw (.killed memorySignal)
      start := fun _ _ => throw (.signaled memorySignal) }
  | n + 1 =>
    let below := level n
    { run := Sh.runCommand below, start := runProgram below }

end ProductLine.Shell
