/- # The host — programs beside a tree of files

The host is a system with the usual directories and programs.  It starts a
program in the working directory of a tree; what the program does to files
remains in the tree.  Time passes only where programs wait, and a program
that comes to no end is stopped when its steps are used up.
-/
import ProductLine.Engine.Host
import ProductLine.Shell.Programs

namespace ProductLine.Shell

/-! ## The system -/

def systemDirectories : List Location :=
  [["boot"], ["dev"], ["etc"], ["etc", "alternatives"], ["home"],
    ["media"], ["mnt"], ["opt"], ["root"], ["run"], ["srv"], ["sys"], ["tmp"], ["usr"],
    ["usr", "bin"], ["usr", "sbin"], ["usr", "lib"], ["usr", "lib64"], ["usr", "include"],
    ["usr", "share"], ["usr", "src"], ["usr", "games"], ["usr", "local"], ["usr", "local", "bin"],
    ["usr", "local", "sbin"], ["usr", "local", "lib"], ["var"], ["var", "tmp"], ["var", "log"],
    ["var", "lib"], ["var", "cache"]]

def systemLinks : List (Location × String) :=
  [(["bin"], "usr/bin"), (["sbin"], "usr/sbin"), (["lib"], "usr/lib"), (["lib64"], "usr/lib64"),
    (["var", "run"], "/run"), (["var", "lock"], "/run/lock"), (["usr", "bin", "sh"], "dash"),
    (["usr", "bin", "awk"], "/etc/alternatives/awk"),
    (["usr", "bin", "nawk"], "/etc/alternatives/nawk"),
    (["etc", "alternatives", "awk"], "/usr/bin/mawk"),
    (["etc", "alternatives", "nawk"], "/usr/bin/mawk")]

def systemDevices : List (Location × Device) :=
  [(["dev", "zero"], .zeros), (["dev", "full"], .full), (["dev", "random"], .noise),
    (["dev", "urandom"], .noise), (["dev", "tty"], .missing)]

def passwords : String :=
  String.join (List.map (· ++ "\n")
    ["root:x:0:0:root:/root:/bin/bash", "daemon:x:1:1:daemon:/usr/sbin:/usr/sbin/nologin",
      "bin:x:2:2:bin:/bin:/usr/sbin/nologin", "sys:x:3:3:sys:/dev:/usr/sbin/nologin",
      "sync:x:4:65534:sync:/bin:/bin/sync", "games:x:5:60:games:/usr/games:/usr/sbin/nologin",
      "man:x:6:12:man:/var/cache/man:/usr/sbin/nologin",
      "lp:x:7:7:lp:/var/spool/lpd:/usr/sbin/nologin",
      "mail:x:8:8:mail:/var/mail:/usr/sbin/nologin",
      "news:x:9:9:news:/var/spool/news:/usr/sbin/nologin",
      "uucp:x:10:10:uucp:/var/spool/uucp:/usr/sbin/nologin",
      "proxy:x:13:13:proxy:/bin:/usr/sbin/nologin",
      "www-data:x:33:33:www-data:/var/www:/usr/sbin/nologin",
      "backup:x:34:34:backup:/var/backups:/usr/sbin/nologin",
      "list:x:38:38:Mailing List Manager:/var/list:/usr/sbin/nologin",
      "irc:x:39:39:ircd:/run/ircd:/usr/sbin/nologin",
      "_apt:x:42:65534::/nonexistent:/usr/sbin/nologin",
      "nobody:x:65534:65534:nobody:/nonexistent:/usr/sbin/nologin"])

def groups : String :=
  String.join ((List.map fun (name, number) => name ++ ":x:" ++ toString number ++ ":\n")
    [("root", 0), ("daemon", 1), ("bin", 2), ("sys", 3), ("adm", 4), ("tty", 5), ("disk", 6),
      ("lp", 7), ("mail", 8), ("news", 9), ("uucp", 10), ("man", 12), ("proxy", 13),
      ("kmem", 15), ("dialout", 20), ("fax", 21), ("voice", 22), ("cdrom", 24), ("floppy", 25),
      ("tape", 26), ("sudo", 27), ("audio", 29), ("dip", 30), ("www-data", 33), ("backup", 34),
      ("operator", 37), ("list", 38), ("irc", 39), ("src", 40), ("shadow", 42), ("utmp", 43),
      ("video", 44), ("sasl", 45), ("plugdev", 46), ("staff", 50), ("games", 60),
      ("users", 100), ("nogroup", 65534)])

def systemTexts : List (Location × String) :=
  [(["etc", "passwd"], passwords), (["etc", "group"], groups),
    (["etc", "hosts"], "127.0.0.1\tlocalhost\n"), (["etc", "hostname"], "localhost\n"),
    (["etc", "shells"], "/bin/sh\n/usr/bin/sh\n/bin/bash\n/usr/bin/bash\n/bin/dash\n")]

def programDirectory : Location := ["usr", "bin"]

/-- The rights of a file that may be run. -/
def runnableMode : Nat := 493

def systemFiles : List (Location × StoredFile) :=
  systemTexts.map (fun (place, text) =>
    (place, { content := FileTree.bytesOf (Text.encode text.toList) })) ++
  programNames.map fun program =>
    (programDirectory ++ [program],
      { content := Chars.appendTo .empty program.image, mode := runnableMode })

def addMissing (t : FileTree) (entry : Location × StoredFile) : FileTree :=
  if (t.entries.lookup entry.1).isSome then t
  else
    { t with
      entries := t.entries ++ [(entry.1, .file t.stored.size)]
      stored := t.stored.push entry.2 }

/-- A tree with the directories, files and programs of a system, where it has nothing in their
place. -/
def installSystem (t : FileTree) : FileTree :=
  let nodes : List (Location × FileNode) :=
    systemDirectories.map (fun place => (place, .directory)) ++
    systemLinks.map (fun (place, target) => (place, .link target)) ++
    systemDevices.map (fun (place, d) => (place, .device d))
  let missing := nodes.filter fun entry => (t.entries.lookup entry.1).isNone
  systemFiles.foldl addMissing { t with entries := t.entries ++ missing }

def freshSystem : FileTree := installSystem .fresh

/-! ## Running -/

/-- The environment of the host, besides what a program is given. -/
def hostEnvironment : List (Chars × Chars) :=
  [(str "PATH", Sh.standardSearchPath), (str "HOME", str "/root")]

/-- The steps after which a program is taken to come to no end. -/
def hostSteps : Nat := 40000000

/-- How deep commands and programs may be nested. -/
def hostDepth : Nat := 30000

/-- The program that a process starts with, and its words.  A file without a format that the system
knows cannot be started. -/
def startable (p : Process) : Act (Except FileFault (Program × List Chars)) := do
  if p.words.any (·.contains '\x00') then return .error .zeroByteInWords
  else
    match ← p.search with
    | .error fault => return .error fault
    | .ok (_, some loaded) => return .ok loaded
    | .ok (_, none) => return .error .notRunnable

def stopSignal : Nat := 9

/-- The elapsed time of a program that comes to no end. -/
def forever (patience : Duration) : Duration := ⟨patience.micros + 1⟩

/-- What a program has printed into a pipe, and until when the pipe stays open. -/
def printed (m : Machine) (pipe : Nat) : List UInt8 × Nat :=
  let p := (m.pipes[pipe]?).getD {}
  (Chars.toBytes p.content, p.readyAt)

/-- The machine on which a program starts: its input, its output and its errors are pipes. -/
def startingMachine (invocation : Invocation) (files : FileTree) : Machine :=
  { files := files
    openings := #[{ target := .pipe 0, readable := true, writable := false },
      { target := .pipe 1, readable := false, writable := true },
      { target := .pipe 2, readable := false, writable := true }]
    pipes := #[{ unread := Chars.ofBytes invocation.input }, {}, {}]
    deadline := invocation.patience.micros
    steps := hostSteps }

def startingProcess (invocation : Invocation) (files : FileTree) : Process :=
  { words := (invocation.program :: invocation.arguments).map Chars.ofString
    environment := hostEnvironment ++ invocation.environment.map fun (name, value) =>
      (Chars.ofString name, Chars.ofString value)
    streams := [(0, 0), (1, 1), (2, 2)]
    directory := files.workingDirectory }

/-- What a program leaves behind on a machine, when it has ended.  Its outputs are not complete
before all who may write to them have ended. -/
def executionOf (patience : Duration) (ending : Ending) (m : Machine) : Execution :=
  let (output, outputEnd) := printed m 1
  let (errors, errorsEnd) := printed m 2
  let ended : Duration := ⟨max m.micros (max outputEnd errorsEnd)⟩
  match ending with
  | .exited code => ⟨output, errors, .exited (code % 256), ended⟩
  | .signaled signal => ⟨output, errors, .signaled signal, ended⟩
  | .endless _ => ⟨output, errors, .signaled stopSignal, forever patience⟩

/-- Runs a program on a machine with a tree of files: what it leaves behind, and the files.  Without
any patience a program is stopped before it has done anything. -/
def execute (invocation : Invocation) (files : FileTree) :
    Except ProgramFault Execution × FileTree :=
  let process := startingProcess invocation files
  match (startable process).run.run (startingMachine invocation files) with
  | (.error _, _) => (.error (.unstarted .notFound), files)
  | (.ok (.error fault), _) => (.error (.unstarted fault), files)
  | (.ok (.ok (program, words)), machine) =>
    if invocation.patience.micros = 0 then
      (.ok (executionOf invocation.patience (.endless false) machine), files)
    else
      let (result, machine) :=
        ((level hostDepth).start program { process with words := words }).run.run machine
      let ending : Ending := match result with
        | .ok () => .exited 0
        | .error ending => ending
      (.ok (executionOf invocation.patience ending machine),
        { machine.files with workingDirectory := files.workingDirectory })

/-- The host beside a tree of files, which is changed by what programs do. -/
def host : Host (StateM FileTree) where
  run invocation := fun files => execute invocation files

end ProductLine.Shell
